import SourceFlags.Text.Lines

namespace SourceFlags

open Text

-- The whole match and then its groups; a group need not take part.
abbrev Groups := List (Option Chars)

structure Pattern where
  text : String
  search : String → Option Groups

namespace Pattern

def inSketchbook (line : Chars) : Option Groups :=
  match after? "sketchbook.path=".toList line with
  | some (c :: cs) => some [some line, some (c :: cs)]
  | _ => none

def inSetting (line : Chars) : Option Groups :=
  let isNamePart := fun (c : Char) => c.isLower || c == '.'
  match line.takeWhile isNamePart, line.dropWhile isNamePart with
  | n :: ns, '=' :: c :: cs => some [some line, some (n :: ns), some (c :: cs)]
  | _, _ => none

def inRootLabel : Chars → Option Groups
  | [] => none
  | c :: cs =>
    match after? "root:".toList (c :: cs) with
    | none => inRootLabel cs
    | some rest =>
      let spaces := rest.takeWhile (· == ' ')
      let word := (rest.drop spaces.length).takeWhile (!isBlank ·)
      if word.isEmpty then inRootLabel cs
      else some [some ("root:".toList ++ spaces ++ word), some word]

def inDirectoryOrNone (line : Chars) : Option Groups :=
  if line = "alt".toList then some [some line, none]
  else
    match after? "dir=".toList line with
    | some (c :: cs) =>
      if (c :: cs).all (!isBlank ·) then some [some line, some (c :: cs)] else none
    | _ => none

-- A pattern of single lines. Its first match is in the first line that it matches.
def ofLines (text : String) (inLine : Chars → Option Groups) : Pattern where
  text := text
  search content := (feedLines content.toList).findSome? inLine

def sketchbook : Pattern :=
  ofLines "^sketchbook\\.path=(.+)$" inSketchbook

def setting : Pattern :=
  ofLines "^([a-z.]+)=(.+)$" inSetting

def rootLabel : Pattern :=
  ofLines "root: *(\\S+)" inRootLabel

def directoryOrNone : Pattern :=
  ofLines "^(?:dir=(\\S+)|alt)$" inDirectoryOrNone

def all : List Pattern :=
  [sketchbook, setting, rootLabel, directoryOrNone]

def ofText? (s : String) : Option Pattern :=
  all.find? (·.text == s)

end Pattern
end SourceFlags
