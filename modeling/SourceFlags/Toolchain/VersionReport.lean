import SourceFlags.Table
import SourceFlags.Text.WordChar
import SourceFlags.Text.Lines

namespace SourceFlags.VersionReport

open Text

-- An option without a value is present, but nothing is known of it.
abbrev Fields := Table (Option String)

def option? (word : Chars) : Option (String × Option String) :=
  let key := word.takeWhile (· != '=')
  let value := (word.dropWhile (· != '=')).tail?
  let name := key.dropWhile (· == '-')
  if name.isEmpty then none else some (String.ofList name, value.map String.ofList)

-- The path of the script may come first.
def optionWords (line : Chars) : List Chars :=
  match words line with
  | w :: ws => if w.head? == some '-' then w :: ws else ws
  | [] => []

def options (line : Chars) : Fields :=
  Table.ofPairs ((optionWords line).filterMap option?)

def configured : Chars := "Configured with:".toList

def labelled? (label line : Chars) : Option String :=
  match after? label line with
  | none => none
  | some rest =>
    let value := (trimStart rest).takeWhile (!isBlank ·)
    if (rest.head?.all (!isBlank ·)) || value.isEmpty then none else some (String.ofList value)

-- All after a label and blanks. Where there are only blanks, the last of them is the value.
def rest? (label line : Chars) : Option String :=
  match after? label line with
  | none => none
  | some rest =>
    if rest.head?.all (!isBlank ·) then none
    else
      let value := trim rest
      if !value.isEmpty then some (String.ofList value)
      else if rest.length < 2 then none
      else some (String.ofList (rest.drop (rest.length - 1)))

def versionLabels : List Chars :=
  ["gcc", "clang"].flatMap fun name =>
    [" version", " Version", "-version", "-Version"].map fun s => (name ++ s).toList

def versionFrom (afterWord : Bool) : Chars → Option String
  | [] => none
  | c :: cs =>
    let found := if afterWord then none else versionLabels.findSome? (labelled? · (c :: cs))
    match found with
    | some v => some v
    | none => versionFrom (isWordChar c) cs

inductive Line
  | options (fs : Fields)
  | field (name value : String)
  | other

def classify (line : Chars) : Line :=
  match afterFirst? configured line with
  | some rest => .options (options rest)
  | none =>
    match versionFrom false line with
    | some v => .field "version" v
    | none =>
      match labelled? "Target:".toList line with
      | some v => .field "target" v
      | none =>
        match labelled? "Thread model:".toList line with
        | some v => .field "thread_model" v
        | none =>
          match rest? "InstalledDir:".toList line with
          | some v => .field "installed_dir" v
          | none => .other

def optionsOf : Line → Fields
  | .options fs => fs
  | _ => []

def fieldOf : Line → Fields
  | .field name value => [(name, some value)]
  | _ => []

-- Fields with lines of their own win over options of the same name.
def read (output : String) : Fields :=
  let found := (lines output.toList).map classify
  let configured := Table.ofPairs (found.flatMap optionsOf)
  configured.overlay (Table.ofPairs (found.flatMap fieldOf))

end SourceFlags.VersionReport
