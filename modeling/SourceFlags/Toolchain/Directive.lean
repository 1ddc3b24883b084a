import SourceFlags.Text.Lines

namespace SourceFlags.Directive

open Text

def opens (c : Char) : Bool :=
  c == '<' || c == '"'

def closes (c : Char) : Bool :=
  c == '>' || c == '"'

-- A header's name with the signs around it; the two signs need not match.
def header? (cs : Chars) : Option Chars :=
  match cs with
  | [] => none
  | c :: rest =>
    let name := rest.takeWhile (!closes ·)
    match rest.dropWhile (!closes ·) with
    | d :: _ => if opens c && !name.isEmpty then some (c :: name ++ [d]) else none
    | [] => none

def directive? (line : Chars) : Option Chars := do
  let rest ← after? ['#'] (line.dropWhile isSpaceOrTab)
  let rest ← after? "include".toList (rest.dropWhile isSpaceOrTab)
  let header ← header? (rest.dropWhile isSpaceOrTab)
  some ("#include ".toList ++ header)

def read (source : String) : List String :=
  ((feedLines source.toList).filterMap directive?).map String.ofList

end SourceFlags.Directive
