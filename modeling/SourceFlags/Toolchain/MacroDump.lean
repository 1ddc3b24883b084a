import SourceFlags.Text.WordChar
import SourceFlags.Text.Lines

namespace SourceFlags.MacroDump

open Text

def define : Chars := "#define".toList

-- A parameter list directly after a name; without a closing parenthesis there is none.
def parameters (cs : Chars) : Chars :=
  match cs with
  | '(' :: rest =>
    let inside := rest.takeWhile (· != ')')
    if inside.length < rest.length then '(' :: inside ++ [')'] else []
  | _ => []

def name? (cs : Chars) : Option (Chars × Chars) :=
  match cs with
  | [] => none
  | c :: rest =>
    if isNameStart c then
      let base := c :: rest.takeWhile isWordChar
      let name := base ++ parameters (rest.dropWhile isWordChar)
      some (name, cs.drop name.length)
    else none

def definition? (line : Chars) : Option (String × String) :=
  match after? define line with
  | none => none
  | some rest =>
    if rest.head?.all (!isBlank ·) then none
    else
      match name? (trimStart rest) with
      | none => none
      | some (name, value) =>
        if value.head?.all isBlank then some (String.ofList name, String.ofList (trim value))
        else none

def read (output : String) : List (String × String) :=
  (lines output.toList).filterMap definition?

end SourceFlags.MacroDump
