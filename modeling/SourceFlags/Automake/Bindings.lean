import SourceFlags.Table
import SourceFlags.Text.Lines

namespace SourceFlags.Automake

open Text

-- A backslash at the end of a line joins it to the next; with the blanks around it, it is one
-- blank. Blanks are held back, last first, until it is known what follows them.
def joinFrom : (held : Chars) → (skipping : Bool) → Chars → Chars
  | held, _, [] => held.reverse
  | _, _, '\\' :: '\n' :: cs => ' ' :: joinFrom [] true cs
  | held, skipping, c :: cs =>
    if isSpaceOrTab c then
      if skipping then joinFrom [] true cs else joinFrom (c :: held) false cs
    else held.reverse ++ c :: joinFrom [] false cs

def joinContinued (content : Chars) : Chars :=
  joinFrom [] false content

def isNameFirst (c : Char) : Bool :=
  c.isAlpha || c == '_' || c == '@'

def isNamePart (c : Char) : Bool :=
  c.isAlphanum || c == '_' || c == '@' || c == '.'

structure Assignment where
  name : String
  appends : Bool
  value : String
  deriving DecidableEq, Repr

def sign? : Chars → Option (Bool × Chars)
  | '+' :: '=' :: cs => some (true, cs)
  | ':' :: '=' :: cs => some (false, cs)
  | '=' :: cs => some (false, cs)
  | _ => none

-- A hash sign begins a comment, a tab a recipe.
def code (line : Chars) : Chars :=
  trimEnd (line.takeWhile (· != '#'))

def assignment? (line : Chars) : Option Assignment :=
  match code line with
  | [] => none
  | c :: cs =>
    if isNameFirst c then
      let name := c :: cs.takeWhile isNamePart
      (sign? (trimStart (cs.dropWhile isNamePart))).map fun (appends, value) =>
        ⟨String.ofList name, appends, String.ofList (trim value)⟩
    else none

def assign (t : Table String) (a : Assignment) : Table String :=
  match a.appends, t.get? a.name with
  | true, some old => t.put a.name (String.ofList (trim (old.toList ++ ' ' :: a.value.toList)))
  | _, _ => t.put a.name a.value

def bindings (content : String) : Table String :=
  ((lines (joinContinued content.toList)).filterMap assignment?).foldl assign []

def canonicalName (target : String) : String :=
  String.ofList (target.toList.map fun c => if c.isAlphanum || c == '_' || c == '@' then c else '_')

example : joinContinued "a \\\n  b".toList = "a b".toList := by decide +kernel

end SourceFlags.Automake
