import SourceFlags.SExpr.Form
import SourceFlags.SExpr.Token

namespace SourceFlags.SExpr

open Text

def maxDigits : Nat := 4300

def integerParts? (cs : Chars) : Option (Bool × Chars) :=
  let (negative, digits) :=
    match cs with
    | '-' :: ds => (true, ds)
    | '+' :: ds => (false, ds)
    | ds => (false, ds)
  if !digits.isEmpty && digits.all isDigit then some (negative, digits) else none

def ofAtom (s : String) : Except ReadError Form :=
  match integerParts? s.toList with
  | some (negative, digits) =>
    if maxDigits < digits.length then .error .integerTooLong
    else
      let n : Int := digitsValue digits
      .ok (.int (if negative then -n else n))
  | none => .ok (if s = "nil" then .nil else if s = "t" then .t else .sym s)

-- The forms read so far, last first: those of each open list, the innermost list first, and those
-- outside all lists.
structure Reader where
  lists : List (List Form)
  forms : List Form
  quoted : Bool
  deriving Inhabited

namespace Reader

def empty : Reader := ⟨[], [], false⟩

def add (r : Reader) (f : Form) : Reader :=
  match r.lists with
  | [] => ⟨[], f :: r.forms, false⟩
  | l :: ls => ⟨(f :: l) :: ls, r.forms, false⟩

def close (r : Reader) : Except ReadError Reader :=
  match r.quoted, r.lists with
  | false, l :: ls => .ok (add ⟨ls, r.forms, false⟩ (.ofItems l.reverse))
  | _, _ => .error .unbalanced

def step (r : Reader) : Token → Except ReadError Reader
  | .quote => .ok { r with quoted := true }
  | .str s => .ok (r.add (.str s))
  | .atom s => (ofAtom s).map r.add
  | .opening => .ok ⟨[] :: r.lists, r.forms, false⟩
  | .closing => r.close

def finish (r : Reader) : Except ReadError (List Form) :=
  if r.quoted then .error .danglingQuote
  else if r.lists.isEmpty then .ok r.forms.reverse
  else .error .unterminated

def run (r : Reader) : List Token → Except ReadError (List Form)
  | [] => r.finish
  | token :: tokens =>
    match r.step token with
    | .ok r => r.run tokens
    | .error e => .error e

end Reader

-- All forms of a text. The whole text is cut into tokens before the first form is read.
def read (s : String) : Except ReadError (List Form) :=
  match Token.scan s.toList with
  | .ok tokens => Reader.empty.run tokens
  | .error e => .error e

end SourceFlags.SExpr
