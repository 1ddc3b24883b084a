import SourceFlags.Table
import SourceFlags.Text.Lines

namespace SourceFlags.Automake

open Text

inductive Piece
  | char (c : Char)
  | reference (name : String)
  deriving DecidableEq, Repr

def isWordFirst (c : Char) : Bool :=
  c.isAlpha || c == '_'

def isWordPart (c : Char) : Bool :=
  c.isAlphanum || c == '_'

def closed? (isFirst isPart : Char → Bool) (close : Char) : Chars → Option Chars
  | [] => none
  | c :: cs =>
    if isFirst c && (cs.dropWhile isPart).head? == some close then some (c :: cs.takeWhile isPart)
    else none

def reference? : Chars → Option (Chars × Nat)
  | '$' :: '(' :: cs => (closed? isWordFirst isWordPart ')' cs).map fun n => (n, n.length + 3)
  | '$' :: '\x7b' :: cs => (closed? isWordFirst isWordPart '\x7d' cs).map fun n => (n, n.length + 3)
  | '@' :: cs => (closed? isWordFirst isWordFirst '@' cs).map fun n => (n, n.length + 2)
  | _ => none

def piecesAfter : Nat → Chars → List Piece
  | _, [] => []
  | skip + 1, _ :: cs => piecesAfter skip cs
  | 0, c :: cs =>
    match reference? (c :: cs) with
    | some (name, length) => .reference (String.ofList name) :: piecesAfter (length - 1) cs
    | none => .char c :: piecesAfter 0 cs

def pieces (cs : Chars) : List Piece :=
  piecesAfter 0 cs

def maxDepth : Nat := 8

-- What a piece is filled in with, given what the value of a variable becomes. Builtins are taken as
-- they are, and names that nothing is known of are empty.
def fill (bindings builtins : Table String) (inner : Chars → Chars) : Piece → Chars
  | .char c => [c]
  | .reference name =>
    match builtins.get? name with
    | some text => text.toList
    | none =>
      match bindings.get? name with
      | some value => inner value.toList
      | none => []

-- Texts within texts are filled in to a depth, and those below it are empty. What is filled in is not
-- looked at again.
def expandChars (bindings builtins : Table String) : (depth : Nat) → Chars → Chars
  | 0, _ => []
  | depth + 1, cs =>
    (pieces cs).flatMap (fill bindings builtins (expandChars bindings builtins depth))

-- The value itself is above the variables.
def expand (bindings builtins : Table String) (value : String) : String :=
  String.ofList (expandChars bindings builtins (maxDepth + 1) value.toList)

end SourceFlags.Automake
