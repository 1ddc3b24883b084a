import SourceFlags.Table
import SourceFlags.Text.Digit
import SourceFlags.Text.Quoted

namespace SourceFlags.SExpr

open Text

inductive Form
  | nil
  | t
  | int (i : Int)
  | str (s : String)
  | sym (s : String)
  | pair (a b : Form)
  | list (fs : List Form)
  deriving Repr, Inhabited

namespace Form

-- A list of three around a bare dot is a pair.
def ofItems : List Form → Form
  | [a, .sym ".", b] => .pair a b
  | fs => .list fs

def isVoid : Form → Bool
  | .nil => true
  | .int i => i == 0
  | .str s => s.isEmpty
  | .sym s => s.isEmpty
  | .list fs => fs.isEmpty
  | _ => false

def name? : Form → Option String
  | .str s => some s
  | .sym s => some s
  | _ => none

mutual

def shown : Form → String
  | .nil => "None"
  | .t => "True"
  | .int i => toString i
  | .str s => quoted s
  | .sym s => quoted s
  | .pair a b => "(" ++ shown a ++ ", " ++ shown b ++ ")"
  | .list fs => "[" ++ shownItems fs ++ "]"

def shownItems : List Form → String
  | [] => ""
  | [f] => shown f
  | f :: g :: fs => shown f ++ ", " ++ shownItems (g :: fs)

end

def text (f : Form) : String :=
  f.name?.getD f.shown

end Form

def isKeyword : Form → Bool
  | .sym s => s.toList.head? == some ':'
  | _ => false

def keywordName : Form → String
  | .sym s => String.ofList s.toList.tail
  | _ => ""

-- Each keyword with the form after it. What stands between is passed over.
def slotPairs : List Form → List (String × Form)
  | f :: g :: fs =>
    if isKeyword f then (keywordName f, g) :: slotPairs fs else slotPairs (g :: fs)
  | _ => []

def slots (fs : List Form) : Table Form :=
  Table.ofPairs (slotPairs fs)

theorem ofItems_of_length_ne_three {fs : List Form} (h : fs.length ≠ 3) :
    Form.ofItems fs = .list fs := by
  unfold Form.ofItems
  split
  · simp at h
  · rfl

end SourceFlags.SExpr
