import SourceFlags.Decimal.Shortest
import SourceFlags.Error

namespace SourceFlags

open Text

inductive Value
  | null
  | bool (b : Bool)
  | int (i : Int)
  | decimal (x : Decimal.Binary)
  | text (s : String)
  | list (vs : List Value)
  | record (fields : List (String × Value))
  deriving Repr, Inhabited

namespace Value

def kind : Value → String
  | .null => "NoneType"
  | .bool _ => "bool"
  | .int _ => "int"
  | .decimal _ => "float"
  | .text _ => "str"
  | .list _ => "list"
  | .record _ => "dict"

mutual

def shown : Value → String
  | .null => "None"
  | .bool b => if b then "True" else "False"
  | .int i => toString i
  | .decimal x => x.text
  | .text s => quoted s
  | .list vs => "[" ++ shownItems vs ++ "]"
  | .record fields => "\x7b" ++ shownFields fields ++ "\x7d"

def shownItems : List Value → String
  | [] => ""
  | [v] => shown v
  | v :: u :: vs => shown v ++ ", " ++ shownItems (u :: vs)

def shownFields : List (String × Value) → String
  | [] => ""
  | [(name, v)] => quoted name ++ ": " ++ shown v
  | (name, v) :: f :: fs => quoted name ++ ": " ++ shown v ++ ", " ++ shownFields (f :: fs)

end

def isVoid : Value → Bool
  | .null => true
  | .bool b => !b
  | .int i => i == 0
  | .decimal (.finite _ m _) => m == 0
  | .decimal _ => false
  | .text s => s.isEmpty
  | .list vs => vs.isEmpty
  | .record fields => fields.isEmpty

def ofText? (s : Option String) : Value :=
  s.elim .null .text

def texts (l : List String) : Value :=
  .list (l.map .text)

def written : Value → String
  | .text s => s
  | v => v.shown

-- What a value holds: the characters of a text, the entries of a list, the names of a record.
def items : Value → Except Error (List Value)
  | .text s => .ok (s.toList.map fun c => .text (String.singleton c))
  | .list vs => .ok vs
  | .record fields => .ok (fields.map fun f => .text f.1)
  | _ => .error .wrongKind

def fields : Value → Except Error (List (String × Value))
  | .record fields => .ok fields
  | _ => .error .noMember

@[simp]
theorem items_texts (l : List String) : (texts l).items = .ok (l.map .text) := rfl

end Value
end SourceFlags
