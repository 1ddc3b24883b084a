import SourceFlags.ProjectType.Basic

namespace SourceFlags

inductive Priority
  | unique
  | specific
  | generic
  deriving DecidableEq, Repr

def Priority.name : Priority → String
  | .unique => "unique"
  | .specific => "default"
  | .generic => "generic"

def Priority.ofName (s : String) : Except Error Priority :=
  match [Priority.unique, .specific, .generic].find? (·.name == s) with
  | some p => .ok p
  | none => .error (.unknownPriority s)

structure Registry where
  types : List ProjectType
  isSeeded : Bool

namespace Registry

def empty : Registry := ⟨[], false⟩

def names (r : Registry) : List String :=
  r.types.map (·.name)

def get? (r : Registry) (name : String) : Option ProjectType :=
  r.types.find? (·.name == name)

def choices (r : Registry) : List String :=
  (r.types.filter (·.isChoice)).map (·.name)

-- Puts a type in the place of the first one of its name, whose tier it takes.
def replace (t : ProjectType) : List ProjectType → List ProjectType
  | [] => []
  | old :: ts =>
    if old.name = t.name then { t with isGeneric := old.isGeneric } :: ts
    else old :: replace t ts

def insert (t : ProjectType) (p : Priority) (ts : List ProjectType) : List ProjectType :=
  match p with
  | .unique => t :: ts
  | .specific => ts.takeWhile (!·.isGeneric) ++ t :: ts.dropWhile (!·.isGeneric)
  | .generic => ts ++ [{ t with isGeneric := true }]

def place (t : ProjectType) (p : Priority) (ts : List ProjectType) : List ProjectType :=
  if ts.any (·.name == t.name) then replace t ts else insert t p ts

-- A new specific type needs a registry that has been seeded.
def register (r : Registry) (t : ProjectType) (p : Priority) : Except Error Registry :=
  if (r.get? t.name).isNone && p == .specific && !r.isSeeded then .error (.notSeeded t.name)
  else .ok { r with types := place t p r.types }

def seed (r : Registry) (ts : List ProjectType) : Registry :=
  ⟨ts.foldl (fun types t => place t .specific types) r.types, true⟩

theorem replace_names (t : ProjectType) (ts : List ProjectType) :
    (replace t ts).map (·.name) = ts.map (·.name) := by
  induction ts with
  | nil => rfl
  | cons old ts ih =>
    simp only [replace]
    split <;> simp_all

theorem seed_isSeeded (r : Registry) (ts : List ProjectType) : (r.seed ts).isSeeded = true := rfl

end Registry
end SourceFlags
