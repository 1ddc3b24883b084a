import SourceFlags.Toolchain.Facts

namespace SourceFlags

-- All that the facts of a toolchain depend on: where its programs are, and the platform.
structure Key where
  compiler : String
  cxxCompiler : String
  preprocessor : String
  platform : String
  deriving DecidableEq, Repr

structure Cached where
  id : Nat
  facts : Facts
  deriving DecidableEq, Repr

structure Cache where
  entries : List (Key × Cached)
  -- How many entries have been made; it numbers the next one.
  made : Nat
  deriving DecidableEq, Repr

namespace Cache

def empty : Cache := ⟨[], 0⟩

def get? (c : Cache) (k : Key) : Option Cached :=
  c.entries.lookup k

def dropKey (es : List (Key × Cached)) (k : Key) : List (Key × Cached) :=
  es.filter (·.1 != k)

def keep (c : Cache) (k : Key) (f : Facts) : Cached × Cache :=
  match c.get? k with
  | some old =>
    let entry : Cached := ⟨old.id, f⟩
    (entry, { c with entries := (k, entry) :: dropKey c.entries k })
  | none =>
    let entry : Cached := ⟨c.made, f⟩
    (entry, ⟨(k, entry) :: c.entries, c.made + 1⟩)

def reset (c : Cache) : Cache :=
  { c with entries := [] }

def resetKey (c : Cache) (k : Key) : Cache :=
  { c with entries := dropKey c.entries k }

@[simp]
theorem get?_keep (c : Cache) (k : Key) (f : Facts) :
    (c.keep k f).2.get? k = some (c.keep k f).1 := by
  unfold keep
  split <;> simp [get?]

@[simp]
theorem keep_facts (c : Cache) (k : Key) (f : Facts) : (c.keep k f).1.facts = f := by
  unfold keep
  split <;> rfl

end Cache
end SourceFlags
