import SourceFlags.Project.Basic

namespace SourceFlags

structure Loaded where
  id : Nat
  project : Project
  deriving Repr, Inhabited

abbrev ProjectList := List Loaded

namespace ProjectList

def ofRoot? (l : ProjectList) (root : String) : Option Loaded :=
  l.find? (·.project.root == root)

-- The project that is there for a root stays; the answer is the one that the list then holds.
def add (l : ProjectList) (q : Loaded) : Loaded × ProjectList :=
  match l.ofRoot? q.project.root with
  | some kept => (kept, l)
  | none => (q, l ++ [q])

def remove (l : ProjectList) (id : Nat) : ProjectList :=
  l.filter (·.id != id)

-- The first of the projects with the longest root.
def deepest : ProjectList → Option Loaded
  | [] => none
  | m :: ms =>
    match deepest ms with
    | some best => if m.project.root.length < best.project.root.length then some best else some m
    | none => some m

def find (cwd : String) (l : ProjectList) (path : String) : Option Loaded :=
  deepest (l.filter (·.project.contains cwd path))

theorem add_kept_mem (l : ProjectList) (q : Loaded) : (l.add q).1 ∈ (l.add q).2 := by
  simp only [add]
  split
  next kept h => exact List.mem_of_find?_eq_some h
  next => simp

theorem deepest_mem {l : ProjectList} {m : Loaded} (h : l.deepest = some m) : m ∈ l := by
  induction l generalizing m with
  | nil => simp [deepest] at h
  | cons a l ih =>
    simp only [deepest] at h
    split at h
    next best hb =>
      split at h
      · exact List.mem_cons_of_mem _ (ih (by rw [hb, h]))
      · simp_all
    next => simp_all

end ProjectList
end SourceFlags
