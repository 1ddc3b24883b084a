import SourceFlags.Project.List

namespace SourceFlags.ProjectList

variable {l : ProjectList} {m n : Loaded} {cwd path : String} {p : Project}

theorem deepest_eq_none_iff : l.deepest = none ↔ l = [] := by
  cases l
  case nil => simp [deepest]
  case cons m l =>
    simp only [deepest]
    split <;> try split
    all_goals simp

theorem length_le_deepest (h : l.deepest = some m) (hn : n ∈ l) :
    n.project.root.length ≤ m.project.root.length := by
  induction l generalizing m
  case nil => contradiction
  case cons o l hi =>
    simp only [deepest] at h
    split at h
    case h_2 hd =>
      cases h
      rw [deepest_eq_none_iff.mp hd] at hn
      exact List.mem_singleton.mp hn ▸ Nat.le_refl _
    case h_1 best hb =>
      split at h
      case isTrue ho =>
        cases h
        cases List.mem_cons.mp hn
        case inl hn => exact hn ▸ Nat.le_of_lt ho
        case inr hn => exact hi hb hn
      case isFalse ho =>
        cases h
        cases List.mem_cons.mp hn
        case inl hn => exact hn ▸ Nat.le_refl _
        case inr hn => exact Nat.le_trans (hi hb hn) (Nat.le_of_not_lt ho)

structure IsDeepest (l : ProjectList) (cwd path : String) (m : Loaded) : Prop where
  mem      : m ∈ l
  contains : m.project.contains cwd path = true
  longest  : ∀ n ∈ l, n.project.contains cwd path = true →
    n.project.root.length ≤ m.project.root.length

theorem find_eq_none_iff :
    l.find cwd path = none ↔ ∀ m ∈ l, m.project.contains cwd path = false := by
  rw [find, deepest_eq_none_iff, List.filter_eq_nil_iff]
  simp only [Bool.not_eq_true]

theorem find_isDeepest (h : l.find cwd path = some m) : l.IsDeepest cwd path m := by
  have ⟨hm, hc⟩ := List.mem_filter.mp <| deepest_mem h
  exact ⟨hm, hc, fun n hn hp => length_le_deepest h <| List.mem_filter.mpr ⟨hn, hp⟩⟩

theorem find_isSome (hm : m ∈ l) (hc : m.project.contains cwd path = true) :
    ∃ n, l.find cwd path = some n := by
  refine Option.ne_none_iff_exists'.mp fun h => ?_
  rw [find_eq_none_iff.mp h m hm] at hc
  contradiction

-- The project that the list has, or else gets, for the root of a project.
def standIn (l : ProjectList) (p : Project) : Project :=
  ((l.ofRoot? p.root).map (·.project)).getD p

@[simp]
theorem standIn_nil (p : Project) : standIn [] p = p :=
  rfl

theorem add_project (l : ProjectList) (m : Loaded) : (l.add m).1.project = l.standIn m.project := by
  simp only [add, standIn]
  split
  case h_1 h => simp [h]
  case h_2 h => simp [h]

theorem mem_add (h : n ∈ (l.add m).2) : n ∈ l ∨ n = m := by
  revert h
  simp only [add]
  split <;> simp
  exact .inl

end SourceFlags.ProjectList
