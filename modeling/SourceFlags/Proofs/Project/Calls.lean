import Mathlib.Data.List.Induction
import Mathlib.Data.List.Nodup
import SourceFlags.Proofs.Project.Contains
import SourceFlags.Proofs.Project.List

namespace SourceFlags.ProjectList

inductive Call
  | add (m : Loaded)
  | remove (id : Nat)
  | clear

def Call.Drops (m : Loaded) : Call → Prop
  | add _     => False
  | remove id => m.id = id
  | clear     => True

def after (l : ProjectList) : Call → ProjectList
  | .add m     => (l.add m).2
  | .remove id => l.remove id
  | .clear     => []

def run (cs : List Call) : ProjectList :=
  cs.foldl after []

def IsVacant (l : ProjectList) (root : String) : Prop :=
  ∀ n ∈ l, n.project.root ≠ root

def HasDistinctRoots (l : ProjectList) : Prop :=
  (l.map (·.project.root)).Nodup

-- The call at the index adds the project where no other one has its root, and no later one drops it.
structure IsAddedAt (cs : List Call) (m : Loaded) (i : Nat) : Prop where
  call   : cs[i]? = some (.add m)
  vacant : (run (cs.take i)).IsVacant m.project.root
  stays  : ∀ c ∈ cs.drop (i + 1), ¬c.Drops m

variable {l l' : ProjectList} {cs : List Call} {c : Call} {m n q : Loaded} {i j : Nat}
variable {cwd path : String}

theorem ofRoot?_eq_none_iff {root : String} : l.ofRoot? root = none ↔ l.IsVacant root := by
  simp [ofRoot?, IsVacant]

theorem add_vacant (h : l.IsVacant m.project.root) : l.add m = (m, l ++ [m]) := by
  rw [add, ofRoot?_eq_none_iff.mpr h]

theorem add_taken (h : ¬l.IsVacant m.project.root) :
    (l.add m).2 = l ∧ (l.add m).1.project.root = m.project.root := by
  rw [← ofRoot?_eq_none_iff] at h
  obtain ⟨kept, hk⟩ := Option.ne_none_iff_exists'.mp h
  have hr : kept.project.root = m.project.root := by simpa using List.find?_some hk
  simp [add, hk, hr]

theorem add_root (l : ProjectList) (m : Loaded) : (l.add m).1.project.root = m.project.root := by
  by_cases h : l.IsVacant m.project.root
  case pos => rw [add_vacant h]
  case neg => exact (add_taken h).right

theorem after_cases (l : ProjectList) (c : Call) :
    (l.after c).Sublist l ∨ ∃ m, c = .add m ∧ l.IsVacant m.project.root ∧ l.after c = l ++ [m] := by
  cases c
  case remove id => exact .inl List.filter_sublist
  case clear     => exact .inl <| List.nil_sublist l
  case add m =>
    by_cases h : l.IsVacant m.project.root
    case pos => exact .inr ⟨m, rfl, h, congrArg Prod.snd <| add_vacant h⟩
    case neg => exact .inl <| by rw [after, (add_taken h).left]

theorem mem_after_iff :
    m ∈ l.after c ↔ m ∈ l ∧ ¬c.Drops m ∨ c = .add m ∧ l.IsVacant m.project.root := by
  cases c
  case clear     => simp [after, Call.Drops]
  case remove id => simp [after, remove, Call.Drops]
  case add q =>
    by_cases h : l.IsVacant q.project.root
    case pos =>
      simp only [after, add_vacant h, List.mem_append, List.mem_singleton, Call.Drops]
      grind
    case neg =>
      simp only [after, (add_taken h).left, Call.Drops]
      grind

@[simp]
theorem run_concat (cs : List Call) (c : Call) : run (cs ++ [c]) = (run cs).after c := by
  simp [run]

theorem HasDistinctRoots.after (h : l.HasDistinctRoots) (c : Call) :
    (l.after c).HasDistinctRoots := by
  cases l.after_cases c
  case inl hs => exact h.sublist <| hs.map _
  case inr ha =>
    obtain ⟨m, _, hv, ha⟩ := ha
    rw [ha, HasDistinctRoots, List.map_append]
    refine List.nodup_append.mpr ⟨h, List.nodup_singleton _, ?_⟩
    simpa [IsVacant] using hv

theorem run_hasDistinctRoots (cs : List Call) : (run cs).HasDistinctRoots := by
  induction cs using List.reverseRecOn
  case nil => exact List.nodup_nil
  case append_singleton cs c hi => exact run_concat cs c ▸ hi.after c

theorem isAddedAt_nil : ¬IsAddedAt [] m i :=
  fun h => nomatch h.call

namespace IsAddedAt

theorem lt_length (h : IsAddedAt cs m i) : i < cs.length :=
  (List.getElem?_eq_some_iff.mp h.call).choose

theorem concat_of_lt (hi : i < cs.length) :
    IsAddedAt (cs ++ [c]) m i ↔ IsAddedAt cs m i ∧ ¬c.Drops m := by
  have hg : (cs ++ [c])[i]? = cs[i]? := List.getElem?_append_left hi
  have ht : (cs ++ [c]).take i = cs.take i := List.take_append_of_le_length (Nat.le_of_lt hi)
  have hd : (cs ++ [c]).drop (i + 1) = cs.drop (i + 1) ++ [c] := List.drop_append_of_le_length hi
  constructor
  case mp =>
    intro h
    have hs := hd ▸ h.stays
    rw [List.forall_mem_append, List.forall_mem_singleton] at hs
    exact ⟨⟨hg ▸ h.call, ht ▸ h.vacant, hs.left⟩, hs.right⟩
  case mpr =>
    intro ⟨h, hc⟩
    refine ⟨hg ▸ h.call, ht ▸ h.vacant, hd ▸ ?_⟩
    exact List.forall_mem_append.mpr ⟨h.stays, List.forall_mem_singleton.mpr hc⟩

theorem concat_length :
    IsAddedAt (cs ++ [c]) m cs.length ↔ c = .add m ∧ (run cs).IsVacant m.project.root := by
  constructor
  case mp  => exact fun h => ⟨by simpa using h.call, by simpa using h.vacant⟩
  case mpr => exact fun ⟨hc, hv⟩ => ⟨by simp [hc], by simpa using hv, by simp⟩

theorem concat_iff :
    IsAddedAt (cs ++ [c]) m i ↔
      IsAddedAt cs m i ∧ ¬c.Drops m ∨
        i = cs.length ∧ c = .add m ∧ (run cs).IsVacant m.project.root := by
  constructor
  case mp =>
    intro h
    have hi := h.lt_length
    rw [List.length_append, List.length_singleton, Nat.lt_succ_iff_lt_or_eq] at hi
    cases hi
    case inl hi => exact .inl <| (concat_of_lt hi).mp h
    case inr hi => exact .inr ⟨hi, concat_length.mp (hi ▸ h)⟩
  case mpr =>
    intro h
    cases h
    case inl h => exact (concat_of_lt h.left.lt_length).mpr h
    case inr h => exact h.left ▸ concat_length.mpr h.right

end IsAddedAt

theorem mem_run_iff : m ∈ run cs ↔ ∃ i, IsAddedAt cs m i := by
  induction cs using List.reverseRecOn
  case nil => simp [run, isAddedAt_nil]
  case append_singleton cs c hi =>
    simp only [run_concat, mem_after_iff, hi, IsAddedAt.concat_iff, exists_or, exists_and_right,
      exists_eq, true_and]

def IsEarlier (cs : List Call) (m n : Loaded) : Prop :=
  ∀ i j, IsAddedAt cs m i → IsAddedAt cs n j → i < j

theorem IsAddedAt.of_mem (hm : m ∈ run cs) (h : IsAddedAt (cs ++ [c]) m i) : IsAddedAt cs m i :=
  (concat_iff.mp h).elim And.left fun ⟨_, _, hv⟩ => absurd rfl (hv m hm)

theorem IsAddedAt.eq_length (hm : m ∉ run cs) (h : IsAddedAt (cs ++ [c]) m i) : i = cs.length :=
  (concat_iff.mp h).elim (fun ⟨h, _⟩ => absurd (mem_run_iff.mpr ⟨i, h⟩) hm) And.left

theorem run_isEarlier (cs : List Call) : (run cs).Pairwise (IsEarlier cs) := by
  induction cs using List.reverseRecOn
  case nil => exact .nil
  case append_singleton cs c hi =>
    have kept : (run cs).Pairwise (IsEarlier (cs ++ [c])) :=
      hi.imp_of_mem fun hm hn h i j hi hj => h i j (hi.of_mem hm) (hj.of_mem hn)
    rw [run_concat]
    -- What the call adds stands at the end, after all that was added by earlier calls.
    cases (run cs).after_cases c
    case inl hs => exact kept.sublist hs
    case inr ha =>
      obtain ⟨q, hc, hv, ha⟩ := ha
      rw [ha, List.pairwise_append]
      refine ⟨kept, List.pairwise_singleton .., fun m hm n hn i j hi hj => ?_⟩
      have hq : n ∉ run cs := List.mem_singleton.mp hn ▸ fun hq => hv q hq rfl
      exact hj.eq_length hq ▸ (hi.of_mem hm).lt_length

theorem IsDeepest.unique (hl : l.HasDistinctRoots) (hm : l.IsDeepest cwd path m)
    (hn : l.IsDeepest cwd path n) : m = n := by
  have he := Nat.le_antisymm (hn.longest m hm.mem hm.contains) (hm.longest n hn.mem hn.contains)
  exact List.inj_on_of_nodup_map hl hm.mem hn.mem <|
    Project.root_eq_of_contains hm.contains hn.contains he

theorem IsDeepest.of_mem_iff (h : ∀ m, m ∈ l ↔ m ∈ l') (hm : l.IsDeepest cwd path m) :
    l'.IsDeepest cwd path m :=
  ⟨(h m).mp hm.mem, hm.contains, fun n hn => hm.longest n <| (h n).mpr hn⟩

theorem find_eq_some_iff (hl : l.HasDistinctRoots) :
    l.find cwd path = some m ↔ l.IsDeepest cwd path m := by
  constructor
  case mp => exact find_isDeepest
  case mpr =>
    intro h
    have ⟨n, hn⟩ := find_isSome h.mem h.contains
    rw [hn, (find_isDeepest hn).unique hl h]

theorem find_of_mem_iff (hl : l.HasDistinctRoots) (hl' : l'.HasDistinctRoots)
    (h : ∀ m, m ∈ l ↔ m ∈ l') (cwd path : String) : l.find cwd path = l'.find cwd path := by
  refine Option.ext fun m => ?_
  rw [find_eq_some_iff hl, find_eq_some_iff hl']
  exact ⟨.of_mem_iff h, .of_mem_iff fun m => (h m).symm⟩

-- What has been added is found at its own root, or else what has been kept for that.
theorem find_add {cwd' s : String} (hl : l.HasDistinctRoots) (h : Path.isAbsolute cwd = true)
    (hm : m.project.root = Project.rootOf cwd s) :
    (l.add m).2.find cwd' m.project.root = some (l.add m).1 := by
  have hr := l.add_root m
  have hd : (l.add m).2.HasDistinctRoots := hl.after (.add m)
  refine (find_eq_some_iff hd).mpr ⟨l.add_kept_mem m, ?contains, fun n _ hc => ?longest⟩
  case contains => exact hr ▸ Project.contains_root h (hr.trans hm)
  case longest =>
    have hp := (Project.root_prefix_of_contains hc).length_le
    rw [Project.absoluteText_root h hm, String.length_toList, String.length_toList] at hp
    exact hr ▸ hp

theorem run_finds_deepest (cs : List Call) :
    let l := run cs
    l.HasDistinctRoots ∧
    (∀ m, m ∈ l ↔ ∃ i, IsAddedAt cs m i) ∧ l.Pairwise (IsEarlier cs) ∧
    (∀ cwd path, l.find cwd path = none ↔ ∀ m ∈ l, m.project.contains cwd path = false) ∧
    (∀ cwd path m, l.find cwd path = some m ↔ l.IsDeepest cwd path m) ∧
    (∀ ds, (∀ m, m ∈ l ↔ m ∈ run ds) → ∀ cwd path, l.find cwd path = (run ds).find cwd path) ∧
    ∀ m cwd s, Path.isAbsolute cwd = true → m.project.root = Project.rootOf cwd s →
      ∀ cwd', (l.add m).2.find cwd' m.project.root = some (l.add m).1 := by
  have hl := run_hasDistinctRoots cs
  exact ⟨hl, fun _ => mem_run_iff, run_isEarlier cs, fun _ _ => find_eq_none_iff,
    fun _ _ _ => find_eq_some_iff hl, fun ds => find_of_mem_iff hl (run_hasDistinctRoots ds),
    fun _ _ _ h hm _ => find_add hl h hm⟩

def outer : Loaded := ⟨0, .bare "/a" .plain⟩
def inner : Loaded := ⟨1, .bare "/a/b" .plain⟩
def other : Loaded := ⟨2, .bare "/a" .rooted⟩

-- The other project is only added once the first one is gone.
def replacing : List Call :=
  [.add outer, .add inner, .add other, .remove 0, .add other]

theorem replacing_finds_deepest :
    run replacing = [inner, other] ∧ (run replacing).find "/" "/a/b/c" = some inner ∧
    (run replacing).find "/" "/a/c" = some other ∧
    (run replacing).find "/" "/a/b/c" = (run [.add other, .add inner]).find "/" "/a/b/c" ∧
    Path.isAbsolute "/" = true ∧ outer.project.root = Project.rootOf "/" "/a/" ∧
    ((run replacing).add outer).2.find "/" "/a" = some ((run replacing).add outer).1 := by
  have hl : run replacing = [inner, other] := by
    simp [run, replacing, after, add, ofRoot?, remove, outer, inner, other, Project.bare]
  have hs : run [.add other, .add inner] = [other, inner] := by
    simp [run, after, add, ofRoot?, inner, other, Project.bare]
  have hi : (run replacing).IsDeepest "/" "/a/b/c" inner := by
    rw [hl]
    exact ⟨List.mem_cons_self, by decide, by decide⟩
  have ho : (run replacing).IsDeepest "/" "/a/c" other := by
    rw [hl]
    exact ⟨by simp, by decide, by decide⟩
  have hm : ∀ m, m ∈ run replacing ↔ m ∈ run [.add other, .add inner] := by
    simp [hl, hs, or_comm]
  have hr : outer.project.root = Project.rootOf "/" "/a/" := by decide
  obtain ⟨_, _, _, _, hd, hf, ha⟩ := run_finds_deepest replacing
  exact ⟨hl, (hd _ _ _).mpr hi, (hd _ _ _).mpr ho, hf _ hm .., rfl, hr, ha outer "/" _ rfl hr "/"⟩

end SourceFlags.ProjectList
