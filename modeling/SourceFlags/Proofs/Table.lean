import Mathlib.Data.List.Nodup
import SourceFlags.Table

namespace SourceFlags.Table

variable {α : Type} {t u : Table α} {name : String} {a : α}

theorem has_iff : t.has name = true ↔ name ∈ t.names := by
  simp [has, names]

theorem get?_of_not_mem (h : name ∉ t.names) : t.get? name = none := by
  refine List.lookup_eq_none_iff.mpr fun e he => ?_
  have hn : e.1 ≠ name := fun hn => h <| List.mem_map.mpr ⟨e, he, hn⟩
  simpa using hn.symm

theorem put_of_not_mem (h : name ∉ t.names) (a : α) : t.put name a = t ++ [(name, a)] := by
  induction t
  case nil => rfl
  case cons e t hi =>
    have ⟨hn, ht⟩ := not_or.mp <| mt List.mem_cons.mpr h
    simp only [put, if_neg (Ne.symm hn), hi ht, List.cons_append]

theorem get?_overlay (t u : Table α) (name : String) :
    (t.overlay u).get? name = ((Table.ofPairs u).get? name).or (t.get? name) := by
  induction u generalizing t
  case nil => rfl
  case cons e u hi =>
    have ht : t.overlay (e :: u) = (t.put e.1 e.2).overlay u := rfl
    have hn : Table.ofPairs (e :: u) = (Table.put [] e.1 e.2).overlay u := rfl
    rw [ht, hn, hi, hi (Table.put [] e.1 e.2), Option.or_assoc]
    by_cases h : name = e.1
    case pos => rw [h, get?_put_self, get?_put_self, Option.some_or]
    case neg => rw [get?_put_of_ne _ h, get?_put_of_ne _ h]; rfl

theorem names_overlay_prefix (t u : Table α) : t.names <+: (t.overlay u).names := by
  induction u generalizing t
  case nil => exact List.prefix_refl _
  case cons e u hi =>
    refine List.IsPrefix.trans ?_ (hi (t.put e.1 e.2))
    rw [names_put]
    split
    case isTrue  => exact List.prefix_refl _
    case isFalse => exact List.prefix_append ..

theorem mem_names_overlay_iff : name ∈ (t.overlay u).names ↔ name ∈ t.names ∨ name ∈ u.names := by
  induction u generalizing t
  case nil => simp [overlay, names]
  case cons e u hi =>
    have hp : name ∈ (t.put e.1 e.2).names ↔ name ∈ t.names ∨ name = e.1 := by
      rw [names_put]
      split
      case isTrue he => exact ⟨.inl, (·.elim id (· ▸ he))⟩
      case isFalse   => simp
    have ht : t.overlay (e :: u) = (t.put e.1 e.2).overlay u := rfl
    have hu : names (e :: u) = e.1 :: names u := rfl
    rw [ht, hi, hp, or_assoc, hu, List.mem_cons]

theorem mem_names_ofPairs_iff {ps : List (String × α)} :
    name ∈ (ofPairs ps).names ↔ ∃ a, (name, a) ∈ ps := by
  rw [ofPairs, mem_names_overlay_iff]
  simp [names]

theorem names_put_nodup (h : t.names.Nodup) (name : String) (a : α) :
    (t.put name a).names.Nodup := by
  rw [names_put]
  split
  case isTrue     => exact h
  case isFalse hn => exact h.append (List.nodup_singleton name) (by simpa using hn)

theorem names_overlay_nodup (h : t.names.Nodup) (u : Table α) : (t.overlay u).names.Nodup :=
  List.foldlRecOn (motive := fun t : Table α => t.names.Nodup) u _ h
    fun _ h e _ => names_put_nodup h e.1 e.2

theorem put_of_get? (h : t.get? name = some a) : t.put name a = t := by
  induction t
  case nil => contradiction
  case cons e t hi =>
    have ⟨n, b⟩ := e
    by_cases hn : n = name
    case pos =>
      simp only [get?, List.lookup_cons, hn, beq_self_eq_true] at h
      simp [put, hn, Option.some.inj h]
    case neg =>
      simp only [get?, List.lookup_cons, beq_false_of_ne (Ne.symm hn)] at h
      simp only [put, if_neg hn, hi h]

theorem overlay_of_get? (h : ∀ e ∈ u, t.get? e.1 = some e.2) : t.overlay u = t := by
  induction u
  case nil => rfl
  case cons e u hi =>
    have ⟨he, hu⟩ := List.forall_mem_cons.mp h
    have ht : t.overlay (e :: u) = (t.put e.1 e.2).overlay u := rfl
    rw [ht, put_of_get? he, hi hu]

theorem get?_overlay_of_not_mem (h : name ∉ u.names) (t : Table α) :
    (t.overlay u).get? name = t.get? name := by
  induction u generalizing t
  case nil => rfl
  case cons e u hi =>
    have ⟨hn, hu⟩ := List.ne_and_not_mem_of_not_mem_cons h
    have ht : t.overlay (e :: u) = (t.put e.1 e.2).overlay u := rfl
    rw [ht, hi hu, get?_put_of_ne e.2 hn]

theorem get?_overlay_of_mem (hu : u.names.Nodup) (h : (name, a) ∈ u) (t : Table α) :
    (t.overlay u).get? name = some a := by
  induction u generalizing t
  case nil => contradiction
  case cons e u hi =>
    have ⟨hn, hd⟩ := List.nodup_cons.mp hu
    cases h
    case tail h => exact hi hd h (t.put e.1 e.2)
    case head   => exact (get?_overlay_of_not_mem hn _).trans (get?_put_self t name a)

theorem overlay_overlay (hu : u.names.Nodup) (t : Table α) :
    (t.overlay u).overlay u = t.overlay u :=
  overlay_of_get? fun (_, _) he => get?_overlay_of_mem hu he t

theorem overlay_of_nodup (h : (t ++ u).names.Nodup) : t.overlay u = t ++ u := by
  induction u generalizing t
  case nil => exact (List.append_nil t).symm
  case cons e u hi =>
    have he : t ++ e :: u = t ++ [e] ++ u := List.append_cons t e u
    have hn : e.1 ∉ t.names := fun hm => by
      rw [names, List.map_append] at h
      exact (List.nodup_append.mp h).right.right _ hm _ List.mem_cons_self rfl
    have ht : t.overlay (e :: u) = (t.put e.1 e.2).overlay u := rfl
    rw [ht, put_of_not_mem hn, he]
    exact hi (he ▸ h)

theorem ofPairs_of_nodup (h : t.names.Nodup) : ofPairs t = t :=
  overlay_of_nodup (t := []) h

theorem get?_eq_some_iff (h : t.names.Nodup) : t.get? name = some a ↔ (name, a) ∈ t := by
  constructor
  case mp =>
    intro hg
    obtain ⟨before, after, rfl, _⟩ := List.lookup_eq_some_iff.mp hg
    exact List.mem_append_right before List.mem_cons_self
  case mpr =>
    intro hm
    rw [← ofPairs_of_nodup h]
    exact get?_overlay_of_mem h hm []

theorem get?_of_perm (hp : t.Perm u) (h : t.names.Nodup) (name : String) :
    t.get? name = u.get? name := by
  have hu : u.names.Nodup := (hp.map Prod.fst).nodup_iff.mp h
  ext a
  rw [get?_eq_some_iff h, get?_eq_some_iff hu, hp.mem_iff]

-- Tables that give the same differ in the order of their entries only.
theorem perm_of_get? (ht : t.names.Nodup) (hu : u.names.Nodup)
    (h : ∀ name, t.get? name = u.get? name) : t.Perm u := by
  refine (List.perm_ext_iff_of_nodup (.of_map _ ht) (.of_map _ hu)).mpr fun (name, a) => ?_
  rw [← get?_eq_some_iff ht, ← get?_eq_some_iff hu, h]

def tabulate (names : List String) (f : String → α) : Table α :=
  names.map fun name => (name, f name)

theorem eq_tabulate {f : String → α} (hn : t.names.Nodup)
    (h : ∀ name ∈ t.names, t.get? name = some (f name)) : t = tabulate t.names f := by
  induction t
  case nil => rfl
  case cons e t hi =>
    obtain ⟨n, b⟩ := e
    have ⟨hnt, ht⟩ := List.nodup_cons.mp hn
    have hb : b = f n := by simpa [get?, List.lookup_cons] using h n List.mem_cons_self
    have hs : ∀ name ∈ names t, get? t name = some (f name) := fun name hm => by
      have := h name (List.mem_cons_of_mem _ hm)
      have hne : name ≠ n := fun he => hnt (he ▸ hm)
      rwa [get?, List.lookup_cons, beq_false_of_ne hne] at this
    exact congrArg₂ List.cons (congrArg (n, ·) hb) (hi ht hs)

end SourceFlags.Table
