import Mathlib.Data.List.Nodup
import Mathlib.Logic.Relation

namespace SourceFlags

-- What is found from waiting elements: each one that has not been seen yet, and right after it what
-- is found from those next to it. What has been found on the way counts as seen. At most so many
-- elements are gone into within each other.
inductive DepthFirst {α : Type} (next : α → List α) : Nat → List α → List α → List α → Prop
  | done {n : Nat} {seen : List α} : DepthFirst next n seen [] []
  | again {n : Nat} {seen waiting found : List α} {a : α} (h : a ∈ seen)
    (hw : DepthFirst next (n + 1) seen waiting found) :
    DepthFirst next (n + 1) seen (a :: waiting) found
  | enter {n : Nat} {seen waiting below found : List α} {a : α} (h : a ∉ seen)
    (hb : DepthFirst next n (a :: seen) (next a) below)
    (hw : DepthFirst next (n + 1) (below ++ a :: seen) waiting found) :
    DepthFirst next (n + 1) seen (a :: waiting) (a :: below ++ found)

namespace DepthFirst

variable {α : Type} {next : α → List α} {n m : Nat} {seen seen' waiting waiting' : List α}
variable {found found' : List α} {a b : α}

def IsNext (next : α → List α) (a b : α) : Prop :=
  b ∈ next a

theorem mono (h : DepthFirst next n seen waiting found) (hm : n ≤ m) :
    DepthFirst next m seen waiting found := by
  induction h generalizing m
  case done => exact .done
  case again ha _ hi =>
    cases m
    case zero   => contradiction
    case succ m => exact .again ha (hi hm)
  case enter ha _ _ hb hw =>
    cases m
    case zero   => contradiction
    case succ m => exact .enter ha (hb (Nat.le_of_succ_le_succ hm)) (hw hm)

theorem congr (h : DepthFirst next n seen waiting found) (hs : ∀ a, a ∈ seen ↔ a ∈ seen') :
    DepthFirst next n seen' waiting found := by
  induction h generalizing seen'
  case done               => exact .done
  case again ha _ hi      => exact .again ((hs _).mp ha) (hi hs)
  case enter ha _ _ hb hw => exact .enter (mt (hs _).mpr ha) (hb (by simp [hs])) (hw (by simp [hs]))

theorem append (h : DepthFirst next n seen waiting found)
    (h' : DepthFirst next n (found ++ seen) waiting' found') :
    DepthFirst next n seen (waiting ++ waiting') (found ++ found') := by
  induction h
  case done          => exact h'
  case again ha _ hi => exact .again ha (hi h')
  case enter ha hb _ _ hi =>
    rw [List.append_assoc]
    exact .enter ha hb (hi (h'.congr (by simp; tauto)))

theorem split (h : DepthFirst next n seen (waiting ++ waiting') found) :
    ∃ first rest, found = first ++ rest ∧ DepthFirst next n seen waiting first ∧
      DepthFirst next n (first ++ seen) waiting' rest := by
  induction waiting generalizing seen found
  case nil => exact ⟨[], found, rfl, .done, h⟩
  case cons a waiting hi =>
    cases h with
    | again ha hw =>
      obtain ⟨first, rest, rfl, hf, hr⟩ := hi hw
      exact ⟨first, rest, rfl, .again ha hf, hr⟩
    | @enter _ _ _ below _ _ ha hb hw =>
      obtain ⟨first, rest, rfl, hf, hr⟩ := hi hw
      refine ⟨a :: below ++ first, rest, (List.append_assoc ..).symm, .enter ha hb hf, ?_⟩
      exact hr.congr (by simp; tauto)

theorem unique (h : DepthFirst next n seen waiting found)
    (h' : DepthFirst next m seen waiting found') : found = found' := by
  induction h generalizing m found'
  case done => cases h'; rfl
  case again h _ hi =>
    cases h' with
    | again _ hw'   => exact hi hw'
    | enter hn      => exact absurd h hn
  case enter hn _ _ hbelow hfound =>
    cases h' with
    | again h       => exact absurd h hn
    | enter _ hb hw =>
      cases hbelow hb
      cases hfound hw
      rfl

-- Elements of a kind to which everything next to them belongs. One that goes on to others leaves
-- fewer to be seen.
structure RunsOut (next : α → List α) (kind : α → Prop) (left : List α → Nat) : Prop where
  closed : ∀ {a b}, kind a → b ∈ next a → kind b
  append : ∀ found seen, left (found ++ seen) ≤ left seen
  cons   : ∀ {a seen}, kind a → next a ≠ [] → a ∉ seen → left (a :: seen) < left seen

theorem RunsOut.exists_found {kind : α → Prop} {left : List α → Nat} (h : RunsOut next kind left)
    (hn : left seen ≤ n) (hk : ∀ a ∈ waiting, kind a) :
    ∃ found, DepthFirst next (n + 1) seen waiting found := by
  -- Below an element fewer are left to be seen; after it as many may be left, but fewer wait.
  induction n using Nat.strongRecOn generalizing seen waiting
  case ind n hfewer =>
    induction waiting generalizing seen
    case nil => exact ⟨[], .done⟩
    case cons a waiting hi =>
      obtain ⟨ha, hk⟩ := List.forall_mem_cons.mp hk
      by_cases hs : a ∈ seen
      case pos =>
        obtain ⟨found, hf⟩ := hi hn hk
        exact ⟨found, .again hs hf⟩
      case neg =>
        obtain ⟨below, hb⟩ : ∃ below, DepthFirst next n (a :: seen) (next a) below := by
          by_cases he : next a = []
          case pos => exact ⟨[], by rw [he]; exact .done⟩
          case neg =>
            have hlt := Nat.lt_of_lt_of_le (h.cons ha he hs) hn
            obtain ⟨below, hb⟩ := hfewer _ hlt (Nat.le_refl _) fun b hb => h.closed ha hb
            exact ⟨below, hb.mono hlt⟩
        have hle : left (below ++ a :: seen) ≤ n := by
          refine Nat.le_trans ?_ hn
          rw [List.append_cons]
          exact h.append (below ++ [a]) seen
        obtain ⟨found, hf⟩ := hi hle hk
        exact ⟨a :: below ++ found, .enter hs hb hf⟩

theorem not_seen (h : DepthFirst next n seen waiting found) : ∀ a ∈ found, a ∉ seen := by
  induction h
  case done       => exact nofun
  case again hi   => exact hi
  case enter _ seen waiting below found a hn _ _ hbelow hfound =>
    intro b hb hs
    cases List.mem_append.mp hb
    case inr hb => exact hfound b hb (List.mem_append_right _ (List.mem_cons_of_mem a hs))
    case inl hb =>
      cases List.mem_cons.mp hb
      case inl he => exact hn (he ▸ hs)
      case inr hb => exact hbelow b hb (List.mem_cons_of_mem a hs)

theorem nodup (h : DepthFirst next n seen waiting found) : found.Nodup := by
  induction h
  case done     => exact List.nodup_nil
  case again hi => exact hi
  case enter _ seen waiting below found a hn hb hw hbelow hfound =>
    have ha : a ∉ below := fun hm => hb.not_seen a hm List.mem_cons_self
    refine List.nodup_append.mpr ⟨List.nodup_cons.mpr ⟨ha, hbelow⟩, hfound, fun b hb c hc he => ?_⟩
    refine hw.not_seen c hc (he ▸ List.mem_append.mpr ?_)
    exact (List.mem_cons.mp hb).elim (fun hb => .inr (hb ▸ List.mem_cons_self)) .inl

theorem mem_of_waiting (h : DepthFirst next n seen waiting found) :
    ∀ a ∈ waiting, a ∈ found ∨ a ∈ seen := by
  induction h
  case done => exact nofun
  case again _ seen waiting found a h _ hi =>
    exact List.forall_mem_cons.mpr ⟨.inr h, hi⟩
  case enter _ seen waiting below found a _ _ _ _ hi =>
    refine List.forall_mem_cons.mpr ⟨.inl List.mem_cons_self, fun b hb => ?_⟩
    have := hi b hb
    simp only [List.mem_append, List.mem_cons] at this ⊢
    tauto

theorem closed (h : DepthFirst next n seen waiting found) :
    ∀ a ∈ found, ∀ b ∈ next a, b ∈ found ∨ b ∈ seen := by
  induction h
  case done     => exact nofun
  case again hi => exact hi
  case enter _ seen waiting below found a _ hb _ hbelow hfound =>
    intro c hc d hd
    cases List.mem_append.mp hc
    case inl hc =>
      have : d ∈ below ∨ d ∈ a :: seen := by
        cases List.mem_cons.mp hc
        case inl he => exact hb.mem_of_waiting d (he ▸ hd)
        case inr hc => exact hbelow c hc d hd
      simp only [List.mem_append, List.mem_cons] at this ⊢
      tauto
    case inr hc =>
      have := hfound c hc d hd
      simp only [List.mem_append, List.mem_cons] at this ⊢
      tauto

theorem reached (h : DepthFirst next n seen waiting found) :
    ∀ b ∈ found, ∃ a ∈ waiting, Relation.ReflTransGen (IsNext next) a b := by
  induction h
  case done => exact nofun
  case again _ seen waiting found a _ _ hi =>
    intro b hb
    have ⟨c, hc, hr⟩ := hi b hb
    exact ⟨c, List.mem_cons_of_mem a hc, hr⟩
  case enter _ seen waiting below found a _ _ _ hbelow hfound =>
    intro b hb
    cases List.mem_append.mp hb
    case inl hb =>
      refine ⟨a, List.mem_cons_self, ?_⟩
      cases List.mem_cons.mp hb
      case inl he => exact he ▸ .refl
      case inr hb =>
        have ⟨c, hc, hr⟩ := hbelow b hb
        exact hr.head hc
    case inr hb =>
      have ⟨c, hc, hr⟩ := hfound b hb
      exact ⟨c, List.mem_cons_of_mem a hc, hr⟩

theorem mem_iff (h : DepthFirst next n [] [a] found) :
    b ∈ found ↔ Relation.ReflTransGen (IsNext next) a b := by
  constructor
  case mp =>
    intro hb
    have ⟨c, hc, hr⟩ := h.reached b hb
    exact List.mem_singleton.mp hc ▸ hr
  case mpr =>
    intro hr
    induction hr
    case refl =>
      exact (h.mem_of_waiting a (List.mem_singleton_self a)).resolve_right List.not_mem_nil
    case tail c d _ hd hi => exact (h.closed c hi d hd).resolve_right List.not_mem_nil

end DepthFirst

end SourceFlags
