import SourceFlags.Proofs.Toolchain.Growth

namespace SourceFlags

namespace Cache

variable {c : Cache} {k k' : Key} {f : Facts}

def facts? (c : Cache) (k : Key) : Option Facts :=
  (c.get? k).map (·.facts)

theorem lookup_dropKey_self (es : List (Key × Cached)) (k : Key) :
    (dropKey es k).lookup k = none := by
  refine List.lookup_eq_none_iff.mpr fun e he => ?_
  have hk : e.1 ≠ k := by simpa using (List.mem_filter.mp he).right
  simpa using hk.symm

theorem lookup_dropKey_of_ne (es : List (Key × Cached)) (h : k' ≠ k) :
    (dropKey es k).lookup k' = es.lookup k' := by
  induction es
  case nil => rfl
  case cons e es hi =>
    have ⟨l, x⟩ := e
    simp only [dropKey] at hi
    by_cases he : l = k
    case pos => simp [dropKey, he, List.lookup_cons, beq_false_of_ne h, hi]
    case neg => simp [dropKey, he, List.lookup_cons, hi]

theorem get?_keep_of_ne (c : Cache) (f : Facts) (h : k' ≠ k) :
    (c.keep k f).2.get? k' = c.get? k' := by
  have hb : (k' == k) = false := beq_false_of_ne h
  unfold keep
  split <;> simp [get?, List.lookup_cons, hb, lookup_dropKey_of_ne _ h]

theorem facts?_keep (c : Cache) (k k' : Key) (f : Facts) :
    (c.keep k f).2.facts? k' = if k = k' then some f else c.facts? k' := by
  simp only [facts?]
  split
  case isTrue h  => simp [← h]
  case isFalse h => rw [get?_keep_of_ne c f (Ne.symm h)]

theorem facts?_resetKey (c : Cache) (k k' : Key) :
    (c.resetKey k).facts? k' = if k = k' then none else c.facts? k' := by
  simp only [facts?, get?, resetKey]
  split
  case isTrue h  => rw [← h, lookup_dropKey_self]; rfl
  case isFalse h => rw [lookup_dropKey_of_ne _ (Ne.symm h)]

end Cache

namespace Toolchain

open Probing

inductive Action
  | setup
  | refresh
  | refreshMacros
  deriving DecidableEq

structure Use where
  toolchain : Toolchain
  action    : Action
  deriving DecidableEq

inductive Call
  | use (u : Use)
  | reset
  | resetKey (k : Key)

namespace Use

def key (w : World) (u : Use) : Key :=
  u.toolchain.key w

def perform (w : World) (u : Use) (c : Cache) : Probing (Cached × Cache) :=
  match u.action with
  | .setup         => u.toolchain.setup w c
  | .refresh       => u.toolchain.refresh w c
  | .refreshMacros => u.toolchain.refreshMacros w c

def change (w : World) (u : Use) (kept : Option Facts) : Facts :=
  let known := kept.getD (.ofExecutable (u.key w).compiler)
  match u.action with
  | .setup         => kept.getD (u.toolchain.populate w known).told
  | .refresh       => (u.toolchain.repopulate w known).told
  | .refreshMacros => (u.toolchain.addSymbolMacros w known).told

theorem perform_steady {w : World} (h : w.IsSteady) (u : Use) (c : Cache) :
    (u.perform w c).Steady := by
  have ⟨t, a⟩ := u
  cases a
  case setup =>
    simp only [perform, setup]
    split
    case h_1 => exact .pure _
    case h_2 => exact .bind (h.populate t _) fun _ => .pure _
  case refresh => exact .bind (h.repopulate t _) fun _ => .pure _
  case refreshMacros => exact .bind (h.addSymbolMacros t _) fun _ => .pure _

theorem perform_kept {w : World} {t : Toolchain} {c : Cache} {e : Cached}
    (h : c.get? (t.key w) = some e) : (perform w ⟨t, .setup⟩ c).told = (e, c) := by
  simp only [perform, setup, h]
  rfl

theorem perform_new {w : World} {u : Use} {c : Cache}
    (h : u.action = .setup → c.facts? (u.key w) = none) :
    (u.perform w c).told = c.keep (u.key w) (u.change w (c.facts? (u.key w))) := by
  have ⟨t, a⟩ := u
  cases a
  case refresh       => rfl
  case refreshMacros => rfl
  case setup =>
    have hf := h rfl
    have hc : c.get? (t.key w) = none := Option.map_eq_none_iff.mp hf
    rw [hf]
    simp only [perform, setup, hc]
    rfl

theorem perform_facts (w : World) (u : Use) (c : Cache) :
    (u.perform w c).told.1.facts = u.change w (c.facts? (u.key w)) ∧
    ∀ k, (u.perform w c).told.2.facts? k =
      if u.key w = k then some (u.change w (c.facts? (u.key w))) else c.facts? k := by
  by_cases h : u.action = .setup → c.facts? (u.key w) = none
  case pos =>
    rw [perform_new h]
    exact ⟨Cache.keep_facts .., fun k => Cache.facts?_keep ..⟩
  case neg =>
    have ⟨t, a⟩ := u
    have ⟨ha, hf⟩ := Classical.not_imp.mp h
    have ⟨f, hf⟩ := Option.ne_none_iff_exists'.mp hf
    have ⟨e, he, hef⟩ := Option.map_eq_some_iff.mp hf
    cases ha
    rw [perform_kept he, hf]
    refine ⟨hef, fun k => ?_⟩
    split
    case isTrue h  => exact h ▸ hf
    case isFalse h => rfl

end Use

def act (w : World) (c : Cache) : Call → Probing Cache
  | .use u      => do return (← u.perform w c).2
  | .reset      => return c.reset
  | .resetKey k => return c.resetKey k

def run (w : World) (c : Cache) (cs : List Call) : Probing Cache :=
  cs.foldlM (act w) c

def note (w : World) (k : Key) (us : List Use) : Call → List Use
  | .use u       => if u.key w = k then us ++ [u] else us
  | .reset       => []
  | .resetKey k' => if k' = k then [] else us

def recent (w : World) (k : Key) (cs : List Call) : List Use :=
  cs.foldl (note w k) []

def kept (w : World) (f : Option Facts) (us : List Use) : Option Facts :=
  us.foldl (fun f u => some (u.change w f)) f

variable {w : World} {c : Cache} {k : Key} {us : List Use}

theorem kept_cons (w : World) (f : Option Facts) (u : Use) (us : List Use) :
    kept w f (u :: us) = kept w (some (u.change w f)) us :=
  rfl

theorem kept_snoc (w : World) (f : Option Facts) (us : List Use) (u : Use) :
    kept w f (us ++ [u]) = some (u.change w (kept w f us)) := by
  simp [kept]

theorem act_steady (h : w.IsSteady) (c : Cache) (call : Call) : (act w c call).Steady := by
  cases call
  case use u    => exact .bind (u.perform_steady h c) fun _ => .pure _
  case reset    => exact .pure _
  case resetKey => exact .pure _

theorem run_steady (h : w.IsSteady) (c : Cache) (cs : List Call) : (run w c cs).Steady := by
  induction cs generalizing c
  case nil => exact .pure _
  case cons call cs hi => exact .bind (act_steady h c call) hi

theorem act_kept (hc : c.facts? k = kept w none us) (call : Call) :
    (act w c call).told.facts? k = kept w none (note w k us call) := by
  cases call
  case reset => rfl
  case resetKey k' =>
    have ha : (act w c (.resetKey k')).told.facts? k = if k' = k then none else c.facts? k :=
      c.facts?_resetKey k' k
    rw [ha, hc, note]
    split <;> rfl
  case use u =>
    have ha := (u.perform_facts w c).right k
    have hu : (act w c (.use u)).told = (u.perform w c).told.2 := rfl
    rw [hu, ha, note]
    split
    case isTrue h  => rw [h, hc, kept_snoc]
    case isFalse h => exact hc

theorem run_kept_from (h : w.IsSteady) (cs : List Call) (hc : c.facts? k = kept w none us) :
    (run w c cs).told.facts? k = kept w none (cs.foldl (note w k) us) := by
  induction cs generalizing c us
  case nil => exact hc
  case cons call cs hi =>
    have ht : (run w c (call :: cs)).told = (run w (act w c call).told cs).told :=
      Steady.told_bind fun c => run_steady h c cs
    rw [ht]
    exact hi (act_kept hc call)

-- What is kept for a key only depends on the uses since its last reset.
theorem run_kept (h : w.IsSteady) (k : Key) (cs : List Call) :
    (run w .empty cs).told.facts? k = kept w none (recent w k cs) :=
  run_kept_from h cs rfl

theorem mem_note {call : Call} (h : ∀ u ∈ us, u.key w = k) :
    ∀ u ∈ note w k us call, u.key w = k := by
  intro u hu
  cases call
  case reset => contradiction
  case resetKey =>
    simp only [note] at hu
    split at hu
    case isTrue  => contradiction
    case isFalse => exact h u hu
  case use v =>
    simp only [note] at hu
    split at hu
    case isFalse => exact h u hu
    case isTrue hv =>
      cases List.mem_append.mp hu
      case inl hu => exact h u hu
      case inr hu => exact List.mem_singleton.mp hu ▸ hv

theorem mem_recent (w : World) (k : Key) (cs : List Call) : ∀ u ∈ recent w k cs, u.key w = k :=
  List.foldlRecOn (motive := fun (us : List Use) => ∀ u ∈ us, u.key w = k) _ _ (by simp)
    fun _ h _ _ => mem_note h

end Toolchain
end SourceFlags
