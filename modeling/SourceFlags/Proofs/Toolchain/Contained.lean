import SourceFlags.Proofs.Toolchain.Calls

namespace SourceFlags

namespace Facts

structure Contains (f g : Facts) : Prop where
  version     : f.version = g.version
  target      : f.target = g.target
  installRoot : f.installRoot = g.installRoot
  options     : ∀ name v, g.options.get? name = some v → f.options.get? name = some v
  paths       : ∀ language, g.paths language <+: f.paths language
  macros      : ∀ name v, g.macros.get? name = some v → f.macros.get? name = some v
  symbolFiles : g.symbolFiles ⊆ f.symbolFiles

variable {f g k : Facts}

theorem Contains.refl (f : Facts) : f.Contains f where
  version     := rfl
  target      := rfl
  installRoot := rfl
  options     := fun _ _ => id
  paths       := fun _ => List.prefix_refl _
  macros      := fun _ _ => id
  symbolFiles := List.Subset.refl _

theorem get?_of_prefix {α : Type} {t u : Table α} {name : String} {a : α} (h : t <+: u)
    (ht : t.get? name = some a) : u.get? name = some a := by
  have ⟨v, hv⟩ := h
  rw [← hv]
  simp only [Table.get?, List.lookup_append] at ht ⊢
  rw [ht, Option.some_or]

theorem Contains.grow (h : f.Contains g) (hg : f.Grows k) (hv : k.version = f.version)
    (ht : k.target = f.target) (hr : k.installRoot = f.installRoot)
    (ho : ∀ name v, g.options.get? name = some v → k.options.get? name = some v) :
    k.Contains g where
  version     := hv.trans h.version
  target      := ht.trans h.target
  installRoot := hr.trans h.installRoot
  options     := ho
  paths       := fun language => (h.paths language).trans (hg.paths language)
  macros      := fun name v hm => get?_of_prefix hg.macros (h.macros name v hm)
  symbolFiles := List.Subset.trans h.symbolFiles hg.symbolFiles.subset

theorem Contains.adds (h : f.Contains g) (ha : f.Adds k) : k.Contains g :=
  h.grow ha.toGrows ha.version ha.target ha.installRoot (ha.options ▸ h.options)

theorem firstFilled_cons (s : Option String) {l : List (Option String)} (h : l ≠ []) :
    firstFilled (s :: l) = if s.any (!·.isEmpty) then s else firstFilled l := by
  cases l
  case nil    => contradiction
  case cons a => rfl

theorem firstFilled_again {s : Option String} {l : List (Option String)} (h : l ≠ [])
    (hs : s = firstFilled (none :: l)) : firstFilled (s :: l) = s := by
  have hn : firstFilled (none :: l) = firstFilled l := firstFilled_cons none h
  rw [firstFilled_cons s h, hs, hn, ite_self]

theorem Contains.addReport {fields : VersionReport.Fields} {executable : String}
    (hg : ((ofExecutable executable).addReport fields).Adds g) (h : f.Contains g) :
    (f.addReport fields).Contains g := by
  refine h.grow (f.addReport_grows fields) ?version ?target ?installRoot ?options
  case version     => exact firstFilled_again (by simp) (h.version.trans hg.version)
  case target      => exact firstFilled_again (by simp) (h.target.trans hg.target)
  case installRoot => exact firstFilled_again (by simp) (h.installRoot.trans hg.installRoot)
  case options =>
    intro name v hn
    have ho : g.options = Table.ofPairs fields := hg.options
    have hf : (f.addReport fields).options = f.options.overlay fields := rfl
    rw [hf, Table.get?_overlay, ← ho, hn, Option.some_or]

end Facts

namespace Toolchain

open Probing

variable {w : World} {t : Toolchain} {f : Facts} {u : Use} {us : List Use}

def fresh (w : World) (t : Toolchain) : Facts :=
  (t.setup w .empty).told.1.facts

def bare (w : World) (t : Toolchain) : Facts :=
  .ofExecutable (t.key w).compiler

theorem fresh_eq (w : World) (t : Toolchain) : t.fresh w = (t.populate w (t.bare w)).told :=
  (Use.perform_facts w ⟨t, .setup⟩ .empty).left

theorem populate_adds_report (h : w.IsSteady) (t : Toolchain) (f : Facts) :
    (f.addReport (Probe.fields w t.settings t.settings.compiler).told).Adds
      (t.populate w f).told := by
  have ⟨_, hf, ha⟩ := populate_adds f (h.fields t.settings t.settings.compiler) []
  exact hf ▸ ha

theorem populate_contains (h : w.IsSteady) (hf : f.Contains (t.fresh w)) :
    (t.populate w f).told.Contains (t.fresh w) := by
  have hb := populate_adds_report h t (t.bare w)
  rw [← fresh_eq] at hb
  exact (hf.addReport hb).adds (populate_adds_report h t f)

theorem addSymbolMacros_contains (hf : f.Contains (t.fresh w)) (t' : Toolchain) :
    (t'.addSymbolMacros w f).told.Contains (t.fresh w) :=
  hf.adds <| addSymbolMacros_adds w t' f []

namespace Use

def Agrees (w : World) (t : Toolchain) (u : Use) : Prop :=
  ∀ f, (u.toolchain.populate w f).told = (t.populate w f).told

theorem agrees_of_programs (hc : u.toolchain.settings.compiler = t.settings.compiler)
    (hx : u.toolchain.settings.cxxCompiler = t.settings.cxxCompiler)
    (hp : u.toolchain.settings.preprocessor = t.settings.preprocessor)
    (ht : u.toolchain.platform = t.platform) : u.Agrees w t := by
  have ⟨⟨⟨_, _, _, _, _, _, _⟩, _, _⟩, _⟩ := u
  have ⟨⟨_, _, _, _, _, _, _⟩, _, _⟩ := t
  cases hc
  cases hx
  cases hp
  cases ht
  exact fun _ => rfl

theorem change_refresh (h : w.IsSteady) (hr : u.action = .refresh) (f : Facts) :
    u.change w (some f) =
      (u.toolchain.addSymbolMacros w (u.toolchain.populate w f).told).told := by
  have ⟨t, a⟩ := u
  cases hr
  exact Steady.told_bind fun g => h.addSymbolMacros t g

theorem change_contains (h : w.IsSteady) (ha : u.Agrees w t) (hf : f.Contains (t.fresh w)) :
    (u.change w (some f)).Contains (t.fresh w) := by
  cases hu : u.action
  case setup => simpa only [change, hu, Option.getD_some] using hf
  case refreshMacros =>
    simpa only [change, hu, Option.getD_some] using addSymbolMacros_contains hf u.toolchain
  case refresh =>
    rw [change_refresh h hu, ha f]
    exact addSymbolMacros_contains (populate_contains h hf) u.toolchain

theorem change_bare (ha : u.action ≠ .refresh) :
    u.change w (some (t.bare w)) = t.bare w := by
  cases hu : u.action
  case setup         => simp only [change, hu, Option.getD_some]
  case refresh       => contradiction
  case refreshMacros => simp only [change, hu, Option.getD_some]; rfl

theorem refresh_bare (h : w.IsSteady) (ha : u.Agrees w t) (hr : u.action = .refresh) :
    (u.change w (some (t.bare w))).Contains (t.fresh w) := by
  rw [change_refresh h hr, ha, ← fresh_eq]
  exact addSymbolMacros_contains (.refl _) u.toolchain

-- The first use of a key goes from the bare facts, except that setting up looks for facts.
theorem change_none (hk : u.key w = t.key w) :
    u.change w none = if u.action = .setup then (u.toolchain.populate w (t.bare w)).told
      else u.change w (some (t.bare w)) := by
  cases hu : u.action
  all_goals simp [change, hu, bare, hk]

end Use

-- The key has first been used to read symbol files, and has never been refreshed.
def LeftBare (us : List Use) : Prop :=
  us.head?.map (·.action) = some .refreshMacros ∧ ∀ u ∈ us, u.action ≠ .refresh

instance (us : List Use) : Decidable (LeftBare us) :=
  inferInstanceAs <| Decidable (_ ∧ _)

theorem kept_contains (h : w.IsSteady) (ha : ∀ u ∈ us, u.Agrees w t)
    (hf : f.Contains (t.fresh w)) : ∃ g, kept w (some f) us = some g ∧ g.Contains (t.fresh w) := by
  induction us generalizing f
  case nil => exact ⟨f, rfl, hf⟩
  case cons u us hi =>
    have ⟨hu, hus⟩ := List.forall_mem_cons.mp ha
    exact hi hus (u.change_contains h hu hf)

theorem kept_bare (hn : ∀ u ∈ us, u.action ≠ .refresh) :
    kept w (some (t.bare w)) us = some (t.bare w) := by
  induction us
  case nil => rfl
  case cons u us hi =>
    have ⟨hu, hus⟩ := List.forall_mem_cons.mp hn
    rw [kept_cons, u.change_bare hu, hi hus]

-- Bare facts get all that is found when they are refreshed for the first time.
theorem kept_bare_contains (h : w.IsSteady) (ha : ∀ u ∈ us, u.Agrees w t)
    (hr : ¬∀ u ∈ us, u.action ≠ .refresh) :
    ∃ g, kept w (some (t.bare w)) us = some g ∧ g.Contains (t.fresh w) := by
  induction us
  case nil => simp at hr
  case cons u us hi =>
    have ⟨hu, hus⟩ := List.forall_mem_cons.mp ha
    rw [kept_cons]
    by_cases hc : u.action = .refresh
    case pos => exact kept_contains h hus (u.refresh_bare h hu hc)
    case neg =>
      -- Only a refresh looks for facts once some are kept, even bare ones.
      rw [u.change_bare hc]
      exact hi hus fun hn => hr <| List.forall_mem_cons.mpr ⟨hc, hn⟩

theorem kept_of_leftBare (hk : ∀ u ∈ us, u.key w = t.key w) (hl : LeftBare us) :
    kept w none us = some (t.bare w) := by
  cases us
  case nil => simp [LeftBare] at hl
  case cons u us =>
    have ⟨hu, hus⟩ := List.forall_mem_cons.mp hl.right
    have ha : u.action = .refreshMacros := by simpa using hl.left
    rw [kept_cons, u.change_none (hk u List.mem_cons_self), if_neg (by simp [ha]), u.change_bare hu,
      kept_bare hus]

theorem kept_of_not_leftBare (h : w.IsSteady) (hk : ∀ u ∈ us, u.key w = t.key w)
    (ha : ∀ u ∈ us, u.Agrees w t) (hl : ¬LeftBare us) (hn : us ≠ []) :
    ∃ f, kept w none us = some f ∧ f.Contains (t.fresh w) := by
  cases us
  case nil => contradiction
  case cons u us =>
    have ⟨hu, hus⟩ := List.forall_mem_cons.mp ha
    rw [kept_cons, u.change_none (hk u List.mem_cons_self)]
    cases hc : u.action
    case setup =>
      rw [if_pos rfl, hu, ← fresh_eq]
      exact kept_contains h hus (.refl _)
    case refresh =>
      rw [if_neg (by simp)]
      exact kept_contains h hus (u.refresh_bare h hu hc)
    case refreshMacros =>
      have hb : u.action ≠ .refresh := by simp [hc]
      rw [if_neg (by simp), u.change_bare hb]
      refine kept_bare_contains h hus fun hr => hl ⟨?_, List.forall_mem_cons.mpr ⟨hb, hr⟩⟩
      simp [hc]

def found (w : World) (cs : List Call) (t : Toolchain) : Probing Facts := do
  return (← t.setup w (← run w .empty cs)).1.facts

theorem found_told (h : w.IsSteady) (cs : List Call) (t : Toolchain) :
    (found w cs t).told = (kept w none (recent w (t.key w) cs)).getD (t.fresh w) := by
  have hs : (found w cs t).told = (Use.perform w ⟨t, .setup⟩ (run w .empty cs).told).told.1.facts :=
    Steady.told_bind fun c => .bind (Use.perform_steady h ⟨t, .setup⟩ c) fun _ => .pure _
  rw [hs, (Use.perform_facts w _ _).left]
  have hr := run_kept h (t.key w) cs
  cases hk : kept w none (recent w (t.key w) cs)
  case none =>
    rw [hk] at hr
    simp only [Use.change, Use.key, hr]
    exact (fresh_eq w t).symm
  case some f =>
    rw [hk] at hr
    simp only [Use.change, Use.key, hr]
    rfl

theorem found_contains_fresh_iff (h : w.IsSteady) (cs : List Call) (t : Toolchain) :
    let us := recent w (t.key w) cs
    let facts := (found w cs t).told
    (LeftBare us → facts = t.bare w) ∧
    ((∀ u ∈ us, u.Agrees w t) →
      (facts.Contains (t.fresh w) ↔ (LeftBare us → (t.bare w).Contains (t.fresh w)))) := by
  intro us facts
  have hk := mem_recent w (t.key w) cs
  have hf : facts = (kept w none us).getD (t.fresh w) := found_told h cs t
  have hb : LeftBare us → facts = t.bare w := by
    intro hl
    rw [hf, kept_of_leftBare hk hl, Option.getD_some]
  refine ⟨hb, fun ha => ⟨fun hc hl => hb hl ▸ hc, fun hc => ?_⟩⟩
  by_cases hl : LeftBare us
  case pos => exact hb hl ▸ hc hl
  case neg =>
    by_cases hn : us = []
    case pos => exact hf ▸ hn ▸ .refl _
    case neg =>
      have ⟨g, hg, hc⟩ := kept_of_not_leftBare h hk ha hl hn
      rw [hf, hg]
      exact hc

def reporting : World :=
  .ruled
    [⟨"gcc", some ["-v"], [], none, none, .exited 0 (some "gcc version 13.2.0\n")⟩,
     ⟨"cpp", none, ["-dM"], none, none, .exited 0 (some "#define __GNUC__ 13\n")⟩]

-- Reading symbol files first leaves nothing to be found, until one of the toolchains is refreshed.
theorem found_after_refreshMacros :
    let t := ofSettings .standard none
    let other := ofSettings { Settings.standard with logLevel := "DEBUG" } none
    let early := [Call.use ⟨other, .refreshMacros⟩]
    reporting.IsSteady ∧
    (found reporting early t).told = t.bare reporting ∧
    ¬(found reporting early t).told.Contains (t.fresh reporting) ∧
    (found reporting (early ++ [.use ⟨other, .refresh⟩]) t).told.Contains (t.fresh reporting) := by
  intro t other early
  have h : reporting.IsSteady := World.ruled_isSteady (by simp)
  have hv : (t.fresh reporting).version = some "13.2.0" := by decide
  have hl : LeftBare (recent reporting (t.key reporting) early) := by decide
  have hb := (found_contains_fresh_iff h early t).left hl
  refine ⟨h, hb, ?lacks, ?refreshed⟩
  case lacks =>
    rw [hb]
    intro hc
    rw [← hc.version] at hv
    contradiction
  case refreshed =>
    refine ((found_contains_fresh_iff h _ t).right ?agree).mpr fun hl => absurd hl ?found
    case found => decide
    case agree =>
      have hs : ∀ u ∈ recent reporting (t.key reporting) (early ++ [.use ⟨other, .refresh⟩]),
        u.toolchain = other := by decide
      intro u hu
      have hs := hs u hu
      exact Use.agrees_of_programs (hs ▸ rfl) (hs ▸ rfl) (hs ▸ rfl) (hs ▸ rfl)

end Toolchain
end SourceFlags
