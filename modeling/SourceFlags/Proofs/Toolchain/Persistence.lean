import Mathlib.Data.List.Induction
import SourceFlags.Proofs.Toolchain.Calls
import SourceFlags.Proofs.Toolchain.Learning

namespace SourceFlags.Toolchain

open Probing

def Call.Resets (k : Key) : Call → Prop
  | .use _       => False
  | .reset       => True
  | .resetKey k' => k' = k

structure Event where
  world : World
  call  : Call

def after (es : List Event) : Cache × History :=
  es.foldl (fun s e => act e.world s.1 e.call s.2) (.empty, [])

def known (k : Key) (es : List Event) : Option Facts :=
  (after es).1.facts? k

def knownPaths (k : Key) (es : List Event) (language : String) : List String :=
  ((known k es).getD (.ofExecutable k.compiler)).paths language

-- The event that has added a path, which is known since then, had a machine to search it on.
def AddedWhileSearchable (k : Key) (es : List Event) (language path : String) : Prop :=
  ∃ before e later, es = before ++ e :: later ∧ (∀ e' ∈ later, ¬e'.call.Resets k) ∧
    path ∉ knownPaths k before language ∧ path ∈ knownPaths k (before ++ [e]) language ∧
    e.world.isSearchable path = true

structure Moves (w : World) (call : Call) (k : Key) (old new : Option Facts) : Prop where
  stays  : ¬call.Resets k → old.isSome → new.isSome
  learns : ∀ g, new = some g →
    ¬call.Resets k ∧ (old.getD (.ofExecutable k.compiler)).Learns w g

variable {w : World} {c : Cache} {k : Key} {es es' : List Event} {e : Event} {f g : Facts}

theorem Use.perform_learns (w : World) (u : Use) (c : Cache) :
    (u.perform w c).Always fun x => ∃ g,
      ((c.facts? (u.key w)).getD (.ofExecutable (u.key w).compiler)).Learns w g ∧
      ∀ k, x.2.facts? k = if u.key w = k then some g else c.facts? k := by
  have ⟨t, a⟩ := u
  have hk : ∀ g k, (c.keep (t.key w) g).2.facts? k = if t.key w = k then some g else c.facts? k :=
    fun g k => c.facts?_keep (t.key w) k g
  cases a
  case refresh       => exact .bind (repopulate_learns w t _) fun g hg => .pure ⟨g, hg, hk g⟩
  case refreshMacros => exact .bind (addSymbolMacros_learns w t _) fun g hg => .pure ⟨g, hg, hk g⟩
  case setup =>
    simp only [perform, setup, Use.key]
    split
    case h_1 entry he =>
      have hf : c.facts? (t.key w) = some entry.facts := by rw [Cache.facts?, he]; rfl
      refine .pure ⟨entry.facts, hf ▸ .refl w _, fun k => ?_⟩
      by_cases h : t.key w = k
      case pos => exact (if_pos h).symm ▸ h ▸ hf
      case neg => exact (if_neg h).symm ▸ rfl
    case h_2 he =>
      have hf : c.facts? (t.key w) = none := by rw [Cache.facts?, he]; rfl
      rw [hf]
      exact .bind (populate_learns w t _) fun g hg => .pure ⟨g, hg, hk g⟩

theorem Moves.refl (w : World) (call : Call) (h : ¬call.Resets k) (old : Option Facts) :
    Moves w call k old old where
  stays  := fun _ => id
  learns := fun g hg => ⟨h, hg ▸ .refl w g⟩

theorem act_moves (w : World) (c : Cache) (call : Call) :
    (act w c call).Always fun c' => ∀ k, Moves w call k (c.facts? k) (c'.facts? k) := by
  cases call
  case reset => exact .pure fun k => ⟨fun h => absurd trivial h, fun _ h => nomatch h⟩
  case resetKey k' =>
    refine .pure fun k => ?_
    rw [c.facts?_resetKey k' k]
    split
    case isTrue h  => exact ⟨fun hr => absurd h hr, fun _ h => nomatch h⟩
    case isFalse h => exact .refl w (.resetKey k') h _
  case use u =>
    refine .bind (u.perform_learns w c) fun x ⟨g, hg, hx⟩ => .pure fun k => ?_
    rw [hx k]
    split
    case isFalse => exact .refl w _ id _
    case isTrue h =>
      cases h
      exact ⟨fun _ _ => rfl, fun _ h => ⟨id, Option.some.inj h ▸ hg⟩⟩

theorem after_snoc (es : List Event) (e : Event) :
    after (es ++ [e]) = act e.world (after es).1 e.call (after es).2 := by
  rw [after, List.foldl_concat]
  rfl

theorem known_snoc (k : Key) (es : List Event) (e : Event) :
    Moves e.world e.call k (known k es) (known k (es ++ [e])) := by
  simp only [known, after_snoc]
  exact act_moves e.world (after es).1 e.call (after es).2 k

theorem known_keeps (h : known k es = some f) (hr : ∀ e ∈ es', ¬e.call.Resets k) :
    ∃ g, known k (es ++ es') = some g ∧ f.Keeps g := by
  induction es' using List.reverseRecOn
  case nil => exact ⟨f, by rwa [List.append_nil], (Facts.Adds.refl f).keeps⟩
  case append_singleton es' e hi =>
    have ⟨g, hg, hk⟩ := hi fun e he => hr e <| List.mem_append_left _ he
    have hm := known_snoc k (es ++ es') e
    have hs := hm.stays (hr e (by simp)) (hg ▸ rfl)
    have ⟨g', hg'⟩ := Option.isSome_iff_exists.mp hs
    have hl := (hm.learns g' hg').right
    rw [hg, Option.getD_some] at hl
    exact ⟨g', by rwa [List.append_assoc] at hg', hk.trans hl.toKeeps⟩

theorem known_tidy (h : known k es = some f) : f.Tidy := by
  induction es using List.reverseRecOn generalizing f
  case nil => contradiction
  case append_singleton es e hi =>
    have hl := ((known_snoc k es e).learns f h).right
    refine hl.tidy ?_
    cases hk : known k es
    case none   => exact Facts.ofExecutable_tidy _
    case some g => exact hi hk

theorem mem_knownPaths_snoc {language path : String}
    (h : path ∈ knownPaths k (es ++ [e]) language) :
    ¬e.call.Resets k ∧ (path ∈ knownPaths k es language ∨ e.world.isSearchable path = true) := by
  have hm := known_snoc k es e
  cases hg : known k (es ++ [e])
  case none => simp [knownPaths, hg, Facts.ofExecutable, Facts.paths, Table.get?] at h
  case some g =>
    rw [knownPaths, hg, Option.getD_some] at h
    exact (hm.learns g hg).imp_right (·.searchable language path h)

theorem knownPaths_searchable {language path : String} (h : path ∈ knownPaths k es language) :
    AddedWhileSearchable k es language path := by
  induction es using List.reverseRecOn
  case nil => contradiction
  case append_singleton es e hi =>
    have ⟨hr, hs⟩ := mem_knownPaths_snoc h
    -- The event is the one that has added the path, or that one came before.
    by_cases hp : path ∈ knownPaths k es language
    case neg => exact ⟨es, e, [], rfl, by simp, hp, h, hs.resolve_left hp⟩
    case pos =>
      have ⟨before, e', later, he, hn, ha⟩ := hi hp
      refine ⟨before, e', later ++ [e], by simp [he], ?_, ha⟩
      exact List.forall_mem_append.mpr ⟨hn, by simpa using hr⟩

theorem known_grows_until_reset (h : known k es = some f) :
    (∀ es', (∀ e ∈ es', ¬e.call.Resets k) → ∃ g, known k (es ++ es') = some g ∧ f.Keeps g) ∧
    f.Tidy ∧
    ∀ language, ∀ path ∈ f.paths language, AddedWhileSearchable k es language path := by
  refine ⟨fun es' hr => known_keeps h hr, known_tidy h, fun language path hp => ?_⟩
  refine knownPaths_searchable ?_
  rwa [knownPaths, h, Option.getD_some]

def compiling (version directory : String) (others : List Rule) : World :=
  { World.ruled
      (⟨"gcc", some ["-v"], [], none, none, .exited 0 (some ("gcc version " ++ version ++ "\n"))⟩ ::
       ⟨"gcc", some ["-v", "-E", "-x", "c", "/dev/null"], [], none, none, .exited 0 (some
         ("#include <...> search starts here:\n " ++ directory ++ "\nEnd of search list.\n"))⟩ ::
       others) with
    systemDirectories := [directory] }

def gnu : Toolchain :=
  ofSettings .standard none

def installed : Event :=
  ⟨compiling "13.2.0" "/old" [], .use ⟨gnu, .setup⟩⟩

def upgraded : Event :=
  ⟨compiling "14.1.0" "/new" [⟨"cpp", none, ["-dM"], none, none, .exited 0 (some "#define A 1\n")⟩],
    .use ⟨gnu, .refresh⟩⟩

-- What has been found before an upgrade is still there after it, before what has come with it.
theorem known_after_upgrade :
    ∃ f g, known (gnu.key .bare) [installed] = some f ∧
      known (gnu.key .bare) [installed, upgraded] = some g ∧ f.Keeps g ∧ f.Tidy ∧
      g.version = some "13.2.0" ∧ f.paths "c" = ["/old"] ∧ g.paths "c" = ["/old", "/new"] ∧
      AddedWhileSearchable (gnu.key .bare) [installed] "c" "/old" := by
  have hv : (known (gnu.key .bare) [installed, upgraded]).map (·.version) =
    some (some "13.2.0") := by decide
  have ho : (known (gnu.key .bare) [installed]).map (·.paths "c") = some ["/old"] := by
    decide
  have hn : (known (gnu.key .bare) [installed, upgraded]).map (·.paths "c") =
    some ["/old", "/new"] := by decide
  have ⟨f, hf, hfp⟩ := Option.map_eq_some_iff.mp ho
  have ⟨hk, ht, ha⟩ := known_grows_until_reset hf
  have ⟨g, hg, hfg⟩ := hk [upgraded] (by simp [upgraded, Call.Resets])
  have hg : known (gnu.key .bare) [installed, upgraded] = some g := hg
  rw [hg] at hv hn
  exact ⟨f, g, hf, hg, hfg, ht, Option.some.inj hv, hfp, Option.some.inj hn,
    ha "c" "/old" (by simp [hfp])⟩

end SourceFlags.Toolchain
