import SourceFlags.Proofs.Toolchain.Asking
import SourceFlags.Proofs.Toolchain.Contained
import SourceFlags.Proofs.World.Places

namespace SourceFlags

open Text

namespace World

variable {w : World} {p q file : String}

theorem isExecutable_of_which (h : w.which p = some file) : w.isExecutable file = true := by
  simp only [which] at h
  split at h
  case isFalse => exact List.find?_some h
  case isTrue =>
    split at h
    case isTrue he => exact Option.some.inj h ▸ he
    case isFalse   => contradiction

theorem joinText_empty_left (p : String) : Path.joinText "" p = p := by
  simp [Path.joinText]

theorem slash_mem_joinText {directory : String} (h : directory ≠ "") (p : String) :
    '/' ∈ (Path.joinText directory p).toList := by
  simp only [Path.joinText]
  split
  case isTrue ha => exact List.mem_of_mem_head? (by simpa [Path.isAbsolute] using ha)
  case isFalse =>
    split
    case isFalse => simp
    case isTrue hl =>
      have hd : directory.toList ≠ [] := by simpa using h
      rw [List.getLast?_eq_some_getLast hd] at hl
      have hm := List.getLast_mem hd
      simp_all

theorem which_of_which (h : w.which p = some file) : file = p ∨ w.which file = some file := by
  by_cases hs : '/' ∈ file.toList
  case pos => exact .inr <| by simp [which, hs, isExecutable_of_which h]
  case neg =>
    refine .inl ?_
    simp only [which] at h
    split at h
    case isTrue =>
      split at h
      case isTrue  => exact (Option.some.inj h).symm
      case isFalse => contradiction
    case isFalse =>
      have ⟨directory, _, hj⟩ := List.mem_map.mp <| List.mem_of_find?_eq_some h
      have hd : directory = "" := by
        by_contra hd
        exact hs <| hj ▸ slash_mem_joinText hd p
      rw [← hj, hd, joinText_empty_left]

end World

namespace Probing

variable {α β : Type} {R : α → α → Prop} {S : β → β → Prop} {x y : Probing α} {f g : α → Probing β}

def Alike (R : α → α → Prop) (x y : Probing α) : Prop :=
  ∀ past past', R (x past).1 (y past').1

namespace Alike

theorem pure {a b : α} (h : R a b) : Alike R (Pure.pure a) (Pure.pure b) :=
  fun _ _ => h

theorem bind (hx : x.Alike R y) (hf : ∀ a b, R a b → (f a).Alike S (g b)) :
    Alike S (x >>= f) (y >>= g) :=
  fun past past' => hf _ _ (hx past past') _ _

end Alike
end Probing

-- The reason why a program cannot be started makes no difference: it may name the program.
def Outcome.Alike : Outcome → Outcome → Prop
  | .notLaunched _, .notLaunched _ => True
  | a, b                           => a = b

structure Probe.Answer.Alike (a b : Probe.Answer) : Prop where
  code   : a.code = b.code
  output : a.output = b.output

theorem Probe.Answer.Alike.isLaunched {a b : Probe.Answer} (h : a.Alike b) :
    a.isLaunched = b.isLaunched := by
  rw [Answer.isLaunched, h.code, Answer.isLaunched]

theorem Probe.Answer.Alike.isOk {a b : Probe.Answer} (h : a.Alike b) : a.isOk = b.isOk := by
  rw [Answer.isOk, h.code, Answer.isOk]

-- What comes of a run is told by the file that the program's name stands for.
def World.RunsFiles (w : World) : Prop :=
  ∀ p q, Toolchain.resolved w p = Toolchain.resolved w q → ∀ past arguments input fromHome locale,
    (w.respond past ⟨p :: arguments, input, fromHome, locale⟩).Alike
      (w.respond past ⟨q :: arguments, input, fromHome, locale⟩)

structure Settings.IsNamed (s : Settings) : Prop where
  compiler     : s.compiler ≠ ""
  cxxCompiler  : s.cxxCompiler ≠ ""
  preprocessor : s.preprocessor ≠ ""

namespace Toolchain

open Probing Probe

variable {w : World} {p q : String} {s s' : Settings} {t t' : Toolchain}

theorem which_eq_of_resolved (h : resolved w p = resolved w q) : w.which p = w.which q := by
  simp only [resolved] at h
  cases hp : w.which p <;> cases hq : w.which q <;> simp only [hp, hq, Option.getD] at h
  case none.none => rfl
  case some.some => rw [h]
  case none.some file =>
    cases World.which_of_which hq
    case inl hf => rw [← hp, ← hq, h, hf]
    case inr hf => rw [← h, hp] at hf; contradiction
  case some.none file =>
    cases World.which_of_which hp
    case inl hf => rw [← hp, ← hq, ← h, hf]
    case inr hf => rw [h, hq] at hf; contradiction

namespace Answers

structure Alike (a b : Answers) : Prop where
  version : a.version.Alike b.version
  macros  : a.macros = b.macros
  search  : ∀ language, (a.search language).Alike (b.search language)

variable {a b : Answers}

theorem addTo_eq (hk : t.key w = t'.key w) (h : a.Alike b) (f : Facts) :
    a.addTo w t f = b.addTo w t' f := by
  have ⟨hc, _, _, hp⟩ := Key.mk.inj hk
  have hv : fieldsOf a.version = fieldsOf b.version := by
    rw [fieldsOf, h.version.isLaunched, h.version.output, fieldsOf]
  have hl : ∀ language, listOf w (a.search language) = listOf w (b.search language) := by
    intro language
    rw [listOf, (h.search language).isOk, (h.search language).output, listOf]
  have hg : ∀ f listed, chosen w t.settings.compiler f listed =
      chosen w t'.settings.compiler f listed := by
    intro f listed
    simp only [chosen, guess, which_eq_of_resolved hc]
  simp only [addTo, lists, macrosOn, hv, hl, hg, hp, h.macros]

end Answers

section

variable (h : w.IsSteady) (hf : w.RunsFiles)

include h hf

theorem query_alike (hr : resolved w p = resolved w q) (arguments : List String)
    (input : Option String) :
    (query w p arguments input).Alike Answer.Alike (query w q arguments input) := by
  have hs : ∀ fromHome, (start w ⟨p :: arguments, input, fromHome, locale⟩).Alike
      Outcome.Alike (start w ⟨q :: arguments, input, fromHome, locale⟩) :=
    fun fromHome past past' => by
      have ha := hf p q hr past arguments input fromHome locale
      rwa [h past past' ⟨q :: arguments, _, _, _⟩] at ha
  have ho : ∀ a b, Outcome.Alike a b →
      (Answer.ofOutcome p arguments a).Alike (Answer.ofOutcome q arguments b) := by
    intro a b hab
    cases a <;> cases b <;> cases hab <;> exact ⟨rfl, rfl⟩
  refine .bind (hs false) fun a b hab => ?_
  cases a <;> cases b <;> try contradiction
  case notLaunched.notLaunched => exact .bind (hs true) fun a b hab => .pure (ho a b hab)
  all_goals exact .pure (ho _ _ hab)

theorem macros_alike (hr : resolved w p = resolved w q) (hp : p ≠ "") (hq : q ≠ "")
    (language : String) :
    (Probe.macros w s language p).Alike Eq (Probe.macros w s' language q) := by
  have hm : ∀ a b : Answer, a.Alike b → macrosOf a = macrosOf b := by
    intro a b hab
    rw [macrosOf, hab.isOk, hab.output, macrosOf]
  simp only [Probe.macros, programOr, String.isEmpty_iff, hp, hq, if_false]
  exact .bind (query_alike h hf hr _ _) fun a b hab => .pure (hm a b hab)

theorem predefined_alike (hk : t.key w = t'.key w) (ht : t.settings.IsNamed)
    (ht' : t'.settings.IsNamed) :
    (predefined w t.settings).Alike Eq (predefined w t'.settings) := by
  have ⟨hc, _, hp, _⟩ := Key.mk.inj hk
  refine .bind (macros_alike h hf hp ht.preprocessor ht'.preprocessor _) fun a b hab => ?_
  cases hab
  cases a
  case some ms => exact .pure rfl
  case none    => exact macros_alike h hf hc ht.compiler ht'.compiler _

theorem ask_alike (hk : t.key w = t'.key w) (ht : t.settings.IsNamed) (ht' : t'.settings.IsNamed) :
    (ask w t.settings).Alike Answers.Alike (ask w t'.settings) := by
  have ⟨hc, hx, _, _⟩ := Key.mk.inj hk
  refine .bind (query_alike h hf hc _ _) fun version version' hv => ?_
  refine .bind (predefined_alike h hf hk ht ht') fun macros macros' hm => ?_
  refine .bind (query_alike h hf hc _ _) fun c c' hcs => ?_
  refine .bind (query_alike h hf hx _ _) fun cxx cxx' hxs => .pure ⟨hv, hm, fun language => ?_⟩
  cases language
  case c   => exact hcs
  case cxx => exact hxs

theorem populate_eq_of_key (hk : t.key w = t'.key w) (ht : t.settings.IsNamed)
    (ht' : t'.settings.IsNamed) (f : Facts) :
    (t.populate w f).told = (t'.populate w f).told := by
  have ha := ask_alike h hf hk ht ht' [] []
  rw [populate_eq, populate_eq, told_map, told_map]
  exact Answers.addTo_eq hk ha f

end

def Call.SetsUpOrResets : Call → Prop
  | .use u => u.action = .setup ∧ u.toolchain.settings.IsNamed
  | _      => True

theorem use_mem_of_mem_recent {k : Key} {cs : List Call} {u : Use} (h : u ∈ recent w k cs) :
    .use u ∈ cs := by
  refine List.foldlRecOn (motive := fun us : List Use => ∀ u ∈ us, .use u ∈ cs) cs _ (by simp)
    (fun us hus call hc u hu => ?_) u h
  cases call
  case reset => contradiction
  case resetKey =>
    simp only [note] at hu
    split at hu
    case isTrue  => contradiction
    case isFalse => exact hus u hu
  case use v =>
    simp only [note] at hu
    split at hu
    case isFalse => exact hus u hu
    case isTrue =>
      cases List.mem_append.mp hu
      case inl hu => exact hus u hu
      case inr hu => exact List.mem_singleton.mp hu ▸ hc

theorem kept_setups {us : List Use} (h : ∀ u ∈ us, u.action = .setup) (f : Facts) :
    kept w (some f) us = some f := by
  induction us
  case nil => rfl
  case cons u us hi =>
    have ⟨hu, hus⟩ := List.forall_mem_cons.mp h
    have hc : u.change w (some f) = f := by simp only [Use.change, hu, Option.getD_some]
    rw [kept_cons, hc, hi hus]

-- Whichever toolchain has set up a key first, it has found what any other would find for the key.
theorem kept_setups_none {us : List Use} (hk : ∀ u ∈ us, u.key w = t.key w)
    (h : ∀ u ∈ us, u.action = .setup) (ha : ∀ u ∈ us, u.Agrees w t) :
    kept w none us = if us = [] then none else some (t.fresh w) := by
  cases us
  case nil => rfl
  case cons u us =>
    have ⟨hu, hus⟩ := List.forall_mem_cons.mp h
    rw [kept_cons, u.change_none (hk u List.mem_cons_self), if_pos hu, kept_setups hus,
      ha u List.mem_cons_self, ← fresh_eq, if_neg (List.cons_ne_nil u us)]

theorem found_shared (h : w.IsSteady) (hf : w.RunsFiles) {cs : List Call}
    (hcs : ∀ call ∈ cs, call.SetsUpOrResets) (ht : t.settings.IsNamed) :
    (found w cs t).Always (· = t.fresh w) ∧
    ∀ past,
      let after := run w .empty cs past
      (after.1.facts? (t.key w) ≠ none ↔ recent w (t.key w) cs ≠ []) ∧
      (after.1.facts? (t.key w) ≠ none → (t.setup w after.1 after.2).2 = after.2) := by
  have hk := mem_recent w (t.key w) cs
  have hu := fun u hu => hcs (.use u) (use_mem_of_mem_recent (w := w) (k := t.key w) hu)
  have ha : ∀ u ∈ recent w (t.key w) cs, u.Agrees w t :=
    fun u hm => populate_eq_of_key h hf (hk u hm) (hu u hm).right ht
  have hr := kept_setups_none hk (fun u hm => (hu u hm).left) ha
  constructor
  case left =>
    intro past
    have hs : (found w cs t).Steady := .bind (run_steady h .empty cs) fun c =>
      .bind (Use.perform_steady h ⟨t, .setup⟩ c) fun _ => .pure _
    rw [hs past, found_told h, hr]
    split <;> rfl
  case right =>
    intro past after
    have hc : after.1.facts? (t.key w) = _ := run_steady h .empty cs past ▸ run_kept h (t.key w) cs
    refine ⟨by rw [hc, hr]; split <;> simp_all, fun hn => ?_⟩
    have ⟨entry, he⟩ : ∃ entry, after.1.get? (t.key w) = some entry :=
      Option.ne_none_iff_exists'.mp fun hn' => hn <| Option.map_eq_none_iff.mpr hn'
    simp only [setup, he]
    rfl

def byFile (w : World) : World :=
  let named := fun run : Run => { run with command := run.command.modifyHead (resolved w) }
  { w with respond := fun past run => w.respond past (named run) }

section

variable (w : World)

theorem resolved_byFile (p : String) : resolved (byFile w) p = resolved w p :=
  rfl

theorem respond_byFile (past : History) (p : String) (arguments : List String)
    (input : Option String) (fromHome : Bool) (locale : String) :
    (byFile w).respond past ⟨p :: arguments, input, fromHome, locale⟩ =
      w.respond past ⟨resolved w p :: arguments, input, fromHome, locale⟩ :=
  rfl

theorem byFile_runsFiles : (byFile w).RunsFiles := by
  intro p q hr past arguments input fromHome locale
  rw [resolved_byFile, resolved_byFile] at hr
  rw [respond_byFile, respond_byFile, hr]
  generalize w.respond past _ = outcome
  cases outcome <;> first | rfl | trivial

variable {w} in
theorem byFile_isSteady (h : w.IsSteady) : (byFile w).IsSteady :=
  fun _ _ _ => h _ _ _

end

def searching : World :=
  { World.ruled
      [⟨"/bin/gcc", some ["-v"], [], none, none, .exited 0 (some "gcc version 13.2.0\n")⟩] with
    files := .directory .full
      [("bin".toList, .directory .full [("gcc".toList, .file (.text "") true)])]
    environment := [("PATH", "/bin")] }

theorem which_searching :
    searching.which "gcc" = some "/bin/gcc" ∧ searching.which "/bin/gcc" = some "/bin/gcc" := by
  have hx : searching.isExecutable "/bin/gcc" = _ :=
    searching.isExecutable_eq (by decide) (by decide) rfl (by decide)
      (by decide)
  have hp : searching.searchPath.map (Path.joinText · "gcc") = ["/bin/gcc"] := by decide
  have ht : searching.isExecutable "/bin/gcc" = true := hx.trans (by decide)
  simp [World.which, hp, ht]

def called (compiler : String) : Toolchain :=
  ofSettings { Settings.standard with compiler } none

theorem called_isNamed {compiler : String} (h : compiler ≠ "") :
    (called compiler).settings.IsNamed := by
  refine ⟨h, ?_, ?_⟩ <;> simp [called, ofSettings, Settings.standard]

theorem query_exited {w : World} {program : String} {arguments : List String}
    {input : Option String} {code : Int} {output : Option String}
    (h : w.respond [] ⟨program :: arguments, input, false, locale⟩ = .exited code output) :
    (query w program arguments input).told =
      .ofOutcome program arguments (.exited code output) := by
  simp only [query, told, start, bind, StateT.bind, h]
  rfl

theorem searching_isSteady : (byFile searching).IsSteady :=
  byFile_isSteady <| World.ruled_isSteady (by simp)

theorem version_searching :
    ((called "gcc").fresh (byFile searching)).version = some "13.2.0" := by
  have hr : (byFile searching).respond [] ⟨["gcc", "-v"], none, false, locale⟩ =
      .exited 0 (some "gcc version 13.2.0\n") := by
    rw [respond_byFile, resolved, which_searching.left]
    decide
  have hc : (called "gcc").settings.compiler = "gcc" := rfl
  rw [fresh_eq, (populate_adds_report searching_isSteady _ _).version, fields_eq, told_map, hc,
    query_exited hr]
  decide

theorem found_by_other_name :
    let w := byFile searching
    let t := called "gcc"
    let other := called "/bin/gcc"
    let after := run w .empty [.use ⟨other, .setup⟩] []
    w.IsSteady ∧ w.RunsFiles ∧
    (found w [.use ⟨other, .setup⟩] t).told = t.fresh w ∧
    (t.fresh w).version = some "13.2.0" ∧
    (t.setup w after.1 after.2).2 = after.2 := by
  intro w t other after
  have h : w.IsSteady := searching_isSteady
  have hf : w.RunsFiles := byFile_runsFiles searching
  have hcs : ∀ call ∈ [Call.use ⟨other, .setup⟩], call.SetsUpOrResets := by
    simpa [Call.SetsUpOrResets] using called_isNamed (by simp)
  have ht : t.settings.IsNamed := called_isNamed (by simp)
  have ⟨ha, hn⟩ := found_shared h hf hcs ht
  have ⟨hg, hb⟩ := which_searching
  have hr : resolved w "/bin/gcc" = "/bin/gcc" := by rw [resolved_byFile, resolved, hb]; rfl
  have hrg : resolved w "gcc" = "/bin/gcc" := by rw [resolved_byFile, resolved, hg]; rfl
  have hk : other.key w = t.key w := Key.mk.injEq .. ▸ ⟨hr.trans hrg.symm, rfl, rfl, rfl⟩
  refine ⟨h, hf, ha [], version_searching, ((hn []).right ?stored)⟩
  case stored =>
    refine (hn []).left.mpr ?_
    simp [recent, note, Use.key, hk]

end Toolchain
end SourceFlags
