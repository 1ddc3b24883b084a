import SourceFlags.Proofs.Path.Above
import SourceFlags.Proofs.Session.Arguments
import SourceFlags.Proofs.Toolchain.Calls

namespace SourceFlags

open SourceFlags.Path

namespace Toolchain

open Probing

variable {w : World} {t : Toolchain} {c : Cache} {file : String}

def reported (w : World) (s : Settings) (file : String) (arguments : List String) : Table String :=
  let directives := Directive.read (sourceOf w file)
  let language := (Language.ofFile file).name
  .ofPairs ((Probe.sourceMacros w s directives language arguments "").told.getD [])

def recalled (w : World) (t : Toolchain) (file : String) (arguments : List String) : Table String :=
  (t.fileMacros.get? file).getD (reported w t.settings file arguments)

def knowing (t : Toolchain) (file : String) (macros : Table String) : Toolchain :=
  { t with fileMacros := t.fileMacros.put file macros }

theorem macrosOfFile_always (h : w.IsSteady) (t : Toolchain) (hf : w.absoluteText file = file)
    (extra : List String) :
    (t.macrosOfFile w file extra).Always
      (· = (t.recalled w file extra, t.knowing file (t.recalled w file extra))) := by
  simp only [macrosOfFile, hf]
  cases hk : t.fileMacros.get? file
  case some known =>
    have hr : t.recalled w file extra = known := by rw [recalled, hk, Option.getD_some]
    rw [hr, knowing, Table.put_of_get? hk]
    exact .pure rfl
  case none =>
    have hr : t.recalled w file extra = reported w t.settings file extra := by
      rw [recalled, hk, Option.getD_none]
    rw [hr]
    exact .bind (h.sourceMacros _ _ _ _ _) fun found hs => .pure (by rw [hs]; rfl)

theorem setup_always (h : w.IsSteady) (t : Toolchain) (c : Cache) :
    (t.setup w c).Always (· = (t.setup w c).told) :=
  Use.perform_steady h ⟨t, .setup⟩ c

theorem setup_again (w : World) (t : Toolchain) (c : Cache) :
    (t.setup w (t.setup w c).told.2).told = (t.setup w c).told := by
  cases hc : c.get? (t.key w)
  case some e =>
    have hs : (t.setup w c).told = (e, c) := Use.perform_kept hc
    rw [hs]
    exact hs
  case none =>
    have hn : c.facts? (t.key w) = none := Option.map_eq_none_iff.mpr hc
    have hs : (t.setup w c).told = c.keep (t.key w) _ :=
      Use.perform_new (u := ⟨t, .setup⟩) fun _ => hn
    rw [hs]
    exact Use.perform_kept (Cache.get?_keep ..)

theorem setup_knowing (w : World) (t : Toolchain) (file : String) (macros : Table String)
    (c : Cache) : (t.knowing file macros).setup w c = t.setup w c :=
  rfl

end Toolchain

namespace Session

open Toolchain Probing

structure Request where
  source     : String
  target     : Option String
  fileMacros : Bool

structure Reply where
  request : Request
  answer  : Except Error Resolved

def Reply.askedWith? (file : String) (y : Reply) : Option (List String) :=
  match y.answer with
  | .ok r    => if y.request.fileMacros && r.source == file then some r.arguments else none
  | .error _ => none

def firstAskedWith? (file : String) (ys : List Reply) : Option (List String) :=
  ys.findSome? (·.askedWith? file)

def reply (w : World) (s : Session) (q : Request) : Probing (Except Error Resolved × Session) :=
  s.resolve w q.source q.target q.fileMacros

def replies (w : World) (s : Session) : List Request → Probing (List Reply × Session)
  | []      => return ([], s)
  | q :: qs => do
    let (answer, s) ← s.reply w q
    let (ys, s) ← s.replies w qs
    return (⟨q, answer⟩ :: ys, s)

inductive Answered (w : World) (s : Session) (q : Request) : Except Error Resolved × Session → Prop
  | failed {e s'} (toolchain : s'.toolchain = s.toolchain) (cache : s'.cache = s.cache) :
    Answered w s q (.error e, s')
  | plain {r s'} (wanted : q.fileMacros = false) (source : r.source = w.absoluteText q.source)
    (setup : (s.toolchain.setup w s.cache).told = (r.facts, s'.cache))
    (macros : r.macros = r.facts.facts.macros) (toolchain : s'.toolchain = s.toolchain) :
    Answered w s q (.ok r, s')
  | fetched {r s'} (wanted : q.fileMacros = true) (source : r.source = w.absoluteText q.source)
    (setup : (s.toolchain.setup w s.cache).told = (r.facts, s'.cache))
    (macros : r.macros =
      r.facts.facts.macros.overlay (s.toolchain.recalled w r.source r.arguments))
    (toolchain : s'.toolchain =
      s.toolchain.knowing r.source (s.toolchain.recalled w r.source r.arguments)) :
    Answered w s q (.ok r, s')

variable {w : World} {s s₀ : Session} {q : Request} {ys : List Reply}

theorem macrosFor_always (h : w.IsSteady) (s : Session) (facts : Facts) {source : String}
    (hs : w.absoluteText source = source) (arguments : List String) :
    let told := s.toolchain.recalled w source arguments
    (s.macrosFor w true facts source arguments).Always
      (· = (facts.macros.overlay told, s.toolchain.knowing source told)) :=
  .bind (macrosOfFile_always h s.toolchain hs arguments) fun _ hm => .pure (by rw [hm])

theorem complete_answered (h : w.IsSteady) (hw : isAbsolute w.cwd = true) {s' : Session}
    (ht : s'.toolchain = s.toolchain) (hc : s'.cache = s.cache) (q : Request)
    (project : Option Loaded) (own : List String) :
    (s'.complete w project (w.absoluteText q.source) own q.fileMacros).Always
      fun x => Answered w s q (.ok x.1, x.2) := by
  have hf := absoluteText_absoluteText hw q.source
  refine .bind (setup_always h s'.toolchain s'.cache) fun ⟨entry, cache⟩ hs => ?_
  have hs : (s.toolchain.setup w s.cache).told = (entry, cache) := (ht ▸ hc ▸ hs).symm
  cases hq : q.fileMacros
  case false => exact .pure (.plain hq rfl hs rfl ht)
  case true =>
    refine .bind (macrosFor_always h s' entry.facts hf _) fun _ hm => .pure ?_
    rw [hm, ht]
    exact .fetched hq rfl hs rfl rfl

theorem reply_answered (h : w.IsSteady) (hw : isAbsolute w.cwd = true) (s : Session) (q : Request) :
    (s.reply w q).Always (Answered w s q) := by
  have ⟨ht, hc⟩ := projectFor_beside w s q.source
  rcases hp : s.projectFor w q.source with ⟨_ | project, s'⟩ <;> rw [hp] at ht hc
  case error e =>
    simp only [reply, resolve, hp]
    exact .pure (.failed ht hc)
  case ok =>
    cases ho : ownArguments w project (w.absoluteText q.source) q.target
    case error e =>
      simp only [reply, resolve, hp, ho]
      exact .pure (.failed ht hc)
    case ok own =>
      rw [reply, resolve_ok hp ho]
      exact .bind (complete_answered h hw ht hc q project own) fun _ ha => .pure ha

namespace Answered

variable {x : Except Error Resolved × Session}

theorem of_ok {r : Resolved} (h : Answered w s q x) (hr : x.1 = .ok r) :
    r.source = w.absoluteText q.source ∧ (s.toolchain.setup w s.cache).told.1 = r.facts ∧
    r.macros =
      if q.fileMacros then
        r.facts.facts.macros.overlay (s.toolchain.recalled w r.source r.arguments)
      else r.facts.facts.macros := by
  cases h
  case failed => cases hr
  case plain hq hs hf hm _ =>
    cases hr
    exact ⟨hs, by rw [hf], by simpa [hq] using hm⟩
  case fetched hq hs hf hm _ =>
    cases hr
    exact ⟨hs, by rw [hf], by simpa [hq] using hm⟩

theorem settings_eq (h : Answered w s q x) :
    x.2.toolchain.settings = s.toolchain.settings := by
  cases h
  case failed ht _        => rw [ht]
  case plain ht           => rw [ht]
  case fetched ht         => rw [ht, knowing]

theorem setup_eq (h : Answered w s q x) :
    (x.2.toolchain.setup w x.2.cache).told.1 = (s.toolchain.setup w s.cache).told.1 := by
  cases h
  case failed ht hc => simp only [ht, hc]
  case plain s' _ _ hs _ ht =>
    have hc : s'.cache = (s.toolchain.setup w s.cache).told.2 := by rw [hs]
    rw [ht, hc, setup_again]
  case fetched s' _ _ hs _ ht =>
    have hc : s'.cache = (s.toolchain.setup w s.cache).told.2 := by rw [hs]
    rw [ht, setup_knowing, hc, setup_again]

theorem known_eq (h : Answered w s q x) (file : String) :
    x.2.toolchain.fileMacros.get? file =
      (s.toolchain.fileMacros.get? file).or
        ((Reply.askedWith? file ⟨q, x.1⟩).map (reported w s.toolchain.settings file)) := by
  cases h
  case failed ht _       => simp [Reply.askedWith?, ht]
  case plain hq _ _ _ ht => simp [Reply.askedWith?, hq, ht]
  case fetched r _ hq _ _ _ ht =>
    rw [ht, knowing]
    by_cases hf : r.source = file
    case neg => simp [Table.get?_put_of_ne _ (Ne.symm hf), Reply.askedWith?, hf]
    case pos =>
      have ha : Reply.askedWith? file ⟨q, .ok r⟩ = some r.arguments := by
        simp [Reply.askedWith?, hq, hf]
      rw [ha, hf, Table.get?_put_self, recalled]
      cases s.toolchain.fileMacros.get? file <;> rfl

end Answered

-- What a session knows after requests: no more than the first answers about each file.
structure Follows (w : World) (s₀ : Session) (ys : List Reply) (s : Session) : Prop where
  settings : s.toolchain.settings = s₀.toolchain.settings
  setup    : (s.toolchain.setup w s.cache).told.1 = (s₀.toolchain.setup w s₀.cache).told.1
  known    : ∀ file, s.toolchain.fileMacros.get? file =
    (s₀.toolchain.fileMacros.get? file).or
      ((firstAskedWith? file ys).map (reported w s₀.toolchain.settings file))

namespace Follows

theorem refl (w : World) (s : Session) : Follows w s [] s where
  settings := rfl
  setup    := rfl
  known    := fun _ => (Option.or_none ..).symm

theorem firstAskedWith?_concat (file : String) (ys : List Reply) (y : Reply) :
    firstAskedWith? file (ys ++ [y]) = (firstAskedWith? file ys).or (y.askedWith? file) := by
  simp [firstAskedWith?]

theorem recalled_eq (h : Follows w s₀ ys s) (file : String) (arguments : List String) :
    s.toolchain.recalled w file arguments =
      s₀.toolchain.recalled w file ((firstAskedWith? file ys).getD arguments) := by
  simp only [recalled, h.known, h.settings]
  cases s₀.toolchain.fileMacros.get? file <;> cases firstAskedWith? file ys <;> rfl

theorem concat {x : Except Error Resolved × Session} (h : Follows w s₀ ys s)
    (ha : Answered w s q x) : Follows w s₀ (ys ++ [⟨q, x.1⟩]) x.2 where
  settings := ha.settings_eq.trans h.settings
  setup    := ha.setup_eq.trans h.setup
  known    := fun file => by
    rw [ha.known_eq, h.known, h.settings, firstAskedWith?_concat, Option.map_or, Option.or_assoc]

theorem replies (h : w.IsSteady) (hw : isAbsolute w.cwd = true) (hs : Follows w s₀ ys s)
    (qs : List Request) :
    (s.replies w qs).Always fun x => x.1.map (·.request) = qs ∧ Follows w s₀ (ys ++ x.1) x.2 := by
  induction qs generalizing s ys
  case nil => exact .pure ⟨rfl, by rwa [List.append_nil]⟩
  case cons q qs hi =>
    refine .bind (reply_answered h hw s q) fun ⟨answer, s'⟩ ha => ?_
    refine .bind (hi (hs.concat ha)) fun ⟨later, s''⟩ ⟨hq, hf⟩ => .pure ⟨?_, ?_⟩
    · rw [List.map_cons, hq]
    · rwa [← List.singleton_append, ← List.append_assoc]

end Follows

-- Whatever has been asked before, the macros of a file are those of the toolchain, and over them
-- what is said of the file under the arguments of the first reply that tells its macros.
theorem resolve_macros (h : w.IsSteady) (hw : isAbsolute w.cwd = true) (s : Session)
    (qs : List Request) (q : Request) (past : History) :
    let x := s.replies w qs past
    let ys := x.1.1
    ys.map (·.request) = qs ∧ ∀ r, (x.1.2.reply w q x.2).1.1 = .ok r →
      r.source = w.absoluteText q.source ∧
      r.facts = (s.toolchain.setup w s.cache).told.1 ∧
      r.macros =
        if q.fileMacros then
          let arguments := (firstAskedWith? r.source ys).getD r.arguments
          let own := (s.toolchain.fileMacros.get? r.source).getD
            (reported w s.toolchain.settings r.source arguments)
          r.facts.facts.macros.overlay own
        else r.facts.facts.macros := by
  intro x ys
  have ⟨hq, hf⟩ := Follows.replies h hw (.refl w s) qs past
  have hf : Follows w s ys x.1.2 := hf
  refine ⟨hq, fun r hr => ?_⟩
  have ⟨hs, hc, hm⟩ := (reply_answered h hw x.1.2 q x.2).of_ok hr
  refine ⟨hs, hc.symm.trans hf.setup, ?_⟩
  -- What is kept of a file is what the first reply that tells its macros was made from.
  rw [hm, hf.recalled_eq]
  rfl

def branching : World :=
  World.ruled
    [⟨"gcc", none, ["-DA"], none, none, .exited 0 (some "#define A 1\n")⟩,
     ⟨"gcc", none, ["-DB"], none, none, .exited 0 (some "#define B 1\n")⟩,
     ⟨"cpp", none, [], none, none, .exited 0 (some "#define T 1\n")⟩]

def twofold : Session :=
  let target := fun name flag => ⟨name, "", [], [("default", [("CPPFLAGS", flag)])]⟩
  let project := { Project.bare "/p" (.described [] [] "default") with
    targets := .known [target "a" "-DA", target "b" "-DB"] }
  ((start branching .standard none .empty).addProject project).2

theorem branching_isSteady : branching.IsSteady :=
  World.ruled_isSteady (by simp)

theorem twofold_settings : twofold.toolchain.settings = .standard :=
  rfl

theorem exists_ok_of_toOption {α β : Type} {x : Except Error α} {f : α → β} {b : β}
    (h : x.toOption.map f = some b) : ∃ a, x = .ok a ∧ f a = b := by
  cases x
  case error => contradiction
  case ok a  => exact ⟨a, rfl, Option.some.inj h⟩

-- The file is asked about for its second target first, and told of so for the other one too. A
-- request without macros, and one about another file, make no difference.
def askedBefore : List Request :=
  [⟨"/p/x.c", some "a", false⟩, ⟨"/p/x.c", some "b", true⟩, ⟨"/p/y.c", some "a", true⟩]

def askedAgain : Request :=
  ⟨"p/y/../x.c", some "a", true⟩

theorem resolve_macros_twofold :
    let x := twofold.replies branching askedBefore []
    branching.IsSteady ∧ isAbsolute branching.cwd = true ∧
    ∃ r, (x.1.2.reply branching askedAgain x.2).1.1 = .ok r ∧
      r.source = "/p/x.c" ∧ r.arguments = ["-I/p", "-DA"] ∧
      firstAskedWith? r.source x.1.1 = some ["-I/p", "-DB"] ∧
      r.macros = r.facts.facts.macros.overlay
        (reported branching .standard r.source ["-I/p", "-DB"]) ∧
      r.macros = [("T", "1"), ("B", "1")] := by
  have hw : isAbsolute branching.cwd = true := by decide
  have he : (((twofold.replies branching askedBefore []).1.2.reply branching askedAgain
      (twofold.replies branching askedBefore []).2).1.1).toOption.map
        (fun r => (r.source, r.arguments, r.macros)) =
          some ("/p/x.c", ["-I/p", "-DA"], [("T", "1"), ("B", "1")]) := by decide +kernel
  have hf : firstAskedWith? "/p/x.c" (twofold.replies branching askedBefore []).1.1 =
      some ["-I/p", "-DB"] := by decide +kernel
  have h := resolve_macros branching_isSteady hw twofold askedBefore askedAgain []
  generalize twofold.replies branching askedBefore [] = x at he hf h ⊢
  have ⟨r, hr, hv⟩ := exists_ok_of_toOption he
  have ⟨_, _, hm⟩ := h.right r hr
  simp only [Prod.mk.injEq] at hv
  obtain ⟨hs, ha, hv⟩ := hv
  have hf : firstAskedWith? r.source x.1.1 = some ["-I/p", "-DB"] := hs ▸ hf
  have hk : twofold.toolchain.fileMacros.get? r.source = none := rfl
  simp only [askedAgain, hf, hk, twofold_settings, Option.getD_some, Option.getD_none, if_true] at hm
  exact ⟨branching_isSteady, hw, r, hr, hs, ha, hf, hm, hv⟩

-- What is told of a file for one target can be what was said of it for another.
theorem macros_of_earlier_target :
    let x := twofold.replies branching [⟨"/p/x.c", some "a", true⟩] []
    let answer := (x.1.2.reply branching ⟨"/p/x.c", some "b", true⟩ x.2).1.1
    branching.IsSteady ∧ ∃ r, answer = .ok r ∧ r.arguments = ["-I/p", "-DB"] ∧
      r.macros = [("T", "1"), ("A", "1")] ∧
      r.facts.facts.macros.overlay (reported branching .standard r.source r.arguments) =
        [("T", "1"), ("B", "1")] := by
  intro x answer
  have he : answer.toOption.map (fun r => (r.arguments, r.macros,
      r.facts.facts.macros.overlay (reported branching .standard r.source r.arguments))) =
        some (["-I/p", "-DB"], [("T", "1"), ("A", "1")], [("T", "1"), ("B", "1")]) := by
    decide +kernel
  have ⟨r, hr, hv⟩ := exists_ok_of_toOption he
  simp only [Prod.mk.injEq] at hv
  exact ⟨branching_isSteady, r, hr, hv⟩

end Session

end SourceFlags
