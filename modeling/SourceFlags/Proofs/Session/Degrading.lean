import SourceFlags.Proofs.BuildDescription.Failing
import SourceFlags.Proofs.BuildDescription.RoundTrip
import SourceFlags.Proofs.Loader.History
import SourceFlags.Proofs.Registry.Described
import SourceFlags.Proofs.Session.Arguments

namespace SourceFlags

open SourceFlags.Path

namespace Loader

open Registry

variable {w : World} {l : Loader} {t : ProjectType} {root d : Path} {e : Error}
variable {x : Except Error (Option Project)} {trust : Trust}

theorem enter_eq_error_iff : (l.enter x).1 = .error e ↔ x = .error e := by
  cases x
  case error    => simp [enter]
  case ok found => cases found <;> simp [enter]

theorem load_registry (w : World) (l : Loader) (t : ProjectType) (directory : String) :
    (l.load w t directory).2.registry = l.registry := by
  simp only [load]
  split
  case isFalse => rfl
  case isTrue  =>
    have he := congrArg (·.2.registry) (loadAt_eq w l t (w.absoluteText directory))
    exact he.trans <| (enter_registry ..).trans (tried_preserves ..).right.right

theorem loadFor_registry (w : World) (l : Loader) (directory : String) :
    (l.loadFor w directory).2.registry = l.registry ∨
    (l.loadFor w directory).2.registry = l.registry.afterOwner w directory := by
  simp only [loadFor]
  split
  case isFalse => exact .inl rfl
  case isTrue  =>
    split
    case h_1 => exact .inl rfl
    case h_2 =>
      split
      case h_1 => exact .inr rfl
      case h_2 => exact .inr rfl
      case h_3 => exact .inr (load_registry ..)

theorem make_eq_error_iff (h : Describes w d t root) :
    make w trust t root.text = .error e ↔
      trust.isTrusted w.cwd root.text = false ∧ e = .untrusted t.name root.text ∨
      trust.isTrusted w.cwd root.text = true ∧ BuildDescription.load w root.text = .error e := by
  have hs : t.isSafe = false := by cases h.type <;> rfl
  simp only [make, hs, h.type.load_eq, Bool.false_or]
  cases trust.isTrusted w.cwd root.text
  case false => simp [eq_comm]
  case true  => cases BuildDescription.load w root.text <;> simp [Except.map]

theorem loadFor_eq_error_iff (h : Describes w d t root) (hd : d.Settled)
    (ho : l.registry.owner w d.text = .ok (some ⟨t, root.text⟩))
    (hf : l.projects.find w.cwd d.text = none) :
    (l.loadFor w d.text).1 = .error e ↔
      l.trust.isTrusted w.cwd root.text = false ∧ e = .untrusted t.name root.text ∨
      l.trust.isTrusted w.cwd root.text = true ∧ BuildDescription.load w root.text = .error e := by
  have hs := h.above.settled hd
  have ⟨l', _, hl⟩ := loadFor_of_not_found hf
  rw [hl, enter_eq_error_iff, resolve, if_pos (World.reaches_text hd), ho, ← make_eq_error_iff h]
  simp only [if_pos (World.reaches_text hs), World.absoluteText_text hs]
  cases make w l.trust t root.text <;> simp [Except.map]

end Loader

namespace Session

open Registry BuildDescription

variable {w : World} {s : Session} {source : String}

inductive IsBuiltin : Session → Prop
  | start (w : World) (settings : Settings) (platform : Option Platform) :
    IsBuiltin (start w settings platform builtin)
  | projectFor {s : Session} (h : IsBuiltin s) (w : World) (source : String) :
    IsBuiltin (s.projectFor w source).2
  | resolve {s : Session} (h : IsBuiltin s) (w : World) (source : String) (target : Option String)
    (fileMacros : Bool) (past : History) :
    IsBuiltin (s.resolve w source target fileMacros past).1.2
  | addProject {s : Session} (h : IsBuiltin s) (p : Project) : IsBuiltin (s.addProject p).2
  | trust {s : Session} (h : IsBuiltin s) (w : World) (directory : String) :
    IsBuiltin (s.trust w directory)

theorem projectFor_loader (hr : w.reaches source = true) (s : Session) :
    (s.projectFor w source).2.loader =
      (s.loader.loadFor w (w.absolute source).parent.text).2 := by
  simp only [projectFor, if_pos hr]
  split <;> rfl

theorem resolve_loader (w : World) (s : Session) (source : String) (target : Option String)
    (fileMacros : Bool) (past : History) :
    (s.resolve w source target fileMacros past).1.2.loader = (s.projectFor w source).2.loader := by
  rcases hp : s.projectFor w source with ⟨_ | project, s'⟩
  case error => simp only [resolve, hp]; rfl
  case ok    =>
    cases ho : ownArguments w project (w.absoluteText source) target
    case error => simp only [resolve, hp, ho]; rfl
    case ok    => simp only [resolve_ok hp ho]; rfl

theorem describesFirst_projectFor (h : s.loader.registry.DescribesFirst) (w : World)
    (source : String) : (s.projectFor w source).2.loader.registry.DescribesFirst := by
  by_cases hr : w.reaches source = true
  case neg => simpa only [projectFor, if_neg hr] using h
  case pos =>
    rw [projectFor_loader hr]
    cases Loader.loadFor_registry w s.loader (w.absolute source).parent.text
    case inl hl => exact hl ▸ h
    case inr hl => exact hl ▸ h.consult ..

theorem IsBuiltin.describesFirst (h : s.IsBuiltin) : s.loader.registry.DescribesFirst := by
  induction h
  case start         => exact builtin_describesFirst
  case addProject hi => exact hi
  case trust hi      => exact hi
  case projectFor hi => exact describesFirst_projectFor hi ..
  case resolve hi    =>
    rw [resolve_loader]
    exact describesFirst_projectFor hi ..

theorem projectFor_eq_error_iff {e : Error} (hr : w.reaches source = true) :
    (s.projectFor w source).1 = .error e ↔
      (s.loader.loadFor w (w.absolute source).parent.text).1 = .error e ∧
        e.isProjectFile = false := by
  simp only [projectFor, if_pos hr]
  split
  case h_1 m hm => simp [hm]
  case h_2 e' he =>
    rw [he]
    cases hp : e'.isProjectFile
    case false =>
      simp only [Bool.false_eq_true, if_false]
      exact ⟨fun h => ⟨h, Except.error.inj h ▸ hp⟩, And.left⟩
    case true =>
      simp only [if_true]
      refine iff_of_false (by simp) fun h => ?_
      rw [Except.error.inj h.left, h.right] at hp
      cases hp

-- A file whose directory has a description: its project is known already, or the description at the
-- root is loaded if the root is trusted. All that is wrong with that description as a file counts
-- as no project, so what is left is an integer that is too long, or a bare slot.
theorem projectFor_of_description (hs : s.IsBuiltin) (hw : isAbsolute w.cwd = true)
    (hr : w.reaches source = true)
    (hi : w.isThere (BuildDescription.path (w.absolute source).parent.text).text = true) :
    let d := (w.absolute source).parent
    ∃ t root, Describes w d t root ∧ ∀ e, (s.projectFor w source).1 = .error e ↔
      s.loader.projects.find w.cwd d.text = none ∧
        (s.loader.trust.isTrusted w.cwd root.text = false ∧ e = .untrusted t.name root.text ∨
         s.loader.trust.isTrusted w.cwd root.text = true ∧ ∃ content,
           w.read (BuildDescription.path root.text).text = .ok content ∧ Crashes content e) := by
  intro d
  have hd : d.Settled := (parent_leadsTo _).settled <| absolute_settled hw source
  have ⟨t, root, ht, ho⟩ := owner_of_description hs.describesFirst hw hd hi
  refine ⟨t, root, ht, fun e => ?_⟩
  rw [projectFor_eq_error_iff hr, ← load_crashes_iff]
  cases hf : s.loader.projects.find w.cwd d.text
  case some m =>
    rw [Loader.loadFor_of_found (World.reaches_text hd) hf]
    simp
  case none =>
    -- Errors that say what is wrong with the file do not reach the caller, but a refusal does.
    have hu : e = .untrusted t.name root.text → e.isProjectFile = false := fun he => he ▸ rfl
    rw [Loader.loadFor_eq_error_iff ht hd ho hf, or_and_right, and_assoc, and_iff_left_of_imp hu,
      and_assoc, and_iff_right rfl]

def numberedText : String :=
  "(ede-proj-project \"p\" :variables 5)"

theorem crashes_numbered : Crashes numberedText .notIterable := by
  have hs : SExpr.Token.scan numberedText.toList = .ok [.opening, .atom "ede-proj-project",
    .str "p", .atom ":variables", .atom "5", .closing] := by decide
  have hr : SExpr.read numberedText =
      .ok [.list [.sym projectClass, .str "p", .sym ":variables", .int 5]] := by
    rw [SExpr.read, hs]
    rfl
  exact .broken hr rfl <| .own ⟨"variables", by simp, .int (by decide)⟩

def numbered : World :=
  describing numberedText

def trusting : Settings :=
  { Settings.standard with trustedDirectories := ["/"] }

theorem projectFor_numbered :
    let s := start numbered trusting none builtin
    s.IsBuiltin ∧ isAbsolute numbered.cwd = true ∧ numbered.reaches "/x.c" = true ∧
    numbered.isThere (path (numbered.absolute "/x.c").parent.text).text = true ∧
    (s.projectFor numbered "/x.c").1 = .error .notIterable := by
  intro s
  have hs : s.IsBuiltin := .start ..
  have hd : (numbered.absolute "/x.c").parent = ⟨1, []⟩ := by decide
  have ht : (⟨1, []⟩ : Path).text = "/" := by decide
  have hl := locate_describing numberedText
  have hi : numbered.isThere (path (numbered.absolute "/x.c").parent.text).text = true := by
    rw [hd, ht, World.isThere, numbered, hl]
  obtain ⟨t, root, h, he⟩ := projectFor_of_description hs (by decide) (by decide) hi
  have hroot : root = ⟨1, []⟩ := by
    have ha : root.LeadsTo ⟨1, []⟩ := hd ▸ h.above
    exact Path.ext ha.left (List.prefix_nil.mp ha.right)
  have htrust : s.loader.trust.isTrusted numbered.cwd root.text = true := by
    rw [hroot, ht]
    decide
  have hread : numbered.read (path root.text).text = .ok numberedText := by
    rw [hroot, ht]
    exact World.read_of_file hl (by decide)
  refine ⟨hs, by decide, by decide, hi, (he _).mpr ⟨rfl, .inr ⟨htrust, ?_⟩⟩⟩
  exact ⟨numberedText, hread, crashes_numbered⟩

end Session

end SourceFlags
