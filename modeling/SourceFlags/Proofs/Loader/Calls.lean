import SourceFlags.Loader
import SourceFlags.Proofs.Project.List

namespace SourceFlags.Loader

inductive Call
  | trust (directory : String)
  | load (t : ProjectType) (directory : String)
  | loadFor (directory : String)

structure Event where
  world : World
  call : Call

def answer (l : Loader) (e : Event) : Except Error (Option Loaded) × Loader :=
  match e.call with
  | .trust d   => ((l.trustAt e.world d).1.map fun _ => none, (l.trustAt e.world d).2)
  | .load t d  => ((l.load e.world t d).1.map some, (l.load e.world t d).2)
  | .loadFor d => l.loadFor e.world d

def after (l : Loader) (e : Event) : Loader :=
  (l.answer e).2

def run (l : Loader) (es : List Event) : Loader :=
  es.foldl after l

def aim? (l : Loader) (e : Event) : Option (ProjectType × String) :=
  let target := fun (t : ProjectType) directory =>
    if e.world.reaches directory then some (t, e.world.absoluteText directory) else none
  match e.call with
  | .trust _   => none
  | .load t d  => target t d
  | .loadFor d =>
    if e.world.reaches d && (l.projects.find e.world.cwd d).isNone then
      match l.registry.owner e.world d with
      | .ok (some o) => target o.type o.root
      | _            => none
    else none

def make (w : World) (trust : Trust) (t : ProjectType) (directory : String) :
    Except Error Project :=
  if t.isSafe || trust.isTrusted w.cwd directory then
    match t.load w directory with
    | .error e     => .error e
    | .ok none     => .error (.nothingLoaded t.name directory)
    | .ok (some p) => .ok p
  else .error (.untrusted t.name directory)

def tried (w : World) (l : Loader) (t : ProjectType) (directory : String) : Loader :=
  if l.allows w t directory then l.ran t directory else l

def enter (l : Loader) : Except Error (Option Project) → Except Error (Option Loaded) × Loader
  | .error e     => (.error e, l)
  | .ok none     => (.ok none, l)
  | .ok (some p) => (.ok (some (l.keep p).1), (l.keep p).2)

variable {w : World} {l : Loader} {e : Event} {t : ProjectType} {directory : String}
variable {m : Loaded} {x : Except Error (Option Project)} {err : Error}

theorem make_of_not_allows (h : l.allows w t directory = false) :
    make w l.trust t directory = .error (.untrusted t.name directory) := by
  simp only [allows] at h
  simp [make, h]

theorem tried_of_allows (h : l.allows w t directory = true) :
    l.tried w t directory = l.ran t directory :=
  if_pos h

theorem tried_of_not_allows (h : l.allows w t directory = false) : l.tried w t directory = l :=
  if_neg (Bool.eq_false_iff.mp h)

theorem tried_preserves (w : World) (l : Loader) (t : ProjectType) (directory : String) :
    (l.tried w t directory).trust = l.trust ∧ (l.tried w t directory).projects = l.projects ∧
      (l.tried w t directory).registry = l.registry := by
  unfold tried
  split <;> exact ⟨rfl, rfl, rfl⟩

theorem enter_trust (l : Loader) (x : Except Error (Option Project)) :
    (l.enter x).2.trust = l.trust := by
  cases x
  case error    => rfl
  case ok found => cases found <;> rfl

theorem enter_registry (l : Loader) (x : Except Error (Option Project)) :
    (l.enter x).2.registry = l.registry := by
  cases x
  case error    => rfl
  case ok found => cases found <;> rfl

theorem enter_runs (l : Loader) (x : Except Error (Option Project)) :
    (l.enter x).2.runs = l.runs := by
  cases x
  case error    => rfl
  case ok found => cases found <;> rfl

theorem enter_of_error (h : (l.enter x).1 = .error err) : (l.enter x).2 = l := by
  cases x
  case error    => rfl
  case ok found => cases found <;> contradiction

theorem mem_enter (h : m ∈ (l.enter x).2.projects) : m ∈ l.projects ∨ x = .ok (some m.project) := by
  cases x
  case error => exact .inl h
  case ok found =>
    cases found
    case none   => exact .inl h
    case some p =>
      cases ProjectList.mem_add h
      case inl h => exact .inl h
      case inr h => exact .inr <| h ▸ rfl

theorem enter_outcome (l : Loader) (x : Except Error (Option Project)) :
    (l.enter x).1.map (·.map (·.project)) = x.map (·.map l.projects.standIn) := by
  cases x
  case error => rfl
  case ok found =>
    cases found
    case none   => rfl
    case some p =>
      exact congrArg (fun q => Except.ok (some q)) <| ProjectList.add_project l.projects ⟨l.made, p⟩

-- Loading makes a project, if that is allowed, and then enters it.
theorem loadAt_eq (w : World) (l : Loader) (t : ProjectType) (directory : String) :
    ((l.loadAt w t directory).1.map some, (l.loadAt w t directory).2) =
      (l.tried w t directory).enter ((make w l.trust t directory).map some) := by
  cases h : l.allows w t directory
  case false =>
    rw [tried_of_not_allows h, make_of_not_allows h]
    simp [loadAt, h, Except.map, enter]
  case true =>
    have hm : (t.isSafe || l.trust.isTrusted w.cwd directory) = true := h
    simp only [loadAt, tried, make, h, hm, if_true]
    cases t.load w directory
    case error   => rfl
    case ok made => cases made <;> rfl

def Agrees (l l' : Loader) : Prop :=
  l'.trust = l.trust ∧ l'.projects = l.projects ∧ l'.runs = l.runs

theorem answer_of_aim (h : l.aim? e = some (t, directory)) :
    ∃ l', l.Agrees l' ∧ l.answer e =
      (l'.tried e.world t directory).enter ((make e.world l'.trust t directory).map some) := by
  obtain ⟨w, c⟩ := e
  cases c
  case trust => simp [aim?] at h
  case load u d =>
    simp only [aim?] at h
    split at h
    case isFalse => contradiction
    case isTrue hr =>
      cases h
      refine ⟨l, ⟨rfl, rfl, rfl⟩, ?_⟩
      rw [← loadAt_eq]
      simp [answer, load, hr]
  case loadFor d =>
    simp only [aim?, Bool.and_eq_true, Option.isNone_iff_eq_none] at h
    split at h
    case isFalse => contradiction
    case isTrue hd =>
      split at h
      case h_2 => contradiction
      case h_1 o ho =>
        split at h
        case isFalse => contradiction
        case isTrue hr =>
          cases h
          refine ⟨{ l with registry := l.registry.afterOwner w d }, ⟨rfl, rfl, rfl⟩, ?_⟩
          rw [← loadAt_eq]
          simp [answer, loadFor, hd, ho, load, hr]

-- Where nothing comes to be loaded, only a call that extends the trust changes anything but the
-- registry.
theorem answer_of_no_aim (h : l.aim? e = none) :
    l.Agrees (l.after e) ∨
      ∃ d, e.call = .trust d ∧ l.answer e = (.ok none, l.trustAlso e.world d) := by
  obtain ⟨w, c⟩ := e
  cases c
  case trust d =>
    simp only [after, answer, trustAt]
    split
    case isTrue  => exact .inr ⟨d, rfl, rfl⟩
    case isFalse => exact .inl ⟨rfl, rfl, rfl⟩
  case load t d =>
    left
    by_cases hr : w.reaches d
    case pos => simp [aim?, hr] at h
    case neg => simp [after, answer, load, hr, Agrees]
  case loadFor d =>
    left
    simp only [after, answer, loadFor]
    split
    case isFalse => exact ⟨rfl, rfl, rfl⟩
    case isTrue hr =>
      split
      case h_1 => exact ⟨rfl, rfl, rfl⟩
      case h_2 hf =>
        split
        case h_1 => exact ⟨rfl, rfl, rfl⟩
        case h_2 => exact ⟨rfl, rfl, rfl⟩
        case h_3 o ho =>
          by_cases ht : w.reaches o.root
          case pos => simp [aim?, hr, hf, ho, ht] at h
          case neg => simp [load, ht, Agrees]

end SourceFlags.Loader
