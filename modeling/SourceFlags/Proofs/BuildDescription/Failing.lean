import SourceFlags.BuildDescription
import SourceFlags.Proofs.SExpr.Grammar

namespace SourceFlags.BuildDescription

open Text SExpr

inductive IsBare : Form → Prop
  | t : IsBare .t
  | int {i : Int} (h : i ≠ 0) : IsBare (.int i)

def HasBare (names : List String) (fs : List Form) : Prop :=
  ∃ name ∈ names, IsBare (slot (slots fs) name)

inductive IsBareTarget : Form → Prop
  | intro {c : String} {name : Form} {fs : List Form}
    (h : HasBare ["source", "configuration-variables"] fs) :
    IsBareTarget (.list (.sym c :: name :: fs))

inductive IsBroken (fs : List Form) : Prop
  | own (h : HasBare ["variables", "configuration-variables"] fs.tail)
  | target {f : Form} (hm : f ∈ listItems (slot (slots fs.tail) "targets")) (h : IsBareTarget f)

-- The texts with which something else is wrong than that they are no descriptions.
inductive Crashes (content : String) : Error → Prop
  | digits (h : SExpr.read content = .error .integerTooLong) :
    Crashes content (.form .integerTooLong)
  | broken {fs gs : List Form} (hr : SExpr.read content = .ok fs)
    (hp : fs.findSome? projectForm? = some gs) (h : IsBroken gs) : Crashes content .notIterable

structure FailsIf {α : Type} (x : Except Error α) (p : Prop) : Prop where
  fails : p → x = .error .notIterable
  works : ¬p → ∃ a, x = .ok a

variable {α β : Type} {f : Form} {fs : List Form} {e : Error} {w : World} {x : Except Error α}
variable {p q : Prop} {cwd root content name other : String}

namespace FailsIf

theorem cases (h : FailsIf x p) : x = .error .notIterable ∧ p ∨ (∃ a, x = .ok a) ∧ ¬p := by
  by_cases hp : p
  case pos => exact .inl ⟨h.fails hp, hp⟩
  case neg => exact .inr ⟨h.works hp, hp⟩

theorem eq_error_iff (h : FailsIf x p) : x = .error e ↔ p ∧ e = .notIterable := by
  obtain ⟨hx, hp⟩ | ⟨⟨a, hx⟩, hp⟩ := h.cases
  case inl => simp [hx, hp, eq_comm]
  case inr => simp [hx, hp]

theorem congr (h : FailsIf x p) (hq : p ↔ q) : FailsIf x q :=
  propext hq ▸ h

theorem map {g : α → β} (h : FailsIf x p) : FailsIf (x.map g) p where
  fails hp := by rw [h.fails hp]; rfl
  works hp :=
    have ⟨a, ha⟩ := h.works hp
    ⟨g a, by rw [ha]; rfl⟩

theorem mapM {xs : List (Except Error α)} (h : ∀ x ∈ xs, FailsIf x (x = .error .notIterable)) :
    FailsIf (xs.mapM id) (.error .notIterable ∈ xs) := by
  induction xs
  case nil => exact ⟨nofun, fun _ => ⟨[], rfl⟩⟩
  case cons x xs hi =>
    have ⟨hx, hxs⟩ := List.forall_mem_cons.mp h
    rw [List.mapM_cons, List.mem_cons]
    obtain ⟨he, -⟩ | ⟨⟨a, ha⟩, -⟩ := hx.cases
    case inl =>
      subst he
      exact ⟨fun _ => rfl, fun hn => absurd (.inl rfl) hn⟩
    case inr =>
      subst ha
      rw [or_iff_right nofun]
      exact (hi hxs).map

end FailsIf

theorem items_failsIf (f : Form) : FailsIf (items f) (IsBare f) := by
  cases f
  case nil   => exact ⟨nofun, fun _ => ⟨[], rfl⟩⟩
  case t     => exact ⟨fun _ => rfl, fun hn => absurd .t hn⟩
  case int i =>
    by_cases hi : i = 0
    case pos => exact ⟨fun | .int h => absurd hi h, fun _ => ⟨[], by simp [items, Form.isVoid, hi]⟩⟩
    case neg => exact ⟨fun _ => by simp [items, Form.isVoid, hi], fun hn => absurd (.int hi) hn⟩
  all_goals
    refine ⟨nofun, fun _ => ?_⟩
    simp only [items]
    split <;> exact ⟨_, rfl⟩

theorem bindings_failsIf (f : Form) : FailsIf (bindings f) (IsBare f) :=
  (items_failsIf f).map

theorem configurations_failsIf (f : Form) : FailsIf (configurations f) (IsBare f) :=
  (items_failsIf f).map

theorem hasBare_pair_iff :
    HasBare [name, other] fs ↔ IsBare (slot (slots fs) name) ∨ IsBare (slot (slots fs) other) := by
  simp [HasBare]

theorem target?_failsIf {r : Except Error Target} (h : target? f = some r) :
    FailsIf r (IsBareTarget f) := by
  unfold target? at h
  split at h
  case h_2 => cases h
  case h_1 c name fs =>
    have hb : HasBare ["source", "configuration-variables"] fs ↔
        IsBareTarget (.list (.sym c :: name :: fs)) :=
      ⟨.intro, fun | .intro h => h⟩
    refine FailsIf.congr ?_ (hasBare_pair_iff.symm.trans hb)
    cases h
    obtain ⟨hs, hp⟩ | ⟨⟨a, hs⟩, hp⟩ := (items_failsIf (slot (slots fs) "source")).cases
    case inl => exact ⟨fun _ => by simp [hs], fun hn => absurd (.inl hp) hn⟩
    case inr =>
      rw [or_iff_right hp]
      simp only [hs]
      obtain ⟨hc, hq⟩ | ⟨⟨b, hc⟩, hq⟩ :=
        (configurations_failsIf (slot (slots fs) "configuration-variables")).cases
      case inl => exact ⟨fun _ => by simp [hc], fun hn => absurd hq hn⟩
      case inr => exact ⟨fun h => absurd h hq, fun _ => ⟨_, by simp [hc]; rfl⟩⟩

theorem targets_failsIf (f : Form) :
    FailsIf (targets f) (∃ g ∈ listItems f, IsBareTarget g) := by
  refine (FailsIf.mapM fun r hr => ?_).congr ?_
  case refine_1 =>
    have ⟨g, _, hg⟩ := List.mem_filterMap.mp hr
    have h := target?_failsIf hg
    exact h.congr ⟨h.fails, fun he => (h.eq_error_iff.mp he).left⟩
  case refine_2 =>
    rw [List.mem_filterMap]
    refine exists_congr fun g => and_congr_right fun _ => ⟨fun hg => ?_, fun hg => ?_⟩
    case refine_1 => exact ((target?_failsIf hg).eq_error_iff.mp rfl).left
    case refine_2 =>
      have ⟨r, hr⟩ : ∃ r, target? g = some r := match hg with | .intro _ => ⟨_, rfl⟩
      rw [hr, (target?_failsIf hr).fails hg]

theorem isBroken_iff :
    IsBroken fs ↔ (∃ g ∈ listItems (slot (slots fs.tail) "targets"), IsBareTarget g) ∨
      HasBare ["variables", "configuration-variables"] fs.tail := by
  constructor
  case mp =>
    intro h
    cases h
    case own h       => exact .inr h
    case target hm h => exact .inl ⟨_, hm, h⟩
  case mpr =>
    intro h
    cases h
    case inl h =>
      have ⟨_, hm, h⟩ := h
      exact .target hm h
    case inr h => exact .own h

theorem project_failsIf (cwd root : String) (fs : List Form) :
    FailsIf (project cwd root fs) (IsBroken fs) := by
  refine FailsIf.congr ?_ isBroken_iff.symm
  simp only [project, hasBare_pair_iff]
  obtain ⟨ht, hp⟩ | ⟨⟨ts, ht⟩, hp⟩ := (targets_failsIf (slot (slots fs.tail) "targets")).cases
  case inl => exact ⟨fun _ => by simp [ht], fun hn => absurd (.inl hp) hn⟩
  case inr =>
    rw [or_iff_right hp]
    simp only [ht]
    obtain ⟨hv, hq⟩ | ⟨⟨vs, hv⟩, hq⟩ := (bindings_failsIf (slot (slots fs.tail) "variables")).cases
    case inl => exact ⟨fun _ => by simp [hv], fun hn => absurd (.inl hq) hn⟩
    case inr =>
      rw [or_iff_right hq]
      simp only [hv]
      obtain ⟨hc, hr⟩ | ⟨⟨cs, hc⟩, hr⟩ :=
        (configurations_failsIf (slot (slots fs.tail) "configuration-variables")).cases
      case inl => exact ⟨fun _ => by simp [hc], fun hn => absurd hr hn⟩
      case inr => exact ⟨fun h => absurd h hr, fun _ => ⟨_, by simp [hc]; rfl⟩⟩

theorem isProjectFile_form_iff {r : ReadError} :
    (Error.form r).isProjectFile = false ↔ r = .integerTooLong := by
  simp [Error.isProjectFile]

theorem crashes_iff :
    Crashes content e ↔ ofText cwd root content = .error e ∧ e.isProjectFile = false := by
  constructor
  case mp =>
    intro h
    cases h
    case digits h => exact ⟨by simp [ofText, h], rfl⟩
    case broken fs gs hr hp h =>
      refine ⟨?_, rfl⟩
      simp only [ofText, hr, hp]
      exact (project_failsIf cwd root gs).fails h
  case mpr =>
    intro ⟨h, he⟩
    unfold ofText at h
    split at h
    case h_1 r hr =>
      cases h
      rw [isProjectFile_form_iff] at he
      exact he ▸ .digits (he ▸ hr)
    case h_2 fs hr =>
      split at h
      case h_1 => exact absurd he (Except.error.inj h ▸ nofun)
      case h_2 gs hp =>
        have ⟨hb, hn⟩ := (project_failsIf cwd root gs).eq_error_iff.mp h
        exact hn ▸ .broken hr hp hb

-- A text whose integers may all be read can only crash on a slot.
theorem Crashes.eq_notIterable (h : Crashes content e) (hs : HasShortIntegers content) :
    e = .notIterable := by
  cases h
  case digits h => exact absurd (read_error hs h) (by decide)
  case broken   => rfl

theorem load_crashes_iff :
    load w root = .error e ∧ e.isProjectFile = false ↔
      ∃ content, w.read (path root).text = .ok content ∧ Crashes content e := by
  unfold load
  extract_lets file
  split
  case h_1 r hr =>
    refine iff_of_false (fun ⟨h, he⟩ => ?_) (fun ⟨_, h, _⟩ => nomatch hr.symm.trans h)
    exact absurd he (Except.error.inj h ▸ nofun)
  case h_2 content hr =>
    rw [← crashes_iff]
    exact ⟨fun h => ⟨content, hr, h⟩, fun ⟨_, h, hc⟩ => Except.ok.inj (hr.symm.trans h) ▸ hc⟩

end SourceFlags.BuildDescription
