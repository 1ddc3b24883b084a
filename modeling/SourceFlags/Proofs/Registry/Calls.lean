import Mathlib.Data.List.Nodup
import SourceFlags.Registry.Basic

namespace SourceFlags.Registry

inductive Call
  | seed (ts : List ProjectType)
  | register (t : ProjectType) (p : Priority)

namespace Call

def types : Call → List ProjectType
  | seed ts      => ts
  | register t _ => [t]

def isSeed : Call → Bool
  | seed _      => true
  | register .. => false

def IsFresh (c : Call) : Prop :=
  ∀ t ∈ c.types, t.isGeneric = false

end Call

def answer (r : Registry) : Call → Except Error Registry
  | .seed ts      => .ok (r.seed ts)
  | .register t p => r.register t p

def after (r : Registry) (c : Call) : Registry :=
  match r.answer c with
  | .ok r'   => r'
  | .error _ => r

-- A registry that is made with types is one whose first call seeds it.
def run (r : Registry) (cs : List Call) : Registry :=
  cs.foldl after r

variable {r r' : Registry} {c : Call} {t : ProjectType} {p : Priority}

theorem after_of_error {e : Error} (h : r.answer c = .error e) : r.after c = r := by
  simp [after, h]

theorem any_name_iff {ts : List ProjectType} :
    ts.any (·.name == t.name) = true ↔ t.name ∈ ts.map (·.name) := by
  simp

theorem get?_isNone_iff : (r.get? t.name).isNone = true ↔ t.name ∉ r.names := by
  simp [get?, names]

def Refuses (r : Registry) (t : ProjectType) (p : Priority) : Prop :=
  p = .specific ∧ r.isSeeded = false ∧ t.name ∉ r.names

theorem register_eq_error (h : r.Refuses t p) : r.register t p = .error (.notSeeded t.name) := by
  have ⟨hp, hs, hn⟩ := h
  simp [register, get?_isNone_iff.mpr hn, hp, hs]

theorem register_eq_ok (h : ¬r.Refuses t p) :
    r.register t p = .ok { r with types := place t p r.types } := by
  simp only [register]
  split
  case isTrue hc =>
    simp only [Bool.and_eq_true, beq_iff_eq, Bool.not_eq_true', get?_isNone_iff] at hc
    exact absurd ⟨hc.left.right, hc.right, hc.left.left⟩ h
  case isFalse => rfl

theorem register_fails_iff : (∃ e, r.register t p = .error e) ↔ r.Refuses t p := by
  constructor
  case mp =>
    intro ⟨e, he⟩
    by_contra h
    simp [register_eq_ok h] at he
  case mpr => exact fun h => ⟨_, register_eq_error h⟩

theorem after_isSeeded : (r.after c).isSeeded = (r.isSeeded || c.isSeed) := by
  cases c
  case seed => simp [after, answer, seed, Call.isSeed]
  case register t p =>
    by_cases h : r.Refuses t p
    case pos => simp [after, answer, register_eq_error h, Call.isSeed]
    case neg => simp [after, answer, register_eq_ok h, Call.isSeed]

theorem run_isSeeded (r : Registry) (cs : List Call) :
    (r.run cs).isSeeded = (r.isSeeded || cs.any (·.isSeed)) := by
  induction cs generalizing r
  case nil => simp [run]
  case cons c cs hi =>
    have h := hi (r.after c)
    simp only [run, List.foldl_cons, List.any_cons] at h ⊢
    rw [h, after_isSeeded, Bool.or_assoc]

end SourceFlags.Registry
