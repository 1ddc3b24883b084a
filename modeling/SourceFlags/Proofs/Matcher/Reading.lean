import SourceFlags.Matcher.Basic
import SourceFlags.Proofs.World.Places
import SourceFlags.Proofs.World.Steady

namespace SourceFlags

open Text

theorem World.isFile_iff {w : World} {path : String} :
    w.isFile path = true ↔ ∃ content, w.read path = .ok content := by
  rcases h : w.locate path with _ | _ | _ | _ <;> simp [isFile, FileTree.isFile, read, h]

namespace FileMatcher

def HasFile (w : World) (m : FileMatcher) : Prop :=
  ∃ p, m.source.file w = .ok (some p) ∧ w.isFile p.text = true

def Gives (w : World) (m : FileMatcher) (v : String) : Prop :=
  ∃ p content, m.source.file w = .ok (some p) ∧ w.read p.text = .ok content ∧
    m.valueIn w content = .ok (some v)

-- The source is one that can serve, the file that it says may be looked for, and whatever the
-- pattern matches, a text can be selected.
structure IsSound (w : World) (m : FileMatcher) : Prop where
  located  : ∃ p, m.source.file w = .ok p
  looked   : ∀ p, m.source.file w = .ok (some p) → ∃ b, w.checkFile p.text = .ok b
  selected : ∀ content groups, m.pattern.search content = some groups →
    ∃ cs, m.select groups = .ok cs

variable {w : World} {m : FileMatcher} {v : String}

theorem Gives.hasFile (h : m.Gives w v) : m.HasFile w :=
  have ⟨p, content, hp, hc, _⟩ := h
  ⟨p, hp, World.isFile_iff.mpr ⟨content, hc⟩⟩

theorem isInstalled_eq_ok_true_iff : m.isInstalled w = .ok true ↔ m.HasFile w := by
  unfold isInstalled HasFile
  split
  case h_1 hs   => simp [hs]
  case h_2 hs   => simp [hs]
  case h_3 p hs => simp [hs, World.checkFile_eq_true_iff]

theorem IsSound.value (h : m.IsSound w) :
    ∃ found, m.value w = .ok found ∧
      ∀ v, found = some v ↔ m.stash = some v ∨ m.stash = none ∧ m.Gives w v := by
  obtain ⟨p, hp⟩ := h.located
  cases hs : m.stash
  case some u => exact ⟨some u, value_of_stash w hs, fun v => by simp⟩
  case none =>
    simp only [FileMatcher.value, hs, hp, Gives, reduceCtorEq, false_or, true_and]
    cases p
    case none => exact ⟨none, rfl, by simp⟩
    case some p =>
      cases hr : w.read p.text
      case error => exact ⟨none, by simp [hr], by simp [hr]⟩
      case ok content =>
        obtain ⟨found, hf⟩ : ∃ found, m.valueIn w content = .ok found := by
          unfold valueIn
          split
          case h_1 => exact ⟨_, rfl⟩
          case h_2 groups hg =>
            obtain ⟨cs, hc⟩ := h.selected content groups hg
            exact ⟨_, by rw [hc]⟩
        exact ⟨found, by simpa [hr] using hf, by simp [hr, hf]⟩

-- A sound matcher remembers what it has found, if it had nothing to remember, and takes a path in
-- which the remembered text occurs while there is a file.
theorem IsSound.ask (h : m.IsSound w) (path : String) :
    (∀ v, (m.consulted w).stash = some v ↔ m.stash = some v ∨ m.stash = none ∧ m.Gives w v) ∧
    ∃ b, m.accepts w path = .ok b ∧ (b = true ↔ m.HasFile w ∧
      ∃ v, (m.consulted w).stash = some v ∧ v.toList <:+: path.toList) := by
  obtain ⟨found, hv, hf⟩ := h.value
  by_cases hi : m.isInstalled w = .ok true
  case pos =>
    have hc : (m.consulted w).stash = found := by simp [consulted, hi, hv]
    have hh := isInstalled_eq_ok_true_iff.mp hi
    refine ⟨fun v => hc ▸ hf v, ?_⟩
    simp only [accepts, hi, hv, hc, hh, true_and]
    cases found
    case none   => exact ⟨false, rfl, by simp⟩
    case some u => exact ⟨_, rfl, by simp [occursIn_iff]⟩
  case neg =>
    have hn : ¬m.HasFile w := mt isInstalled_eq_ok_true_iff.mpr hi
    have hc : m.consulted w = m := by
      unfold consulted
      split
      case h_1 hi' _ => exact absurd hi' hi
      case h_2       => rfl
    refine ⟨fun v => ?_, false, ?_, by simp [hn]⟩
    case refine_1 => rw [hc]; exact ⟨.inl, Or.rec id fun hg => absurd hg.right.hasFile hn⟩
    case refine_2 =>
      obtain ⟨p, hp⟩ := h.located
      have hb : ∃ b, m.isInstalled w = .ok b := by
        cases p
        case none   => exact ⟨false, by simp only [isInstalled, hp]⟩
        case some p => simpa only [isInstalled, hp] using h.looked p hp
      obtain ⟨b, hb⟩ := hb
      cases b
      case true  => exact absurd hb hi
      case false => simp [accepts, hb]

def holding (content : String) : World :=
  { World.bare with files := .directory .full [(['p'], .file (.text content) false)] }

def saying (v : Value) : Source :=
  .asked ⟨"function", "preferences", fun _ => .ok v⟩

theorem read_holding {content : String} (h : '\r' ∉ content.toList) :
    (holding content).read "/p" = .ok content := by
  have hp : (holding content).partsOf "/p" = [[], ['p']] := rfl
  exact World.read_of_file ((World.locate_eq_ok_iff rfl (by decide) hp rfl rfl).mpr rfl) h

end FileMatcher
end SourceFlags
