import SourceFlags.Proofs.Path.Within
import SourceFlags.Proofs.Path.Above
import SourceFlags.Project.Basic

namespace SourceFlags.Project

open Text SourceFlags.Path

variable {p : Project} {cwd s path : String}

theorem contains_eq_covers (h : p.root ≠ "") :
    p.contains cwd path = Trust.covers p.root (absoluteText cwd path) := by
  have hn : p.root.toList ≠ [] := by simpa using h
  have he : isAbsolute "" = false := rfl
  simp only [contains, Trust.covers, joinText, he, List.getLast?_eq_some_getLast hn]
  split <;> simp_all

theorem reverse_dropWhile_eq_self {cs : Chars} (h : cs.getLast?.all (· == '/') ≠ true) :
    (cs.reverse.dropWhile (· == '/')).reverse = cs := by
  rw [← List.head?_reverse] at h
  cases hr : cs.reverse
  case nil         => simp [hr] at h
  case cons c rest =>
    rw [hr] at h
    rw [List.dropWhile_cons_of_neg (by simpa using h), ← hr, List.reverse_reverse]

theorem root_prefix_of_contains (h : p.contains cwd path = true) :
    p.root.toList <+: (absoluteText cwd path).toList := by
  simp only [contains, Bool.or_eq_true, beq_iff_eq, List.isPrefixOf_iff_prefix] at h
  cases h
  case inl h => exact h ▸ List.prefix_refl _
  case inr h =>
    split at h
    case isTrue  => exact h
    case isFalse => exact List.IsPrefix.trans (by simp) h

theorem root_eq_of_contains {q : Project} (hp : p.contains cwd path = true)
    (hq : q.contains cwd path = true) (hl : p.root.length = q.root.length) : p.root = q.root := by
  rw [← String.length_toList, ← String.length_toList] at hl
  have hr := List.prefix_of_prefix_length_le (root_prefix_of_contains hp)
    (root_prefix_of_contains hq) (Nat.le_of_eq hl)
  exact String.toList_inj.mp <| hr.eq_of_length hl

-- The directory that a root means. Where all paths start, one slash stands for any number.
def place (cwd s : String) : Path :=
  if (absolute cwd s).parts = [] then Path.root else absolute cwd s

theorem place_settled (h : isAbsolute cwd = true) (s : String) : (place cwd s).Settled := by
  unfold place
  split
  case isTrue  => exact ⟨⟨by decide, by simp [Path.root]⟩, by decide, by simp [Path.root]⟩
  case isFalse => exact absolute_settled h s

theorem rootOf_eq (h : isAbsolute cwd = true) (s : String) :
    rootOf cwd s = (place cwd s).text := by
  have hs := absolute_settled h s
  simp only [rootOf, absoluteText, place, Path.text, String.toList_ofList]
  by_cases hn : (absolute cwd s).parts = []
  case neg =>
    have hl := mt hs.getLast_chars_iff.mp hn
    have hc : (absolute cwd s).chars ≠ [] := fun hc => hl (by simp [hc])
    simp [reverse_dropWhile_eq_self hl, hn, hc]
  case pos =>
    rw [if_pos hn, hs.chars_eq, hn, join, List.append_nil, List.reverse_replicate]
    simp
    rfl

theorem contains_iff (h : isAbsolute cwd = true) (hp : p.root = rootOf cwd s) :
    p.contains cwd path = true ↔ (absolute cwd path).IsWithin (place cwd s) := by
  have hs := place_settled h s
  rw [rootOf_eq h] at hp
  have hr : p.root ≠ "" := by
    intro hc
    have ha := hs.isAbsolute_text
    rw [← hp, hc] at ha
    contradiction
  rw [contains_eq_covers hr, hp]
  exact covers_iff hs (absolute_settled h path)

theorem absoluteText_root {cwd' : String} (h : isAbsolute cwd = true) (hp : p.root = rootOf cwd s) :
    absoluteText cwd' p.root = p.root := by
  rw [hp, rootOf_eq h]
  exact congrArg Path.text <| (place_settled h s).absolute_text cwd'

theorem contains_root {cwd' : String} (h : isAbsolute cwd = true) (hp : p.root = rootOf cwd s) :
    p.contains cwd' p.root = true := by
  simp [contains, absoluteText_root h hp]

theorem contains_of_leadsTo {b : Path} (h : isAbsolute cwd = true)
    (hb : b.LeadsTo (absolute cwd path)) (hp : p.root = rootOf cwd b.text) :
    p.contains cwd path = true := by
  have ha := (hb.settled (absolute_settled h path)).absolute_text cwd
  rw [contains_iff h hp, place, ha]
  split
  case isTrue  => exact .inl rfl
  case isFalse => exact .inr hb

end SourceFlags.Project
