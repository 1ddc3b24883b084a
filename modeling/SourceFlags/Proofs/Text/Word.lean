import Mathlib.Data.List.TakeWhile
import SourceFlags.Text.Lines
import SourceFlags.Text.WordChar

namespace SourceFlags.Text

def isWord (isFirst isPart : Char → Bool) : Chars → Bool
  | []      => false
  | c :: cs => isFirst c && cs.all isPart

variable {c : Char} {cs rest : Chars} {p isFirst isPart : Char → Bool}

theorem all_head?_dropWhile (p : Char → Bool) (cs : Chars) :
    (cs.dropWhile p).head?.all (!p ·) = true := by
  have h := List.head?_dropWhile_not p cs
  cases hd : (cs.dropWhile p).head?
  case none   => rfl
  case some c => simpa [hd] using h

theorem takeWhile_append_of_head? (h : ∀ c ∈ cs, p c = true)
    (hr : rest.head?.all (!p ·) = true) :
    (cs ++ rest).takeWhile p = cs ∧ (cs ++ rest).dropWhile p = rest := by
  rw [List.takeWhile_append_of_pos h, List.dropWhile_append_of_pos h]
  cases rest
  case nil  => simp
  case cons => simp_all

theorem isWord_iff : isWord isFirst isPart cs = true ↔
    ∃ c ds, cs = c :: ds ∧ isFirst c = true ∧ ∀ d ∈ ds, isPart d = true := by
  cases cs <;> simp [isWord, and_assoc]

theorem isWordChar_of_isAlphanum (h : c.isAlphanum = true) : isWordChar c = true := by
  simp only [isWordChar, h, Bool.true_or]

theorem isWordChar_blankRanges :
    (blankRanges.all fun r => (List.range' r.1 (r.2 + 1 - r.1)).all fun n =>
      !isWordChar (Char.ofNat n)) = true := by
  decide +kernel

theorem isBlank_eq_false_of_isWordChar (h : isWordChar c = true) : isBlank c = false := by
  refine Bool.eq_false_iff.mpr fun hb => ?_
  have ⟨r, hr, hl, hu⟩ := Ranges.contains_iff.mp hb
  have hm : c.toNat ∈ List.range' r.1 (r.2 + 1 - r.1) := by
    rw [List.mem_range'_1]
    omega
  have hw := List.all_eq_true.mp (List.all_eq_true.mp isWordChar_blankRanges r hr) _ hm
  simp [Char.ofNat_toNat, h] at hw

theorem isLineBreak_eq_false_of_isWordChar (h : isWordChar c = true) : isLineBreak c = false := by
  refine Bool.eq_false_iff.mpr fun hb => ?_
  simpa [isBlank_eq_false_of_isWordChar h] using isBlank_of_isLineBreak hb

end SourceFlags.Text
