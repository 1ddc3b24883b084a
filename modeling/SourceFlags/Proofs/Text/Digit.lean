import Mathlib.Data.List.Basic
import SourceFlags.Text.Digit

namespace SourceFlags.Text

variable {c : Char} {cs : List Char}

theorem digitValue?_of_ascii (h : c.isDigit = true) : digitValue? c = some (c.toNat - 0x30) := by
  simp [digitValue?, h]

theorem digitValue?_lt {n : Nat} (h : digitValue? c = some n) : n < 10 := by
  simp only [digitValue?] at h
  split at h
  case isTrue hd =>
    rw [Char.isDigit, Bool.and_eq_true, decide_eq_true_eq, decide_eq_true_eq] at hd
    have hu : c.toNat ≤ 57 := hd.right
    have := Option.some.inj h
    omega
  case isFalse =>
    split at h
    case isTrue  => contradiction
    case isFalse =>
      obtain ⟨z, hz, hn⟩ := Option.map_eq_some_iff.mp h
      have hr := List.find?_some hz
      simp only [Bool.and_eq_true, decide_eq_true_eq] at hr
      omega

-- The digits that the library writes are read as the number that they were written for.
theorem digitsValue_of_ascii (h : ∀ c ∈ cs, c.isDigit = true) :
    digitsValue cs = Nat.ofDigitChars 10 cs 0 := by
  rw [digitsValue, Nat.ofDigitChars_eq_foldl]
  refine List.foldl_ext _ _ _ fun n c hc => ?_
  rw [digitValue?_of_ascii (h c hc)]
  rfl

theorem isDigit_of_mem_toDigits {n : Nat} (h : c ∈ Nat.toDigits 10 n) : c.isDigit = true :=
  Nat.isDigit_of_mem_toDigits (by decide) (by decide) h

theorem digitsValue_toDigits (n : Nat) : digitsValue (Nat.toDigits 10 n) = n := by
  rw [digitsValue_of_ascii fun _ => isDigit_of_mem_toDigits, Nat.ofDigitChars_ten_toDigits]

theorem length_toDigits_le {n k : Nat} (hk : 0 < k) (h : n < Nat.pow 10 k) :
    (Nat.toDigits 10 n).length ≤ k :=
  (Nat.length_toDigits_le_iff (by decide) hk).mpr h

theorem foldl_digits_lt (cs : List Char) (n : Nat) :
    cs.foldl (fun n c => 10 * n + (digitValue? c).getD 0) n < (n + 1) * Nat.pow 10 cs.length := by
  induction cs generalizing n
  case nil => simp
  case cons c cs hi =>
    have hd : (digitValue? c).getD 0 < 10 := by
      cases h : digitValue? c
      case none   => decide
      case some d => exact digitValue?_lt h
    have hp : Nat.pow 10 (c :: cs).length = Nat.pow 10 cs.length * 10 := rfl
    rw [List.foldl_cons, hp]
    calc
      _ < (10 * n + (digitValue? c).getD 0 + 1) * Nat.pow 10 cs.length := hi _
      _ ≤ (10 * (n + 1)) * Nat.pow 10 cs.length := Nat.mul_le_mul_right _ (by omega)
      _ = (n + 1) * (Nat.pow 10 cs.length * 10) := by rw [Nat.mul_comm 10, Nat.mul_assoc,
        Nat.mul_comm 10]

theorem digitsValue_lt {k : Nat} (h : cs.length ≤ k) : digitsValue cs < Nat.pow 10 k := by
  have hl := foldl_digits_lt cs 0
  rw [Nat.zero_add, Nat.one_mul] at hl
  exact Nat.lt_of_lt_of_le hl <| Nat.pow_le_pow_right (by decide) h

end SourceFlags.Text
