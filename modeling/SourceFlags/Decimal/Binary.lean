namespace SourceFlags.Decimal

-- The value of a finite number is `mantissa * 2 ^ exponent`.
inductive Binary
  | finite (negative : Bool) (mantissa : Nat) (exponent : Int)
  | infinite (negative : Bool)
  | nan
  deriving DecidableEq, Repr, Inhabited

-- A fraction rounded to the nearest whole number, halves to the even one.
def roundDiv (num den : Nat) : Nat :=
  let q := num / den
  let r := num % den
  if 2 * r < den then q
  else if den < 2 * r then q + 1
  else if q % 2 = 0 then q else q + 1

def scale (base num den : Nat) (e : Int) : Nat × Nat :=
  if 0 ≤ e then (num * base.pow e.toNat, den) else (num, den * base.pow (-e).toNat)

namespace Binary

def precision : Nat := 53

def minExponent : Int := -1074

def maxExponent : Int := 971

def exponentFor (num den : Nat) : Int :=
  let guess : Int := (Nat.log2 num : Int) - Nat.log2 den - 52
  let (a, b) := scale 2 num den (-guess)
  let e := if a < b * Nat.pow 2 52 then guess - 1 else guess
  max e minExponent

def ofRatio (negative : Bool) (num den : Nat) : Binary :=
  if num = 0 then .finite negative 0 minExponent
  else
    let e := exponentFor num den
    let (a, b) := scale 2 num den (-e)
    let m := roundDiv a b
    let (m, e) := if m = Nat.pow 2 precision then (Nat.pow 2 (precision - 1), e + 1) else (m, e)
    if maxExponent < e then .infinite negative else .finite negative m e

-- The number nearest to `digits * 10 ^ e`. Far out of range no power is computed.
def ofDecimal (negative : Bool) (digits : Nat) (e : Int) : Binary :=
  let size : Int := (Nat.log2 digits / 3 : Nat) + e
  if digits = 0 then .finite negative 0 minExponent
  else if 400 + (Nat.log2 digits : Int) < e then .infinite negative
  else if size < -400 then .finite negative 0 minExponent
  else
    let (num, den) := scale 10 digits 1 e
    ofRatio negative num den

end Binary

theorem roundDiv_mul (n : Nat) {den : Nat} (h : 0 < den) : roundDiv (n * den) den = n := by
  simp [roundDiv, Nat.mul_div_cancel _ h, h]

end SourceFlags.Decimal
