import SourceFlags.Decimal.Binary

namespace SourceFlags.Decimal

open Binary

-- The decimals with `n` digits next to a positive fraction below `10 ^ place`: the one that is not
-- above it, and the next one.
def neighbours (num den n : Nat) (place : Int) : Nat × Nat :=
  let (a, b) := scale 10 num den (n - place)
  (a / b, a / b + 1)

-- Of two candidates that read back, the nearer; of two that are equally near, the even one.
def choose (target : Binary) (num den n : Nat) (place : Int) : Option Nat :=
  let (low, high) := neighbours num den n place
  let reads := fun d => ofDecimal false d (place - n) == target
  let (a, b) := scale 10 num den (n - place)
  match reads low && low != 0, reads high with
  | true, true =>
    let below := 2 * (a - low * b)
    if below < b then some low else if b < below then some high
    else some (if low % 2 = 0 then low else high)
  | true, false => some low
  | false, true => some high
  | false, false => none

def placeOf (num den : Nat) : Int :=
  let guess : Int := ((Nat.log2 num : Int) - Nat.log2 den) * 30103 / 100000
  let fits := fun (p : Int) =>
    let (a, b) := scale 10 num den (-p)
    decide (a < b)
  if fits (guess - 1) then guess - 1 else if fits guess then guess
  else if fits (guess + 1) then guess + 1 else guess + 2

def shortest (mantissa : Nat) (exponent : Int) : Nat × Int :=
  let (num, den) := scale 2 mantissa 1 exponent
  let place := placeOf num den
  let target := Binary.finite false mantissa exponent
  let found := (List.range 17).findSome? fun i =>
    (choose target num den (i + 1) place).map fun d => (d, i + 1)
  match found with
  | some (d, n) => if d = Nat.pow 10 n then (1, place + 1) else (d, place)
  | none => (0, 1)

def digitsOf (n : Nat) : List Char :=
  (toString n).toList

def dropZeros (ds : List Char) : List Char :=
  (ds.reverse.dropWhile (· == '0')).reverse

def exponentText (e : Int) : List Char :=
  let ds := digitsOf e.natAbs
  'e' :: (if e < 0 then '-' else '+') :: (if ds.length < 2 then '0' :: ds else ds)

def layout (digits : List Char) (place : Int) : List Char :=
  if -4 < place && place ≤ 16 then
    if place ≤ 0 then '0' :: '.' :: List.replicate (-place).toNat '0' ++ digits
    else
      let n := place.toNat
      let whole := digits.take n ++ List.replicate (n - digits.length) '0'
      let rest := digits.drop n
      whole ++ '.' :: (if rest.isEmpty then ['0'] else rest)
  else
    match digits with
    | [] => []
    | d :: ds => (if ds.isEmpty then [d] else d :: '.' :: ds) ++ exponentText (place - 1)

def Binary.text : Binary → String
  | .nan => "nan"
  | .infinite negative => if negative then "-inf" else "inf"
  | .finite negative m e =>
    let body :=
      if m = 0 then "0.0".toList
      else
        let (d, place) := shortest m e
        layout (dropZeros (digitsOf d)) place
    String.ofList (if negative then '-' :: body else body)

end SourceFlags.Decimal
