import SourceFlags.Decimal.Binary
import SourceFlags.Text.Case
import SourceFlags.Text.Digit
import SourceFlags.Text.Lines

namespace SourceFlags.Decimal

open Text

def digitRow (cs : Chars) : Option Chars :=
  let groups := splitOn '_' cs
  if groups.all (fun g => !g.isEmpty && g.all isDigit) then some groups.flatten else none

def optionalRow (cs : Chars) : Option Chars :=
  if cs.isEmpty then some [] else digitRow cs

def signed (cs : Chars) : Bool × Chars :=
  match cs with
  | '-' :: rest => (true, rest)
  | '+' :: rest => (false, rest)
  | rest => (false, rest)

def exponent? (cs : Chars) : Option Int :=
  let (negative, rest) := signed cs
  (digitRow rest).map fun ds =>
    let n : Int := digitsValue ds
    if negative then -n else n

def isExponentMark (c : Char) : Bool :=
  c == 'e' || c == 'E'

def unsigned? (negative : Bool) (cs : Chars) : Option Binary := do
  let body := cs.takeWhile (!isExponentMark ·)
  let e ← match cs.dropWhile (!isExponentMark ·) with
    | [] => some 0
    | _ :: rest => exponent? rest
  let whole ← optionalRow (body.takeWhile (· != '.'))
  let fraction ← optionalRow ((body.dropWhile (· != '.')).drop 1)
  if whole.isEmpty && fraction.isEmpty then none
  else some (.ofDecimal negative (digitsValue (whole ++ fraction)) (e - fraction.length))

def isMargin (c : Char) : Bool :=
  isBlank c && !isSeparator c

def ofText? (s : String) : Option Binary :=
  let (negative, rest) := signed (trimWhere isMargin s.toList)
  let word := String.ofList (rest.map Char.toLower)
  if word = "inf" || word = "infinity" then some (.infinite negative)
  else if word = "nan" then some .nan
  else unsigned? negative rest

end SourceFlags.Decimal
