import PathStudio.Decimal.Binary
import PathStudio.Text.Digit

/-!
# Shortest decimals

The decimal with the fewest digits that reads back as a given double, and of
those the one nearest to it. Stored files and messages show reals this way:
positional between `10 ^ (-4)` and `10 ^ 16`, with an exponent beyond.
-/

namespace PathStudio.Decimal

open Text

/-- Compares `a * 10 ^ ea` with `b * 2 ^ eb`. -/
def compareScaled (a : Nat) (ea : Int) (b : Nat) (eb : Int) : Ordering :=
  compare (a * powerOfTen ea.toNat * powerOfTwo (-eb).toNat)
    (b * powerOfTwo eb.toNat * powerOfTen (-ea).toNat)

/-- The least `k` such that `mantissa * 2 ^ exponent` is below `10 ^ k`. -/
def decimalExponent (mantissa : Nat) (exponent : Int) : Int :=
  let guess := Int.fdiv (((mantissa.log2 : Int) + exponent) * 30103) 100000
  let bounded (k : Int) : Bool := compareScaled 1 k mantissa exponent == .gt
  if bounded (guess - 1) then guess - 1
  else if bounded guess then guess
  else if bounded (guess + 1) then guess + 1
  else guess + 2

/-- The reals that round to a double, as bounds in quarters of its last binary place. -/
structure RoundingInterval where
  lower : Nat
  upper : Nat
  exponent : Int
  closed : Bool

/-- The interval of the double `mantissa * 2 ^ exponent`. -/
def roundingInterval (mantissa : Nat) (exponent : Int) : RoundingInterval :=
  { lower :=
      if mantissa = powerOfTwo 52 ∧ -1074 < exponent then 4 * mantissa - 1 else 4 * mantissa - 2
    upper := 4 * mantissa + 2
    exponent := exponent - 2
    closed := mantissa % 2 = 0 }

/-- Whether `count * 10 ^ place` lies in the interval. -/
def RoundingInterval.covers (i : RoundingInterval) (count : Nat) (place : Int) : Bool :=
  match compareScaled count place i.lower i.exponent, compareScaled count place i.upper i.exponent with
  | .gt, .lt => true
  | .eq, .lt | .gt, .eq => i.closed
  | _, _ => false

/-- The point of the grid `10 ^ place` that is nearest to the double and reads back as it. -/
def nearestOnGrid? (mantissa : Nat) (exponent place : Int) : Option Nat :=
  let interval := roundingInterval mantissa exponent
  let nearest := units .toEven mantissa exponent (-place)
  if interval.covers nearest place then some nearest
  else if interval.covers (nearest + 1) place then some (nearest + 1)
  else if interval.covers (nearest - 1) place then some (nearest - 1)
  else none

/-- Tries grids from `digits` digits on, each finer than the one before. -/
def shortestFrom (mantissa : Nat) (exponent top : Int) : (fuel digits : Nat) → Nat × Int
  | 0, _ => (mantissa, 0)
  | fuel + 1, digits =>
    match nearestOnGrid? mantissa exponent (top - digits) with
    | some count => (count, top - digits)
    | none => shortestFrom mantissa exponent top fuel (digits + 1)

/-- Count and place of the shortest decimal of a positive double; 17 digits always suffice. -/
def shortest (mantissa : Nat) (exponent : Int) : Nat × Int :=
  shortestFrom mantissa exponent (decimalExponent mantissa exponent) 17 1

/-- A number without the zeros at its end, which move into the exponent. -/
def dropZeros : (fuel count : Nat) → Int → Nat × Int
  | 0, count, place => (count, place)
  | fuel + 1, count, place =>
    if count % 10 = 0 ∧ count ≠ 0 then dropZeros fuel (count / 10) (place + 1) else (count, place)

/-- Digits and a place as text: positional near the point, else with an exponent. -/
def place (digits : List Char) (place : Int) : List Char :=
  let point : Int := digits.length + place
  if -4 < point ∧ point ≤ 16 then
    if 0 < point then
      let padded := digits ++ List.replicate place.toNat '0'
      let fraction := padded.drop point.toNat
      padded.take point.toNat ++ '.' :: (if fraction.isEmpty then ['0'] else fraction)
    else '0' :: '.' :: (List.replicate (-point).toNat '0' ++ digits)
  else
    let mantissa :=
      match digits with
      | [] => []
      | [d] => [d]
      | d :: rest => d :: '.' :: rest
    let power := point - 1
    let powerDigits := digitsOf power.natAbs
    mantissa ++ 'e' :: (if power < 0 then '-' else '+')
      :: (if powerDigits.length < 2 then '0' :: powerDigits else powerDigits)

/-- The shortest text that reads back as the double. -/
def real (x : Float) : List Char :=
  match Binary.ofFloat x with
  | .notANumber => "nan".toList
  | .infinite negative => if negative then "-inf".toList else "inf".toList
  | .finite negative mantissa exponent =>
    let body :=
      if mantissa = 0 then "0.0".toList
      else
        let (count, last) := shortest mantissa exponent
        let (count, last) := dropZeros 20 count last
        place (digitsOf count) last
    if negative then '-' :: body else body

end PathStudio.Decimal
