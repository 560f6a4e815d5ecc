/-!
# Binary numbers

A double is a sign, a natural mantissa and a power of two, or one of the three
special values. `Binary.ofFloat` takes a double apart exactly and
`Binary.toFloat` puts the nearest one together, ties going to the even
mantissa. Whatever needs the exact value of a double goes through these two.

The one step between binary and decimal notation is to count a finite number in
units of a decimal place, rounded to the nearest count. The formats differ in the
place and in what a tie does.
-/

namespace PathStudio

/-! ## Powers -/

/-- A power of two. -/
def powerOfTwo (n : Nat) : Nat := Nat.pow 2 n

/-- A power of ten. -/
def powerOfTen (n : Nat) : Nat := Nat.pow 10 n

@[simp] theorem powerOfTwo_zero : powerOfTwo 0 = 1 := rfl

@[simp] theorem powerOfTen_zero : powerOfTen 0 = 1 := rfl

/-! ## Doubles -/

/-- A double taken apart; a finite one is `mantissa * 2 ^ exponent`, up to its sign. -/
inductive Binary where
  | notANumber
  | infinite (negative : Bool)
  | finite (negative : Bool) (mantissa : Nat) (exponent : Int)
  deriving DecidableEq, Repr

namespace Binary

/-- Reads the fields of a double's bit pattern. -/
def ofFloat (x : Float) : Binary :=
  let bits : Nat := x.toBits.toNat
  let negative := decide (powerOfTwo 63 ≤ bits)
  let biased : Nat := bits / powerOfTwo 52 % 2048
  let fraction : Nat := bits % powerOfTwo 52
  if biased = 2047 then
    if fraction = 0 then .infinite negative else .notANumber
  else if biased = 0 then .finite negative fraction (-1074)
  else .finite negative (fraction + powerOfTwo 52) ((biased : Int) - 1075)

/-- Which way a number halfway between two neighbours goes. -/
inductive Tie where
  | toEven
  | awayFromZero
  deriving DecidableEq, Repr

/-- The integer nearest to a quotient of naturals. -/
def roundQuotient (tie : Tie) (num den : Nat) : Nat :=
  let whole := num / den
  let rest := num % den
  if 2 * rest < den then whole
  else if den < 2 * rest then whole + 1
  else match tie with
    | .awayFromZero => whole + 1
    | .toEven => if whole % 2 = 0 then whole else whole + 1

/-- The bits of the double with the given sign, mantissa below `2 ^ 53` and exponent. -/
def pack (negative : Bool) (mantissa : Nat) (exponent : Int) : Float :=
  let magnitude :=
    if mantissa < powerOfTwo 52 then mantissa
    else if 971 < exponent then 2047 * powerOfTwo 52
    else (exponent + 1075).toNat * powerOfTwo 52 + (mantissa - powerOfTwo 52)
  Float.ofBits (UInt64.ofNat (if negative then magnitude + powerOfTwo 63 else magnitude))

/-- The double nearest to `mantissa * 2 ^ exponent`, with the given sign. -/
def round (negative : Bool) (mantissa : Nat) (exponent : Int) : Float :=
  if mantissa = 0 then pack negative 0 0
  else
    let target := max ((mantissa.log2 : Int) + exponent - 52) (-1074)
    let scaled :=
      if target ≤ exponent then mantissa * powerOfTwo (exponent - target).toNat
      else roundQuotient .toEven mantissa (powerOfTwo (target - exponent).toNat)
    if scaled = powerOfTwo 53 then pack negative (powerOfTwo 52) (target + 1)
    else pack negative scaled target

/-- The double nearest to a number taken apart. -/
def toFloat : Binary → Float
  | .notANumber => 0.0 / 0.0
  | .infinite negative => if negative then -(1.0 / 0.0) else 1.0 / 0.0
  | .finite negative mantissa exponent => round negative mantissa exponent

/-- The integer at or below the value of a finite number. -/
def floorOf (negative : Bool) (mantissa : Nat) (exponent : Int) : Int :=
  let signed : Int := if negative then -(mantissa : Int) else mantissa
  if 0 ≤ exponent then signed * powerOfTwo exponent.toNat
  else Int.fdiv signed (powerOfTwo (-exponent).toNat)

/-- The largest natural whose square is at most the given one. -/
def squareRoot (n : Nat) : Nat :=
  if n < 2 then n
  else
    let half := 2 * squareRoot (n / 4)
    if (half + 1) * (half + 1) ≤ n then half + 1 else half
termination_by n
decreasing_by omega

/-- The double nearest to the square root of `square * 2 ^ (2 * exponent)`. -/
def roundSquareRoot (square : Nat) (exponent : Int) : Float :=
  let shift := 64 - min 64 (square.log2 / 2)
  let widened := square * powerOfTwo (2 * shift)
  let root := squareRoot widened
  let sticky := if root * root = widened then 0 else 1
  round false (2 * root + sticky) (exponent - shift - 1)

end Binary

/-! ## Decimal units -/

namespace Decimal

open Binary (Tie roundQuotient)

/-- `mantissa * 2 ^ exponent` in units of `10 ^ (-places)`, rounded to a whole count. -/
def units (tie : Tie) (mantissa : Nat) (exponent places : Int) : Nat :=
  if mantissa = 0 then 0
  else
    roundQuotient tie (mantissa * powerOfTwo exponent.toNat * powerOfTen places.toNat)
      (powerOfTwo (-exponent).toNat * powerOfTen (-places).toNat)

end Decimal

end PathStudio
