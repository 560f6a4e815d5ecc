import PathStudio.Scalar
import PathStudio.Decimal.Binary
import PathStudio.Decimal.Numeral

/-!
# Doubles as scalars

The number type of the running editor. What a double cannot answer is refused:
trigonometry and remainders of an infinity, whole parts of what is not finite,
and squares that overflow. Remainders, whole parts, lengths and decimal units
are computed from the exact value of the double. The trigonometric functions are
a parameter, which the running editor takes from the platform.

Lengths and squares are correctly rounded here. A mathematical library only
promises a length to less than one unit in the last place and rounds a square as
its power function does, so that there both may have another last bit.
-/

namespace PathStudio.Double

open Decimal

/-- The double nearest to a decimal. -/
def ofDecimal (negative : Bool) (mantissa : Nat) (exponent : Int) : Float :=
  let magnitude :=
    if mantissa = 0 then 0.0
    else
      let size := (Text.digitCount mantissa : Int) + exponent
      if 310 < size then 1.0 / 0.0
      else if size < -330 then 0.0
      else Float.ofScientific mantissa (decide (exponent < 0)) exponent.natAbs
  if negative then -magnitude else magnitude

/-- The double that a written real stands for. -/
def ofNumeral : Numeral → Float
  | .notANumber => 0.0 / 0.0
  | .infinite negative => if negative then -(1.0 / 0.0) else 1.0 / 0.0
  | .decimal negative mantissa exponent => ofDecimal negative mantissa exponent

/-- The double nearest to an integer. -/
def ofInt (n : Int) : Float := Binary.round (decide (n < 0)) n.natAbs 0

/-- The double nearest to an integer, refused where the integer is out of range. -/
def ofIntChecked (n : Int) : Outcome Float :=
  let x := ofInt n
  if x.isInf then .error .integerTooLarge else .ok x

/-- Whether the sign bit of a double is set. -/
def isNegative (x : Float) : Bool :=
  match Binary.ofFloat x with
  | .notANumber => false
  | .infinite negative | .finite negative _ _ => negative

/-- The length of a vector, correctly rounded where a library may be off in the last bit; infinite
as soon as one component is. -/
def hypot (x y : Float) : Float :=
  match Binary.ofFloat x, Binary.ofFloat y with
  | .infinite _, _ | _, .infinite _ => 1.0 / 0.0
  | .finite _ mx ex, .finite _ my ey =>
    let e := min ex ey
    let a := mx * powerOfTwo (ex - e).toNat
    let b := my * powerOfTwo (ey - e).toNat
    Binary.roundSquareRoot (a * a + b * b) e
  | _, _ => 0.0 / 0.0

/-- The remainder of a truncating division, with the sign of the dividend. -/
def remainder (x y : Float) : Outcome Float :=
  match Binary.ofFloat x, Binary.ofFloat y with
  | .notANumber, _ | _, .notANumber => .ok (0.0 / 0.0)
  | .infinite _, _ => .error .outsideDomain
  | .finite _ _ _, .infinite _ => .ok x
  | .finite negative mx ex, .finite _ my ey =>
    if my = 0 then .error .outsideDomain
    else
      let e := min ex ey
      let rest := (mx * powerOfTwo (ex - e).toNat) % (my * powerOfTwo (ey - e).toNat)
      .ok (Binary.round negative rest e)

/-- The integer at or below a double. -/
def floor (x : Float) : Outcome Int :=
  match Binary.ofFloat x with
  | .notANumber => .error .undefinedInteger
  | .infinite _ => .error .infiniteInteger
  | .finite negative mantissa exponent => .ok (Binary.floorOf negative mantissa exponent)

/-- The integer at or above a double. -/
def ceil (x : Float) : Outcome Int := (floor (-x)).map (- ·)

/-- A function on the finite doubles, carried to what is not a number but not to infinities. -/
def refuseInfinite (f : Float → Float) (x : Float) : Outcome Float :=
  if x.isInf then .error .outsideDomain else .ok (f x)

/-- The square of a double, correctly rounded as a product; refused where it overflows. -/
def square (x : Float) : Outcome Float :=
  let r := x * x
  if r.isInf && !x.isInf then .error .squareOverflow else .ok r

/-- The absolute value in units of a decimal place. -/
def unitsHalfUp (x : Float) (places : Int) : Magnitude :=
  match Binary.ofFloat x with
  | .notANumber => .notANumber
  | .infinite _ => .infinite
  | .finite _ mantissa exponent => .units (units .awayFromZero mantissa exponent places)

/-- The double nearest to a half turn in radians. -/
def pi : Float := Float.ofBits 0x400921FB54442D18

/-- The trigonometric functions of doubles. Only their limits are documented, not their last bits. -/
structure Trigonometry where
  cos : Float → Float
  sin : Float → Float
  atan2 : Float → Float → Float

/-- The trigonometric functions of the platform. -/
def Trigonometry.platform : Trigonometry := ⟨Float.cos, Float.sin, Float.atan2⟩

/-- Doubles as scalars, with the given trigonometric functions. -/
abbrev Trigonometry.scalar (trig : Trigonometry) : Scalar Float where
  ofInt := ofInt
  ofDecimal := ofDecimal
  lt a b := decide (a < b)
  le a b := decide (a ≤ b)
  eq a b := a == b
  abs := Float.abs
  copySign a b := if isNegative b then -a.abs else a.abs
  pi := pi
  hypot := hypot
  atan2 := trig.atan2
  cos := refuseInfinite trig.cos
  sin := refuseInfinite trig.sin
  remainder := remainder
  square := square
  floor := floor
  ceil := ceil
  unitsHalfUp := unitsHalfUp

instance : Scalar Float := Trigonometry.platform.scalar

end PathStudio.Double
