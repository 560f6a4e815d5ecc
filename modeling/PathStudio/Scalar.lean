import PathStudio.Fault

/-!
# Scalars

Coordinates, angles, speeds and times are scalars. Paths, programs and the
simulator are written over any type with the operations below, so that one
definition serves the doubles of a running editor and exact numbers alike.
The ring operations are the ordinary classes; `Scalar` adds comparison as a
test, conversions from and to integers and decimals, and the handful of real
functions that path geometry needs. An operation that a number type may refuse
answers with an `Outcome`.
-/

namespace PathStudio

/-- A magnitude counted in units of a decimal place. -/
inductive Magnitude where
  | notANumber
  | infinite
  | units (count : Nat)
  deriving DecidableEq, Repr

/-- The number type of a path. -/
class Scalar (ν : Type) [Add ν] [Sub ν] [Mul ν] [Div ν] [Neg ν] where
  /-- The scalar nearest to an integer. -/
  ofInt : Int → ν
  /-- The scalar nearest to `mantissa * 10 ^ exponent`, or to its negative. -/
  ofDecimal (negative : Bool) (mantissa : Nat) (exponent : Int) : ν
  lt : ν → ν → Bool
  le : ν → ν → Bool
  eq : ν → ν → Bool
  abs : ν → ν
  /-- The magnitude of the first scalar with the sign of the second. -/
  copySign : ν → ν → ν
  pi : ν
  /-- The length of the vector with the given components. -/
  hypot : ν → ν → ν
  /-- The direction of the vector `(x, y)`, with `y` first. -/
  atan2 : ν → ν → ν
  cos : ν → Outcome ν
  sin : ν → Outcome ν
  /-- The remainder of a division that truncates toward zero. -/
  remainder : ν → ν → Outcome ν
  square : ν → Outcome ν
  floor : ν → Outcome Int
  ceil : ν → Outcome Int
  /-- The absolute value in units of `10 ^ (-places)`, halves rounded up. -/
  unitsHalfUp : ν → Int → Magnitude

namespace Scalar

variable {ν : Type} [Add ν] [Sub ν] [Mul ν] [Div ν] [Neg ν] [Scalar ν]

scoped instance (n : Nat) : OfNat ν n := ⟨ofInt n⟩

scoped instance : OfScientific ν :=
  ⟨fun mantissa small exponent => ofDecimal false mantissa (if small then -exponent else exponent)⟩

/-- Division that refuses a zero divisor. -/
def divide (a b : ν) : Outcome ν :=
  if eq b 0 then .error .divisionByZero else .ok (a / b)

/-- The integer next to a scalar on the side of zero. -/
def truncate (x : ν) : Outcome Int := if lt x 0 then ceil x else floor x

/-- The second scalar if it is smaller, else the first. -/
def min (a b : ν) : ν := if lt b a then b else a

end Scalar

end PathStudio
