import PathStudio.Scalar
import PathStudio.Decimal.Fixed

/-!
# Amounts

The numbers that programs carry. An amount has a fixed number of places, and a
half goes away from zero. Zero has no sign, but an amount that only rounds to
zero keeps its own.
-/

namespace PathStudio.Program

open Scalar

variable {ν : Type} [Add ν] [Sub ν] [Mul ν] [Div ν] [Neg ν] [Scalar ν]

/-- The most places that can be asked for. -/
def mostPlaces : Int := 2000054

/-- The most places that an amount is written with; more are not more exact. -/
def finestPlace : Int := 1000026

/-- The fewest places that can be asked for; negative ones stand before the point. -/
def fewestPlaces : Int := -999999

/-- A scalar with a fixed number of places. -/
def amount (v : ν) (places : Int) : Outcome (List Char) :=
  if places < fewestPlaces ∨ mostPlaces < places then .error .unprintable
  else
    let places := min places finestPlace
    match unitsHalfUp v places with
    | .notANumber => .ok "NaN".toList
    | .infinite => .error .unprintable
    | .units count =>
      match Decimal.amount? (lt v 0) count places with
      | some text => .ok text
      | none => .error .unprintable

/-- A length in metres, written in centimetres with one place. -/
def centimetres (v : ν) : Outcome (List Char) := amount (v * 100) 1

end PathStudio.Program
