import PathStudio.Scalar
import Mathlib.Analysis.SpecialFunctions.Complex.Arg
import Mathlib.Analysis.SpecialFunctions.Pow.Real

/-!
# Real numbers as scalars

Paths and programs over the real numbers, where arithmetic is exact. What a
double refuses because it overflows or is not a number does not occur here; a
division by zero is zero, as everywhere on the reals.
-/

namespace PathStudio.Exact

/-- The integer next to a real number on the side of zero. -/
noncomputable def truncate (x : ℝ) : Int := if x < 0 then ⌈x⌉ else ⌊x⌋

/-- A sign as a factor. -/
noncomputable def factor (negative : Bool) : ℝ := if negative then -1 else 1

noncomputable instance : Scalar ℝ where
  ofInt n := n
  ofDecimal negative mantissa exponent := factor negative * (mantissa * 10 ^ exponent)
  lt a b := decide (a < b)
  le a b := decide (a ≤ b)
  eq a b := decide (a = b)
  abs := abs
  copySign a b := if b < 0 then -|a| else |a|
  pi := Real.pi
  hypot x y := Real.sqrt (x ^ 2 + y ^ 2)
  atan2 y x := Complex.arg ⟨x, y⟩
  cos x := .ok (Real.cos x)
  sin x := .ok (Real.sin x)
  remainder x y := if y = 0 then .error .outsideDomain else .ok (x - y * truncate (x / y))
  square x := .ok (x * x)
  floor x := .ok ⌊x⌋
  ceil x := .ok ⌈x⌉
  unitsHalfUp x places := .units ⌊|x| * 10 ^ places + 1 / 2⌋₊

/-- The count of decimal units nearest to a magnitude. -/
theorem unitsHalfUp_eq (x : ℝ) (places : Nat) : ∃ count : Nat,
    Scalar.unitsHalfUp x (places : Int) = .units count ∧
      |(count : ℝ) - |x| * 10 ^ places| ≤ 1 / 2 := by
  refine ⟨_, rfl, ?_⟩
  have nonnegative : 0 ≤ |x| * 10 ^ (places : Int) + 1 / 2 := by positivity
  have lower := Nat.floor_le nonnegative
  have upper := Nat.lt_floor_add_one (|x| * 10 ^ (places : Int) + 1 / 2)
  rw [← zpow_natCast, abs_le]
  constructor <;> linarith

/-! ## Decimal places -/

/-- How many units of a decimal place a magnitude is nearest to. -/
noncomputable def unitCount (v : ℝ) (places : Nat) : Nat := ⌊|v| * 10 ^ places + 1 / 2⌋₊

/-- The nearest number with so many decimal places. -/
noncomputable def rounded (v : ℝ) (places : Nat) : ℝ :=
  factor (decide (v < 0)) * (unitCount v places / 10 ^ places)

/-- The number of so many hundredths. -/
noncomputable def ofHundredths (count : ℝ) : ℝ := count / 100

end PathStudio.Exact
