import PathStudio.Proofs.Scalar.Direction

/-!
# Comparisons of doubles

Doubles are compared by the order of floating-point numbers, in which what is not
a number is neither below nor above anything. Turning the two sides of a
comparison round turns its answer round.
-/

namespace PathStudio.Double

open Binary Float.Model

theorem compare_swap (a b : UnpackedFloat) : b.compare a = (a.compare b).map Ordering.swap := by
  cases a with
  | notANumber => cases b <;> rfl
  | zero s =>
    cases b with
    | notANumber | zero => rfl
    | infinity t | finite t => cases t <;> rfl
  | infinity s =>
    cases b with
    | infinity t => cases s <;> cases t <;> rfl
    | notANumber | zero | finite => cases s <;> rfl
  | finite s m e positive =>
    cases b with
    | notANumber | zero => cases s <;> rfl
    | infinity t => cases s <;> cases t <;> rfl
    | finite t n k positive' =>
      have exponents : compare k e = (compare e k).swap := Std.OrientedCmp.eq_swap
      have mantissas : compare n m = (compare m n).swap := Std.OrientedCmp.eq_swap
      have turned : (compare k e).then (compare n m) = ((compare e k).then (compare m n)).swap := by
        rw [Ordering.swap_then, exponents, mantissas]
      cases s <;> cases t <;> simp [UnpackedFloat.compare, turned]

theorem not_le_of_lt {x y : Float} (h : x < y) : ¬ y ≤ x := by
  have compared := decide_lt_eq x y
  rw [decide_eq_true h, UnpackedFloat.lt, eq_comm, beq_iff_eq] at compared
  rw [le_iff, UnpackedFloat.le, compare_swap, compared]
  decide

theorem beq_eq (x y : Float) : (x == y) = (unpacked (ofFloat x)).beq (unpacked (ofFloat y)) := by
  rw [← unpack_eq, ← unpack_eq]
  rfl

/-- Only the two zeros equal zero. -/
theorem exists_zero_of_beq {x : Float} (h : (x == Double.ofInt 0) = true) :
    ∃ s, unpacked (ofFloat x) = .zero s := by
  have zero : ofFloat (Double.ofInt 0) = .finite false 0 (-1074) := by decide
  rw [beq_eq, zero] at h
  generalize unpacked (ofFloat x) = u at h
  cases u with
  | notANumber => cases h
  | zero s => exact ⟨s, rfl⟩
  | infinity s | finite s => cases s <;> cases h

end PathStudio.Double
