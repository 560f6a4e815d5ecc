import PathStudio.Proofs.Geometry.Curve

/-!
# Arcs straight ahead

An arc without a control point of its own, whose ends lie along the first axis,
has the same shape for every length of its chord. Its directions do not depend on
the chord, and its length is between 19/18 and 17/16 of the chord.
-/

namespace PathStudio.Exact

@[simp] theorem ahead_zero (c : Point ℝ) (chord : ℝ) : ahead c chord 0 = ⟨c.x + chord, c.y⟩ := by
  have level : toRadians (0 : ℝ) = 0 := by rw [toRadians_eq, zero_mul, zero_div]
  rw [ahead, level, Real.cos_zero, Real.sin_zero, mul_one, mul_zero, add_zero]

/-- The control point of an arc straight ahead. -/
noncomputable def bulge (c : Point ℝ) (chord : ℝ) : Point ℝ := ⟨c.x + 0.5 * chord, c.y + 0.3 * chord⟩

theorem defaultControl_ahead (c : Point ℝ) {chord : ℝ} (far : 1 / 10 ^ 6 ≤ chord) :
    defaultControl c (ahead c chord 0) = .ok (bulge c chord) := by
  have positive : 0 < chord := lt_of_lt_of_le (by norm_num) far
  have two : (Scalar.ofInt 2 : ℝ) = 2 := Int.cast_ofNat 2
  have part : (Scalar.ofDecimal false 3 (-1) : ℝ) = 3 / 10 := by
    show (1 : ℝ) * ((3 : Nat) * 10 ^ (-1 : Int)) = _
    norm_num
  have length : Scalar.hypot (c.x + chord - c.x) (c.y - c.y) = chord := by
    show Real.sqrt ((c.x + chord - c.x) ^ 2 + (c.y - c.y) ^ 2) = chord
    rw [add_sub_cancel_left, sub_self, zero_pow (by decide), add_zero, Real.sqrt_sq positive.le]
  have long : Scalar.lt chord negligible = false :=
    decide_eq_false (by rw [negligible_eq]; exact not_lt.mpr far)
  have across : Complex.arg ⟨c.x + chord - c.x, c.y - c.y⟩ + Real.pi / Scalar.ofInt 2 =
      Real.pi / 2 := by
    have axis : (⟨c.x + chord - c.x, c.y - c.y⟩ : ℂ) = (chord : ℂ) := by
      apply Complex.ext <;> simp
    rw [axis, Complex.arg_ofReal_of_nonneg positive.le, two, zero_add]
  rw [ahead_zero, defaultControl]
  simp only [length, long, Bool.false_eq_true, if_false]
  refine bind_eq_ok.mpr ⟨0, ?_, bind_eq_ok.mpr ⟨1, ?_, ?_⟩⟩
  · show Except.ok (Real.cos (Complex.arg ⟨c.x + chord - c.x, c.y - c.y⟩
      + Real.pi / Scalar.ofInt 2)) = _
    rw [across, Real.cos_pi_div_two]
  · show Except.ok (Real.sin (Complex.arg ⟨c.x + chord - c.x, c.y - c.y⟩
      + Real.pi / Scalar.ofInt 2)) = _
    rw [across, Real.sin_pi_div_two]
  · show Except.ok (⟨(c.x + (c.x + chord)) / Scalar.ofInt 2
        + 0 * (chord * Scalar.ofDecimal false 3 (-1)),
      (c.y + c.y) / Scalar.ofInt 2 + 1 * (chord * Scalar.ofDecimal false 3 (-1))⟩ : Point ℝ) = _
    rw [two, part, bulge]
    congr 2 <;> ring

/-- A point on an arc straight ahead. -/
noncomputable def onBend (c : Point ℝ) (chord t : ℝ) : Point ℝ :=
  ⟨c.x + chord * t, c.y + chord * (0.6 * t * (1 - t))⟩

theorem inner_bend (c : Point ℝ) (chord t : ℝ) :
    Bezier.inner t c (bulge c chord) (ahead c chord 0) = onBend c chord t := by
  rw [inner_eq, ahead_zero, bulge, onBend]
  congr 1 <;> ring

theorem point_bend (c : Point ℝ) (chord : ℝ) {step : Nat} (within : step ≤ 10) :
    Bezier.point (Bezier.parameter step 10) c (bulge c chord) (ahead c chord 0) =
      onBend c chord (step / 10) := by
  rw [point_parameter (by decide) within, inner_bend, Nat.cast_ofNat]

/-! ## Its length -/

/-- How long a tenth of an arc straight ahead is, in parts of its chord. -/
noncomputable def tenth (step : Nat) : ℝ :=
  Real.sqrt (0.01 + (0.054 - 0.012 * step) ^ 2)

theorem distance_onBend (c : Point ℝ) {chord : ℝ} (nonnegative : 0 ≤ chord) (step : Nat) :
    Point.distance (onBend c chord (step / 10)) (onBend c chord ((step + 1 : Nat) / 10)) =
      chord * tenth step := by
  have square : (c.x + chord * (((step + 1 : Nat) : ℝ) / 10) - (c.x + chord * (step / 10))) ^ 2 +
      (c.y + chord * (0.6 * (((step + 1 : Nat) : ℝ) / 10) * (1 - ((step + 1 : Nat) : ℝ) / 10))
        - (c.y + chord * (0.6 * (step / 10) * (1 - step / 10)))) ^ 2 =
      chord ^ 2 * (0.01 + (0.054 - 0.012 * step) ^ 2) := by
    push_cast
    ring
  rw [distance_eq, onBend, onBend, square, Real.sqrt_mul (sq_nonneg chord), Real.sqrt_sq nonnegative,
    tenth]

/-- How long an arc straight ahead is, in parts of its chord. -/
noncomputable def bendRatio : ℝ := ∑ step ∈ Finset.range 10, tenth step

theorem chords_bend (c : Point ℝ) {chord : ℝ} (nonnegative : 0 ≤ chord) (count done : Nat)
    (most : done + count ≤ 10) (total : ℝ) :
    Bezier.chords c (bulge c chord) (ahead c chord 0) 10 (onBend c chord (done / 10)) total
        (List.range' (done + 1) count) =
      total + chord * ∑ step ∈ Finset.range count, tenth (done + step) := by
  induction count generalizing done total with
  | zero => simp [Bezier.chords]
  | succ count ih =>
    rw [List.range'_succ, Bezier.chords, point_bend c chord (by omega), distance_onBend c nonnegative,
      ih (done + 1) (by omega), Finset.sum_range_succ', add_zero, mul_add]
    have shift (step : Nat) : done + 1 + step = done + (step + 1) := by omega
    simp only [shift]
    ring

theorem length_bend (c : Point ℝ) {chord : ℝ} (nonnegative : 0 ≤ chord) :
    Bezier.length c (bulge c chord) (ahead c chord 0) Bezier.defaultSteps = chord * bendRatio := by
  have start : onBend c chord ((0 : Nat) / 10) = c := by simp [onBend]
  have zero : (Scalar.ofInt 0 : ℝ) = 0 := Int.cast_zero
  have total := chords_bend c nonnegative 10 0 (by decide) (Scalar.ofInt 0)
  rw [start, zero] at total
  simp only [zero_add] at total
  show Bezier.chords c (bulge c chord) (ahead c chord 0) 10 c (Scalar.ofInt 0) (List.range' 1 10) = _
  rw [zero, total, bendRatio]

/-- The tenths on either side of the middle are as long as each other. -/
theorem bendRatio_eq : bendRatio = 2 * (tenth 0 + tenth 1 + tenth 2 + tenth 3 + tenth 4) := by
  have mirror (step : Nat) (h : step ≤ 9) : tenth (9 - step) = tenth step := by
    rw [tenth, tenth, Nat.cast_sub h]
    congr 1
    push_cast
    ring
  have m0 := mirror 0 (by decide)
  have m1 := mirror 1 (by decide)
  have m2 := mirror 2 (by decide)
  have m3 := mirror 3 (by decide)
  have m4 := mirror 4 (by decide)
  rw [bendRatio]
  simp only [Finset.sum_range_succ, Finset.sum_range_zero]
  norm_num at m0 m1 m2 m3 m4
  rw [m0, m1, m2, m3, m4]
  ring

theorem bendRatio_bounds : 19 / 18 < bendRatio ∧ bendRatio < 17 / 16 := by
  have lower {step : Nat} {bound : ℝ} (h : bound ^ 2 ≤ 0.01 + (0.054 - 0.012 * step) ^ 2) :
      bound ≤ tenth step := Real.le_sqrt_of_sq_le h
  have upper {step : Nat} {bound : ℝ} (positive : 0 ≤ bound)
      (h : 0.01 + (0.054 - 0.012 * step) ^ 2 ≤ bound ^ 2) : tenth step ≤ bound :=
    Real.sqrt_le_iff.mpr ⟨positive, h⟩
  have l0 : 0.1136 ≤ tenth 0 := lower (by norm_num)
  have l1 : 0.1084 ≤ tenth 1 := lower (by norm_num)
  have l2 : 0.1044 ≤ tenth 2 := lower (by norm_num)
  have l3 : 0.1016 ≤ tenth 3 := lower (by norm_num)
  have l4 : 0.1001 ≤ tenth 4 := lower (by norm_num)
  have u0 : tenth 0 ≤ 0.1137 := upper (by norm_num) (by norm_num)
  have u1 : tenth 1 ≤ 0.1085 := upper (by norm_num) (by norm_num)
  have u2 : tenth 2 ≤ 0.1045 := upper (by norm_num) (by norm_num)
  have u3 : tenth 3 ≤ 0.1017 := upper (by norm_num) (by norm_num)
  have u4 : tenth 4 ≤ 0.1002 := upper (by norm_num) (by norm_num)
  rw [bendRatio_eq]
  norm_num at *
  constructor <;> linarith

/-! ## Its directions -/

/-- The direction of an arc straight ahead at a parameter, in degrees. -/
noncomputable def bendTangent (t : ℝ) : ℝ := toDegrees (Complex.arg ⟨1, 0.6 - 1.2 * t⟩)

theorem tangent_bend (c : Point ℝ) {chord : ℝ} (positive : 0 < chord) (t : ℝ) :
    Bezier.tangent t c (bulge c chord) (ahead c chord 0) = bendTangent t := by
  have x : ((2 : Int) : ℝ) * (((1 : Int) : ℝ) - t) * (c.x + 0.5 * chord - c.x)
      + ((2 : Int) : ℝ) * t * (c.x + chord - (c.x + 0.5 * chord)) = chord * 1 := by
    push_cast
    ring
  have y : ((2 : Int) : ℝ) * (((1 : Int) : ℝ) - t) * (c.y + 0.3 * chord - c.y)
      + ((2 : Int) : ℝ) * t * (c.y - (c.y + 0.3 * chord)) = chord * (0.6 - 1.2 * t) := by
    push_cast
    ring
  rw [ahead_zero]
  show toDegrees (Complex.arg ⟨((2 : Int) : ℝ) * (((1 : Int) : ℝ) - t) * (c.x + 0.5 * chord - c.x)
      + ((2 : Int) : ℝ) * t * (c.x + chord - (c.x + 0.5 * chord)),
    ((2 : Int) : ℝ) * (((1 : Int) : ℝ) - t) * (c.y + 0.3 * chord - c.y)
      + ((2 : Int) : ℝ) * t * (c.y - (c.y + 0.3 * chord))⟩) = _
  rw [x, y, arg_stretch positive, bendTangent]

end PathStudio.Exact
