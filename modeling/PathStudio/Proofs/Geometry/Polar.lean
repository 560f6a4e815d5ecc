import PathStudio.Proofs.Geometry.Angle

/-!
# Steps in a direction

Over the real numbers a step of some length in some direction has that length,
and its direction is the one it was taken in, up to whole turns.
-/

namespace PathStudio.Exact

theorem toRadians_eq (d : ℝ) : toRadians d = d * Real.pi / 180 := by
  show d * Real.pi / ((180 : Int) : ℝ) = _
  norm_num

theorem toDegrees_eq (r : ℝ) : toDegrees r = r * 180 / Real.pi := by
  show r * ((180 : Int) : ℝ) / Real.pi = _
  norm_num

theorem negligible_eq : (negligible : ℝ) = 1 / 10 ^ 6 := by
  show (1 : ℝ) * ((1 : Nat) * 10 ^ (-6 : Int)) = _
  norm_num

theorem distance_eq (p q : Point ℝ) :
    Point.distance p q = Real.sqrt ((q.x - p.x) ^ 2 + (q.y - p.y) ^ 2) := rfl

theorem bearing_eq (p q : Point ℝ) :
    Point.bearing p q = toDegrees (Complex.arg ⟨q.x - p.x, q.y - p.y⟩) := rfl

/-- The vector from one point to another, as a complex number. -/
theorem distance_eq_norm (p q : Point ℝ) :
    Point.distance p q = ‖(⟨q.x - p.x, q.y - p.y⟩ : ℂ)‖ := by
  rw [distance_eq, Complex.norm_def, Complex.normSq_mk, sq, sq]

@[simp] theorem distance_self (p : Point ℝ) : Point.distance p p = 0 := by simp [distance_eq]

theorem distance_pos {p q : Point ℝ} (apart : p ≠ q) : 0 < Point.distance p q := by
  rw [distance_eq_norm, norm_pos_iff]
  intro zero
  obtain ⟨hx, hy⟩ := Complex.ext_iff.mp zero
  apply apart
  rw [Point.mk.injEq]
  exact ⟨(sub_eq_zero.mp hx).symm, (sub_eq_zero.mp hy).symm⟩

theorem distance_triangle (p q r : Point ℝ) :
    Point.distance p r ≤ Point.distance p q + Point.distance q r := by
  have sum : (⟨r.x - p.x, r.y - p.y⟩ : ℂ) =
      ⟨q.x - p.x, q.y - p.y⟩ + ⟨r.x - q.x, r.y - q.y⟩ := by
    apply Complex.ext <;> simp
  rw [distance_eq_norm, distance_eq_norm, distance_eq_norm, sum]
  exact norm_add_le _ _

/-- The point that a length in a direction, in degrees, leads to. -/
noncomputable def ahead (c : Point ℝ) (length degrees : ℝ) : Point ℝ :=
  ⟨c.x + length * Real.cos (toRadians degrees), c.y + length * Real.sin (toRadians degrees)⟩

theorem distance_ahead (c : Point ℝ) {length : ℝ} (nonnegative : 0 ≤ length) (degrees : ℝ) :
    Point.distance c (ahead c length degrees) = length := by
  have square : (length * Real.cos (toRadians degrees)) ^ 2 +
      (length * Real.sin (toRadians degrees)) ^ 2 = length ^ 2 := by
    have unit := Real.cos_sq_add_sin_sq (toRadians degrees)
    rw [mul_pow, mul_pow, ← mul_add, unit, mul_one]
  rw [distance_eq, ahead]
  simp only [add_sub_cancel_left]
  rw [square, Real.sqrt_sq nonnegative]

/-- Whole turns lead nowhere else. -/
@[simp] theorem ahead_normal (c : Point ℝ) (length degrees : ℝ) :
    ahead c length (normal degrees) = ahead c length degrees := by
  obtain ⟨turns, h⟩ := exists_turns degrees
  have angle : toRadians degrees = toRadians (normal degrees) + turns * (2 * Real.pi) := by
    rw [toRadians_eq, toRadians_eq]
    linear_combination (Real.pi / 180) * h
  rw [ahead, ahead, angle, Real.cos_add_int_mul_two_pi, Real.sin_add_int_mul_two_pi]

theorem bearing_ahead (c : Point ℝ) {length : ℝ} (positive : 0 < length) (degrees : ℝ) :
    Point.bearing c (ahead c length degrees) = normal degrees := by
  obtain ⟨lower, upper⟩ := normal_mem degrees
  have pi := Real.pi_pos
  have within : toRadians (normal degrees) ∈ Set.Ioc (-Real.pi) Real.pi := by
    rw [toRadians_eq, Set.mem_Ioc, lt_div_iff₀ (by norm_num), div_le_iff₀ (by norm_num)]
    constructor <;> nlinarith
  rw [← ahead_normal, bearing_eq, ahead]
  simp only [add_sub_cancel_left]
  have polar : (⟨length * Real.cos (toRadians (normal degrees)),
      length * Real.sin (toRadians (normal degrees))⟩ : ℂ) =
      (length : ℂ) * (Complex.cos (toRadians (normal degrees) : ℝ) +
        Complex.sin (toRadians (normal degrees) : ℝ) * Complex.I) := by
    apply Complex.ext <;> simp [Complex.cos_ofReal_re, Complex.sin_ofReal_re]
  rw [polar, Complex.arg_mul_cos_add_sin_mul_I positive within, toDegrees_eq, toRadians_eq]
  field_simp

/-- Stretching a vector does not turn it. -/
theorem arg_stretch {length : ℝ} (positive : 0 < length) (x y : ℝ) :
    Complex.arg ⟨length * x, length * y⟩ = Complex.arg ⟨x, y⟩ := by
  have product : (⟨length * x, length * y⟩ : ℂ) = (length : ℂ) * ⟨x, y⟩ := by
    apply Complex.ext <;> simp
  rw [product, Complex.arg_real_mul _ positive]

end PathStudio.Exact
