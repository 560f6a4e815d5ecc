import PathStudio.Geometry.Point
import PathStudio.Proofs.Outcome
import PathStudio.Proofs.Scalar.Real
import Mathlib.Algebra.Order.ToIntervalMod

/-!
# Exact angles

Over the real numbers the normal form of an angle is its representative above
-180 and up to 180 degrees, so that whole turns do not matter and a turn the
short way leaves less to turn.
-/

namespace PathStudio.Exact

theorem turn_pos : (0 : ℝ) < 360 := by norm_num

/-- The angle above -180 and up to 180 degrees that differs by whole turns. -/
noncomputable def normal (d : ℝ) : ℝ := toIocMod turn_pos (-180) d

theorem normal_mem (d : ℝ) : -180 < normal d ∧ normal d ≤ 180 := by
  have bounds := toIocMod_mem_Ioc turn_pos (-180) d
  norm_num at bounds
  exact bounds

/-- The normal form is known by its bounds and by differing in whole turns. -/
theorem normal_eq_of {d r : ℝ} (lower : -180 < r) (upper : r ≤ 180) (turns : Int)
    (h : d = r + turns * 360) : normal d = r := by
  refine (toIocMod_eq_iff turn_pos).mpr ⟨⟨lower, by linarith⟩, turns, ?_⟩
  rw [h, zsmul_eq_mul]

theorem normal_of_mem {d : ℝ} (lower : -180 < d) (upper : d ≤ 180) : normal d = d :=
  normal_eq_of lower upper 0 (by simp)

theorem exists_turns (d : ℝ) : ∃ turns : Int, d = normal d + turns * 360 := by
  refine ⟨toIocDiv turn_pos (-180) d, ?_⟩
  rw [← zsmul_eq_mul]
  exact (toIocMod_add_toIocDiv_zsmul turn_pos (-180) d).symm

/-- Whole turns do not matter. -/
@[simp] theorem normal_add_turns (d : ℝ) (turns : Int) : normal (d + turns * 360) = normal d := by
  obtain ⟨k, hk⟩ := exists_turns d
  refine normal_eq_of (normal_mem d).1 (normal_mem d).2 (k + turns) ?_
  rw [Int.cast_add]
  linarith

@[simp] theorem normal_sub_normal (d e : ℝ) : normal (d - normal e) = normal (d - e) := by
  obtain ⟨k, hk⟩ := exists_turns e
  rw [← normal_add_turns (d - e) k]
  congr 1
  linarith

@[simp] theorem normal_normal_sub (d e : ℝ) : normal (normal d - e) = normal (d - e) := by
  obtain ⟨k, hk⟩ := exists_turns d
  rw [← normal_add_turns (normal d - e) k]
  congr 1
  linarith

theorem abs_remainder_lt (d : ℝ) : |d - 360 * truncate (d / 360)| < 360 := by
  rw [truncate, abs_lt]
  split
  · have := Int.le_ceil (d / 360)
    have := Int.ceil_lt_add_one (d / 360)
    constructor <;> linarith
  · have := Int.floor_le (d / 360)
    have := Int.lt_floor_add_one (d / 360)
    constructor <;> linarith

theorem remainder_turn (d : ℝ) :
    Scalar.remainder d (Scalar.ofInt 360) = .ok (d - 360 * truncate (d / 360)) := by
  have turn : (Scalar.ofInt 360 : ℝ) = 360 := Int.cast_ofNat 360
  rw [turn]
  exact if_neg (by norm_num)

theorem normalizeDegrees_eq (d : ℝ) : normalizeDegrees d = .ok (normal d) := by
  obtain ⟨r, hr⟩ : ∃ r, d - 360 * truncate (d / 360) = r := ⟨_, rfl⟩
  have bounds := abs_lt.mp (hr ▸ abs_remainder_lt d)
  have turns : d = r + truncate (d / 360) * 360 := by linarith
  have half : (Scalar.ofInt 180 : ℝ) = 180 := Int.cast_ofNat 180
  have whole : (Scalar.ofInt 360 : ℝ) = 360 := Int.cast_ofNat 360
  refine bind_eq_ok.mpr ⟨r, by rw [← hr]; exact remainder_turn d, ?_⟩
  change (if decide (Scalar.ofInt 180 < r) = true then .ok (r - Scalar.ofInt 360)
    else if decide (r ≤ -Scalar.ofInt 180) = true then .ok (r + Scalar.ofInt 360)
    else .ok r : Outcome ℝ) = _
  rw [half, whole]
  simp only [decide_eq_true_eq]
  split
  · have same : normal d = r - 360 :=
      normal_eq_of (by linarith) (by linarith) (truncate (d / 360) + 1) (by push_cast; linarith)
    rw [same]
  · split
    · have same : normal d = r + 360 :=
        normal_eq_of (by linarith) (by linarith) (truncate (d / 360) - 1) (by push_cast; linarith)
      rw [same]
    · rw [normal_eq_of (by linarith) (by linarith) _ turns]

/-! ## Turns the short way -/

/-- A part of an angle, in the direction of the angle. -/
theorem copySign_eq {step d : ℝ} (nonnegative : 0 ≤ step) (within : step ≤ |d|) :
    Scalar.copySign step d = SignType.sign d * step := by
  change (if d < 0 then -|step| else |step|) = _
  rw [abs_of_nonneg nonnegative]
  obtain negative | rfl | positive := lt_trichotomy d 0
  · rw [if_pos negative, sign_neg negative, SignType.coe_neg_one, neg_one_mul]
  · rw [abs_zero] at within
    rw [if_neg (lt_irrefl 0), sign_zero, SignType.coe_zero, zero_mul, le_antisymm within nonnegative]
  · rw [if_neg (not_lt.mpr positive.le), sign_pos positive, SignType.coe_one, one_mul]

theorem abs_sign_mul {d part : ℝ} (nonnegative : 0 ≤ part) (within : part ≤ |d|) :
    |SignType.sign d * part| = part := by
  obtain negative | rfl | positive := lt_trichotomy d 0
  · rw [sign_neg negative, SignType.coe_neg_one, neg_one_mul, abs_neg, abs_of_nonneg nonnegative]
  · rw [abs_zero] at within
    rw [le_antisymm within nonnegative, mul_zero, abs_zero]
  · rw [sign_pos positive, SignType.coe_one, one_mul, abs_of_nonneg nonnegative]

theorem sign_sign_mul {part : ℝ} (positive : 0 < part) (d : ℝ) :
    SignType.sign ((SignType.sign d : ℝ) * part) = SignType.sign d := by
  obtain negative | rfl | positive' := lt_trichotomy d 0
  · rw [sign_neg negative, SignType.coe_neg_one, neg_one_mul, sign_neg (neg_neg_iff_pos.mpr positive)]
  · rw [sign_zero, SignType.coe_zero, zero_mul, sign_zero]
  · rw [sign_pos positive', SignType.coe_one, one_mul, sign_pos positive]

/-- A turn the short way by a part of what is left leaves the rest, in the same direction. -/
theorem normal_sub_turned (target heading : ℝ) {step : ℝ} (nonnegative : 0 ≤ step)
    (within : step ≤ |normal (target - heading)|) :
    normal (target - normal (heading + SignType.sign (normal (target - heading)) * step)) =
      SignType.sign (normal (target - heading)) * (|normal (target - heading)| - step) := by
  obtain ⟨d, hd⟩ : ∃ d, normal (target - heading) = d := ⟨_, rfl⟩
  have bounds := normal_mem (target - heading)
  rw [hd] at bounds within ⊢
  have rest : d - SignType.sign d * step = SignType.sign d * (|d| - step) := by
    rw [mul_sub, sign_mul_abs]
  -- what is left lies between nothing and the whole difference
  have inside : -180 < d - SignType.sign d * step ∧ d - SignType.sign d * step ≤ 180 := by
    obtain negative | rfl | positive := lt_trichotomy d 0
    · rw [abs_of_neg negative] at within
      rw [sign_neg negative, SignType.coe_neg_one]
      constructor <;> linarith
    · rw [sign_zero, SignType.coe_zero]
      norm_num
    · rw [abs_of_pos positive] at within
      rw [sign_pos positive, SignType.coe_one]
      constructor <;> linarith
  rw [normal_sub_normal, ← sub_sub, ← normal_normal_sub, hd, normal_of_mem inside.1 inside.2, rest]

/-! ## Whole degrees -/

theorem roundHalfUp_eq (d : ℝ) : roundHalfUp d = .ok (round d) := by
  have half : (1 : ℝ) * ((5 : Nat) * 10 ^ (-1 : Int)) = 1 / 2 := by norm_num
  show Except.ok ⌊d + 1 * ((5 : Nat) * 10 ^ (-1 : Int))⌋ = _
  rw [half, round_eq]

@[simp] theorem roundHalfUp_intCast (k : Int) : roundHalfUp (k : ℝ) = .ok k := by
  rw [roundHalfUp_eq, round_intCast]

/-- A program's heading is the negated heading of the path. -/
@[simp] theorem toDegrees_neg_toRadians (d : ℝ) : toDegrees (-toRadians (-d)) = d := by
  show -(-d * Real.pi / ((180 : Int) : ℝ)) * ((180 : Int) : ℝ) / Real.pi = d
  have nonzero : Real.pi ≠ 0 := Real.pi_ne_zero
  push_cast
  field_simp

/-- Whole degrees that have been read as a heading are printed as they were. -/
@[simp] theorem programHeading_toRadians (k : Int) : programHeading (toRadians (-(k : ℝ))) = .ok k := by
  rw [programHeading, toDegrees_neg_toRadians, roundHalfUp_intCast]

end PathStudio.Exact
