import PathStudio.Proofs.Simulation.Exact

/-!
# Turning

A turn is made by calls, each from the heading that the one before has answered, until one has
reached the target. Over the real numbers every call but the last leaves less to turn and nothing to
turn back: what is left keeps the direction of the difference at the start, wherever the headings
pass from one end of the turn to the other. How many calls there are is told by the difference.
-/

namespace PathStudio.Simulation

open Exact

section Calls

variable {ν : Type} [Add ν] [Sub ν] [Mul ν] [Div ν] [Neg ν] [Scalar ν]

/-- The answer of the last of so many calls, which tells the heading and whether it is the target.
After a call that has reached the target there are no more. -/
def rotations (heading target most : ν) : Nat → Outcome (ν × Bool)
  | 0 => .ok (heading, false)
  | calls + 1 => do
    let (now, reached) ← rotations heading target most calls
    if reached then return (now, true) else rotate now target most

theorem rotations_succ {heading target most now : ν} {calls : Nat}
    (h : rotations heading target most calls = .ok (now, false)) :
    rotations heading target most (calls + 1) = rotate now target most := by
  rw [rotations, h]
  rfl

end Calls

/-! ## What is left -/

/-- The angle that is left of a difference after so many calls. -/
noncomputable def angleLeft (d most : ℝ) (calls : Nat) : ℝ := max 0 (|d| - calls * most)

section Left

variable {d most : ℝ} {calls : Nat}

@[simp] theorem angleLeft_zero (d most : ℝ) : angleLeft d most 0 = |d| := by
  rw [angleLeft, Nat.cast_zero, zero_mul, sub_zero, max_eq_right (abs_nonneg d)]

theorem angleLeft_nonneg (d most : ℝ) (calls : Nat) : 0 ≤ angleLeft d most calls := le_max_left _ _

theorem angleLeft_le_abs (positive : 0 < most) : angleLeft d most calls ≤ |d| := by
  refine max_le (abs_nonneg d) ?_
  have turned : 0 ≤ calls * most := by positivity
  linarith

/-- A call turns by all that it may, or by what is left. -/
theorem angleLeft_succ (positive : 0 < most) :
    angleLeft d most (calls + 1) = angleLeft d most calls - min most (angleLeft d most calls) := by
  have shape : |d| - (calls + 1 : Nat) * most = |d| - calls * most - most := by
    push_cast
    ring
  rw [angleLeft, angleLeft, shape]
  obtain some | none := le_total 0 (|d| - calls * most)
  · rw [max_eq_right some]
    obtain whole | last := le_total most (|d| - calls * most)
    · rw [min_eq_left whole, max_eq_right (sub_nonneg.mpr whole)]
    · rw [min_eq_right last, sub_self, max_eq_left (sub_nonpos.mpr last)]
  · rw [max_eq_left none, min_eq_right positive.le, sub_self, max_eq_left (by linarith)]

/-- How many calls leave more than the snap angle. -/
theorem lt_ceil_iff (positive : 0 < most) :
    calls < (max 0 ⌈(|d| - 0.5) / most⌉).toNat ↔ 0.5 < angleLeft d most calls := by
  have natural : (max 0 ⌈(|d| - 0.5) / most⌉).toNat = ⌈(|d| - 0.5) / most⌉₊ := by
    rw [← Int.ceil_toNat]
    omega
  rw [natural, Nat.lt_ceil, lt_div_iff₀ positive, angleLeft, lt_max_iff]
  constructor
  · intro more
    exact .inr (by linarith)
  · rintro (none | more)
    · norm_num at none
    · linarith

end Left

/-! ## Calls -/

section Turn

variable {d heading target most : ℝ} {calls : Nat}

/-- A call from a heading that has more than the snap angle left, in the direction of a difference,
leaves less in that direction. -/
theorem rotate_of_left {now : ℝ} (positive : 0 < most)
    (left : normal (target - now) = SignType.sign d * angleLeft d most calls)
    (more : 0.5 < angleLeft d most calls) :
    ∃ next, rotate now target most = .ok (next, false) ∧
      normal (target - next) = SignType.sign d * angleLeft d most (calls + 1) ∧
      ∃ turns : Int,
        next = now + SignType.sign d * min most (angleLeft d most calls) + turns * 360 := by
  have size : |normal (target - now)| = angleLeft d most calls := by
    rw [left, abs_sign_mul (angleLeft_nonneg d most calls) (angleLeft_le_abs positive)]
  have direction : SignType.sign (normal (target - now)) = SignType.sign d := by
    rw [left, sign_sign_mul (lt_trans (by norm_num) more)]
  have turned := rotate_eq_of_far (size ▸ more) positive
  have rest := normal_sub_turned target now (le_min positive.le (abs_nonneg _)) (min_le_right most _)
  rw [direction, size] at turned rest
  obtain ⟨turns, whole⟩ := exists_turns (now + SignType.sign d * min most (angleLeft d most calls))
  refine ⟨_, turned, ?_, -turns, ?_⟩
  · rw [rest, angleLeft_succ positive]
  · push_cast
    linarith

/-- As long as more than the snap angle is left, the calls go on and leave what they should. -/
theorem exists_rotations (positive : 0 < most) (start : normal (target - heading) = d)
    (few : ∀ k < calls, 0.5 < angleLeft d most k) :
    ∃ now, rotations heading target most calls = .ok (now, false) ∧
      normal (target - now) = SignType.sign d * angleLeft d most calls := by
  induction calls with
  | zero =>
    refine ⟨heading, rfl, ?_⟩
    rw [start, angleLeft_zero, sign_mul_abs]
  | succ calls ih =>
    obtain ⟨now, before, left⟩ := ih fun k hk => few k (Nat.lt_succ_of_lt hk)
    obtain ⟨next, turned, rest, -⟩ := rotate_of_left positive left (few calls (Nat.lt_succ_self calls))
    exact ⟨next, (rotations_succ before).trans turned, rest⟩

/-- A call answers the target or a heading of one turn. -/
theorem mem_of_rotate {now next : ℝ} {reached : Bool} (lower : -180 < target) (upper : target ≤ 180)
    (h : rotate now target most = .ok (next, reached)) : -180 < next ∧ next ≤ 180 := by
  obtain ⟨difference, -, h⟩ := bind_eq_ok.mp h
  split at h
  next =>
    cases h
    exact ⟨lower, upper⟩
  next =>
    obtain ⟨turned, hturned, h⟩ := bind_eq_ok.mp h
    rw [normalizeDegrees_eq] at hturned
    cases hturned
    cases h
    exact normal_mem _

/-- Whatever the calls answer is a heading of one turn. -/
theorem mem_of_rotations {now : ℝ} {reached : Bool} (lower : -180 < target) (upper : target ≤ 180)
    (h : rotations heading target most (calls + 1) = .ok (now, reached)) :
    -180 < now ∧ now ≤ 180 := by
  induction calls generalizing now reached with
  | zero => exact mem_of_rotate lower upper h
  | succ calls ih =>
    rw [rotations] at h
    obtain ⟨⟨before, ended⟩, made, h⟩ := bind_eq_ok.mp h
    cases ended with
    | false => exact mem_of_rotate lower upper h
    | true =>
      cases h
      exact ih made

/-- A turn goes the short way and not too far. The number of calls that it takes is told by the
normal form of the difference at the start, and the last one answers the target. Every call before it
turns in the direction of the difference, by the given angle or by what is left, so that `k` of them
turn by `k` times that angle or by the whole difference. All calls answer headings of one turn. -/
theorem turn_goes_short_way (heading : ℝ) {target most : ℝ} (lower : -180 < target)
    (upper : target ≤ 180) (positive : 0 < most) :
    ∃ d, normalizeDegrees (target - heading) = .ok d ∧
      let calls := (max 0 ⌈(|d| - 0.5) / most⌉).toNat
      rotations heading target most (calls + 1) = .ok (target, true) ∧
      (∀ k ≤ calls, ∃ now, rotations heading target most k = .ok (now, false) ∧
        normalizeDegrees (target - now) = .ok (SignType.sign d * max 0 (|d| - k * most)) ∧
        (k < calls → ∃ next, rotations heading target most (k + 1) = .ok (next, false) ∧
          ∃ turns : Int,
            next = now + SignType.sign d * min most (max 0 (|d| - k * most)) + turns * 360)) ∧
      ∀ k now reached, rotations heading target most (k + 1) = .ok (now, reached) →
        -180 < now ∧ now ≤ 180 := by
  obtain ⟨d, start⟩ : ∃ d, normal (target - heading) = d := ⟨_, rfl⟩
  refine ⟨d, start ▸ normalizeDegrees_eq _, ?_⟩
  intro calls
  have goes (k : Nat) (within : k ≤ calls) : ∃ now,
      rotations heading target most k = .ok (now, false) ∧
        normal (target - now) = SignType.sign d * angleLeft d most k :=
    exists_rotations positive start fun j before =>
      (lt_ceil_iff positive).mp (Nat.lt_of_lt_of_le before within)
  refine ⟨?_, fun k within => ?_, fun k now reached h => mem_of_rotations lower upper h⟩
  · obtain ⟨now, before, left⟩ := goes calls le_rfl
    have near : angleLeft d most calls ≤ 0.5 :=
      not_lt.mp fun more => lt_irrefl calls ((lt_ceil_iff positive).mpr more)
    rw [rotations_succ before]
    apply rotate_of_near
    rwa [left, abs_sign_mul (angleLeft_nonneg d most calls) (angleLeft_le_abs positive)]
  · obtain ⟨now, before, left⟩ := goes k within
    refine ⟨now, before, left ▸ normalizeDegrees_eq _, fun further => ?_⟩
    obtain ⟨next, turned, -, whole⟩ := rotate_of_left positive left ((lt_ceil_iff positive).mp further)
    exact ⟨next, (rotations_succ before).trans turned, whole⟩

end Turn

/-- A turn over the end of the range, whose second call turns by less than it may. -/
theorem turn_goes_short_way_over_end : (-180 : ℝ) < -170 ∧ (-170 : ℝ) ≤ 180 ∧ (0 : ℝ) < 15 ∧
    rotations (170 : ℝ) (-170) 15 3 = .ok (-170, true) ∧
      (∃ now, rotations (170 : ℝ) (-170) 15 1 = .ok (now, false) ∧
        normalizeDegrees (-170 - now) = .ok 5) ∧
      ∃ now, rotations (170 : ℝ) (-170) 15 2 = .ok (now, false) ∧
        normalizeDegrees (-170 - now) = .ok 0 := by
  have lower : (-180 : ℝ) < -170 := by norm_num
  have upper : (-170 : ℝ) ≤ 180 := by norm_num
  have positive : (0 : ℝ) < 15 := by norm_num
  obtain ⟨d, start, ends, goes, -⟩ := turn_goes_short_way 170 lower upper positive
  have short : normal (-170 - 170) = 20 := normal_eq_of (by norm_num) (by norm_num) (-1) (by norm_num)
  obtain rfl : 20 = d := by
    rw [normalizeDegrees_eq, short] at start
    exact Except.ok.inj start
  have calls : (max 0 ⌈(|(20 : ℝ)| - 0.5) / 15⌉).toNat = 2 := by
    have two : ⌈(|(20 : ℝ)| - 0.5) / 15⌉ = 2 := Int.ceil_eq_iff.mpr (by norm_num)
    rw [two]
    rfl
  have ahead : ((SignType.sign (20 : ℝ) : SignType) : ℝ) = 1 := by
    rw [sign_pos (by norm_num), SignType.coe_one]
  simp only [calls, ahead, one_mul] at ends goes
  obtain ⟨first, one, left, -⟩ := goes 1 (by decide)
  obtain ⟨second, two, none, -⟩ := goes 2 le_rfl
  norm_num at left none
  exact ⟨lower, upper, positive, ends, ⟨first, one, left⟩, second, two, none⟩

end PathStudio.Simulation
