import PathStudio.Proofs.Simulation.Passage
import PathStudio.Proofs.Geometry.Angle

/-!
# Exact segments

What the operations of a run are over the real numbers. None of them is refused,
a turn the short way leaves less to turn, a segment is travelled to its very end,
and the end of an arc has the heading of its waypoint.
-/

namespace PathStudio.Simulation

open Exact

@[simp] theorem snapAngle_eq : (snapAngle : ℝ) = 0.5 := by
  change factor false * ((5 : ℕ) * 10 ^ (-1 : ℤ)) = (0.5 : ℝ)
  norm_num [factor]

@[simp] theorem shortestTravel_eq : (shortestTravel : ℝ) = 1e-9 := by
  change factor false * ((1 : ℕ) * 10 ^ (-9 : ℤ)) = (1e-9 : ℝ)
  norm_num [factor]

@[simp] theorem one_eq : (Scalar.ofInt 1 : ℝ) = 1 := Int.cast_one

@[simp] theorem zero_eq : (Scalar.ofInt 0 : ℝ) = 0 := Int.cast_zero

instance : Ordered ℝ where
  not_le_of_lt_one x below := decide_eq_false (not_le_of_gt (of_decide_eq_true below))
  le_shortest_of_eq_zero x zero := by
    have same : x = Scalar.ofInt 0 := of_decide_eq_true zero
    refine decide_eq_true (?_ : x ≤ shortestTravel)
    rw [same, shortestTravel_eq, zero_eq]
    norm_num

@[simp] theorem min_eq (a b : ℝ) : Scalar.min a b = min a b := by
  change (if decide (b < a) = true then b else a) = min a b
  rw [min_comm, min_def_lt]
  simp only [decide_eq_true_eq]

/-- A turn has reached its end when less than the snap angle is left. -/
theorem rotate_of_near {heading target : ℝ} (near : |normal (target - heading)| ≤ 0.5) (most : ℝ) :
    rotate heading target most = .ok (target, true) := by
  have snaps : Scalar.le (Scalar.abs (normal (target - heading))) snapAngle = true :=
    decide_eq_true (snapAngle_eq ▸ near)
  rw [rotate, normalizeDegrees_eq, ok_bind, if_pos snaps]
  rfl

/-- Until then it goes on by the given angle, or by what is left. -/
theorem rotate_eq_of_far {heading target most : ℝ} (far : 0.5 < |normal (target - heading)|)
    (positive : 0 < most) :
    rotate heading target most =
      .ok (normal (heading + SignType.sign (normal (target - heading)) *
        min most |normal (target - heading)|), false) := by
  have turns : Scalar.le (Scalar.abs (normal (target - heading))) snapAngle ≠ true := by
    intro snaps
    have near : |normal (target - heading)| ≤ snapAngle := of_decide_eq_true snaps
    rw [snapAngle_eq] at near
    linarith
  rw [rotate, normalizeDegrees_eq, ok_bind, if_neg turns, min_eq,
    ← copySign_eq (le_min positive.le (abs_nonneg _)) (min_le_right most _)]
  dsimp only
  rw [normalizeDegrees_eq]
  rfl

theorem rotate_of_far {heading target most : ℝ} (far : 0.5 < |normal (target - heading)|)
    (positive : 0 < most) :
    ∃ heading', rotate heading target most = .ok (heading', false) ∧
      |normal (target - heading')| =
        |normal (target - heading)| - min most |normal (target - heading)| := by
  have part : min most |normal (target - heading)| ≤ |normal (target - heading)| := min_le_right _ _
  have some : 0 ≤ min most |normal (target - heading)| := le_min positive.le (abs_nonneg _)
  refine ⟨_, rotate_eq_of_far far positive, ?_⟩
  rw [normal_sub_turned target heading some part, abs_sign_mul (sub_nonneg.mpr part) (by linarith)]

/-! ## Exact segments -/

namespace Segment

variable (g : Segment ℝ)

/-- A segment is travelled to its end. -/
theorem arrivalPoint_eq : g.arrivalPoint = .ok g.b := by
  have straight : Polyline.between g.a g.b (Scalar.ofInt 1) = g.b := by
    rw [one_eq, Polyline.between]
    simp
  have curved : g.curvePoint (Scalar.ofInt 1) = .ok g.b := by
    have after : Scalar.le (Scalar.ofInt 1 : ℝ) (Scalar.ofInt 0) ≠ true := by
      rw [one_eq, zero_eq]
      exact fun before => absurd (of_decide_eq_true before) (by norm_num)
    exact (if_neg after).trans (if_pos (decide_eq_true le_rfl))
  rw [arrivalPoint]
  cases g.kind with
  | drive | strafe => exact congrArg Except.ok straight
  | arc => exact curved

theorem exists_course : ∃ heading, g.course = .ok heading := by
  rw [course, normalizeDegrees_eq, ok_bind]
  cases g.kind with
  | strafe => exact ⟨_, normalizeDegrees_eq _⟩
  | drive | arc => exact ⟨_, rfl⟩

theorem exists_turnsFrom (heading : ℝ) : ∃ out, g.turnsFrom heading = .ok out := by
  rw [turnsFrom, normalizeDegrees_eq]
  split <;> exact ⟨_, rfl⟩

/-- The end of an arc has the heading of the waypoint, so that nothing is left to turn. -/
theorem turnsOut_of_arc {g : Segment ℝ} (arc : g.kind = .arc) : g.turnsOut = .ok false := by
  have arrival : g.arrivalHeading = .ok (normal g.endHeading) := by
    have whole :
        g.startHeading + (g.endHeading - g.startHeading) * Scalar.ofInt 1 = g.endHeading := by
      rw [one_eq]
      ring
    rw [arrivalHeading, arc]
    exact (normalizeDegrees_eq _).trans (congrArg (fun d => Except.ok (normal d)) whole)
  have same : normal (g.endHeading - normal g.endHeading) = 0 := by
    rw [normal_sub_normal, sub_self, normal_of_mem (by norm_num) (by norm_num)]
  have near : Scalar.lt snapAngle (Scalar.abs (0 : ℝ)) = false := by
    rw [snapAngle_eq]
    exact decide_eq_false (by norm_num [Scalar.abs])
  rw [turnsOut, arrival, ok_bind, turnsFrom, normalizeDegrees_eq, same, ok_bind, near]
  split <;> rfl

theorem exists_reached (control : g.kind = .arc → ∃ c, g.control = some c) (heading fraction : ℝ) :
    ∃ point heading', g.reached heading fraction = .ok (point, heading') ∧
      (g.kind = .strafe → heading' = heading) := by
  rw [reached]
  cases hk : g.kind with
  | drive => exact ⟨_, _, rfl, MoveKind.noConfusion⟩
  | strafe => exact ⟨_, _, rfl, fun _ => rfl⟩
  | arc =>
    obtain ⟨c, hc⟩ := control hk
    have point : ∃ point, g.curvePoint fraction = .ok point := by
      rw [curvePoint, requireControl, hc]
      split
      · exact ⟨_, rfl⟩
      · split <;> exact ⟨_, rfl⟩
    obtain ⟨point, hp⟩ := point
    refine ⟨point, normal (g.startHeading + (g.endHeading - g.startHeading) * fraction), ?_,
      MoveKind.noConfusion⟩
    dsimp only
    rw [hp, ok_bind, normalizeDegrees_eq]
    rfl

end Segment

theorem fractionOf_eq {g : Segment ℝ} (long : 1e-9 < g.length) (progress : ℝ) :
    fractionOf g progress = .ok (min 1 (progress / g.length)) := by
  have travels : Scalar.le g.length shortestTravel ≠ true := by
    rw [shortestTravel_eq]
    exact fun short => absurd (of_decide_eq_true short) (not_le.mpr long)
  have divisor : Scalar.eq g.length (Scalar.ofInt 0) ≠ true := by
    rw [zero_eq]
    exact fun zero => absurd (of_decide_eq_true zero) (by linarith)
  have part : Scalar.divide progress g.length = .ok (progress / g.length) := if_neg divisor
  rw [fractionOf, if_neg travels, part, ← min_eq, ← one_eq]
  rfl

/-- A progress of the whole length is the whole of a segment. -/
theorem fractionOf_of_le {g : Segment ℝ} {progress : ℝ} (h : 1e-9 < g.length → g.length ≤ progress) :
    fractionOf g progress = .ok (Scalar.ofInt 1) := by
  obtain short | long := le_or_gt g.length 1e-9
  · rw [← shortestTravel_eq] at short
    exact if_pos (decide_eq_true short)
  · have whole : 1 ≤ progress / g.length := by
      rw [one_le_div (by linarith)]
      exact h long
    rw [fractionOf_eq long, min_eq_left whole, one_eq]

end PathStudio.Simulation
