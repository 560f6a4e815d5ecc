import PathStudio.Proofs.Simulation.Stage

/-!
# Faults of a run

A step of a run is refused only where its arithmetic is: it finds its segment,
an arc has its control point, and nothing is divided by a length that is zero.
-/

namespace PathStudio.Simulation

open Scalar

variable {ν : Type} [Add ν] [Sub ν] [Mul ν] [Div ν] [Neg ν] [Scalar ν]

/-- The faults of the operations that a run along segments takes from its numbers. -/
structure Refuses (ν : Type) [Add ν] [Sub ν] [Mul ν] [Div ν] [Neg ν] [Scalar ν]
    (P : Fault → Prop) : Prop where
  remainder : ∀ x y : ν, FailsOnly P (remainder x y)
  floor : ∀ x : ν, FailsOnly P (floor x)

namespace Refuses

variable {P : Fault → Prop} (h : Refuses ν P)

include h

theorem normalizeDegrees (d : ν) : FailsOnly P (normalizeDegrees d) := by
  refine (h.remainder _ _).bind fun r => ?_
  split
  · exact .ok _
  · split
    · exact .ok _
    · exact .ok _

theorem rotate (heading target most : ν) : FailsOnly P (rotate heading target most) := by
  refine (h.normalizeDegrees _).bind fun difference => ?_
  dsimp only
  split
  · exact .ok _
  · exact (h.normalizeDegrees _).bind fun _ => .ok _

theorem stepTurn (g : Segment ν) (s : State ν) (most : ν) : FailsOnly P (stepTurn g s most) := by
  refine (h.normalizeDegrees _).bind fun target => (h.rotate _ _ _).bind ?_
  intro (heading, reached)
  cases reached with
  | false => exact .ok _
  | true =>
    cases hk : g.kind with
    | strafe =>
      exact (h.floor _).bind fun _ => (h.normalizeDegrees _).bind fun _ => .ok _
    | drive | arc => exact .ok _

theorem stepArrivalTurn (p : Plan ν) (g : Segment ν) (s : State ν) (most : ν) :
    FailsOnly P (stepArrivalTurn p g s most) :=
  (h.normalizeDegrees _).bind fun _ => (h.rotate _ _ _).bind fun _ => .ok _

theorem turnsFrom (g : Segment ν) (heading : ν) : FailsOnly P (g.turnsFrom heading) := by
  rw [Segment.turnsFrom]
  split
  · exact (h.normalizeDegrees _).bind fun _ => .ok _
  · exact .ok _

omit h in
/-- A length that would be zero as a divisor is travelled at once. -/
theorem fractionOf [Ordered ν] (g : Segment ν) (progress : ν) :
    FailsOnly P (fractionOf g progress) := by
  rw [Simulation.fractionOf]
  split
  · exact .ok _
  next long =>
    rw [divide]
    split
    next zero => exact absurd (Ordered.le_shortest_of_eq_zero _ zero) long
    next => exact .ok _

theorem reached {g : Segment ν} (control : g.kind = .arc → ∃ c, g.control = some c)
    (heading fraction : ν) : FailsOnly P (g.reached heading fraction) := by
  rw [Segment.reached]
  split
  next => exact .ok _
  next => exact .ok _
  next arc =>
    obtain ⟨c, hc⟩ := control arc
    refine FailsOnly.bind ?_ fun _ => (h.normalizeDegrees _).bind fun _ => .ok _
    rw [Segment.curvePoint, Segment.requireControl, hc]
    split
    · exact .ok _
    · split
      · exact .ok _
      · exact .ok _

theorem stepTravel [Ordered ν] {p : Plan ν} {g : Segment ν} {s : State ν}
    (control : g.kind = .arc → ∃ c, g.control = some c) (phase : s.phase = .moving g.kind)
    (seconds : ν) : FailsOnly P (stepTravel p g s seconds) := by
  rw [stepTravel_eq phase]
  refine (fractionOf g _).bind fun fraction => (h.reached control _ _).bind fun arrival => ?_
  dsimp only
  split
  · rw [arrive_eq]
    exact (h.turnsFrom _ _).map _
  · exact .ok _

/-- A step of a run is refused only as its numbers are, if each arc of the plan has a control
point. -/
theorem step [Ordered ν] {p : Plan ν} {before : List (Int × Phase)} {s : State ν} {ms : ν}
    (robot : p.mode.isField = false)
    (control : ∀ g ∈ p.segments, g.kind = .arc → ∃ c, g.control = some c)
    (stage : Stage p before s) : FailsOnly P (step p s (.ok ms)) := by
  rw [Simulation.step]
  split
  · exact .ok _
  next running =>
    rw [ok_bind]
    dsimp only
    rw [if_neg (by rw [robot]; exact Bool.false_ne_true)]
    refine FailsOnly.bind ?_ fun _ => .ok _
    cases stage with
    | turning along phase =>
      rw [stepRobot_eq along, phase]
      exact h.stepTurn _ _ _
    | travelling along phase =>
      rw [stepRobot_eq along, phase]
      exact h.stepTravel (control _ (List.mem_of_getElem? along.segment)) phase _
    | turningOut along phase =>
      rw [stepRobot_eq along, phase]
      exact h.stepArrivalTurn _ _ _ _
    | ended seg phase stopped => simp [stopped] at running

end Refuses

end PathStudio.Simulation
