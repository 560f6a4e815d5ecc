import PathStudio.Simulation.Step
import PathStudio.Proofs.Outcome

/-!
# Passing a segment

What a segment makes of the robot, however long the increments are: the heading
that it is travelled with, the point and the heading on arrival, whether the
robot turns once more, and the heading with which it goes on. The lemmas say all
that one step can do in each of the three phases of a segment.
-/

namespace PathStudio.Simulation

open Scalar

variable {ν : Type}

/-- Where the robot is. -/
def State.point (s : State ν) : Point ν := ⟨s.x, s.y⟩

/-- The segment and the phase that a state is in. -/
def State.label (s : State ν) : Int × Phase := (s.seg, s.phase)

variable [Add ν] [Sub ν] [Mul ν] [Div ν] [Neg ν] [Scalar ν]

namespace Segment

/-- The heading that a segment is turned to: that of its chord, and for a strafe the quarter turn
next to it. -/
def course (g : Segment ν) : Outcome ν := do
  let heading ← normalizeDegrees g.bearing
  match g.kind with
  | .strafe => normalizeDegrees (ofInt (← roundHalfUp (heading / 90)) * 90)
  | _ => pure heading

/-- The point at the end of the travel. -/
def arrivalPoint (g : Segment ν) : Outcome (Point ν) :=
  match g.kind with
  | .arc => g.curvePoint 1
  | _ => .ok (Polyline.between g.a g.b 1)

/-- The heading at the end of the travel. -/
def arrivalHeading (g : Segment ν) : Outcome ν :=
  match g.kind with
  | .drive => .ok g.bearing
  | .strafe => g.course
  | .arc => normalizeDegrees (g.startHeading + (g.endHeading - g.startHeading) * 1)

/-- Whether a robot that arrives with a heading turns to that of the waypoint. -/
def turnsFrom (g : Segment ν) (heading : ν) : Outcome Bool := do
  if lt arrivalTolerance (abs g.endHeading) then
    return lt snapAngle (abs (← normalizeDegrees (g.endHeading - heading)))
  else return false

/-- Whether the robot turns before it leaves a segment. -/
def turnsOut (g : Segment ν) : Outcome Bool := do g.turnsFrom (← g.arrivalHeading)

/-- The heading with which a segment is left. -/
def exitHeading (g : Segment ν) : Outcome ν := do
  if ← g.turnsOut then normalizeDegrees g.endHeading else g.arrivalHeading

end Segment

namespace Plan

/-- The point where a plan has so many segments behind it. -/
def departure (p : Plan ν) : Nat → Outcome (Point ν)
  | 0 => .ok p.start
  | i + 1 =>
    match p.segments[i]? with
    | some g => g.arrivalPoint
    | none => .error .pointIndex

/-- The heading with which a plan has so many segments behind it. -/
def facing (p : Plan ν) : Nat → Outcome ν
  | 0 => .ok p.startHeading
  | i + 1 =>
    match p.segments[i]? with
    | some g => g.exitHeading
    | none => .error .pointIndex

theorem departure_succ {p : Plan ν} {i : Nat} {g : Segment ν} (h : p.segments[i]? = some g) :
    p.departure (i + 1) = g.arrivalPoint := by
  rw [departure, h]

theorem facing_succ {p : Plan ν} {i : Nat} {g : Segment ν} (h : p.segments[i]? = some g) :
    p.facing (i + 1) = g.exitHeading := by
  rw [facing, h]

end Plan

theorem Segment.exitHeading_of_turnsOut {g : Segment ν} {out : Bool} (h : g.turnsOut = .ok out) :
    g.exitHeading = if out then normalizeDegrees g.endHeading else g.arrivalHeading := by
  rw [exitHeading, h]
  rfl

/-! ## Turning -/

theorem eq_of_rotate_reached {heading target most reached : ν}
    (h : rotate heading target most = .ok (reached, true)) : reached = target := by
  obtain ⟨difference, -, h⟩ := bind_eq_ok.mp h
  dsimp only at h
  split at h
  · cases h
    rfl
  · obtain ⟨next, -, h⟩ := bind_eq_ok.mp h
    cases h

/-- A step of the turn into a segment turns on, or it ends the turn with the heading of the
travel. -/
theorem stepTurn_cases {g : Segment ν} {s next : State ν} {most : ν}
    (h : stepTurn g s most = .ok next) :
    (∃ heading, next = { s with heading }) ∨
      ∃ heading, g.course = .ok heading ∧
        next = { s with heading, phase := .moving g.kind, progress := 0 } := by
  obtain ⟨target, normal, rest⟩ := bind_eq_ok.mp h
  obtain ⟨⟨heading, reached⟩, turned, last⟩ := bind_eq_ok.mp rest
  clear h rest
  cases reached with
  | false =>
    cases last
    exact .inl ⟨heading, rfl⟩
  | true =>
    obtain rfl := eq_of_rotate_reached turned
    cases hk : g.kind with
    | strafe =>
      rw [hk] at last
      change (do
        let heading ← normalizeDegrees (ofInt (← roundHalfUp (heading / 90)) * 90)
        pure { s with heading, phase := .moving .strafe, progress := 0 }) = .ok next at last
      obtain ⟨quarter, hq, last⟩ := bind_eq_ok.mp last
      obtain ⟨final, hf, last⟩ := bind_eq_ok.mp last
      cases last
      refine .inr ⟨final, ?_, rfl⟩
      rw [Segment.course, normal, ok_bind, hk]
      exact bind_eq_ok.mpr ⟨quarter, hq, hf⟩
    | drive | arc =>
      rw [hk] at last
      cases last
      refine .inr ⟨heading, ?_, rfl⟩
      rw [Segment.course, normal, ok_bind, hk]
      rfl

/-- A step of the turn out of a segment turns on, or it ends the turn with the heading of the
waypoint. -/
theorem stepArrivalTurn_cases {p : Plan ν} {g : Segment ν} {s next : State ν} {most : ν}
    (h : stepArrivalTurn p g s most = .ok next) :
    (∃ heading, next = { s with heading }) ∨
      ∃ heading, normalizeDegrees g.endHeading = .ok heading ∧
        next = State.nextSegment p { s with heading } := by
  obtain ⟨target, normal, rest⟩ := bind_eq_ok.mp h
  obtain ⟨⟨heading, reached⟩, turned, last⟩ := bind_eq_ok.mp rest
  clear h rest
  cases reached with
  | false =>
    cases last
    exact .inl ⟨heading, rfl⟩
  | true =>
    obtain rfl := eq_of_rotate_reached turned
    cases last
    exact .inr ⟨heading, normal, rfl⟩

section Forward

variable {p : Plan ν} {g : Segment ν} {s : State ν} {most target heading : ν}

theorem stepTurn_of_turning (normal : normalizeDegrees g.bearing = .ok target)
    (turned : rotate s.heading target most = .ok (heading, false)) :
    stepTurn g s most = .ok { s with heading } := by
  rw [stepTurn, normal, ok_bind, turned]
  rfl

theorem stepTurn_of_turned (normal : normalizeDegrees g.bearing = .ok target)
    (turned : rotate s.heading target most = .ok (target, true)) (course : g.course = .ok heading) :
    stepTurn g s most = .ok { s with heading, phase := .moving g.kind, progress := 0 } := by
  rw [stepTurn, normal, ok_bind, turned, ok_bind]
  rw [Segment.course, normal, ok_bind] at course
  cases hk : g.kind with
  | strafe =>
    rw [hk] at course
    obtain ⟨quarter, hq, hf⟩ := bind_eq_ok.mp course
    exact bind_eq_ok.mpr ⟨quarter, hq, bind_eq_ok.mpr ⟨heading, hf, rfl⟩⟩
  | drive | arc =>
    rw [hk] at course
    cases course
    rfl

theorem stepArrivalTurn_of_turning (normal : normalizeDegrees g.endHeading = .ok target)
    (turned : rotate s.heading target most = .ok (heading, false)) :
    stepArrivalTurn p g s most = .ok { s with heading } := by
  rw [stepArrivalTurn, normal, ok_bind, turned]
  rfl

theorem stepArrivalTurn_of_turned (normal : normalizeDegrees g.endHeading = .ok target)
    (turned : rotate s.heading target most = .ok (target, true)) :
    stepArrivalTurn p g s most = .ok (State.nextSegment p { s with heading := target }) := by
  rw [stepArrivalTurn, normal, ok_bind, turned]
  rfl

end Forward

/-! ## Travelling -/

/-- What the comparisons of numbers have to agree on for the travel to end at one exact place, and
to have a length to divide by until then. -/
class Ordered (ν : Type) [Add ν] [Sub ν] [Mul ν] [Div ν] [Neg ν] [Scalar ν] : Prop where
  not_le_of_lt_one : ∀ x : ν, lt x 1 = true → le 1 x = false
  le_shortest_of_eq_zero : ∀ x : ν, eq x 0 = true → le x shortestTravel = true

theorem arrive_eq (p : Plan ν) (s : State ν) (g : Segment ν) :
    s.arrive p g = (g.turnsFrom s.heading).map fun out =>
      if out then { s with phase := .arrivalTurn } else s.nextSegment p := by
  rw [State.arrive, Segment.turnsFrom]
  cases lt arrivalTolerance (abs g.endHeading) with
  | false => rfl
  | true =>
    cases normalizeDegrees (g.endHeading - s.heading) with
    | error fault => rfl
    | ok difference => cases h : lt snapAngle (abs difference) <;> simp [h] <;> rfl

/-- The part of a segment that counts as the whole of it is exactly the whole. -/
theorem eq_one_of_fractionOf [Ordered ν] {g : Segment ν} {progress fraction : ν}
    (h : fractionOf g progress = .ok fraction) (whole : le 1 fraction = true) : fraction = 1 := by
  rw [fractionOf] at h
  split at h
  · exact (Except.ok.inj h).symm
  · obtain ⟨part, -, rfl⟩ := map_eq_ok.mp h
    rw [Scalar.min] at whole ⊢
    split
    · rename_i short
      rw [if_pos short, Ordered.not_le_of_lt_one part short] at whole
      cases whole
    · rfl

/-- Where a step of the travel leads, with the heading that the robot then has. -/
def Segment.reached (g : Segment ν) (heading fraction : ν) : Outcome (Point ν × ν) :=
  match g.kind with
  | .drive => .ok (Polyline.between g.a g.b fraction, g.bearing)
  | .strafe => .ok (Polyline.between g.a g.b fraction, heading)
  | .arc => do
    let point ← g.curvePoint fraction
    let heading ← normalizeDegrees (g.startHeading + (g.endHeading - g.startHeading) * fraction)
    return (point, heading)

theorem stepTravel_eq {p : Plan ν} {g : Segment ν} {s : State ν} {seconds : ν}
    (phase : s.phase = .moving g.kind) :
    stepTravel p g s seconds = do
      let travel := p.driveSpeed * seconds
      let fraction ← fractionOf g (s.progress + travel)
      let (point, heading) ← g.reached s.heading fraction
      let moved := { s with
        x := point.x, y := point.y, heading, progress := s.progress + travel
        traveled := s.traveled + travel }
      if le 1 fraction then moved.arrive p g else return moved := by
  simp only [stepTravel, Segment.reached, phase]
  cases g.kind with
  | drive => rfl
  | strafe => rfl
  | arc => simp only [bind_assoc, pure_bind]

/-- At the end of the travel these are the point and the heading of the arrival. -/
theorem arrival_of_reached {g : Segment ν} {before heading : ν} {point : Point ν}
    (course : g.kind = .strafe → g.course = .ok before)
    (h : g.reached before 1 = .ok (point, heading)) :
    g.arrivalPoint = .ok point ∧ g.arrivalHeading = .ok heading := by
  rw [Segment.reached] at h
  rw [Segment.arrivalPoint, Segment.arrivalHeading]
  cases hk : g.kind with
  | drive =>
    rw [hk] at h
    cases h
    exact ⟨rfl, rfl⟩
  | strafe =>
    rw [hk] at h
    cases h
    exact ⟨rfl, course hk⟩
  | arc =>
    rw [hk] at h
    obtain ⟨position, hp, rest⟩ := bind_eq_ok.mp h
    obtain ⟨final, hh, last⟩ := bind_eq_ok.mp rest
    cases last
    exact ⟨hp, hh⟩

/-- A step of the travel goes on, in which case a strafe keeps its heading, or it ends the travel
at the point and with the heading of the arrival. -/
theorem stepTravel_cases [Ordered ν] {p : Plan ν} {g : Segment ν} {s next : State ν} {seconds : ν}
    (h : stepTravel p g s seconds = .ok next) (phase : s.phase = .moving g.kind)
    (course : g.kind = .strafe → g.course = .ok s.heading) :
    (∃ x y heading progress traveled, (g.kind = .strafe → heading = s.heading) ∧
      next = { s with x, y, heading, progress, traveled }) ∨
    ∃ (point : Point ν) (heading progress traveled : ν) (out : Bool),
      g.arrivalPoint = .ok point ∧ g.arrivalHeading = .ok heading ∧ g.turnsOut = .ok out ∧
      let arrived := { s with x := point.x, y := point.y, heading, progress, traveled }
      next = if out then { arrived with phase := .arrivalTurn } else arrived.nextSegment p := by
  rw [stepTravel_eq phase] at h
  obtain ⟨fraction, hf, rest⟩ := bind_eq_ok.mp h
  obtain ⟨⟨point, heading⟩, reached, last⟩ := bind_eq_ok.mp rest
  dsimp only at last
  split at last
  next whole =>
    obtain rfl := eq_one_of_fractionOf hf whole
    obtain ⟨hp, hh⟩ := arrival_of_reached course reached
    rw [arrive_eq] at last
    obtain ⟨out, turns, rfl⟩ := map_eq_ok.mp last
    refine .inr ⟨point, heading, _, _, out, hp, hh, ?_, rfl⟩
    rw [Segment.turnsOut, hh]
    exact turns
  next =>
    cases last
    refine .inl ⟨_, _, _, _, _, fun strafe => ?_, rfl⟩
    rw [Segment.reached, strafe] at reached
    cases reached
    rfl

end PathStudio.Simulation
