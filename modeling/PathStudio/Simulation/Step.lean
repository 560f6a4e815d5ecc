import PathStudio.Simulation.Plan

/-!
# Steps

A run advances by increments of time. In robot mode each segment is turned
into, travelled and, if the heading asks for it, turned out of; in field mode
the robot walks along the polyline. A step is a pure function of plan, state and
increment.
-/

namespace PathStudio.Simulation

open Scalar

/-- What the robot is doing. A label that belongs to no phase is kept as it is. -/
inductive Phase where
  | turn
  | arrivalTurn
  | moving (kind : MoveKind)
  | field
  | done
  | other (label : String)
  deriving DecidableEq, Repr

def Phase.name : Phase → String
  | .turn => "turn"
  | .arrivalTurn => "wpTurn"
  | .moving kind => kind.name
  | .field => "field"
  | .done => "done"
  | .other label => label

/-- The phase that a label belongs to. -/
def Phase.ofName (s : String) : Phase :=
  match MoveKind.ofName? s with
  | some kind => .moving kind
  | none =>
    if s = "turn" then .turn
    else if s = "wpTurn" then .arrivalTurn
    else if s = "field" then .field
    else if s = "done" then .done
    else .other s

/-- The state of a run. `seg` and `index` count the segments and the polyline points that are
behind. -/
structure State (ν : Type) where
  x : ν
  y : ν
  heading : ν
  phase : Phase
  seg : Int
  progress : ν
  index : Int
  running : Bool
  time : ν
  traveled : ν

variable {ν : Type} [Add ν] [Sub ν] [Mul ν] [Div ν] [Neg ν] [Scalar ν]

/-- Where a run begins; a plan without anything to do is done at once. -/
def initialState (p : Plan ν) : State ν :=
  let work := if p.mode.isField then decide (2 ≤ p.fieldPoints.length) else !p.segments.isEmpty
  let phase := if p.mode.isField then Phase.field else .turn
  { x := p.start.x, y := p.start.y, heading := p.startHeading
    phase := if work then phase else .done
    seg := 0, progress := 0, index := 0, running := work, time := 0, traveled := 0 }

/-- Turns up to this angle, in degrees, are finished at once. -/
def snapAngle : ν := 0.5

/-- Headings up to this one, in degrees, are not turned to on arrival. -/
def arrivalTolerance : ν := 1e-4

/-- Turns toward a heading the short way by at most the given angle; tells whether the heading has
been reached. -/
def rotate (heading target most : ν) : Outcome (ν × Bool) := do
  let difference ← normalizeDegrees (target - heading)
  if le (abs difference) snapAngle then return (target, true)
  let step := copySign (Scalar.min most (abs difference)) difference
  return (← normalizeDegrees (heading + step), false)

namespace State

/-- The state of a run that has ended. -/
def finish (s : State ν) : State ν := { s with phase := .done, running := false }

/-- The state at the beginning of the next segment, or the end of the run. -/
def nextSegment (p : Plan ν) (s : State ν) : State ν :=
  let seg := s.seg + 1
  if p.segments.length ≤ seg then { s with seg }.finish
  else { s with seg, phase := .turn, progress := 0 }

/-- The state at the end of a segment's travel. -/
def arrive (p : Plan ν) (s : State ν) (segment : Segment ν) : Outcome (State ν) := do
  let heading := segment.endHeading
  if lt arrivalTolerance (abs heading) then
    if lt snapAngle (abs (← normalizeDegrees (heading - s.heading))) then
      return { s with phase := .arrivalTurn }
  return s.nextSegment p

end State

/-- The entry of a list at an index; negative indices count from the end. -/
def entryAt {α : Type} (entries : List α) (index : Int) : Outcome α :=
  match (Json.position? entries.length index).bind (entries[·]?) with
  | some entry => .ok entry
  | none => if Layout.isTooWide index then .error .indexTooWide else .error .pointIndex

/-- The state after walking toward a polyline point by at most the given length. -/
def walkTo (s : State ν) (target : Point ν) (travel : ν) : Outcome (State ν) := do
  let dx := target.x - s.x
  let dy := target.y - s.y
  let distance := hypot dx dy
  let heading := if lt 0 distance then toDegrees (atan2 dy dx) else s.heading
  if le distance travel then
    return { s with
      x := target.x, y := target.y, index := s.index + 1, heading
      traveled := s.traveled + distance }
  let ux ← divide dx distance
  let uy ← divide dy distance
  return { s with
    x := s.x + ux * travel, y := s.y + uy * travel, heading, traveled := s.traveled + travel }

/-- A step along the polyline, by seconds. -/
def stepField (p : Plan ν) (s : State ν) (seconds : ν) : Outcome (State ν) := do
  let last : Int := p.fieldPoints.length - 1
  if last ≤ s.index then return s.finish
  let target ← entryAt p.fieldPoints (s.index + 1)
  let next ← walkTo s target (p.driveSpeed * seconds)
  return if last ≤ next.index then next.finish else next

/-- A step of the turn into a segment. A strafe keeps to the nearest quarter turn. -/
def stepTurn (segment : Segment ν) (s : State ν) (most : ν) : Outcome (State ν) := do
  let (heading, reached) ← rotate s.heading (← normalizeDegrees segment.bearing) most
  if !reached then return { s with heading }
  let heading ←
    match segment.kind with
    | .strafe => normalizeDegrees (ofInt (← roundHalfUp (heading / 90)) * 90)
    | _ => pure heading
  return { s with heading, phase := .moving segment.kind, progress := 0 }

/-- A step of the turn out of a segment. -/
def stepArrivalTurn (p : Plan ν) (segment : Segment ν) (s : State ν) (most : ν) :
    Outcome (State ν) := do
  let (heading, reached) ← rotate s.heading (← normalizeDegrees segment.endHeading) most
  let s := { s with heading }
  return if reached then s.nextSegment p else s

/-- Segments up to this length count as travelled at once. -/
def shortestTravel : ν := 1e-9

/-- The part of a segment that a progress along its chord has reached. -/
def fractionOf (segment : Segment ν) (progress : ν) : Outcome ν :=
  if le segment.length shortestTravel then .ok 1
  else (divide progress segment.length).map (Scalar.min 1)

/-- A step of the travel along a segment; progress is measured along the chord. -/
def stepTravel (p : Plan ν) (segment : Segment ν) (s : State ν) (seconds : ν) :
    Outcome (State ν) := do
  let travel := p.driveSpeed * seconds
  let progress := s.progress + travel
  let fraction ← fractionOf segment progress
  let (position, heading) ←
    match s.phase with
    | .moving .arc => do
      let position ← segment.curvePoint fraction
      let heading ← normalizeDegrees
        (segment.startHeading + (segment.endHeading - segment.startHeading) * fraction)
      pure (position, heading)
    | .moving .drive => pure (Polyline.between segment.a segment.b fraction, segment.bearing)
    | _ => pure (Polyline.between segment.a segment.b fraction, s.heading)
  let s := { s with
    x := position.x, y := position.y, heading, progress, traveled := s.traveled + travel }
  if le 1 fraction then s.arrive p segment else return s

/-- A step along the segments, by seconds. -/
def stepRobot (p : Plan ν) (s : State ν) (seconds : ν) : Outcome (State ν) := do
  if p.segments.length ≤ s.seg then return s.finish
  let segment ← entryAt p.segments s.seg
  let most := p.turnRate * seconds
  match s.phase with
  | .turn => stepTurn segment s most
  | .arrivalTurn => stepArrivalTurn p segment s most
  | _ => stepTravel p segment s seconds

/-- Advances a run by milliseconds. A run that has ended stays as it is and does not look at the
increment. -/
def step (p : Plan ν) (s : State ν) (increment : Outcome ν) : Outcome (State ν × Bool) := do
  if !s.running then return (s, true)
  let ms ← increment
  let seconds := ms / 1000
  let next ← if p.mode.isField then stepField p s seconds else stepRobot p s seconds
  let next := { next with time := s.time + ms }
  return (next, !next.running)

end PathStudio.Simulation
