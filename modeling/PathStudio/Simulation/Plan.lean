import PathStudio.Session.Basic
import PathStudio.Geometry.Point
import PathStudio.Geometry.Polyline

/-!
# Plans

A plan is a path frozen for a run: its moves as segments, in field mode the
polyline to follow, and the speeds with the multiplier applied.
-/

namespace PathStudio.Simulation

open Scalar

/-- One move of a plan. Headings are in degrees and turn the way programs count. -/
structure Segment (ν : Type) where
  a : Point ν
  b : Point ν
  kind : MoveKind
  length : ν
  bearing : ν
  control : Option (Point ν)
  startHeading : ν
  endHeading : ν

/-- A path frozen for a run. -/
structure Plan (ν : Type) where
  mode : Mode
  start : Point ν
  startHeading : ν
  segments : List (Segment ν)
  fieldPoints : List (Point ν)
  driveSpeed : ν
  turnRate : ν

/-- The speeds that a plan is made with, each as far as it can be read. -/
structure Speeds (ν : Type) where
  multiplier : Outcome ν
  drive : Outcome ν
  turn : Outcome ν

variable {ν : Type} [Add ν] [Sub ν] [Mul ν] [Div ν] [Neg ν] [Scalar ν]

/-- The heading in degrees, as programs count it. -/
def planHeading (h : ν) : ν := toDegrees (-h)

/-- The segment of a leg. -/
def segmentOf (leg : Layout.Leg ν) : Outcome (Segment ν) := do
  let a := leg.before.point
  let b := leg.move.point
  let control ← Layout.controlOf leg.move.motion a b
  return {
    a, b, kind := leg.move.kind, length := Point.distance a b, bearing := Point.bearing a b, control
    startHeading := planHeading leg.before.h, endHeading := planHeading leg.move.pose.h }

/-- The polyline of a path in field mode. -/
def fieldPolyline (l : Layout ν) : Outcome (List (Point ν)) :=
  Polyline.refine Polyline.defaultGap Polyline.defaultSpacing
    (Polyline.smooth (l.start.point :: l.moves.map Move.point))

/-- The plan of a path in a mode. -/
def buildPlan (speeds : Speeds ν) (mode : Mode) (l : Layout ν) : Outcome (Plan ν) := do
  let multiplier ← speeds.multiplier
  let segments ← l.legs.mapM segmentOf
  let fieldPoints ← if mode.isField then fieldPolyline l else pure []
  let drive ← speeds.drive
  let turn ← speeds.turn
  return {
    mode, start := l.start.point, startHeading := planHeading l.start.h, segments, fieldPoints
    driveSpeed := drive * multiplier, turnRate := turn * multiplier }

/-- The control point of a segment that has to have one. -/
def Segment.requireControl (s : Segment ν) : Outcome (Point ν) :=
  match s.control with
  | some c => .ok c
  | none => .error .wrongType

/-- The point of a segment's curve at a parameter. -/
def Segment.curvePoint (s : Segment ν) (t : ν) : Outcome (Point ν) :=
  if le t 0 then .ok s.a
  else if le 1 t then .ok s.b
  else do return Bezier.inner t s.a (← s.requireControl) s.b

/-- The points that a segment is drawn through. -/
def Segment.previewPoints (s : Segment ν) : Outcome (List (Point ν)) :=
  match s.kind with
  | .arc => (List.range 21).mapM fun (k : Nat) => s.curvePoint (ofInt k / 20)
  | _ => .ok [s.a, s.b]

/-- The points that a plan is drawn through. -/
def Plan.previewPoints (p : Plan ν) : Outcome (List (Point ν)) :=
  if p.mode.isField then .ok p.fieldPoints
  else do return (← p.segments.mapM Segment.previewPoints).flatten

end PathStudio.Simulation
