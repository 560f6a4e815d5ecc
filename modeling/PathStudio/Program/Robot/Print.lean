import PathStudio.Program.Amount
import PathStudio.Session.Basic
import PathStudio.Geometry.Point
import PathStudio.Text.Line

/-!
# Writing robot-oriented programs

A robot-oriented program is a list of turns, drives, strafes and arcs, each
relative to where the robot is, with the calls of the actions in between. A
move that goes nowhere leaves at most a turn.
-/

namespace PathStudio.Program.Robot

open Scalar Text

variable {ν : Type} [Add ν] [Sub ν] [Mul ν] [Div ν] [Neg ν] [Scalar ν]

/-- Headings up to this one, in radians, need no turn of their own. -/
def headingTolerance : ν := 1e-4

/-- Headings this near to the direction of travel, in degrees, need no turn after the move. -/
def turnTolerance : ν := 1.0

/-- A turn to whole degrees, with the comment that follows it. -/
def turnLine (degrees : Int) (comment : List Char) : List Char :=
  "turnPID(".toList ++ integerText degrees ++ ");".toList ++ comment

/-- A command with a length and whole degrees. -/
def travelLine (command : List Char) (length : List Char) (degrees : Int) : List Char :=
  command ++ "(".toList ++ length ++ ", ".toList ++ integerText degrees ++ ");".toList

/-- One heading sample of an arc. -/
def sampleLine (t : List Char) (degrees : Int) : List Char :=
  List.replicate 16 ' ' ++ ".at(".toList ++ t ++ ", ".toList ++ integerText degrees ++ ")".toList

/-- The line of the tangent at an inner sample of an arc. -/
def innerSample (p0 p1 p2 : Point ν) (samples : Nat) (sample : Nat) : Outcome (List Char) := do
  let t : ν := Bezier.parameter sample samples
  let tangent := Bezier.tangent t p0 p1 p2
  let shown ← amount t 2
  let degrees ← roundHalfUp tangent
  return sampleLine shown degrees

/-- The lines of an arc; only they ask for the number of heading samples. -/
def arcLines (start control : Point ν) (m : Move ν) (samples : Outcome Int) :
    Outcome (List (List Char)) := do
  let length ← amount (Bezier.length start control m.point Bezier.defaultSteps) 2
  let speed ← amount m.speed 2
  let samples := (← samples).toNat
  let inner ← (List.range' 1 (samples - 1)).mapM (innerSample start control m.point samples)
  let final ← programHeading m.pose.h
  return ("arc(".toList ++ length ++ ", ".toList ++ speed ++ ", t -> t".toList)
    :: sampleLine "0.0".toList 0 :: inner
    ++ [sampleLine "1.0".toList final, "        );".toList]

/-- The lines of a move that goes nowhere. -/
def stillLines (m : Move ν) : Outcome (List (List Char)) := do
  if lt headingTolerance (abs m.pose.h) then
    return [turnLine (← programHeading m.pose.h) " // snap to waypoint heading".toList]
  else return []

/-- The turn after a straight move, if its heading is not the direction of travel. -/
def arrivalLines (m : Move ν) (bearing : ν) : Outcome (List (List Char)) := do
  if lt headingTolerance (abs m.pose.h) then
    let heading := toDegrees (-m.pose.h)
    if lt turnTolerance (abs (← normalizeDegrees (heading - bearing))) then
      return [turnLine (← roundHalfUp heading) " // waypoint heading".toList]
  return []

/-- The lines of a move that starts at the given point. -/
def moveLines (samples : Outcome Int) (start : Point ν) (m : Move ν) : Outcome (List (List Char)) := do
  let distance := Point.distance start m.point
  if lt distance negligible then stillLines m
  else
    let bearing := Point.bearing start m.point
    let degrees ← roundHalfUp bearing
    match m.motion with
    | .arc own =>
      let control ← match own with
        | some c => pure c
        | none => defaultControl start m.point
      arcLines start control m samples
    | .strafe =>
      let line := travelLine "strafePID".toList (← amount distance 2) degrees
      return line :: (← arrivalLines m bearing)
    | .drive =>
      let line := travelLine "drivePID".toList (← amount distance 2) degrees
      return turnLine degrees [] :: line :: (← arrivalLines m bearing)

/-- The lines of an action. -/
def actionLines (m : Marker ν) : List (List Char) :=
  [[],
   "// Action: ".toList ++ m.name.toList,
   m.name.toList ++ "(".toList ++ m.args.toList ++ ");".toList]

/-- The lines of waypoints that are entered at the given point. -/
def waypointLines (l : Layout ν) (samples : Outcome Int) (start : Point ν) :
    List (Waypoint ν) → Outcome (List (List Char))
  | [] => .ok []
  | .action a :: rest => do
    let more ← waypointLines l samples start rest
    match l.marker? a.markerId with
    | none => return more
    | some m => return actionLines m ++ more
  | .move m :: rest => do
    let lines ← moveLines samples start m
    let more ← waypointLines l samples m.point rest
    return lines ++ more

/-- The lines before the first waypoint. -/
def opening : List (List Char) :=
  ["// Robot-Oriented Path".toList,
   "// Start: x=0.00 y=0.00 h=0deg (always relative to origin)".toList,
   [],
   turnLine 0 " // face start heading".toList]

/-- How many heading samples an arc has where nothing else is asked. -/
def defaultSamples : Int := 5

/-- A path as a robot-oriented program, with the given number of heading samples for an arc. -/
def print (l : Layout ν) (samples : Outcome Int) : Outcome (List Char) := do
  let lines ← waypointLines l samples l.start.point l.waypoints
  return unlines (opening ++ lines)

end PathStudio.Program.Robot
