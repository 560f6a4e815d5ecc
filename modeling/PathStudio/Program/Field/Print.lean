import PathStudio.Program.Amount
import PathStudio.Session.Basic
import PathStudio.Geometry.Point
import PathStudio.Text.Line

/-!
# Writing field-oriented programs

A field-oriented program lists the start and every move as absolute poses, and
every action as a marker at the percentage of the moves that are done by then.
-/

namespace PathStudio.Program.Field

open Scalar Text

variable {ν : Type} [Add ν] [Sub ν] [Mul ν] [Div ν] [Neg ν] [Scalar ν]

/-- The percentages and markers of the actions among waypoints of which `done` moves out of
`total` are done; actions without a marker are left out. -/
def percentagesFrom (l : Layout ν) (total : Nat) : (done : Nat) → List (Waypoint ν) →
    List (ν × Marker ν)
  | _, [] => []
  | done, .move _ :: rest => percentagesFrom l total (done + 1) rest
  | done, .action a :: rest =>
    match l.marker? a.markerId with
    | none => percentagesFrom l total done rest
    | some m =>
      let percent : ν := if total = 0 then 0 else ofInt done / ofInt total * 100
      (percent, m) :: percentagesFrom l total done rest

/-- How much of the path is done at each action that has a marker, in percent. -/
def actionPercentages (l : Layout ν) : List (ν × Marker ν) :=
  percentagesFrom l l.moves.length 0 l.waypoints

/-- The line of a pose. -/
def poseLine (p : Pose ν) : Outcome (List Char) := do
  let x ← centimetres p.x
  let y ← centimetres p.y
  let heading ← programHeading p.h
  return "    waypoints.add(new Pose2d(".toList ++ x ++ ", ".toList ++ y
    ++ ", Rotation2d.fromDegrees(".toList ++ integerText heading ++ ")));".toList

/-- The lines of an action. -/
def markerLines (percent : ν) (m : Marker ν) : Outcome (List (List Char)) := do
  let percent ← amount percent 1
  return [
    "    markers.add(new PathMarker(".toList ++ percent ++ ", () -> \x7b".toList,
    "        telemetry.addData(\"Marker\", \"".toList ++ percent ++ "% - ".toList
      ++ m.name.toList ++ "\");".toList,
    "        telemetry.update();".toList,
    "        ".toList ++ m.name.toList ++ "(".toList ++ m.args.toList ++ ");".toList,
    "    \x7d));".toList,
    []]

/-- The lines before the poses. -/
def opening : List (List Char) :=
  ["private List<Pose2d> createPath() \x7b".toList,
   "    List<Pose2d> waypoints = new ArrayList<>();".toList,
   [],
   "    // Start pose".toList]

/-- The lines between the poses and the markers. -/
def middle : List (List Char) :=
  [[],
   "    return waypoints;".toList,
   "\x7d".toList,
   [],
   "private List<PathMarker> createMarkers() \x7b".toList]

/-- The lines of all markers, with what stands around them. -/
def markerBlock (actions : List (ν × Marker ν)) : Outcome (List (List Char)) := do
  if actions.isEmpty then return ["    return new ArrayList<>();".toList, "\x7d".toList]
  let lines ← actions.mapM fun (percent, m) => markerLines percent m
  return "    List<PathMarker> markers = new ArrayList<>();".toList :: [] :: lines.flatten
    ++ ["    return markers;".toList, "\x7d".toList]

/-- A path as a field-oriented program. -/
def print (l : Layout ν) : Outcome (List Char) := do
  let start ← poseLine l.start
  let moves ← l.moves.mapM fun m => poseLine m.pose
  let markers ← markerBlock (actionPercentages l)
  return unlines (opening ++ start :: [] :: moves ++ middle ++ markers)

end PathStudio.Program.Field
