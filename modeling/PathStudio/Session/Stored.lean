import PathStudio.Session.Basic
import PathStudio.Json.Reading

/-!
# Stored routines

A session as a JSON value and back. History and selection are not stored.
Reading converts numbers and texts as it goes and is refused at the first part
that is missing or cannot be converted.
-/

namespace PathStudio

open Json (get field toReal toInteger)

/-- A point as a value. -/
def Point.toJson (p : Point Float) : Json := .arr [.real p.x, .real p.y]

namespace Move

/-- A move as a value; only an arc has the member for a control point. -/
def toJson (m : Move Float) : Json :=
  let pose := [("x", .real m.pose.x), ("y", .real m.pose.y), ("h", .real m.pose.h),
    ("speed", .real m.speed)]
  let control := match m.motion with
    | .arc (some c) => [("control", c.toJson)]
    | .arc none => [("control", .null)]
    | _ => []
  .obj (pose ++ control ++ [("kind", .str m.kind.name)])

/-- The motion of a kind with a control point given as a value; only an arc looks at it. -/
def readMotion (kind : MoveKind) (control : Option Json) : Outcome (Motion Float) :=
  match kind, control with
  | .drive, _ => .ok .drive
  | .strafe, _ => .ok .strafe
  | .arc, none | .arc, some .null => .ok (.arc none)
  | .arc, some value => do
    let x ← toReal (← value.item 0)
    let y ← toReal (← value.item 1)
    return .arc (some ⟨x, y⟩)

end Move

namespace Waypoint

/-- A waypoint as a value. -/
def toJson : Waypoint Float → Json
  | .move m => m.toJson
  | .action a =>
    .obj [("x", .real a.pose.x), ("y", .real a.pose.y), ("marker_id", .int a.markerId),
      ("h", .real a.pose.h), ("kind", .str "action")]

/-- The kind of move that a stored value names. -/
def readKind (kind : Json) : Outcome MoveKind :=
  match kind with
  | .str s =>
    match MoveKind.ofName? s with
    | some k => .ok k
    | none => .error (.unknownKind (String.ofList kind.shown))
  | .arr _ | .obj _ => .error .wrongType
  | _ => .error (.unknownKind (String.ofList kind.shown))

/-- Reads an action. -/
def readAction (value : Json) : Outcome (Waypoint Float) := do
  let x ← toReal (← value.field "x")
  let y ← toReal (← value.field "y")
  let id ← toInteger (← value.field "marker_id")
  let h ← toReal ((← value.get "h").getD (.real 0.0))
  return .action ⟨⟨x, y, h⟩, id⟩

/-- Reads a move of the given kind. -/
def readMove (kind value : Json) : Outcome (Waypoint Float) := do
  let x ← value.field "x"
  let y ← value.field "y"
  let h := (← value.get "h").getD (.real 0.0)
  let speed := (← value.get "speed").getD (.real defaultSpeed)
  let control ← value.get "control"
  let kind ← readKind kind
  let motion ← Move.readMotion kind control
  return .move ⟨motion, ⟨← toReal x, ← toReal y, ← toReal h⟩, ← toReal speed⟩

/-- Reads a waypoint; without a kind it is a drive. -/
def ofJson (value : Json) : Outcome (Waypoint Float) := do
  match (← value.get "kind").getD (.str "drive") with
  | .str "action" => readAction value
  | kind => readMove kind value

end Waypoint

namespace Marker

/-- A marker as a value. -/
def toJson (m : Marker Float) : Json :=
  .obj [("id", .int m.id), ("x", .real m.x), ("y", .real m.y), ("name", .str m.name),
    ("args", .str m.args)]

/-- Reads a marker. -/
def ofJson (value : Json) : Outcome (Marker Float) := do
  let id ← toInteger (← value.field "id")
  let x ← toReal (← value.field "x")
  let y ← toReal (← value.field "y")
  let name := String.ofList (← value.field "name").plain
  let args := String.ofList ((← value.get "args").getD (.str "")).plain
  return ⟨id, x, y, name, args⟩

end Marker

namespace Session

/-- The largest number of a list. -/
def largest : List Int → Option Int
  | [] => none
  | n :: rest => some (rest.foldl max n)

/-- A session as a value. -/
def toJson (s : Session Float) : Json :=
  .obj
    [("start", .obj [("x", .real s.start.x), ("y", .real s.start.y), ("h", .real s.start.h)]),
     ("waypoints", .arr (s.waypoints.map Waypoint.toJson)),
     ("markers", .arr (s.markers.map Marker.toJson)),
     ("next_marker_id", .int s.nextMarkerId),
     ("mode", s.mode.toJson)]

/-- Reads a session. Missing parts are empty, and the next marker number is above all in use. -/
def ofJson (data : Json) : Outcome (Session Float) := do
  let start := (← data.get "start").getD (.obj [])
  let x ← toReal ((← start.get "x").getD (.real 0.0))
  let y ← toReal ((← start.get "y").getD (.real 0.0))
  let h ← toReal ((← start.get "h").getD (.real 0.0))
  let mode := Mode.ofJson ((← data.get "mode").getD (.str "robot"))
  let markers ← (← ((← data.get "markers").getD (.arr [])).elements).mapM Marker.ofJson
  let waypoints ← (← ((← data.get "waypoints").getD (.arr [])).elements).mapM Waypoint.ofJson
  let next ← toInteger ((← data.get "next_marker_id").getD (.int 1))
  let top := (largest (markers.map (·.id))).getD 0
  return {
    start := ⟨x, y, h⟩, waypoints, markers, selection := none, mode
    nextMarkerId := max next (top + 1), past := .empty }

end Session

end PathStudio
