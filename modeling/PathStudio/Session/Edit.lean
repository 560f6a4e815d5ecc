import PathStudio.Session.Basic
import PathStudio.Session.Operand
import PathStudio.Text.Character

/-!
# Edits

What can be done to a session. An edit that is refused leaves the session as it
was at that moment. The structural edits save the layout before they change it,
so that one undo takes them back; drags do not save, their gesture does so once.
-/

namespace PathStudio

/-- A change of a session that can be refused part of the way. -/
abbrev Edit (ν α : Type) := ExceptT Fault (StateM (Session ν)) α

namespace Session

variable {ν : Type} [Add ν] [Sub ν] [Mul ν] [Div ν] [Neg ν] [Scalar ν]

/-- The session that has its layout saved. -/
def saved (s : Session ν) : Session ν := { s with past := s.past.push s.toLayout }

/-- The session before the latest saved layout was saved. -/
def undone? (s : Session ν) : Option (Session ν) :=
  match s.history with
  | [] => none
  | layout :: _ => some { s with toLayout := layout, past := s.past.tail }

/-- The session with another waypoint at a place. -/
def setWaypoint (s : Session ν) (i : Nat) (w : Waypoint ν) : Session ν :=
  { s with waypoints := s.waypoints.set i w }

/-- The session with a waypoint put in after the last move; a selection behind it moves along. -/
def insertAction (s : Session ν) (a : Action ν) : Session ν :=
  let place := Layout.actionPlace s.waypoints
  { s with
    waypoints := s.waypoints.insertIdx place (.action a)
    selection := s.selection.map fun j => if j.isAt place || j.isAfter place then j.next else j }

/-- The selection after the waypoint at a place is gone. -/
def selectionWithout (selection : Option (Selection ν)) (i : Nat) : Option (Selection ν) :=
  match selection with
  | none => none
  | some j => if j.isAt i then none else if j.isAfter i then some j.previous else some j

end Session

namespace Edit

variable {ν : Type} [Add ν] [Sub ν] [Mul ν] [Div ν] [Neg ν] [Scalar ν]

/-- Saves the layout. -/
def saveState : Edit ν Unit := modify Session.saved

/-- Goes back to the latest saved layout, if there is one. -/
def undo : Edit ν Bool := do
  match (← get).undone? with
  | none => return false
  | some s => set s; return true

/-- The layout as it is. -/
def layout : Edit ν (Layout ν) := return (← get).toLayout

/-- Puts another waypoint at a place. -/
def setWaypoint (i : Nat) (w : Waypoint ν) : Edit ν Unit := modify (·.setWaypoint i w)

/-- The waypoint at a place that is known to exist. -/
def waypoint (i : Nat) : Edit ν (Waypoint ν) := do
  match (← get).waypoints[i]? with
  | some w => return w
  | none => throw .listIndex

/-- Refuses an index that is not that of a waypoint, counted from the front only. -/
def check (index : IndexOperand ν) : Edit ν Unit := do (← layout).checkIndex index

/-- The place of a waypoint; negative indices count from the end. -/
def located (index : Outcome Int) : Edit ν Nat := do
  let index ← index
  (← layout).locate index

/-- Selects a waypoint, or nothing. -/
def select (index : Option (IndexOperand ν)) : Edit ν Unit := do
  match index with
  | none => modify fun s => { s with selection := none }
  | some index =>
    check index
    let selection ← index.selection
    modify fun s => { s with selection := some selection }

/-- Sets the mode. -/
def setMode (mode : Mode) (shown : String) : Edit ν Unit := do
  match mode with
  | .dialect d => modify fun s => { s with mode := .dialect d }
  | .other _ => throw (.unknownMode shown)

/-- Gives a move another speed. -/
def setSpeed (index : IndexOperand ν) (speed : Operand ν) : Edit ν Unit := do
  check index
  let i ← located index.position
  match ← waypoint i with
  | .action _ => throw .actionHasNoSpeed
  | .move m =>
    saveState
    let speed ← speed.read
    setWaypoint i (.move { m with speed })

/-- Turns a move into another kind of move. An arc has no place in field mode, so asking for one
leaves that mode. -/
def retypeWaypoint (index : IndexOperand ν) (kind : KindOperand) : Edit ν Unit := do
  check index
  let i ← located index.position
  match ← waypoint i with
  | .action _ => throw .actionKeepsKind
  | .move m =>
    let kind ← kind.moveKind
    saveState
    modify fun s =>
      { s with
        mode := if s.mode.isField && kind = .arc then .dialect .robot else s.mode }
    setWaypoint i (.move { m with motion := .ofKind kind })

/-- Takes a waypoint out of the path. -/
def deleteWaypoint (index : IndexOperand ν) : Edit ν Unit := do
  check index
  saveState
  let i ← located index.position
  modify fun s =>
    { s with
      waypoints := s.waypoints.eraseIdx i
      selection := Session.selectionWithout s.selection i }

/-- Moves a waypoint, and turns it if a heading is given. An arc loses its control point. -/
def moveWaypoint (index : IndexOperand ν) (pose : PoseOperand ν) : Edit ν Unit := do
  check index
  saveState
  let i ← located index.position
  let w ← waypoint i
  let x ← pose.x.read
  let y ← pose.y.read
  let w := w.relocate x y
  setWaypoint i w
  match pose.h with
  | .omitted | .blank => setWaypoint i w.plain
  | .given heading =>
    let h ← heading.read
    setWaypoint i (w.turn h).plain

/-- Puts an action for a marker after the last move; answers with its place. -/
def insertAction (m : Marker ν) : Edit ν Nat := do
  let place := Layout.actionPlace (← get).waypoints
  modify (·.insertAction ⟨⟨m.x, m.y, Scalar.ofInt 0⟩, m.id⟩)
  return place

/-- Puts an action for an existing marker after the last move. -/
def addAction (ref : MarkerRef) : Edit ν Nat := do
  match ref.number.bind (← layout).marker? with
  | none => throw (.unknownMarker ref.shown)
  | some m =>
    saveState
    insertAction m

/-- Starts a drag: saves the layout. -/
def beginDrag : Edit ν Unit := saveState

/-- Drags a waypoint to another point. An arc loses its control point. -/
def dragWaypoint (index : Outcome Int) (x y : Operand ν) : Edit ν Unit := do
  let i ← located index
  let w ← waypoint i
  let x ← x.read
  let y ← y.read
  setWaypoint i (w.relocate x y).plain

/-- Drags the heading of a waypoint. -/
def dragHeading (index : Outcome Int) (h : Operand ν) : Edit ν Unit := do
  let h ← h.read
  let i ← located index
  setWaypoint i ((← waypoint i).turn h)

/-- Drags the start to another point. -/
def dragStart (x y : Operand ν) : Edit ν Unit := do
  let x ← x.read
  let y ← y.read
  modify fun s => { s with start := ⟨x, y, s.start.h⟩ }

/-- Drags the heading of the start. -/
def dragStartHeading (h : Operand ν) : Edit ν Unit := do
  let h ← h.read
  modify fun s => { s with start := ⟨s.start.x, s.start.y, h⟩ }

open Scalar

/-- Drags the control point of an arc; the arc then arrives in the direction away from it. -/
def dragArcControl (index : Outcome Int) (point : PointOperand ν) : Edit ν Unit := do
  let i ← located index
  match ← waypoint i with
  | .move ⟨.arc _, pose, speed⟩ =>
    let x ← point.x.read
    let y ← point.y.read
    let h := atan2 (pose.y - y) (pose.x - x)
    setWaypoint i (.move ⟨.arc (some ⟨x, y⟩), ⟨pose.x, pose.y, h⟩, speed⟩)
  | _ => throw .noControlPoint

/-- The heading of a pose argument where a blank one is refused. -/
def givenHeading : HeadingOperand ν → Outcome ν
  | .omitted => .ok 0
  | .blank => .error .wrongType
  | .given heading => heading.read

/-- Refuses a pose argument with a part missing. -/
def presentPose (pose : PoseOperand ν) : Outcome Unit := do
  pose.x.present
  pose.y.present
  match pose.h with
  | .given heading => heading.present
  | _ => pure ()

/-- Adds a move at the end of the path and selects it; answers with its place. -/
def addWaypoint (pose : PoseOperand ν) (kind : KindOperand) (speed : Operand ν) : Edit ν Nat := do
  match kind with
  | .action => throw .actionNeedsMarker
  | _ =>
    presentPose pose
    let kind ← kind.lookup
    let x ← pose.x.read
    let y ← pose.y.read
    let h ← givenHeading pose.h
    let speed ← speed.read
    saveState
    let place := (← get).waypoints.length
    modify fun s =>
      { s with
        waypoints := s.waypoints ++ [.move ⟨.ofKind kind, ⟨x, y, h⟩, speed⟩]
        selection := some (.place place) }
    return place

/-- Moves the start. -/
def setStart (pose : PoseOperand ν) : Edit ν Unit := do
  saveState
  let x ← pose.x.read
  let y ← pose.y.read
  let h ← givenHeading pose.h
  modify fun s => { s with start := ⟨x, y, h⟩ }

/-- Empties the path and goes back to the origin. -/
def clear : Edit ν Unit := do
  saveState
  modify fun s => { s with start := Pose.origin, waypoints := [], markers := [], selection := none }

/-- How near a marker has to be to be used again, where nothing else is asked. -/
def defaultTolerance : ν := 0.025

/-- The first marker of a name within the tolerance of a point. -/
def nearbyMarker (point : PointOperand ν) (name : String) (tolerance : Operand ν) :
    List (Marker ν) → Outcome (Option (Marker ν))
  | [] => .ok none
  | m :: rest => do
    if m.name = name then
      let x ← point.x.strict
      let y ← point.y.strict
      if lt (Point.distance ⟨m.x, m.y⟩ ⟨x, y⟩) (← tolerance.strict) then return some m
    nearbyMarker point name tolerance rest

/-- A text without the blanks at its ends. -/
def trimmed (s : String) : String := String.ofList (Text.trim s.toList)

/-- Adds a marker with the next free number. -/
def newMarker (point : PointOperand ν) (name : String) (args : Outcome String) :
    Edit ν (Marker ν) := do
  let x ← point.x.read
  let y ← point.y.read
  let args ← args
  let m : Marker ν := ⟨(← get).nextMarkerId, x, y, name, trimmed args⟩
  modify fun s => { s with nextMarkerId := s.nextMarkerId + 1, markers := s.markers ++ [m] }
  return m

/-- Puts an action after the last move, for a marker of the name near the point or else for a new
one; answers with the marker. -/
def addOrReuseMarker (point : PointOperand ν) (name args : Outcome String)
    (tolerance : Operand ν) : Edit ν (Marker ν) := do
  let name := trimmed (← name)
  if name = "" then throw .blankMarkerName
  saveState
  let found ← nearbyMarker point name tolerance (← get).markers
  let m ← match found with
    | some m => pure m
    | none => newMarker point name args
  let _ ← insertAction m
  return m

end Edit

end PathStudio
