import PathStudio.Editor.Basic
import PathStudio.Session.Arguments
import PathStudio.Window.Gesture

/-!
# The mouse

A press takes hold of what is under the mouse; on empty ground it adds a
waypoint, and with the action key held it adds an action. Moving the mouse drags
what is held until the release.
-/

namespace PathStudio.Editor

open Storage Window

/-- How near to a part, in pixels, a press has to be. -/
def pickRadius : Float := 10.0

/-- Asks for the name and the arguments of an action; without a name there is none. -/
def askAction : Work (Option (String × String)) := do
  let name ← Work.ask (.text "Add action" "Action name:" (some "customAction"))
  let name := Edit.trimmed (name.getD "")
  if name = "" then return none
  let arguments ← Work.ask (.text "Add action" "Arguments (comma separated, optional):" none)
  return some (name, Edit.trimmed (arguments.getD ""))

/-- A release of the main button. -/
def release : Editing Unit := modify fun e => { e with drag := none }

variable [Scalar Float]

/-- Adds an action that the user names at a pixel. -/
def pressAction (place : Outcome (Point Float)) : Editing Unit := do
  match ← atDesk askAction with
  | none => pure ()
  | some (name, arguments) =>
    let tolerance ← option "markers" "reuse_tolerance_m"
    let point := PointOperand.ofPoint (toMetres (← place))
    let _ ← editing
      (Edit.addOrReuseMarker point (.ok name) (.ok arguments) (.boundOfJson tolerance))

/-- Adds a waypoint at a pixel. -/
def pressEmpty (place : Point Float) : Editing Unit := do
  let p := toMetres place
  let speed ← option "codegen" "default_speed"
  let _ ← editing (Edit.addWaypoint (.ofPose ⟨p.x, p.y, 0.0⟩) (.move .drive) (.ofJson speed))

/-- Takes hold of a part; a waypoint or an action is selected as well, and an action is not
dragged. -/
def takeHold (hit : Hit) : Editing Unit := do
  match hit.part, hit.index with
  | .waypoint, some i | .action, some i => editing (Edit.select (some (.whole i)))
  | _, _ => pure ()
  if hit.part ≠ .action then
    modify fun e => { e with drag := some ⟨.ofHit hit, none⟩ }

/-- A press of the main button at a pixel. -/
def press (withAction : Bool) (place : Outcome (Point Float)) : Editing Unit := do
  if withAction then pressAction place
  else
    let e ← get
    let place ← place
    match ← pick e.session.mode e.session.toLayout place pickRadius with
    | none => pressEmpty place
    | some hit => takeHold hit

/-- A movement to a pixel, which drags what is held. -/
def dragTo (place : Outcome (Point Float)) : Editing Unit := do
  let e ← get
  match e.drag with
  | none => pure ()
  | some d =>
    let (edit, gesture) := d.gesture.move place
    match d.detached with
    | none =>
      set { e with drag := some { d with gesture } }
      editing edit
    | some s =>
      let (result, s) := StateT.run (ExceptT.run edit) s
      set { e with drag := some ⟨gesture, some s⟩ }
      result

end PathStudio.Editor
