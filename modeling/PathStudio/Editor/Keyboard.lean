import PathStudio.Editor.Basic
import PathStudio.Program.Decode
import PathStudio.Program.Encode
import PathStudio.Storage.Document

/-!
# Commands

What each key does. A setting that is turned down and a program that cannot be
decoded are reported in the log; other faults end the editor's work.
-/

namespace PathStudio.Editor

open Storage Simulation

/-- Changes to field mode, or from there to robot mode. -/
def toggleMode : Editing Unit :=
  modify fun e =>
    let d : Dialect := if e.session.mode.isRobot then .field else .robot
    { e with session := { e.session with mode := .dialect d } }

/-- The index of what is selected. -/
def selectedIndex (s : Session Float) : Option (IndexOperand Float) :=
  s.selection.map (·.index fun x => String.ofList (Decimal.real x))

/-- Offers a value for an option and reports what became of it. -/
def offer (group key : String) (value : Json) : Editing Unit := do
  let name := group ++ "." ++ key
  match Settings.setOption group key value (← get).settings with
  | .ok (settings, _) =>
    modify fun e => { e with settings }
    say (name ++ " = " ++ String.ofList value.plain)
  | .error (.rejected cause) => say ("Rejected " ++ name ++ ": " ++ cause.message)
  | .error fault => throw fault

/-- Changes the speed of the simulation. -/
def changeSpeed (step : Float) : Editing Unit := do
  let speed ← (← option "sim" "speed_multiplier").asReal
  offer "sim" "speed_multiplier" (.real (speed + step))

/-- Changes the number of heading samples of an arc. -/
def changeSamples (step : Int) : Editing Unit := do
  let samples ← (← option "codegen" "arc_samples").toInteger
  offer "codegen" "arc_samples" (.int (samples + step))

/-- Saves the session as a routine. -/
def save : Editing Unit := do
  match ← atDesk (saveRoutine (← get).session none) with
  | none => pure ()
  | some path => say ("Saved routine to " ++ path)

/-- The gesture after its session has been replaced. -/
def Drag.detach (d : Drag) (s : Session Float) : Drag :=
  { d with detached := some (d.detached.getD s) }

/-- Loads a routine in place of the session. -/
def load : Editing Unit := do
  match ← atDesk (loadRoutine none) with
  | none => pure ()
  | some session =>
    modify fun e => { e with session, drag := e.drag.map (·.detach e.session) }
    say "Loaded routine"

/-- Writes the log to a file and empties it. -/
def exportLog : Editing Unit := do
  let path ← atDesk (Storage.exportLog ((← get).log.map .ok) none)
  if path.isSome then modify fun e => { e with log := [] }

variable [Scalar Float]

/-- Starts a run, or halts the one that is going on. -/
def toggleRun : Editing Unit := do
  let e ← get
  if e.runner.running then
    set { e with runner := e.runner.halt }
    say "Simulation halted"
  else if ← running (Runner.start (planOf e.settings e.session)) then
    say ("Simulation started (" ++ shownMode e.session ++ " mode)")

/-- Gives the selected waypoint another kind; an action keeps its own. -/
def retypeSelected (kind : MoveKind) : Editing Unit := do
  match selectedIndex (← get).session with
  | none => pure ()
  | some index =>
    match ← editing do Edit.waypoint (← Edit.located index.position) with
    | .action _ => pure ()
    | .move _ => editing (Edit.retypeWaypoint index (.move kind))

/-- Deletes the selected waypoint. -/
def deleteSelected : Editing Unit := do
  match selectedIndex (← get).session with
  | none => pure ()
  | some index => editing (Edit.deleteWaypoint index)

/-- Decodes a text into the session and reports how it went. -/
def decodeText (text : String) : Editing Unit := do
  let e ← get
  let (result, session) := StateT.run (ExceptT.run (Program.decodeInto text.toList)) e.session
  set { e with session }
  match result with
  | .ok d =>
    say ("Decoded " ++ d.name ++ "-oriented code: " ++ toString session.waypoints.length
      ++ " waypoints")
  | .error fault =>
    match fault.family with
    | .noWaypoints => say ("Decode: " ++ fault.message ++ " (CTRL+Z restores the previous path)")
    | .unrecognized | .undecodable => say ("Decode failed: " ++ fault.message)
    | _ => throw fault

/-- Writes the session as a program. -/
def exportProgram : Editing Unit := do
  let e ← get
  let text ← Program.generate e.settings e.session
  let _ ← atDesk (Storage.exportProgram (.ok text) none)

/-- Reads a program into the session. -/
def decode : Editing Unit := do
  match ← atDesk (readProgram none) with
  | none => pure ()
  | some text => decodeText text

/-- Carries out a command; undoing needs the control key. -/
def perform (control : Bool) : Command → Editing Unit
  | .toggleRun => toggleRun
  | .undo => if control then do let _ ← editing Edit.undo else pure ()
  | .toggleMode => toggleMode
  | .retype kind => retypeSelected kind
  | .delete => deleteSelected
  | .changeSpeed step => changeSpeed step
  | .changeSamples step => changeSamples step
  | .save => save
  | .load => load
  | .exportProgram => exportProgram
  | .decode => decode
  | .exportLog => exportLog

end PathStudio.Editor
