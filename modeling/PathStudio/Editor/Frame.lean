import PathStudio.Editor.Keyboard
import PathStudio.Editor.Mouse
import PathStudio.Settings.File
import PathStudio.Window.Drawing

/-!
# Frames

The editor works in frames: it takes the events, advances the run by one
increment and draws. It starts with the settings from their file and with the
session from a file, if one is named; when the window is closed the settings are
saved.
-/

namespace PathStudio.Editor

open Storage Simulation Window

/-- What a frame shows. -/
structure View where
  session : Session Float
  status : List String
  preview : Option (List (Point Float))
  robot : Option (Pose Float)

/-- What a frame shows, with the strokes that it is drawn with. -/
structure Report extends View where
  picture : Array (Stroke Float)

/-- Where the robot is shown: during a run and after its end. The heading is in degrees. -/
def shownRobot (r : Runner Float) : Option (Pose Float) :=
  match r.state with
  | some s => if s.running || s.phase = .done then some ⟨s.x, s.y, s.heading⟩ else none
  | none => none

/-- The line of the status strip. -/
def statusLine (e : Editor) : Outcome String := do
  let simulation ← Settings.flat "sim" e.settings
  let speed ← (Settings.valueOf "speed_multiplier" simulation).asReal
  let programs ← Settings.flat "codegen" e.settings
  let samples := Settings.valueOf "arc_samples" programs
  return "mode: " ++ shownMode e.session
    ++ "   sim x" ++ String.ofList (Decimal.status speed 1)
    ++ "   arc samples: " ++ String.ofList samples.plain

/-- The surface of the window. -/
def surface : Extent := ⟨Settings.windowSize, Settings.windowSize⟩

/-- The distance between two grid lines in pixels. -/
def gridSpacing : Float := Double.ofInt Settings.windowSize / 6.0

/-- The font of the status strip: the height of a line of text in pixels. Which font is installed, and
how high it is, depends on the platform. -/
class Font where
  lineHeight : Int

/-- Without a window no text is drawn, and a line has no height. -/
instance Font.windowless : Font := ⟨0⟩

/-- Closes the editor. -/
def close : Editing Unit := do
  let _ ← atDesk (Settings.save (← get).settings none)

/-- The editor after some work, and the fault that ended the work, if any. -/
def after {α : Type} (w : Editing α) (e : Editor) : Outcome α × Editor :=
  StateT.run (ExceptT.run w) e

/-- What is left of a whole visit to the editor. -/
structure Visit where
  reports : List Report
  fault : Option Fault
  editor : Editor

variable [Scalar Float]

/-- Handles an event. While a run is going on, presses do nothing. -/
def handle (input : Input) : Event → Editing Unit
  | .quit => modify fun e => { e with opened := false }
  | .key name =>
    match Command.ofKey? name with
    | some command => perform input.control command
    | none => pure ()
  | .press button place => do
    if button = mainButton && !(← get).runner.running then
      press (input.held.contains actionKey) place
  | .release button => if button = mainButton then release else pure ()
  | .move place => dragTo place

/-- Advances the run, if one is going on, and reports its end. -/
def advance : Editing Unit := do
  let e ← get
  if e.runner.running then
    if ← running (Runner.tick (standardIncrement e.settings)) then
      match (← get).runner.state with
      | some s =>
        say ("Simulation finished after " ++ String.ofList (Decimal.status (s.time / 1000.0) 2)
          ++ " s")
      | none => pure ()

/-- The points of the planned motion, where it is shown: in field mode, and during a run. -/
def plannedMotion (e : Editor) : Outcome (Option (List (Point Float))) := do
  if e.runner.running then
    match e.runner.plan with
    | some p => return some (← p.previewPoints)
    | none => return none
  else if e.session.mode.isField then
    return some (← (← planOf e.settings e.session).previewPoints)
  else return none

/-- The session that the editor starts with: a routine, a program, or an empty one in the mode of
the settings. -/
def openSession (path : Option String) : Editing Unit := do
  match path with
  | none =>
    let mode := Mode.ofJson (← option "codegen" "mode")
    modify fun e => { e with session := { Session.empty with mode } }
  | some path =>
    if (path.map Char.toLower).endsWith ".json" then
      match ← atDesk (loadRoutine (some path)) with
      | some session => modify fun e => { e with session }
      | none => pure ()
    else decodeText (← atDesk (Work.readText path))

/-- Starts the editor. -/
def start (path : Option String) : Editing Unit := do
  let settings ← atDesk (Settings.load none)
  modify fun e => { e with settings }
  openSession path
  atDesk do
    Work.print title
    controls.forM fun c => Work.print (controlLine c)

variable [Font]

/-- Draws a frame; answers with what it shows. -/
def paint (e : Editor) : Drawing Float View := do
  drawGrid surface gridSpacing
  drawLayout e.session.mode e.session.toLayout
  let preview ← plannedMotion e
  preview.forM drawPreview
  let robot := shownRobot e.runner
  robot.forM fun pose => drawRobot pose.point pose.h
  let status := [← statusLine e]
  drawStatus surface Font.lineHeight status
  return { session := e.session, status, preview, robot }

/-- What the editor shows. -/
def report (e : Editor) : Outcome Report := do
  let (view, picture) := (paint e).strokes
  return { ← view with picture }

/-- One frame. -/
def frame (input : Input) : Editing Report := do
  input.events.forM (handle input)
  advance
  report (← get)

/-- Runs frames until the window is closed or a fault ends the work; answers with what the frames
showed, the last one first. -/
def runFrames (shown : List Report) : List Input → Editor → List Report × Outcome Unit × Editor
  | [], e => (shown, .ok (), e)
  | input :: rest, e =>
    match after (frame input) e with
    | (.error fault, e) => (shown, .error fault, e)
    | (.ok r, e) => if e.opened then runFrames (r :: shown) rest e else (r :: shown, .ok (), e)

/-- A whole visit: starts the editor, runs the frames and closes it. Nothing is saved after a
fault. -/
def visit (path : Option String) (inputs : List Input) (desk : Desk) : Visit :=
  match after (start path) (new desk) with
  | (.error fault, e) => ⟨[], some fault, e⟩
  | (.ok (), e) =>
    match runFrames [] inputs e with
    | (shown, .error fault, e) => ⟨shown.reverse, some fault, e⟩
    | (shown, .ok (), e) =>
      match after close e with
      | (.error fault, e) => ⟨shown.reverse, some fault, e⟩
      | (.ok (), e) => ⟨shown.reverse, none, e⟩

end PathStudio.Editor
