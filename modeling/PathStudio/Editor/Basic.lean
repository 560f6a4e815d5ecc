import PathStudio.Editor.Input
import PathStudio.Session.Edit
import PathStudio.Simulation.Speeds
import PathStudio.Storage.Desk
import PathStudio.Window.Gesture

/-!
# The editor

An editor joins a session, the run of a simulation, the settings, the log and the
desk with the files. Work on each of these is work of the editor; what has been
done when a part refuses to go on stays done.
-/

namespace PathStudio.Editor

open Storage Simulation Window

/-- A gesture under way. When another session is loaded meanwhile, the gesture keeps the session
that it began in. -/
structure Drag where
  gesture : Gesture
  detached : Option (Session Float)

end Editor

/-- An editor. -/
structure Editor where
  desk : Storage.Desk
  settings : Json
  session : Session Float
  drag : Option Editor.Drag
  runner : Simulation.Runner Float
  log : List String
  opened : Bool

/-- Work of the editor that can be refused part of the way. -/
abbrev Editing (α : Type) := ExceptT Fault (StateM Editor) α

namespace Editor

open Storage Simulation Window

/-- An editor with nothing done yet. -/
def new (desk : Desk) : Editor :=
  { desk, settings := Settings.defaults, session := Session.empty, drag := none
    runner := Runner.idle, log := [], opened := true }

/-- Work at the desk. -/
def atDesk {α : Type} (w : Work α) : Editing α := do
  let e ← get
  let (result, desk) := StateT.run (ExceptT.run w) e.desk
  set { e with desk }
  result

/-- An edit of the session. -/
def editing {α : Type} (edit : Edit Float α) : Editing α := do
  let e ← get
  let (result, session) := StateT.run (ExceptT.run edit) e.session
  set { e with session }
  result

/-- A change of the run. -/
def running {α : Type} (change : Running Float α) : Editing α := do
  let e ← get
  let (result, runner) := StateT.run (ExceptT.run change) e.runner
  set { e with runner }
  result

/-- Adds a line to the log and prints it. -/
def say (line : String) : Editing Unit := do
  modify fun e => { e with log := e.log ++ [line] }
  atDesk (Work.print line)

/-- The value of an option. -/
def option (group key : String) : Editing Json := do
  let view ← Settings.flat group (← get).settings
  return Settings.valueOf key view

/-- The mode of the session as it is shown. -/
def shownMode (s : Session Float) : String := String.ofList s.mode.toJson.plain

end Editor

end PathStudio
