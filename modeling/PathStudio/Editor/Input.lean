import PathStudio.Session.Waypoint

/-!
# Input

What reaches the editor in one frame: the events in their order, and which keys
are down meanwhile. Keys are known by name; each command has its keys.
-/

namespace PathStudio.Editor

/-- An event of the window. Buttons are numbered, the main one first. A place that cannot be read
matters only where it is used. -/
inductive Event where
  | quit
  | key (name : String)
  | press (button : Int) (place : Outcome (Point Float))
  | release (button : Int)
  | move (place : Outcome (Point Float))

/-- The input of one frame. -/
structure Input where
  events : List Event
  control : Bool
  held : List String

/-- The input that closes the window. -/
def Input.closing : Input := ⟨[.quit], false, []⟩

/-- The number of the main button. -/
def mainButton : Int := 1

/-- The name of the key that turns a press into an action. -/
def actionKey : String := "a"

/-- What a key asks for. -/
inductive Command where
  | toggleRun
  | undo
  | toggleMode
  | retype (kind : MoveKind)
  | delete
  | changeSpeed (step : Float)
  | changeSamples (step : Int)
  | save
  | load
  | exportProgram
  | decode
  | exportLog

/-- The commands by the names of their keys. -/
def commands : List (String × Command) :=
  [("SPACE", .toggleRun), ("z", .undo), ("m", .toggleMode),
   ("1", .retype .drive), ("2", .retype .strafe), ("3", .retype .arc),
   ("DELETE", .delete), ("BACKSPACE", .delete),
   ("PLUS", .changeSpeed 0.5), ("EQUALS", .changeSpeed 0.5), ("MINUS", .changeSpeed (-0.5)),
   ("RIGHTBRACKET", .changeSamples 1), ("LEFTBRACKET", .changeSamples (-1)),
   ("s", .save), ("l", .load), ("c", .exportProgram), ("d", .decode), ("o", .exportLog)]

/-- The command of a key. -/
def Command.ofKey? (key : String) : Option Command :=
  (commands.find? fun c => c.1 = key).map (·.2)

/-- What the editor calls itself. -/
def title : String := "ODOGEN PATH GENERATOR"

/-- The controls with what they do, as they are listed when the editor starts. -/
def controls : List (String × String) :=
  [("LeftClick", "Select/drag waypoint, handle or control point, or add a waypoint"),
   ("A + LeftClick", "Add action marker (or reuse one nearby)"),
   ("1 / 2 / 3", "Retype selected: drive / strafe / arc"),
   ("M", "Toggle robot / field mode"),
   ("SPACE", "Start / halt simulation"),
   ("+ / -", "Simulation speed"),
   ("[ / ]", "Arc heading samples"),
   ("Delete", "Delete selected waypoint"),
   ("CTRL+Z", "Undo"),
   ("S / L", "Save / Load routine"),
   ("C / D", "Export / Decode program"),
   ("O", "Export log")]

/-- A line of the list of controls: the control in a column of its own. -/
def controlLine (c : String × String) : String :=
  "  " ++ c.1 ++ String.ofList (List.replicate (16 - c.1.length) ' ') ++ " " ++ c.2

end PathStudio.Editor
