import PathStudio.Editor.Input
import PathStudio.Json.Parser
import PathStudio.Session.Arguments

/-!
# Event scripts

The input of a frame as a JSON object: a list of events, each a list that starts
with a word, the modifier keys that are down and the keys that are held. What is
not understood is left out. A whole script has one line for each frame; a frame
may also list answers for the dialogs to come.
-/

namespace PathStudio.Editor

/-- The place that two values give. -/
def placeOf (x y : Json) : Outcome (Point Float) := return ⟨← x.asReal, ← y.asReal⟩

/-- The button that the rest of an event names: the main one if there is no rest, and button zero for
what is no number. -/
def buttonOf : List Json → Int
  | [] => mainButton
  | button :: _ => button.integer?.getD 0

/-- An event; nothing for what is none. -/
def Event.ofJson? : Json → Option Event
  | .arr (.str "quit" :: _) => some .quit
  | .arr (.str "key" :: .str name :: _) => some (.key name)
  | .arr (.str "down" :: x :: y :: rest) => some (.press (buttonOf rest) (placeOf x y))
  | .arr (.str "up" :: _ :: _ :: rest) => some (.release (buttonOf rest))
  | .arr (.str "move" :: x :: y :: _) => some (.move (placeOf x y))
  | _ => none

/-- The texts of a member that lists some. -/
def textsOf (key : String) (value : Json) : List String :=
  match value.member? key with
  | some (.arr items) => items.filterMap fun item =>
      match item with
      | .str s => some s
      | _ => none
  | _ => []

/-- The input of a frame. -/
def Input.ofJson (value : Json) : Input :=
  let events := match value.member? "events" with
    | some (.arr items) => items.filterMap Event.ofJson?
    | _ => []
  { events
    control := (textsOf "mods" value).contains "ctrl"
    held := textsOf "held" value }

/-- An answer to a dialog; anything but a text is none. -/
def answerOf : Json → Option String
  | .str s => some s
  | _ => none

/-- The answers that a frame lists. -/
def answersOf (value : Json) : List (Option String) :=
  match value.member? "dialogs" with
  | some (.arr items) => items.map answerOf
  | _ => []

/-- The inputs of a script and the answers to its dialogs. -/
structure Script where
  inputs : List Input
  answers : List (Option String)

/-- Reads a script line by line. -/
def Script.ofLines : List String → Outcome Script
  | [] => .ok ⟨[], []⟩
  | line :: rest => do
    let value ← Json.parse line
    let more ← ofLines rest
    return ⟨Input.ofJson value :: more.inputs, answersOf value ++ more.answers⟩

end PathStudio.Editor
