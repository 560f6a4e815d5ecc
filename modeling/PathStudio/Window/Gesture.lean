import PathStudio.Window.Picking
import PathStudio.Session.Edit

/-!
# Gestures

A gesture is one press, any number of moves and one release on a part of a
path. The first move saves the layout, so that the whole gesture is one step to
undo.
-/

namespace PathStudio.Window

open Edit

/-- A gesture: the part it holds, if it holds one that can be dragged, the place of the waypoint,
and whether it has moved yet. -/
structure Gesture where
  part : Option Part
  index : Outcome Int
  moved : Bool

/-- The gesture on a hit, before its first move. -/
def Gesture.ofHit (hit : Hit) : Gesture :=
  { part := some hit.part
    index := match hit.index with
      | some i => .ok i
      | none => .error .wrongType
    moved := false }

variable {ν : Type} [Add ν] [Sub ν] [Mul ν] [Div ν] [Neg ν] [Scalar ν]

/-- Drags the part of a gesture to where the mouse is. -/
def dragPart (part : Option Part) (index : Outcome Int) (mouse : Point ν) : Edit ν Unit := do
  let p := toMetres mouse
  match part with
  | some .waypoint => dragWaypoint index (.number p.x) (.number p.y)
  | some .heading =>
    let w ← (← layout).waypointAt (← index)
    dragHeading index (.number (headingAt w.pose.point mouse))
  | some .control => dragArcControl index (.ofPoint p)
  | some .start => dragStart (.number p.x) (.number p.y)
  | some .startHeading => dragStartHeading (.number (headingAt (← get).start.point mouse))
  | some .action | none => pure ()

/-- Moves a gesture; answers with the gesture that goes on, also if the session refuses the
drag. -/
def Gesture.move (g : Gesture) (mouse : Outcome (Point ν)) : Edit ν Unit × Gesture :=
  (do
    if !g.moved then beginDrag
    dragPart g.part g.index (← mouse),
   { g with moved := true })

end PathStudio.Window
