import PathStudio.Window.Viewport
import PathStudio.Session.Basic

/-!
# Picking

What a click takes hold of. The start comes first, then each waypoint with its
own parts, and the handle of the start last. A part counts if it is seen
strictly within the radius of the mouse.
-/

namespace PathStudio.Window

open Scalar

/-- The parts of a path that a click can take hold of. -/
inductive Part where
  | start
  | startHeading
  | waypoint
  | heading
  | control
  | action
  deriving DecidableEq, Repr

/-- The word for a part. -/
def Part.name : Part → String
  | .start => "start"
  | .startHeading => "start_h"
  | .waypoint => "wp"
  | .heading => "heading"
  | .control => "control"
  | .action => "select"

/-- The part that a word names. -/
def Part.ofName? (s : String) : Option Part :=
  [Part.start, .startHeading, .waypoint, .heading, .control, .action].find? fun p => p.name = s

/-- A part and, if it belongs to a waypoint, the place of that waypoint. -/
structure Hit where
  part : Part
  index : Option Nat
  deriving DecidableEq, Repr

variable {ν : Type} [Add ν] [Sub ν] [Mul ν] [Div ν] [Neg ν] [Scalar ν]

/-- The square of the distance between two points. -/
def squaredDistance (p q : Point ν) : Outcome ν := do
  let dx ← square (p.x - q.x)
  let dy ← square (p.y - q.y)
  return dx + dy

/-- The place of the nearest point so far, with the bound that a nearer one has to be under. -/
def nearestFrom (mouse : Point ν) (best : ν) (found : Option Nat) (index : Nat) :
    List (Point ν) → Outcome (Option Nat)
  | [] => .ok found
  | p :: rest => do
    let d ← squaredDistance p mouse
    if lt d best then nearestFrom mouse d (some index) (index + 1) rest
    else nearestFrom mouse best found (index + 1) rest

/-- The place of the nearest point within a radius, the first of equally near ones. -/
def nearest (points : List (Point ν)) (mouse : Point ν) (radius : ν) : Outcome (Option Nat) :=
  nearestFrom mouse (radius * radius) none 0 points

/-- Whether a pixel is within a radius of the mouse. -/
def near (mouse : Point ν) (radius : ν) (pixel : Point ν) : Outcome Bool := do
  return lt (← squaredDistance pixel mouse) (radius * radius)

/-- The part of a move that is within the radius: its point, its control point, its handle. Control
points can be taken hold of only where they are shown. -/
def pickMove (showControl : Bool) (before : Pose ν) (m : Move ν) (mouse : Point ν) (radius : ν) :
    Outcome (Option Part) := do
  if ← near mouse radius (toPixels m.point) then return some .waypoint
  let control ← if showControl then Layout.controlOf m.motion before.point m.point else pure none
  match control with
  | some c => if ← near mouse radius (toPixels c) then return some .control
  | none => pure ()
  if ← near mouse radius (← handle m.pose) then return some .heading
  return none

/-- The first hit among waypoints from a place on, entered with the given pose. -/
def pickWaypoint (showControl : Bool) (mouse : Point ν) (radius : ν) (before : Pose ν)
    (index : Nat) : List (Waypoint ν) → Outcome (Option Hit)
  | [] => .ok none
  | .action a :: rest => do
    if ← near mouse radius (toPixels a.pose.point) then return some ⟨.action, some index⟩
    pickWaypoint showControl mouse radius before (index + 1) rest
  | .move m :: rest => do
    match ← pickMove showControl before m mouse radius with
    | some part => return some ⟨part, some index⟩
    | none => pickWaypoint showControl mouse radius m.pose (index + 1) rest

/-- What a click takes hold of, if anything. -/
def pick (mode : Mode) (l : Layout ν) (mouse : Point ν) (radius : ν) : Outcome (Option Hit) := do
  if ← near mouse radius (toPixels l.start.point) then return some ⟨.start, none⟩
  match ← pickWaypoint mode.isRobot mouse radius l.start 0 l.waypoints with
  | some hit => return some hit
  | none =>
    if ← near mouse radius (← handle l.start) then return some ⟨.startHeading, none⟩
    return none

end PathStudio.Window
