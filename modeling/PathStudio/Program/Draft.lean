import PathStudio.Session.Basic

/-!
# Drafts

The path that a reader of programs builds up. Actions with the same call share
a marker, which stands where the first of them does.
-/

namespace PathStudio.Program

/-- The waypoints and markers read so far. -/
structure Draft (ν : Type) where
  waypoints : List (Waypoint ν)
  markers : List (Marker ν)
  nextMarkerId : Int

namespace Draft

variable {ν : Type}

/-- The marker of a call, and the draft with it: an earlier one or a new one at the given point. -/
def markerFor (d : Draft ν) (name args : List Char) (at_ : Point ν) : Marker ν × Draft ν :=
  let name := String.ofList name
  let args := String.ofList args
  match d.markers.find? fun m => m.name = name && m.args = args with
  | some m => (m, d)
  | none =>
    let m : Marker ν := ⟨d.nextMarkerId, at_.x, at_.y, name, args⟩
    (m, { d with markers := d.markers ++ [m], nextMarkerId := d.nextMarkerId + 1 })

/-- The draft with another waypoint. -/
def add (d : Draft ν) (w : Waypoint ν) : Draft ν := { d with waypoints := d.waypoints ++ [w] }

/-- The session that a draft makes of an earlier one: its mode and start stay. -/
def toSession (d : Draft ν) (start : Pose ν) (prior : Session ν) : Session ν :=
  { start
    waypoints := d.waypoints
    markers := d.markers
    selection := none
    mode := prior.mode
    nextMarkerId := d.nextMarkerId
    past := .empty }

/-- A draft with nothing in it, whose markers go on after those of an earlier session. -/
def after (prior : Session ν) : Draft ν := ⟨[], [], prior.nextMarkerId⟩

end Draft

/-- The action for a marker. -/
def markerAction {ν : Type} [Add ν] [Sub ν] [Mul ν] [Div ν] [Neg ν] [Scalar ν] (m : Marker ν) :
    Waypoint ν :=
  .action ⟨⟨m.x, m.y, Scalar.ofInt 0⟩, m.id⟩

end PathStudio.Program
