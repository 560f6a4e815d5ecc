import PathStudio.Proofs.Session.Saving
import PathStudio.Proofs.Outcome

/-!
# Drags

What a drag of each part of a path does to the session. A drag does not save the
layout. A drag of a control point turns the arc it belongs to, and only an arc has
one; a drag of an arc's end loses the control point.
-/

namespace PathStudio

open Scalar

variable {ν : Type}

/-- The arc to the same point whose control point has been dragged. -/
def Move.pulled [Add ν] [Sub ν] [Mul ν] [Div ν] [Neg ν] [Scalar ν] (m : Move ν) (c : Point ν) : Move ν :=
  ⟨.arc (some c), ⟨m.pose.x, m.pose.y, atan2 (m.pose.y - c.y) (m.pose.x - c.x)⟩, m.speed⟩

namespace Edit

variable {s : Session ν} {index : Int} {i : Nat} {w : Waypoint ν}

theorem on_located (place : s.locate index = .ok i) :
    (located (.ok index) : Edit ν Nat).on s = (.ok i, s) := congrArg (·, s) place

theorem on_dragWaypoint (place : s.locate index = .ok i) (here : s.waypoints[i]? = some w)
    (x y : ν) :
    (dragWaypoint (.ok index) (.number x) (.number y)).on s =
      (.ok (), s.setWaypoint i (w.relocate x y).plain) := by
  rw [dragWaypoint, on_bind_ok (on_located place), on_bind_ok (on_waypoint here)]
  rfl

theorem on_dragHeading (place : s.locate index = .ok i) (here : s.waypoints[i]? = some w) (h : ν) :
    (dragHeading (.ok index) (.number h)).on s = (.ok (), s.setWaypoint i (w.turn h)) := by
  have found : (located (.ok index) : Edit ν Nat).on s = (.ok i, s) := on_located place
  rw [dragHeading]
  refine (on_bind_ok (a := h) rfl).trans ?_
  rw [on_bind_ok found, on_bind_ok (on_waypoint here)]
  rfl

variable [Add ν] [Sub ν] [Mul ν] [Div ν] [Neg ν] [Scalar ν]

theorem on_dragArcControl {m : Move ν} (c : Point ν)
    (place : s.locate index = .ok i) (here : s.waypoints[i]? = some (.move m))
    (bends : m.kind = .arc) :
    Change.on (dragArcControl (.ok index) (.ofPoint c)) s =
      (.ok (), s.setWaypoint i (.move (m.pulled c))) := by
  refine (on_bind_ok (on_located place)).trans ((on_bind_ok (on_waypoint here)).trans ?_)
  obtain ⟨motion, pose, speed⟩ := m
  cases motion with
  | drive => cases bends
  | strafe => cases bends
  | arc own => rfl

end Edit

end PathStudio
