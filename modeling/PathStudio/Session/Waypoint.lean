import PathStudio.Geometry.Point

/-!
# Waypoints and markers

A path is a list of waypoints. A move brings the robot to a pose; an action
runs the call of a marker and moves nothing. Several actions may share one
marker.
-/

namespace PathStudio

/-- The three ways to move. -/
inductive MoveKind where
  | drive
  | strafe
  | arc
  deriving DecidableEq, Repr

def MoveKind.name : MoveKind → String
  | .drive => "drive"
  | .strafe => "strafe"
  | .arc => "arc"

/-- The way to move that a word names. -/
def MoveKind.ofName? (s : String) : Option MoveKind :=
  if s = "drive" then some .drive
  else if s = "strafe" then some .strafe
  else if s = "arc" then some .arc
  else none

/-- How a move travels; an arc may carry a control point of its own. -/
inductive Motion (ν : Type) where
  | drive
  | strafe
  | arc (control : Option (Point ν))
  deriving DecidableEq, Repr

namespace Motion

variable {ν : Type}

def kind : Motion ν → MoveKind
  | .drive => .drive
  | .strafe => .strafe
  | .arc _ => .arc

/-- A motion of a kind, without a control point. -/
def ofKind : MoveKind → Motion ν
  | .drive => .drive
  | .strafe => .strafe
  | .arc => .arc none

/-- The same motion without its control point. -/
def plain (m : Motion ν) : Motion ν := ofKind m.kind

@[simp] theorem kind_ofKind (k : MoveKind) : (ofKind k : Motion ν).kind = k := by cases k <;> rfl

@[simp] theorem kind_plain (m : Motion ν) : m.plain.kind = m.kind := by simp [plain]

end Motion

/-- A move: how to travel, the pose to reach and the speed. -/
structure Move (ν : Type) where
  motion : Motion ν
  pose : Pose ν
  speed : ν
  deriving DecidableEq, Repr

/-- An action: the marker whose call it runs, and where it is shown. -/
structure Action (ν : Type) where
  pose : Pose ν
  markerId : Int
  deriving DecidableEq, Repr

/-- One entry of a path. -/
inductive Waypoint (ν : Type) where
  | move (m : Move ν)
  | action (a : Action ν)
  deriving DecidableEq, Repr

/-- A named call at a place on the field. -/
structure Marker (ν : Type) where
  id : Int
  x : ν
  y : ν
  name : String
  args : String
  deriving DecidableEq, Repr

namespace Move

variable {ν : Type}

/-- The kind of a move's motion. -/
def kind (m : Move ν) : MoveKind := m.motion.kind

/-- The point that a move reaches. -/
def point (m : Move ν) : Point ν := m.pose.point

/-- A move to another point with the same heading. -/
def relocate (m : Move ν) (x y : ν) : Move ν := { m with pose := ⟨x, y, m.pose.h⟩ }

/-- A move that arrives with another heading. -/
def turn (m : Move ν) (h : ν) : Move ν := { m with pose := ⟨m.pose.x, m.pose.y, h⟩ }

/-- A move whose arc has no control point of its own. -/
def plain (m : Move ν) : Move ν := { m with motion := m.motion.plain }

end Move

namespace Waypoint

variable {ν : Type}

/-- The move of a waypoint that moves. -/
def move? : Waypoint ν → Option (Move ν)
  | .move m => some m
  | .action _ => none

/-- The action of a waypoint that acts. -/
def action? : Waypoint ν → Option (Action ν)
  | .move _ => none
  | .action a => some a

def isMove (w : Waypoint ν) : Bool := w.move?.isSome

/-- The pose of a waypoint. -/
def pose : Waypoint ν → Pose ν
  | .move m => m.pose
  | .action a => a.pose

/-- The word for what a waypoint does. -/
def kindName : Waypoint ν → String
  | .move m => m.kind.name
  | .action _ => "action"

/-- A waypoint at another point with the same heading. -/
def relocate (w : Waypoint ν) (x y : ν) : Waypoint ν :=
  match w with
  | .move m => .move (m.relocate x y)
  | .action a => .action { a with pose := ⟨x, y, a.pose.h⟩ }

/-- A waypoint with another heading. -/
def turn (w : Waypoint ν) (h : ν) : Waypoint ν :=
  match w with
  | .move m => .move (m.turn h)
  | .action a => .action { a with pose := ⟨a.pose.x, a.pose.y, h⟩ }

/-- A waypoint whose arc has no control point of its own. -/
def plain : Waypoint ν → Waypoint ν
  | .move m => .move m.plain
  | .action a => .action a

end Waypoint

end PathStudio
