import PathStudio.Session.Index
import PathStudio.Session.Waypoint
import PathStudio.Geometry.Bezier
import PathStudio.Json

/-!
# Sessions

A session is a path under edit: the layout, which undoing restores, the mode,
the next free marker number and the earlier layouts. The queries walk the path
with the pose that the robot has before each move.
-/

namespace PathStudio

/-- What a path is written and simulated as. Stored routines may carry a mode that is neither
dialect; it is kept as it was read. -/
inductive Mode where
  | dialect (d : Dialect)
  | other (raw : Json)

/-- The mode that a stored value stands for. -/
def Mode.ofJson : Json → Mode
  | .str s =>
    match Dialect.ofName? s with
    | some d => .dialect d
    | none => .other (.str s)
  | raw => .other raw

/-- The stored form of a mode. -/
def Mode.toJson : Mode → Json
  | .dialect d => .str d.name
  | .other raw => raw

def Mode.isField : Mode → Bool
  | .dialect .field => true
  | _ => false

def Mode.isRobot : Mode → Bool
  | .dialect .robot => true
  | _ => false

/-- The part of a session that undoing restores. -/
structure Layout (ν : Type) where
  start : Pose ν
  waypoints : List (Waypoint ν)
  markers : List (Marker ν)
  selection : Option (Selection ν)

/-- How many earlier layouts are kept. -/
def historyLimit : Nat := 20

/-- The earlier layouts of a path, the latest first. -/
structure History (ν : Type) where
  layouts : List (Layout ν)
  length_le : layouts.length ≤ historyLimit

namespace History

variable {ν : Type}

/-- No earlier layouts. -/
def empty : History ν := ⟨[], Nat.zero_le _⟩

/-- One more layout in front. Where as many as possible are kept, the oldest one makes room. -/
def push (l : Layout ν) (h : History ν) : History ν :=
  ⟨(l :: h.layouts).take historyLimit, List.length_take_le ..⟩

/-- All layouts but the latest one. -/
def tail (h : History ν) : History ν :=
  ⟨h.layouts.tail, Nat.le_trans (List.tail_sublist _).length_le h.length_le⟩

end History

/-- A path under edit, with its earlier layouts. -/
structure Session (ν : Type) extends Layout ν where
  mode : Mode
  nextMarkerId : Int
  past : History ν

/-- The earlier layouts of a path under edit, the latest first. -/
abbrev Session.history {ν : Type} (s : Session ν) : List (Layout ν) := s.past.layouts

namespace Layout

variable {ν : Type}

/-- The moves of a path, in order. -/
def moves (l : Layout ν) : List (Move ν) := l.waypoints.filterMap Waypoint.move?

/-- The first marker with the given number. -/
def marker? (l : Layout ν) (id : Int) : Option (Marker ν) := l.markers.find? fun m => m.id = id

/-- A move with the pose before it and its place in the path. -/
structure Leg (ν : Type) where
  before : Pose ν
  move : Move ν
  index : Nat

/-- The legs of the waypoints from the given place on, entered with the given pose. -/
def legsFrom (before : Pose ν) (index : Nat) : List (Waypoint ν) → List (Leg ν)
  | [] => []
  | .move m :: rest => ⟨before, m, index⟩ :: legsFrom m.pose (index + 1) rest
  | .action _ :: rest => legsFrom before (index + 1) rest

/-- Every move with the pose before it and its place in the path. -/
def legs (l : Layout ν) : List (Leg ν) := legsFrom l.start 0 l.waypoints

/-- The pose that a walk back through waypoints comes to first, which gets them from the last one on;
the start if none of them moves. -/
def walkBack (start : Pose ν) : List (Waypoint ν) → Pose ν
  | [] => start
  | .move m :: _ => m.pose
  | .action _ :: rest => walkBack start rest

/-- Whether an index is too wide for any list. -/
def isTooWide (index : Int) : Bool :=
  decide (index < -9223372036854775808) || decide (9223372036854775808 ≤ index)

/-- The fault of an index that leads outside a list. -/
def indexFault (index : Int) : Fault := if isTooWide index then .indexTooWide else .listIndex

/-- The pose before a place of the path, found by walking back from it; a place before the first has
the start. -/
def poseBefore (l : Layout ν) (index : Int) : Outcome (Pose ν) :=
  if index ≤ 0 then .ok l.start
  else if index ≤ l.waypoints.length then
    .ok (walkBack l.start (l.waypoints.take index.toNat).reverse)
  else .error (indexFault (index - 1))

/-- The place that an index names; negative ones count from the end. -/
def locate (l : Layout ν) (index : Int) : Outcome Nat :=
  match Json.position? l.waypoints.length index with
  | some i => .ok i
  | none => .error (indexFault index)

/-- The waypoint that an index names; negative ones count from the end. -/
def waypointAt (l : Layout ν) (index : Int) : Outcome (Waypoint ν) := do
  let i ← l.locate index
  match l.waypoints[i]? with
  | some w => .ok w
  | none => .error .listIndex

/-- Where an action is put: after the last move. -/
def actionPlace : List (Waypoint ν) → Nat
  | [] => 0
  | w :: rest =>
    match actionPlace rest with
    | 0 => if w.isMove then 1 else 0
    | n + 1 => n + 2

variable [Add ν] [Sub ν] [Mul ν] [Div ν] [Neg ν] [Scalar ν]

/-- Refuses an index that is not that of a waypoint, counted from the front only. -/
def checkIndex (l : Layout ν) (index : IndexOperand ν) : Outcome Unit := do
  if !(← index.isAmong l.waypoints.length) then throw (.waypointIndex index.shown)

/-- The control point of a motion between two points: none but for an arc, and for an arc its own
one or the default. -/
def controlOf (motion : Motion ν) (start finish : Point ν) : Outcome (Option (Point ν)) :=
  match motion with
  | .arc (some c) => .ok (some c)
  | .arc none => (defaultControl start finish).map some
  | _ => .ok none

/-- The control point of the arc at an index, its own one or the default; none for other
waypoints. -/
def arcControl (l : Layout ν) (index : Int) : Outcome (Option (Point ν)) := do
  match ← l.waypointAt index with
  | .move ⟨.arc (some c), _, _⟩ => return some c
  | .move ⟨.arc none, pose, _⟩ =>
    let before ← l.poseBefore index
    return some (← defaultControl before.point pose.point)
  | _ => return none

end Layout

namespace Session

variable {ν : Type} [Add ν] [Sub ν] [Mul ν] [Div ν] [Neg ν] [Scalar ν]

/-- A session without waypoints that starts at the origin. -/
def empty : Session ν :=
  { start := Pose.origin
    waypoints := []
    markers := []
    selection := none
    mode := .dialect .robot
    nextMarkerId := 1
    past := .empty }

end Session

/-- The speed of a move that is given none. -/
def defaultSpeed {ν : Type} [Add ν] [Sub ν] [Mul ν] [Div ν] [Neg ν] [Scalar ν] : ν :=
  Scalar.ofDecimal false 8 (-1)

end PathStudio
