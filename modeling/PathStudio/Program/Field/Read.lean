import PathStudio.Program.Lexeme
import PathStudio.Program.Draft
import PathStudio.Geometry.Point
import PathStudio.Text.Line

/-!
# Reading field-oriented programs

The poses and the markers are looked for anywhere in the text; what stands
between them does not matter. The first pose is the start, the others are
drives. A marker's action goes behind the move that its percentage points at.
-/

namespace PathStudio.Program.Field

open Scalar Text

/-- A pose as it is written. -/
structure WrittenPose where
  x : WrittenNumber
  y : WrittenNumber
  degrees : WrittenNumber
  deriving DecidableEq, Repr

/-- Reads a number that two closing parentheses follow. -/
def readClosed : Reader WrittenNumber := fun s => do
  let (n, s) ← readNumber s
  let s ← after? "))".toList s
  some (n, s)

/-- Reads the heading that ends a pose, in either of its two spellings. -/
def readHeading : Reader WrittenNumber := fun s =>
  match after? "Rotation2d.fromDegrees(".toList s with
  | some s => readClosed s
  | none => do
    let s ← afterBlanks? (← after? "new".toList s)
    readClosed (← after? "Rotation2d(".toList s)

/-- Reads the first heading that begins on this line. -/
def findHeading : Reader WrittenNumber
  | [] => none
  | c :: rest =>
    match readHeading (c :: rest) with
    | some found => some found
    | none => if c = '\n' then none else findHeading rest

/-- Reads a pose. -/
def readPose : Reader WrittenPose := fun s => do
  let s ← afterBlanks? (← after? "new".toList s)
  let (x, s) ← readNumber (← after? "Pose2d(".toList s)
  let s ← after? [','] s
  let (y, s) ← readNumber (skipBlanks s)
  let s ← after? [','] s
  let (degrees, s) ← findHeading s
  some (⟨x, y, degrees⟩, s)

/-- The text after what closes a marker behind its brace. -/
def afterMarker? (s : List Char) : Option (List Char) := do
  let s ← after? [')'] (skipBlanks s)
  let s ← after? [')'] (skipBlanks s)
  after? [';'] (skipBlanks s)

/-- Reads the body of a marker up to the first brace that closes it. -/
def readBody : Reader (List Char)
  | [] => none
  | c :: rest =>
    match (if c = '\x7d' then afterMarker? rest else none) with
    | some more => some ([], more)
    | none => (readBody rest).map fun (body, more) => (c :: body, more)

/-- Reads a marker as its percentage and its body. -/
def readMarker : Reader (WrittenNumber × List Char) := fun s => do
  let s ← afterBlanks? (← after? "new".toList s)
  let s ← after? "PathMarker(".toList s
  let (percent, s) ← readNumberThen ',' (skipBlanks s)
  let s ← after? "()".toList (skipBlanks s)
  let s ← after? "->".toList (skipBlanks s)
  let s ← after? ['\x7b'] (skipBlanks s)
  let (body, s) ← readBody s
  some ((percent, body), s)

/-- The first call among the lines of a marker's body that is not telemetry. -/
def bodyCall? (body : List Char) : Option (List Char × List Char) :=
  (lines body).findSome? fun line =>
    let line := trim line
    if startsWith "telemetry".toList line then none
    else (readCall? line).map fun (name, args) => (name, trim args)

/-- The text after the last percent sign that a dash and something else follow. -/
def afterPercent? : List Char → Option (List Char)
  | [] => none
  | c :: rest =>
    match afterPercent? rest with
    | some name => some name
    | none =>
      if c = '%' then
        match skipBlanks rest with
        | '-' :: d :: name => some (d :: name)
        | _ => none
      else none

/-- Reads the name that a marker announces. -/
def readAnnounced : Reader (List Char) := fun s => do
  let s ← after? "\"Marker\"".toList s
  let s ← after? [','] (skipBlanks s)
  let s ← after? ['"'] (skipBlanks s)
  let (announced, rest) := s.span (· ≠ '"')
  let rest ← after? ['"'] rest
  let name ← afterPercent? announced
  some (trim name, rest)

/-- The call that a marker's body runs: a call of its own, or else the announced name. -/
def bodyAction? (body : List Char) : Option (List Char × List Char) :=
  match bodyCall? body with
  | some call => some call
  | none => (search (fun _ => readAnnounced) none body).map fun name => (name, [])

variable {ν : Type} [Add ν] [Sub ν] [Mul ν] [Div ν] [Neg ν] [Scalar ν]

/-- The pose that a written one stands for, in metres and radians. -/
def WrittenPose.pose (p : WrittenPose) : Pose ν :=
  ⟨p.x.value / 100, p.y.value / 100, toRadians (-p.degrees.value)⟩

/-- Whether a pose is the origin. -/
def isOrigin (p : Pose ν) : Bool := eq p.x 0 && eq p.y 0 && eq p.h 0

/-- The start of a program: its first pose, unless that is the only one or the origin. -/
def readStart (prior : Pose ν) : List (Pose ν) → Pose ν
  | first :: _ :: _ => if isOrigin first then prior else first
  | _ => prior

/-- How many of the moves are done at a percentage. -/
def slot (percent : WrittenNumber) (moves : Nat) : Outcome Nat := do
  let k ← floor ((percent.value / 100 * ofInt moves + 0.5 : ν))
  return (min k moves).toNat

/-- The point after so many moves. -/
def pointAfter (start : Pose ν) (moves : List (Pose ν)) : Nat → Point ν
  | 0 => start.point
  | k + 1 => ((moves[k]?).getD start).point

/-- The markers read so far, and the actions with the number of moves done before each. -/
structure Slots (ν : Type) where
  draft : Draft ν
  actions : List (Nat × Waypoint ν)

/-- Reads one more marker. -/
def addMarker (start : Pose ν) (moves : List (Pose ν)) (slots : Slots ν)
    (written : WrittenNumber × List Char) : Outcome (Slots ν) :=
  match bodyAction? written.2 with
  | none => .ok slots
  | some (name, args) => do
    let k ← slot (ν := ν) written.1 moves.length
    let (m, draft) := slots.draft.markerFor name args (pointAfter start moves k)
    return ⟨draft, slots.actions ++ [(k, markerAction m)]⟩

/-- The actions after so many moves. -/
def actionsAt (actions : List (Nat × Waypoint ν)) (k : Nat) : List (Waypoint ν) :=
  (actions.filter fun a => a.1 = k).map (·.2)

/-- Moves with their actions behind them, from the one after `k` others on. -/
def interleave (actions : List (Nat × Waypoint ν)) (k : Nat) : List (Pose ν) → List (Waypoint ν)
  | [] => []
  | p :: rest =>
    .move ⟨.drive, p, defaultSpeed⟩ :: (actionsAt actions (k + 1) ++ interleave actions (k + 1) rest)

/-- Reads a field-oriented program into a session that goes on from an earlier one. -/
def read (text : List Char) (prior : Session ν) : Outcome (Session ν) := do
  let poses : List (Pose ν) := (searchAll readPose text).map WrittenPose.pose
  let start := readStart prior.start poses
  let moves := poses.tail
  let slots ← (searchAll readMarker text).foldlM (addMarker start moves) ⟨.after prior, []⟩
  let draft := { slots.draft with
    waypoints := actionsAt slots.actions 0 ++ interleave slots.actions 0 moves }
  return draft.toSession start prior

end PathStudio.Program.Field
