import PathStudio.Program.Lexeme
import PathStudio.Program.Draft
import PathStudio.Geometry.Point
import PathStudio.Text.Line

/-!
# Reading robot-oriented programs

A program is read line by line with a cursor that every drive, strafe and arc
moves. An arc goes on over the following lines until one closes it. A line that
is no command but a call becomes an action at the cursor.
-/

namespace PathStudio.Program.Robot

open Scalar Text

/-- An arc that is not closed yet, with the lines that belong to it. -/
structure OpenArc where
  length : WrittenNumber
  speed : WrittenNumber
  body : List (List Char)

/-- The draft of a program, the cursor, and the arc that is still open. -/
structure Trail (ν : Type) where
  draft : Draft ν
  cursor : Point ν
  pending : Option OpenArc

/-- The command words, which are never actions. -/
def keywords : List (List Char) :=
  ["turnPID".toList, "drivePID".toList, "strafePID".toList, "arc".toList]

/-- Looks for a reader's first match anywhere in a line. -/
def find? {α : Type} (read : Reader α) (line : List Char) : Option α :=
  search (fun _ => read) none line

/-- Reads the head of an arc. Its word may not continue a name or follow a point. -/
def readArc (before : Option Char) : Reader (WrittenNumber × WrittenNumber) := fun s =>
  if before.any fun c => isWord c || c = '.' then none else readPairThen "arc".toList ',' s

/-- The ways in which a line of a program is understood. -/
inductive Command where
  | turn
  | travel (kind : MoveKind) (length degrees : WrittenNumber)
  | arc (length speed : WrittenNumber)
  | call (name args : List Char)
  | nothing

/-- Understands a line: the first command word that it has wins, then a call. -/
def Command.ofLine (line : List Char) : Command :=
  if startsWith "//".toList line then .nothing
  else if (find? (readCommand "turnPID".toList) line).isSome then .turn
  else
    match find? (readPairThen "drivePID".toList ')') line with
    | some (length, degrees) => .travel .drive length degrees
    | none =>
      match find? (readPairThen "strafePID".toList ')') line with
      | some (length, degrees) => .travel .strafe length degrees
      | none =>
        match search readArc none line with
        | some (length, speed) => .arc length speed
        | none =>
          match readCall? line with
          | some (name, args) => if keywords.contains name then .nothing else .call name (trim args)
          | none => .nothing

/-- Whether a line closes an arc. -/
def closesArc (line : List Char) : Bool := contains ");".toList line

/-- The heading samples of an arc, in degrees. -/
def arcSamples (body : List (List Char)) : List WrittenNumber :=
  (searchAll (readPairThen ".at".toList ')') (joinLines body)).map (·.2)

variable {ν : Type} [Add ν] [Sub ν] [Mul ν] [Div ν] [Neg ν] [Scalar ν]

/-- The first and the last heading of an arc; zero with fewer than two samples. -/
def arcHeadings (samples : List WrittenNumber) : ν × ν :=
  match samples with
  | first :: second :: rest => (first.value, (rest.getLastD second).value)
  | _ => (0, 0)

namespace Trail

/-- The point that a length in a direction leads to. -/
def ahead (t : Trail ν) (length degrees : ν) : Outcome (Point ν) := do
  let c ← cos (toRadians degrees)
  let s ← sin (toRadians degrees)
  return ⟨t.cursor.x + length * c, t.cursor.y + length * s⟩

/-- Adds a move to the given point. -/
def move (t : Trail ν) (motion : Motion ν) (p : Point ν) (degrees speed : ν) : Trail ν :=
  { t with
    draft := t.draft.add (.move ⟨motion, ⟨p.x, p.y, toRadians (-degrees)⟩, speed⟩)
    cursor := p }

/-- Adds an arc with all its lines. -/
def addArc (t : Trail ν) (a : OpenArc) : Outcome (Trail ν) := do
  let (first, last) : ν × ν := arcHeadings (arcSamples a.body)
  let p ← t.ahead a.length.value first
  return { t with pending := none }.move (.arc none) p last a.speed.value

/-- Adds an action for a call. -/
def addCall (t : Trail ν) (name args : List Char) : Trail ν :=
  let (m, draft) := t.draft.markerFor name args t.cursor
  { t with draft := draft.add (markerAction m) }

/-- Adds a line to an open arc, which may close it. -/
def extendArc (t : Trail ν) (a : OpenArc) (line : List Char) : Outcome (Trail ν) :=
  let a := { a with body := a.body ++ [line] }
  if closesArc line then t.addArc a else .ok { t with pending := some a }

/-- Runs a command of a line outside an arc. -/
def run (t : Trail ν) (line : List Char) : Command → Outcome (Trail ν)
  | .turn | .nothing => .ok t
  | .travel kind length degrees => do
    let p ← t.ahead length.value degrees.value
    return t.move (.ofKind kind) p degrees.value defaultSpeed
  | .arc length speed => t.extendArc ⟨length, speed, []⟩ line
  | .call name args => .ok (t.addCall name args)

/-- Reads one more line. -/
def readLine (t : Trail ν) (line : List Char) : Outcome (Trail ν) :=
  match t.pending with
  | some a => t.extendArc a line
  | none => t.run line (.ofLine line)

/-- Ends the program; an arc that is still open ends with it. -/
def finish (t : Trail ν) : Outcome (Trail ν) :=
  match t.pending with
  | some a => t.addArc a
  | none => .ok t

end Trail

/-- The lines of a program that are not blank, without the blanks at their ends. -/
def programLines (text : List Char) : List (List Char) :=
  ((splitLines text).map trim).filter (!·.isEmpty)

/-- Reads a robot-oriented program into a session that goes on from an earlier one. -/
def read (text : List Char) (prior : Session ν) : Outcome (Session ν) := do
  let trail : Trail ν := ⟨.after prior, prior.start.point, none⟩
  let trail ← (programLines text).foldlM Trail.readLine trail
  let trail ← trail.finish
  return trail.draft.toSession prior.start prior

end PathStudio.Program.Robot
