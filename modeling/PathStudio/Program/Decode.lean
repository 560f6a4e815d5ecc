import PathStudio.Program.Field.Read
import PathStudio.Program.Robot.Read
import PathStudio.Session.Edit

/-!
# Decoding programs

Which dialect a text is written in, and the session that it stands for. Decoding
into a session either leaves it alone or replaces its path as a whole, after
saving the earlier one.
-/

namespace PathStudio.Program

open Text

/-- The words that only field-oriented programs have. -/
def fieldTokens : List (List Char) := ["Pose2d".toList, "ArrayList".toList]

/-- The words that robot-oriented programs have. -/
def robotTokens : List (List Char) :=
  ["drivePID".toList, "strafePID".toList, "turnPID".toList, "arc(".toList]

/-- The dialect of a text. -/
def sniff (text : List Char) : Outcome Dialect :=
  if (trim text).isEmpty then .error .noProgramText
  else if fieldTokens.any (contains · text) then .ok .field
  else if robotTokens.any (contains · text) then .ok .robot
  else .error .unknownDialect

variable {ν : Type} [Add ν] [Sub ν] [Mul ν] [Div ν] [Neg ν] [Scalar ν]

/-- Reads a program of a dialect. -/
def read (d : Dialect) (text : List Char) (prior : Session ν) : Outcome (Session ν) :=
  match d with
  | .field => Field.read text prior
  | .robot => Robot.read text prior

/-- Whether a fault of a reader counts as a fault of the program text. -/
def blamesText (f : Fault) : Bool := f.isValueFault || f.family == .index

/-- The dialect of a text and the session that it stands for. -/
def decode (text : List Char) (prior : Session ν) : Outcome (Dialect × Session ν) := do
  let d ← sniff text
  match read d text prior with
  | .ok s => return (d, s)
  | .error f => if blamesText f then throw (.undecodable d f) else throw f

/-- The session with its path replaced by a decoded one; the earlier path is saved. -/
def adopt (s : Session ν) (d : Dialect) (decoded : Session ν) : Session ν :=
  { s.saved with
    start := decoded.start
    waypoints := decoded.waypoints
    markers := decoded.markers
    nextMarkerId := decoded.nextMarkerId
    selection := if decoded.waypoints.isEmpty then none else some (.place 0)
    mode := .dialect d }

/-- Decodes a text into the session. A text without moves is refused only after it has been
adopted. -/
def decodeInto (text : List Char) : Edit ν Dialect := do
  let (d, decoded) ← decode text (← get)
  modify (adopt · d decoded)
  if (← get).moves.isEmpty then throw (.noWaypoints d)
  return d

end PathStudio.Program
