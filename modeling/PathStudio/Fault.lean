/-!
# Faults

Every operation that can be refused answers with an `Outcome`: a value or the
cause of the refusal. A cause is a constructor of `Fault`; its wording lives in
`Fault.message` alone, and `Fault.family` says which family of causes it belongs
to. A few causes carry no wording.

Some faults name one of the two dialects in which a path is written as a program.
The field dialect lists absolute poses and hangs actions on percentages of the
path; the robot dialect is a list of relative turn, drive, strafe and arc
commands.
-/

namespace PathStudio

/-! ## Dialects -/

/-- The two ways to write a path as a program. -/
inductive Dialect where
  | field
  | robot
  deriving DecidableEq, Repr

/-- The word for a dialect in messages, settings and stored routines. -/
def Dialect.name : Dialect → String
  | .field => "field"
  | .robot => "robot"

/-- The dialect that a word names. -/
def Dialect.ofName? (s : String) : Option Dialect :=
  if s = "robot" then some .robot else if s = "field" then some .field else none

@[simp] theorem Dialect.ofName?_name (d : Dialect) : Dialect.ofName? d.name = some d := by
  cases d <;> decide

/-! ## Causes -/

/-- Why a setting was turned down. -/
inductive Rejection where
  | notInteger (shown : String)
  | belowTwo (value : Int)
  | notNumber (shown : String)
  | notPositive (shown : String)
  | aboveOne (shown : String)
  | notMode (shown : String)
  | unknownOption (group key : String)
  deriving DecidableEq, Repr

def Rejection.message : Rejection → String
  | .notInteger shown => s!"expected an integer, got {shown}"
  | .belowTwo value => s!"must be at least 2, got {value}"
  | .notNumber shown => s!"expected a number, got {shown}"
  | .notPositive shown => s!"must be a positive number, got {shown}"
  | .aboveOne shown => s!"must be within (0, 1], got {shown}"
  | .notMode shown => s!"mode must be 'robot' or 'field', got {shown}"
  | .unknownOption group key => s!"unknown option {group}.{key}"

/-- What a folder answers when a path cannot be used. -/
inductive PathProblem where
  | missing
  | exists
  | notFolder
  | isFolder
  | nameTooLong
  deriving DecidableEq, Repr

/-- The number and the phrase of a path problem. -/
def PathProblem.phrase : PathProblem → String
  | .missing => "[Errno 2] No such file or directory"
  | .exists => "[Errno 17] File exists"
  | .notFolder => "[Errno 20] Not a directory"
  | .isFolder => "[Errno 21] Is a directory"
  | .nameTooLong => "[Errno 36] File name too long"

/-- The two kinds of JSON value that hold others. -/
inductive Container where
  | array
  | object
  deriving DecidableEq, Repr

/-- The word for a container. -/
def Container.name : Container → String
  | .array => "array"
  | .object => "object"

/-- The families of faults. -/
inductive Fault.Family where
  | type
  | member
  | key
  | value
  | index
  | overflow
  | division
  | precision
  | unrecognized
  | undecodable
  | noWaypoints
  | configuration
  | path (problem : PathProblem)
  | json
  | encoding
  | unencodable
  | nesting
  deriving DecidableEq, Repr

/-- The word by which reports name a family. -/
def Fault.Family.name : Fault.Family → String
  | .type => "TypeError"
  | .member => "AttributeError"
  | .key => "KeyError"
  | .value => "ValueError"
  | .index => "IndexError"
  | .overflow => "OverflowError"
  | .division => "ZeroDivisionError"
  | .precision => "InvalidOperation"
  | .unrecognized => "UnrecognizedFormat"
  | .undecodable => "DecodeError"
  | .noWaypoints => "NoWaypointsDecoded"
  | .configuration => "InvalidConfiguration"
  | .path .missing => "FileNotFoundError"
  | .path .exists => "FileExistsError"
  | .path .notFolder => "NotADirectoryError"
  | .path .isFolder => "IsADirectoryError"
  | .path .nameTooLong => "OSError"
  | .json => "JSONDecodeError"
  | .encoding => "UnicodeDecodeError"
  | .unencodable => "UnicodeEncodeError"
  | .nesting => "RecursionError"

/-- The causes for which an operation is refused. -/
inductive Fault where
  /-- A value of the wrong shape where a number, a list or a name is needed. -/
  | wrongType
  /-- A value that is not an object where an object is needed. -/
  | noMember
  | missingKey (key : String)
  | unreadableReal (shown : String)
  | unreadableInteger (shown : String)
  /-- An integer written with more digits than are read or printed. -/
  | integerTextTooLong (digits : Option Nat)
  | divisionByZero
  /-- A trigonometric function or a remainder of an infinity. -/
  | outsideDomain
  | squareOverflow
  /-- An integer beyond the range of the reals in use. -/
  | integerTooLarge
  | infiniteInteger
  | undefinedInteger
  | zeroStride
  /-- A number with too many digits for fixed-point printing. -/
  | unprintable
  | listIndex
  | textIndex
  | pointIndex
  | indexTooWide
  | waypointIndex (shown : String)
  /-- A list with fewer than the two entries that a place has. -/
  | pairTooShort (count : Nat)
  | pairTooLong
  | unknownKind (shown : String)
  | unknownMode (shown : String)
  | unknownMarker (shown : String)
  | actionNeedsMarker
  | actionKeepsKind
  | actionHasNoSpeed
  | blankMarkerName
  | noControlPoint
  | noProgramText
  | unknownDialect
  | undecodable (dialect : Dialect) (cause : Fault)
  | noWaypoints (dialect : Dialect)
  | rejected (cause : Rejection)
  | path (problem : PathProblem) (shown : String)
  | malformedPath
  | malformedJson (text : String)
  | malformedText (text : String)
  /-- A text that no file can hold. -/
  | unencodable (text : String)
  /-- A JSON text with values nested too deeply. -/
  | tooNested (container : Container)
  /-- A self check that gives up with a text of its own. -/
  | reported (text : String)
  deriving DecidableEq, Repr

/-- The result of an operation that can be refused. -/
abbrev Outcome (α : Type) := Except Fault α

namespace Fault

/-- The family of a fault. -/
def family : Fault → Fault.Family
  | .wrongType => .type
  | .noMember => .member
  | .missingKey _ | .unknownMarker _ => .key
  | .unreadableReal _ | .unreadableInteger _ | .integerTextTooLong _ | .outsideDomain
  | .undefinedInteger | .zeroStride | .unknownKind _ | .unknownMode _ | .actionNeedsMarker
  | .actionKeepsKind | .actionHasNoSpeed | .blankMarkerName | .noControlPoint
  | .pairTooShort _ | .pairTooLong | .malformedPath | .reported _ => .value
  | .listIndex | .textIndex | .pointIndex | .indexTooWide | .waypointIndex _ => .index
  | .squareOverflow | .integerTooLarge | .infiniteInteger => .overflow
  | .divisionByZero => .division
  | .unprintable => .precision
  | .noProgramText | .unknownDialect => .unrecognized
  | .undecodable _ _ => .undecodable
  | .noWaypoints _ => .noWaypoints
  | .rejected _ => .configuration
  | .path problem _ => .path problem
  | .malformedJson _ => .json
  | .malformedText _ => .encoding
  | .unencodable _ => .unencodable
  | .tooNested _ => .nesting

/-- Whether a fault says that a value, rather than its type or range, is wrong. -/
def isValueFault (f : Fault) : Bool :=
  match f.family with
  | .value | .configuration | .json | .encoding | .unencodable => true
  | _ => false

/-- Whether a fault comes from the folder that holds the files. -/
def isPathFault (f : Fault) : Bool :=
  match f.family with
  | .path _ => true
  | _ => false

/-- The wording of a fault; empty for the causes that carry none. -/
def message : Fault → String
  | .wrongType | .noMember | .unprintable => ""
  | .missingKey key => key
  | .unreadableReal shown => s!"could not convert string to float: {shown}"
  | .unreadableInteger shown => s!"invalid literal for int() with base 10: {shown}"
  | .integerTextTooLong (some digits) =>
      s!"Exceeds the limit (4300 digits) for integer string conversion: value has {digits} digits; "
        ++ "use sys.set_int_max_str_digits() to increase the limit"
  | .integerTextTooLong none =>
      "Exceeds the limit (4300 digits) for integer string conversion; "
        ++ "use sys.set_int_max_str_digits() to increase the limit"
  | .divisionByZero => "float division by zero"
  | .outsideDomain => "math domain error"
  | .squareOverflow => "(34, 'Numerical result out of range')"
  | .integerTooLarge => "int too large to convert to float"
  | .infiniteInteger => "cannot convert float infinity to integer"
  | .undefinedInteger => "cannot convert float NaN to integer"
  | .zeroStride => "range() arg 3 must not be zero"
  | .listIndex => "list index out of range"
  | .textIndex => "string index out of range"
  | .pointIndex => "tuple index out of range"
  | .indexTooWide => "cannot fit 'int' into an index-sized integer"
  | .waypointIndex shown => s!"waypoint index {shown} out of range"
  | .pairTooShort count => s!"not enough values to unpack (expected 2, got {count})"
  | .pairTooLong => "too many values to unpack (expected 2)"
  | .unknownKind shown => s!"unknown waypoint kind {shown}"
  | .unknownMode shown => s!"unknown mode {shown}"
  | .unknownMarker shown => s!"no marker with id {shown}"
  | .actionNeedsMarker => "action waypoints are added through markers"
  | .actionKeepsKind => "action waypoints cannot be retyped"
  | .actionHasNoSpeed => "action waypoints have no speed"
  | .blankMarkerName => "marker name must not be empty"
  | .noControlPoint => "only arc waypoints have a control point"
  | .noProgramText => "no program text to decode"
  | .unknownDialect =>
      "unable to detect code format; expected field-oriented (Pose2d list) "
        ++ "or robot-oriented (turnPID/drivePID/strafePID/arc) code"
  | .undecodable dialect cause =>
      s!"failed to decode {dialect.name}-oriented code: {cause.message}"
  | .noWaypoints dialect => s!"no waypoints found in the {dialect.name}-oriented code"
  | .rejected cause => cause.message
  | .path problem shown => s!"{problem.phrase}: {shown}"
  | .malformedPath => "embedded null byte"
  | .malformedJson text => text
  | .malformedText text => text
  | .unencodable text => text
  | .tooNested container =>
      s!"maximum recursion depth exceeded while decoding a JSON {container.name} "
        ++ "from a unicode string"
  | .reported text => text

end Fault

end PathStudio
