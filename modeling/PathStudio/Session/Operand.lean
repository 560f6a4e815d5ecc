import PathStudio.Session.Waypoint

/-!
# Operands

Arguments of edits as they arrive. An argument can be missing, can be a number,
can be a text that may or may not read as one, or can be of no use; an edit is
refused at the moment it needs a value that it cannot get. `Operand.read`
converts, `Operand.strict` wants a number.
-/

namespace PathStudio

/-- A numeric argument as it arrives. -/
inductive Operand (ν : Type) where
  | missing (fault : Fault)
  | number (value : ν)
  | worded (reading : Outcome ν)
  | unusable (fault : Fault)

namespace Operand

variable {ν : Type}

/-- Refuses an argument that is missing. -/
def present : Operand ν → Outcome Unit
  | .missing fault => .error fault
  | _ => .ok ()

/-- The value of an argument, a text being read as a numeral. -/
def read : Operand ν → Outcome ν
  | .missing fault | .unusable fault => .error fault
  | .number value => .ok value
  | .worded reading => reading

/-- The value of an argument that has to be a number. -/
def strict : Operand ν → Outcome ν
  | .missing fault | .unusable fault => .error fault
  | .number value => .ok value
  | .worded _ => .error .wrongType

end Operand

/-- A point argument. -/
structure PointOperand (ν : Type) where
  x : Operand ν
  y : Operand ν

/-- The heading of a pose argument: left out, left blank or given. -/
inductive HeadingOperand (ν : Type) where
  | omitted
  | blank
  | given (heading : Operand ν)

/-- A pose argument. -/
structure PoseOperand (ν : Type) where
  x : Operand ν
  y : Operand ν
  h : HeadingOperand ν

namespace PointOperand

/-- A point as an argument. -/
def ofPoint {ν : Type} (p : Point ν) : PointOperand ν := ⟨.number p.x, .number p.y⟩

end PointOperand

namespace PoseOperand

/-- A pose as an argument. -/
def ofPose {ν : Type} (p : Pose ν) : PoseOperand ν :=
  ⟨.number p.x, .number p.y, .given (.number p.h)⟩

end PoseOperand

/-- A waypoint kind as it arrives; some other values can be looked up in a table of kinds and some
cannot. -/
inductive KindOperand where
  | move (kind : MoveKind)
  | action
  | other (shown : String) (searchable : Bool)

namespace KindOperand

/-- The kind of move, refused with the wording for kinds that are none. -/
def moveKind : KindOperand → Outcome MoveKind
  | .move kind => .ok kind
  | .action => .error (.unknownKind "'action'")
  | .other shown _ => .error (.unknownKind shown)

/-- The kind of move by looking it up; what cannot be looked up has the wrong type. -/
def lookup : KindOperand → Outcome MoveKind
  | .other _ false => .error .wrongType
  | kind => kind.moveKind

end KindOperand

/-- A reference to a marker: the number it matches, if any, and how messages show it. -/
structure MarkerRef where
  number : Option Int
  shown : String

/-- The reference by a marker's number. -/
def MarkerRef.ofNumber (n : Int) : MarkerRef := ⟨some n, toString n⟩

end PathStudio
