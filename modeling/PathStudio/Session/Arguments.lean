import PathStudio.Session.Index
import PathStudio.Session.Operand
import PathStudio.Json.Reading

/-!
# Arguments from values

Scripted edits give their arguments as JSON values. A number is a number, a
text may read as one, and anything else is of no use; points and poses are
lists, of which only the first entries count. An argument is judged when an edit
needs it, so reading one never fails by itself.
-/

namespace PathStudio

namespace Operand

/-- A value as a numeric argument. -/
def ofJson (value : Json) : Operand Float :=
  match value with
  | .str _ => .worded value.toReal
  | _ =>
    match value.toReal with
    | .ok x => .number x
    | .error fault => .unusable fault

/-- A value as a bound; an integer beyond the reals bounds as an infinity does. -/
def boundOfJson : Json → Operand Float
  | .int n => .number (Double.ofInt n)
  | value => ofJson value

/-- An item of a list as a numeric argument. -/
def ofItem (list : Json) (index : Int) : Operand Float :=
  match list.item index with
  | .ok value => ofJson value
  | .error fault => .missing fault

end Operand

/-- A list as a point. -/
def PointOperand.ofJson (list : Json) : PointOperand Float := ⟨.ofItem list 0, .ofItem list 1⟩

/-- How many entries a value has, if it has entries. -/
def Json.entryCount? : Json → Option Nat
  | .arr items => some items.length
  | .str s => some s.length
  | .obj members => some members.length
  | _ => none

/-- The heading of a list with a third entry. -/
def HeadingOperand.ofJson (list : Json) : HeadingOperand Float :=
  match list.entryCount? with
  | none => .omitted
  | some n =>
    if n ≤ 2 then .omitted
    else
      match list.item 2 with
      | .ok .null => .blank
      | .ok value => .given (.ofJson value)
      | .error fault => .given (.missing fault)

/-- A list as a pose. -/
def PoseOperand.ofJson (list : Json) : PoseOperand Float :=
  ⟨.ofItem list 0, .ofItem list 1, .ofJson list⟩

/-- A value as the kind of a waypoint. -/
def KindOperand.ofJson (value : Json) : KindOperand :=
  let shown := String.ofList value.shown
  match value with
  | .str s =>
    if s = "action" then .action
    else
      match MoveKind.ofName? s with
      | some kind => .move kind
      | none => .other shown true
  | .arr _ | .obj _ => .other shown false
  | _ => .other shown true

/-- The integer that a value equals, if any: a real without a fraction equals one, and a truth value
equals zero or one. -/
def Json.integer? : Json → Option Int
  | .int n => some n
  | .bool b => some b.toNat
  | .real x =>
    match Scalar.truncate x with
    | .ok n => if Double.ofInt n == x then some n else none
    | .error _ => none
  | _ => none

/-- A value as a reference to a marker. -/
def MarkerRef.ofJson (value : Json) : MarkerRef := ⟨value.integer?, String.ofList value.plain⟩

/-- A value as an index. -/
def IndexOperand.ofJson : Json → IndexOperand Float
  | .int n => .whole n
  | .bool b => .flag b
  | .real x => .real x (String.ofList (Decimal.real x))
  | _ => .unusable

namespace Json

/-- A value as a text; one that counts as nothing is empty. -/
def toText (value : Json) : Outcome String :=
  if value.isTruthy then
    match value with
    | .str s => .ok s
    | _ => .error .noMember
  else .ok ""

/-- A list as a place in the window, of which the first two entries count. -/
def toPlace (list : Json) : Outcome (Point Float) := do
  let x ← (← list.item 0).asReal
  let y ← (← list.item 1).asReal
  return ⟨x, y⟩

/-- A list of exactly two entries as a place in the window. -/
def toExactPlace (list : Json) : Outcome (Point Float) := do
  match ← list.elements with
  | [x, y] => return ⟨← x.asReal, ← y.asReal⟩
  | _ => throw .wrongType

end Json

end PathStudio
