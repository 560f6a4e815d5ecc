import PathStudio.Json.Shown
import PathStudio.Scalar.Double

/-!
# Reading numbers out of values

Two ways to take a value as a real: `toReal` converts and also reads texts,
`asReal` accepts what is a number already. `toInteger` converts to an integer,
dropping the fraction of a real.
-/

namespace PathStudio.Json

/-- How many characters of a shown text fit in a message about integers. -/
def shownLimit : Nat := 200

/-- Takes a value as a real, reading a text as a numeral. -/
def toReal : Json → Outcome Float
  | .real x => .ok x
  | .int n => Double.ofIntChecked n
  | .bool b => .ok (if b then 1.0 else 0.0)
  | .str s =>
    match Decimal.readReal? s.toList with
    | some numeral => .ok (Double.ofNumeral numeral)
    | none => .error (.unreadableReal (String.ofList (Text.quoted s.toList)))
  | _ => .error .wrongType

/-- Takes a number as a real; a text is no number here. -/
def asReal : Json → Outcome Float
  | .str _ => .error .wrongType
  | value => toReal value

/-- Takes a value as an integer, reading a text as a numeral and dropping a fraction. -/
def toInteger : Json → Outcome Int
  | .int n => .ok n
  | .bool b => .ok (if b then 1 else 0)
  | .real x => Scalar.truncate x
  | .str s => Decimal.readInteger s.toList ((Text.quoted s.toList).take shownLimit)
  | _ => .error .wrongType

end PathStudio.Json
