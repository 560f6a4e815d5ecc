import PathStudio.Json
import PathStudio.Decimal.Shortest
import PathStudio.Text.Quoted

/-!
# Values in messages

How a message shows a value: texts between quotes, reals by their shortest
decimal, lists and objects with their parts. `plain` leaves a text that stands
alone as it is.
-/

namespace PathStudio.Json

open Text

/-- The words for the values without parts, and the shown forms of numbers and texts. -/
def shownAtom : Json → List Char
  | .null => "None".toList
  | .bool true => "True".toList
  | .bool false => "False".toList
  | .int n => integerText n
  | .real x => Decimal.real x
  | .str s => quoted s.toList
  | .arr _ => []
  | .obj _ => []

mutual

/-- A value as messages show it. -/
def shown : Json → List Char
  | .arr items => '[' :: (shownItems items ++ [']'])
  | .obj members => '\x7b' :: (shownMembers members ++ ['\x7d'])
  | .null => shownAtom .null
  | .bool b => shownAtom (.bool b)
  | .int n => shownAtom (.int n)
  | .real x => shownAtom (.real x)
  | .str s => shownAtom (.str s)

def shownItems : List Json → List Char
  | [] => []
  | [value] => shown value
  | value :: rest => shown value ++ ',' :: ' ' :: shownItems rest

def shownMembers : List (String × Json) → List Char
  | [] => []
  | [(key, value)] => quoted key.toList ++ ':' :: ' ' :: shown value
  | (key, value) :: rest =>
    quoted key.toList ++ ':' :: ' ' :: (shown value ++ ',' :: ' ' :: shownMembers rest)

end

/-- A value as text: a text itself, anything else as messages show it. -/
def plain : Json → List Char
  | .str s => s.toList
  | value => shown value

end PathStudio.Json
