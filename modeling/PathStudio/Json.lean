import PathStudio.Fault

/-!
# JSON values

The values that settings, stored routines and event scripts are made of. An
integer and a real are told apart, as they print differently, and an object
keeps its members in the order in which they were first written.
-/

namespace PathStudio

/-- A JSON value. -/
inductive Json where
  | null
  | bool (b : Bool)
  | int (n : Int)
  | real (x : Float)
  | str (s : String)
  | arr (items : List Json)
  | obj (members : List (String × Json))
  deriving Inhabited

namespace Json

/-- Whether a value counts as something: neither null, false, zero nor empty. -/
def isTruthy : Json → Bool
  | .null => false
  | .bool b => b
  | .int n => n ≠ 0
  | .real x => x != 0.0
  | .str s => s ≠ ""
  | .arr items => !items.isEmpty
  | .obj members => !members.isEmpty

/-- The value of a key among members. -/
def lookup (key : String) (members : List (String × Json)) : Option Json :=
  (members.find? fun m => m.1 = key).map (·.2)

/-- Members with the value of a key replaced where it stands, or added at the end. -/
def insert (key : String) (value : Json) : List (String × Json) → List (String × Json)
  | [] => [(key, value)]
  | m :: rest => if m.1 = key then (key, value) :: rest else m :: insert key value rest

@[simp] theorem lookup_insert_self (key : String) (value : Json) (members : List (String × Json)) :
    lookup key (insert key value members) = some value := by
  induction members with
  | nil => simp [insert, lookup]
  | cons m rest ih =>
    by_cases h : m.1 = key
    · simp [insert, lookup, h]
    · simpa [insert, lookup, h] using ih

theorem lookup_insert_of_ne {key other : String} (h : other ≠ key) (value : Json)
    (members : List (String × Json)) :
    lookup other (insert key value members) = lookup other members := by
  induction members with
  | nil => simp [insert, lookup, Ne.symm h]
  | cons m rest ih =>
    by_cases hk : m.1 = key
    · simp [insert, lookup, hk, Ne.symm h]
    · by_cases ho : m.1 = other
      · simp [insert, lookup, ho, h]
      · simpa [insert, lookup, hk, ho] using ih

/-- The member of an object, if it has the key. -/
def member? (key : String) : Json → Option Json
  | .obj members => lookup key members
  | _ => none

/-- Looks a key up in a value that has to be an object. -/
def get (key : String) : Json → Outcome (Option Json)
  | .obj members => .ok (lookup key members)
  | _ => .error .noMember

/-- The member that an object has to have. -/
def field (key : String) : Json → Outcome Json
  | .obj members =>
    match lookup key members with
    | some value => .ok value
    | none => .error (.missingKey key)
  | _ => .error .wrongType

/-- The position that an index names in a sequence of the given length; negative ones count from
the end. -/
def position? (length : Nat) (index : Int) : Option Nat :=
  if 0 ≤ index then
    if index < length then some index.toNat else none
  else if 0 ≤ index + length then some (index + length).toNat
  else none

/-- The item of a list, or the character of a text, at an index. -/
def item (index : Int) : Json → Outcome Json
  | .arr items =>
    match (position? items.length index).bind (items[·]?) with
    | some value => .ok value
    | none => .error .listIndex
  | .str s =>
    match (position? s.length index).bind (s.toList[·]?) with
    | some c => .ok (.str (String.singleton c))
    | none => .error .textIndex
  | .obj _ => .error (.missingKey (toString index))
  | _ => .error .wrongType

/-- The things that a value lists: items, characters or keys. -/
def elements : Json → Outcome (List Json)
  | .arr items => .ok items
  | .str s => .ok (s.toList.map fun c => .str (String.singleton c))
  | .obj members => .ok (members.map fun m => .str m.1)
  | _ => .error .wrongType

end Json

end PathStudio
