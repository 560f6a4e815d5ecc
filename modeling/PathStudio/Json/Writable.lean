import PathStudio.Json.Printer
import PathStudio.Decimal.Numeral

/-!
# Writable values

An integer of more digits than are read is not written either. A value that
holds one has no text of its own; when such a value is written to a file, the
text breaks off where the first of these integers would stand.
-/

namespace PathStudio.Json

open Decimal

/-- The least natural number that is too long to write. -/
def integerBound : Nat := powerOfTen integerDigitLimit

/-- Whether an integer is too long to write. -/
def isLong (n : Int) : Bool := decide (integerBound ≤ n.natAbs)

mutual

/-- Whether a value holds an integer that is too long to write. -/
def hasLong : Json → Bool
  | .int n => isLong n
  | .arr items => anyLong items
  | .obj members => anyMemberLong members
  | .null => false
  | .bool _ => false
  | .real _ => false
  | .str _ => false

def anyLong : List Json → Bool
  | [] => false
  | value :: rest => hasLong value || anyLong rest

def anyMemberLong : List (String × Json) → Bool
  | [] => false
  | (_, value) :: rest => hasLong value || anyMemberLong rest

end

/-- Refuses a value that has no text. -/
def requireText (value : Json) : Outcome Unit :=
  if hasLong value then .error (.integerTextTooLong none) else .ok ()

mutual

/-- The text of a value before its first integer that is too long, if it holds one. -/
def writtenBefore? (layout : Layout) (depth : Nat) : Json → Option (List Char)
  | .int n => if isLong n then some [] else none
  | .arr items =>
    (itemsBefore? layout (depth + 1) items).map fun s =>
      '[' :: (layout.lineBreak (depth + 1) ++ s)
  | .obj members =>
    (membersBefore? layout (depth + 1) members).map fun s =>
      '\x7b' :: (layout.lineBreak (depth + 1) ++ s)
  | .null => none
  | .bool _ => none
  | .real _ => none
  | .str _ => none

def itemsBefore? (layout : Layout) (depth : Nat) : List Json → Option (List Char)
  | [] => none
  | value :: rest =>
    match writtenBefore? layout depth value with
    | some s => some s
    | none =>
      (itemsBefore? layout depth rest).map fun s =>
        writeAt layout depth value ++ ',' :: (layout.lineBreak depth ++ s)

def membersBefore? (layout : Layout) (depth : Nat) : List (String × Json) → Option (List Char)
  | [] => none
  | (key, value) :: rest =>
    match writtenBefore? layout depth value with
    | some s => some (writeText key ++ layout.colon ++ s)
    | none =>
      (membersBefore? layout depth rest).map fun s =>
        writeText key ++ layout.colon ++ writeAt layout depth value
          ++ ',' :: (layout.lineBreak depth ++ s)

end

/-- The pieces in which a value is written to a file: its text, or what comes before the first
integer without one and the refusal of it. -/
def pieces (layout : Layout) (value : Json) : List (Outcome String) :=
  match writtenBefore? layout 0 value with
  | none => [.ok (value.write layout)]
  | some s => [.ok (String.ofList s), .error (.integerTextTooLong none)]

end PathStudio.Json
