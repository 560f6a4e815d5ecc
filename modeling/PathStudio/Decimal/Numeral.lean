import PathStudio.Text.Character
import PathStudio.Text.Digit
import PathStudio.Fault

/-!
# Numerals

How numbers are read from text. A numeral may stand between blanks, may carry a
sign, may group its digits with single underscores and may use the digits of
any script. A real may also have a point and an exponent, or be one of the words
for infinity and for what is not a number.
-/

namespace PathStudio.Decimal

open Text

/-- A real as it is written. -/
inductive Numeral where
  | notANumber
  | infinite (negative : Bool)
  | decimal (negative : Bool) (mantissa : Nat) (exponent : Int)
  deriving DecidableEq, Repr

/-- The text between the blanks that may surround a number. -/
def trimNumber (s : List Char) : List Char :=
  (((s.dropWhile isNumberBlank).reverse).dropWhile isNumberBlank).reverse

/-- The text without its underscores, if each stands between two digits. -/
def dropGrouping? : (before : Bool) → List Char → Option (List Char)
  | _, [] => some []
  | before, '_' :: c :: rest =>
    if before && isDigit c then (dropGrouping? true rest).map (c :: ·) else none
  | _, '_' :: [] => none
  | _, c :: rest => (dropGrouping? (isDigit c) rest).map (c :: ·)

/-- A text split after its leading digits. -/
def spanDigits (s : List Char) : List Char × List Char := s.span isDigit

/-- The sign at the front of a numeral, and the rest. -/
def readSign : List Char → Bool × List Char
  | '-' :: rest => (true, rest)
  | '+' :: rest => (false, rest)
  | s => (false, s)

/-- The exponent that ends a numeral: none at all, or a mark and an integer. -/
def readExponent? : List Char → Option Int
  | [] => some 0
  | c :: rest =>
    if c = 'e' || c = 'E' then
      let (negative, body) := readSign rest
      if body.isEmpty || !body.all isDigit then none
      else some (if negative then -(digitsValue body : Int) else digitsValue body)
    else none

/-- The magnitude of a decimal numeral: digits with an optional point among them, and an exponent. -/
def readMagnitude? (s : List Char) : Option (Nat × Int) :=
  let (whole, rest) := spanDigits s
  let (fraction, rest) :=
    match rest with
    | '.' :: more => spanDigits more
    | _ => ([], rest)
  if whole.isEmpty && fraction.isEmpty then none
  else
    (readExponent? rest).map fun exponent =>
      (digitsValue (whole ++ fraction), exponent - fraction.length)

/-- The words for numbers that have no digits. -/
def readWord? (negative : Bool) (s : List Char) : Option Numeral :=
  let word := s.map Char.toLower
  if word = "inf".toList || word = "infinity".toList then some (.infinite negative)
  else if word = "nan".toList then some .notANumber
  else none

/-- Reads a real. -/
def readReal? (s : List Char) : Option Numeral := do
  let (negative, body) := readSign (← dropGrouping? false (trimNumber s))
  match readMagnitude? body with
  | some (mantissa, exponent) => some (.decimal negative mantissa exponent)
  | none => readWord? negative body

/-- The most digits that an integer may be written with. -/
def integerDigitLimit : Nat := 4300

/-- Reads an integer; `shown` is the text as a refusal shows it. -/
def readInteger (s shown : List Char) : Outcome Int :=
  match dropGrouping? false (trimNumber s) with
  | none => .error (.unreadableInteger (String.ofList shown))
  | some text =>
    let (negative, body) := readSign text
    if body.isEmpty || !body.all isDigit then .error (.unreadableInteger (String.ofList shown))
    else if integerDigitLimit < body.length then .error (.integerTextTooLong (some body.length))
    else .ok (if negative then -(digitsValue body : Int) else digitsValue body)

end PathStudio.Decimal
