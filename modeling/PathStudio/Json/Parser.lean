import PathStudio.Json
import PathStudio.Scalar.Double
import PathStudio.Text.Surrogate

/-!
# Reading JSON text

A reader of one JSON value that says where and why a text is not one. Besides
the standard grammar it takes the words for infinities and for what is not a
number. Of members with one key the last value stays, in the first one's place.
-/

namespace PathStudio.Json

open Text Decimal

/-- Why a text is no JSON value, with the length of the text that was left to read. -/
inductive Misread where
  | expectedValue (left : Nat)
  | expectedKey (left : Nat)
  | expectedColon (left : Nat)
  | expectedComma (left : Nat)
  | openText (left : Nat)
  | controlCharacter (left : Nat)
  | badEscape (left : Nat)
  | badCodeEscape (left : Nat)
  | extraData (left : Nat)
  | byteOrderMark (left : Nat)
  | longInteger (digits : Nat)
  | tooNested (container : Container)
  deriving DecidableEq, Repr

/-- The result of reading the front of a text. -/
abbrev Read (α : Type) := Except Misread (α × List Char)

/-- The blanks between JSON tokens. -/
def isGap (c : Char) : Bool := c = ' ' || c = '\t' || c = '\n' || c = '\r'

def skipGap (s : List Char) : List Char := s.dropWhile isGap

def isAsciiDigit (c : Char) : Bool := 48 ≤ c.toNat && c.toNat ≤ 57

/-- The value of a hexadecimal digit. -/
def hexValue? (c : Char) : Option Nat :=
  let n := c.toNat
  if 48 ≤ n && n ≤ 57 then some (n - 48)
  else if 97 ≤ n && n ≤ 102 then some (n - 87)
  else if 65 ≤ n && n ≤ 70 then some (n - 55)
  else none

/-- The value of four hexadecimal digits at the front of a text. -/
def codeUnit? : List Char → Option (Nat × List Char)
  | a :: b :: c :: d :: rest => do
    let w ← hexValue? a
    let x ← hexValue? b
    let y ← hexValue? c
    let z ← hexValue? d
    some (((w * 16 + x) * 16 + y) * 16 + z, rest)
  | _ => none

/-- The character that a code unit stands for; a surrogate without its partner is carried. -/
def charOf (n : Nat) : Char :=
  if isHighSurrogate n || isLowSurrogate n then carrySurrogate n else Char.ofNat n

/-- The character of a code escape, whose four digits begin the text. At least one more character
has to follow them. -/
def codeEscape (s : List Char) : Read Char :=
  let wrong : Misread := .badCodeEscape (s.length + 1)
  match codeUnit? s with
  | none => .error wrong
  | some (_, []) => .error wrong
  | some (high, rest) =>
    if isHighSurrogate high then
      match rest with
      | '\\' :: 'u' :: more =>
        if more.length < 5 then .ok (charOf high, rest)
        else
          match codeUnit? more with
          | none => .error (.badCodeEscape (more.length + 1))
          | some (low, afterPair) =>
            if isLowSurrogate low then .ok (joinSurrogates high low, afterPair)
            else .ok (charOf high, rest)
      | _ => .ok (charOf high, rest)
    else .ok (charOf high, rest)

/-- The character of a one-letter escape. -/
def letterEscape? : Char → Option Char
  | '"' => some '"'
  | '\\' => some '\\'
  | '/' => some '/'
  | 'b' => some '\x08'
  | 'f' => some '\x0c'
  | 'n' => some '\n'
  | 'r' => some '\r'
  | 't' => some '\t'
  | _ => none

/-- Reads a text after its opening quote; `opening` is the length left at that quote. -/
def readText (opening : Nat) : (fuel : Nat) → (done : List Char) → List Char → Read String
  | 0, _, _ => .error (.openText opening)
  | _, _, [] => .error (.openText opening)
  | _, done, '"' :: rest => .ok (String.ofList done.reverse, rest)
  | _, _, ['\\'] => .error (.openText opening)
  | fuel + 1, done, '\\' :: c :: rest =>
    if c = 'u' then
      match codeEscape rest with
      | .error e => .error e
      | .ok (decoded, more) => readText opening fuel (decoded :: done) more
    else
      match letterEscape? c with
      | some decoded => readText opening fuel (decoded :: done) rest
      | none => .error (.badEscape (rest.length + 2))
  | fuel + 1, done, c :: rest =>
    if c.toNat < 32 then .error (.controlCharacter (rest.length + 1))
    else readText opening fuel (c :: done) rest

/-- The digits of a JSON integer: a lone zero, or digits that do not start with one. -/
def readWhole? : List Char → Option (List Char × List Char)
  | '0' :: rest => some (['0'], rest)
  | c :: rest => if isAsciiDigit c then some ((c :: rest).span isAsciiDigit) else none
  | [] => none

/-- The fraction of a number, if a digit follows the point. -/
def readFraction : List Char → List Char × List Char
  | '.' :: c :: rest => if isAsciiDigit c then (c :: rest).span isAsciiDigit else ([], '.' :: c :: rest)
  | s => ([], s)

/-- The exponent of a number, if digits follow its mark. -/
def readPower (s : List Char) : Option Int × List Char :=
  match s with
  | c :: rest =>
    if c = 'e' || c = 'E' then
      let (negative, body) := readSign rest
      let (digits, more) := body.span isAsciiDigit
      if digits.isEmpty then (none, s)
      else (some (if negative then -(digitsValue digits : Int) else digitsValue digits), more)
    else (none, s)
  | [] => (none, s)

/-- Reads a number; one with neither fraction nor exponent is an integer. -/
def readNumber (s : List Char) : Read Json :=
  let (negative, body) := match s with
    | '-' :: rest => (true, rest)
    | _ => (false, s)
  match readWhole? body with
  | none => .error (.expectedValue s.length)
  | some (whole, rest) =>
    let (fraction, rest) := readFraction rest
    let (power, rest) := readPower rest
    if fraction.isEmpty && power.isNone then
      if integerDigitLimit < whole.length then .error (.longInteger whole.length)
      else
        let value : Int := digitsValue whole
        .ok (.int (if negative then -value else value), rest)
    else
      let exponent := power.getD 0 - fraction.length
      .ok (.real (Double.ofDecimal negative (digitsValue (whole ++ fraction)) exponent), rest)

/-- The JSON words with their values. -/
def words : List (List Char × Json) :=
  [("null".toList, .null), ("true".toList, .bool true), ("false".toList, .bool false),
   ("NaN".toList, .real (0.0 / 0.0)), ("Infinity".toList, .real (1.0 / 0.0)),
   ("-Infinity".toList, .real (-(1.0 / 0.0)))]

/-- Reads a word or a number. -/
def readAtom (s : List Char) : Read Json :=
  match words.findSome? fun w => (if w.1.isPrefixOf s then some (w.2, s.drop w.1.length) else none) with
  | some r => .ok r
  | none => readNumber s

/-- Members in the order of their first keys, each key with its last value. -/
def collectMembers (members : List (String × Json)) : List (String × Json) :=
  members.foldl (fun all m => insert m.1 m.2 all) []

/-- How many arrays and objects may be open at once. -/
def nestingLimit : Nat := 988

mutual

/-- Reads a value; `levels` more arrays and objects may be opened. -/
def readValue (levels : Nat) : (fuel : Nat) → List Char → Except Misread (Json × List Char)
  | 0, s => .error (.expectedValue s.length)
  | fuel + 1, s =>
    match s with
    | '"' :: rest => do
      let (text, more) ← readText s.length (rest.length + 1) [] rest
      .ok (.str text, more)
    | '\x7b' :: rest =>
      if levels = 0 then .error (.tooNested .object)
      else
        match skipGap rest with
        | '\x7d' :: more => .ok (.obj [], more)
        | inner => readMembers (levels - 1) fuel [] inner
    | '[' :: rest =>
      if levels = 0 then .error (.tooNested .array)
      else
        match skipGap rest with
        | ']' :: more => .ok (.arr [], more)
        | inner => readItems (levels - 1) fuel [] inner
    | _ => readAtom s

/-- Reads items up to the closing bracket. -/
def readItems (levels : Nat) :
    (fuel : Nat) → (done : List Json) → List Char → Except Misread (Json × List Char)
  | 0, _, s => .error (.expectedValue s.length)
  | fuel + 1, done, s => do
    let (value, rest) ← readValue levels fuel s
    match skipGap rest with
    | ']' :: more => .ok (.arr (value :: done).reverse, more)
    | ',' :: more => readItems levels fuel (value :: done) (skipGap more)
    | other => .error (.expectedComma other.length)

/-- Reads members up to the closing brace. -/
def readMembers (levels : Nat) :
    (fuel : Nat) → (done : List (String × Json)) → List Char → Except Misread (Json × List Char)
  | 0, _, s => .error (.expectedValue s.length)
  | fuel + 1, done, s =>
    match s with
    | '"' :: rest => do
      let (key, more) ← readText s.length (rest.length + 1) [] rest
      match skipGap more with
      | ':' :: more =>
        let (value, rest) ← readValue levels fuel (skipGap more)
        match skipGap rest with
        | '\x7d' :: more => .ok (.obj (collectMembers ((key, value) :: done).reverse), more)
        | ',' :: more => readMembers levels fuel ((key, value) :: done) (skipGap more)
        | other => .error (.expectedComma other.length)
      | other => .error (.expectedColon other.length)
    | _ => .error (.expectedKey s.length)

end

/-- Reads a text that is one JSON value between blanks. -/
def readDocument (s : List Char) : Except Misread Json := do
  if s.head? = some (Char.ofNat 0xFEFF) then throw (.byteOrderMark s.length)
  let (value, rest) ← readValue nestingLimit (s.length + 1) (skipGap s)
  let rest := skipGap rest
  if rest.isEmpty then pure value else throw (.extraData rest.length)

/-- The reason of a misreading and the length that was left at its place. -/
def Misread.reason : Misread → String × Nat
  | .expectedValue left => ("Expecting value", left)
  | .expectedKey left => ("Expecting property name enclosed in double quotes", left)
  | .expectedColon left => ("Expecting ':' delimiter", left)
  | .expectedComma left => ("Expecting ',' delimiter", left)
  | .openText left => ("Unterminated string starting at", left)
  | .controlCharacter left => ("Invalid control character at", left)
  | .badEscape left => ("Invalid \\escape", left)
  | .badCodeEscape left => ("Invalid \\uXXXX escape", left)
  | .extraData left => ("Extra data", left)
  | .byteOrderMark left => ("Unexpected UTF-8 BOM (decode using utf-8-sig)", left)
  | .longInteger _ | .tooNested _ => ("", 0)

/-- The fault of a misread text, with line, column and position. -/
def Misread.toFault (m : Misread) (s : List Char) : Fault :=
  match m with
  | .longInteger digits => .integerTextTooLong (some digits)
  | .tooNested container => .tooNested container
  | _ =>
    let (reason, left) := m.reason
    let position := s.length - left
    let before := s.take position
    let line := before.count '\n' + 1
    let column := (before.reverse.takeWhile (· ≠ '\n')).length + 1
    .malformedJson
      (reason ++ ": line " ++ toString line ++ " column " ++ toString column
        ++ " (char " ++ toString position ++ ")")

/-- The value that a text writes. -/
def parse (text : String) : Outcome Json :=
  let s := text.toList
  match readDocument s with
  | .ok value => .ok value
  | .error m => .error (m.toFault s)

end PathStudio.Json
