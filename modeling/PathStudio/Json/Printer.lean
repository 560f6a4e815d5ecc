import PathStudio.Json
import PathStudio.Decimal.Shortest
import PathStudio.Text.Quoted

/-!
# Writing JSON text

Values as JSON text in pure ASCII, on one line or laid out with each item and
member on a line of its own.
-/

namespace PathStudio.Json

open Text

/-- An escaped code unit. -/
def unitEscape (n : Nat) : List Char := '\\' :: 'u' :: hexDigits 4 n

/-- One character of a written text; beyond the basic plane it takes a pair of units, and a carried
surrogate is one unit. -/
def writeChar (c : Char) : List Char :=
  if c = '"' then ['\\', '"']
  else if c = '\\' then ['\\', '\\']
  else if c = '\n' then ['\\', 'n']
  else if c = '\r' then ['\\', 'r']
  else if c = '\t' then ['\\', 't']
  else if c = '\x08' then ['\\', 'b']
  else if c = '\x0c' then ['\\', 'f']
  else if 32 ≤ c.toNat ∧ c.toNat ≤ 126 then [c]
  else if c.toNat < 0x10000 then unitEscape c.toNat
  else
    match surrogate? c with
    | some unit => unitEscape unit
    | none =>
      let n := c.toNat - 0x10000
      unitEscape (0xD800 + n / 0x400) ++ unitEscape (0xDC00 + n % 0x400)

/-- A text between quotes. -/
def writeText (s : String) : List Char := '"' :: (s.toList.flatMap writeChar ++ ['"'])

/-- A real; the special ones are words. -/
def writeReal (x : Float) : List Char :=
  if x.isNaN then "NaN".toList
  else if x.isInf then if x < 0.0 then "-Infinity".toList else "Infinity".toList
  else Decimal.real x

/-- How the parts of a value are laid out: all on one line, or indented by a step per level. -/
inductive Layout where
  | oneLine
  | indented (step : Nat)

/-- What stands between two parts at a depth, and before the first and after the last one. -/
def Layout.lineBreak (layout : Layout) (depth : Nat) : List Char :=
  match layout with
  | .oneLine => []
  | .indented step => '\n' :: List.replicate (step * depth) ' '

/-- What stands between a key and its value. -/
def Layout.colon : Layout → List Char
  | .oneLine => [':']
  | .indented _ => [':', ' ']

mutual

/-- A value at a depth. -/
def writeAt (layout : Layout) (depth : Nat) : Json → List Char
  | .null => "null".toList
  | .bool true => "true".toList
  | .bool false => "false".toList
  | .int n => integerText n
  | .real x => writeReal x
  | .str s => writeText s
  | .arr [] => ['[', ']']
  | .arr (value :: rest) =>
    '[' :: (layout.lineBreak (depth + 1) ++ writeItems layout (depth + 1) (value :: rest)
      ++ layout.lineBreak depth ++ [']'])
  | .obj [] => ['\x7b', '\x7d']
  | .obj (m :: rest) =>
    '\x7b' :: (layout.lineBreak (depth + 1) ++ writeMembers layout (depth + 1) (m :: rest)
      ++ layout.lineBreak depth ++ ['\x7d'])

def writeItems (layout : Layout) (depth : Nat) : List Json → List Char
  | [] => []
  | [value] => writeAt layout depth value
  | value :: rest =>
    writeAt layout depth value ++ ',' :: (layout.lineBreak depth ++ writeItems layout depth rest)

def writeMembers (layout : Layout) (depth : Nat) : List (String × Json) → List Char
  | [] => []
  | [(key, value)] => writeText key ++ layout.colon ++ writeAt layout depth value
  | (key, value) :: rest =>
    writeText key ++ layout.colon ++ writeAt layout depth value
      ++ ',' :: (layout.lineBreak depth ++ writeMembers layout depth rest)

end

/-- A value as text. -/
def write (layout : Layout) (value : Json) : String := String.ofList (writeAt layout 0 value)

end PathStudio.Json
