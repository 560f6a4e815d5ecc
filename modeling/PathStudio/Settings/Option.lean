import PathStudio.Json.Reading
import PathStudio.Text.Character

/-!
# Options

The options that can be set, with what each accepts. Any value can be offered;
it is read through its text, so that numbers may come as texts.
-/

namespace PathStudio.Settings

/-- What an option accepts. -/
inductive Check where
  | mode
  | countFromTwo
  | positive
  | fraction
  deriving DecidableEq, Repr

/-- An option: its group and key, what it accepts and its value where nothing is set. -/
structure Spec where
  group : String
  key : String
  check : Check
  default : Json

/-- The width of the field in metres. -/
def fieldWidth : Float := 3.6576

/-- The width and the height of the window in pixels. -/
def windowSize : Nat := 720

/-- The pixels of one metre. -/
def pixelsPerMetre : Float := Double.ofInt windowSize / fieldWidth

/-- All options, group by group. -/
def specs : List Spec :=
  [⟨"codegen", "mode", .mode, .str "robot"⟩,
   ⟨"codegen", "arc_samples", .countFromTwo, .int 5⟩,
   ⟨"codegen", "default_speed", .fraction, .real 0.8⟩,
   ⟨"sim", "speed_multiplier", .positive, .real 1.0⟩,
   ⟨"sim", "step_ms", .positive, .int 16⟩,
   ⟨"sim", "drive_speed_mps", .positive, .real 0.8⟩,
   ⟨"sim", "turn_speed_dps", .positive, .real 120.0⟩,
   ⟨"markers", "reuse_tolerance_m", .positive, .real (5.0 / pixelsPerMetre)⟩]

/-- The groups of options. -/
def groups : List String := ["codegen", "sim", "markers"]

/-- The options of a group. -/
def specsOf (group : String) : List Spec := specs.filter fun s => s.group = group

/-- The option of a group and key. -/
def spec? (group key : String) : Option Spec := specs.find? fun s => s.group = group && s.key = key

/-- A value as a message shows it. -/
def shown (raw : Json) : String := String.ofList raw.shown

/-- The text of a value without the blanks at its ends. -/
def textOf (raw : Json) : List Char := Text.trim raw.plain

/-- Accepts an integer from two on. -/
def checkCount (raw : Json) : Except Rejection Json :=
  match Decimal.readInteger (textOf raw) [] with
  | .error _ => .error (.notInteger (shown raw))
  | .ok n => if n < 2 then .error (.belowTwo n) else .ok (.int n)

/-- Accepts a finite positive real. -/
def checkPositive (raw : Json) : Except Rejection Float :=
  match Decimal.readReal? (textOf raw) with
  | none => .error (.notNumber (shown raw))
  | some numeral =>
    let v := Double.ofNumeral numeral
    if !(decide (0.0 < v)) || v.isInf then .error (.notPositive (shown raw)) else .ok v

/-- Accepts a positive real up to one. -/
def checkFraction (raw : Json) : Except Rejection Float := do
  let v ← checkPositive raw
  if 1.0 < v then throw (.aboveOne (shown (.real v)))
  return v

/-- Accepts the word for a dialect in any case. -/
def checkMode (raw : Json) : Except Rejection Json :=
  match Dialect.ofName? (String.ofList ((textOf raw).map Char.toLower)) with
  | some d => .ok (.str d.name)
  | none => .error (.notMode (shown raw))

/-- The value that is stored for an offered one, or why it is turned down. -/
def Check.accept : Check → Json → Except Rejection Json
  | .mode, raw => checkMode raw
  | .countFromTwo, raw => checkCount raw
  | .positive, raw => (checkPositive raw).map .real
  | .fraction, raw => (checkFraction raw).map .real

end PathStudio.Settings
