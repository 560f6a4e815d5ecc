import PathStudio.Scalar
import PathStudio.Text.Scan
import PathStudio.Text.Digit
import PathStudio.Text.Character

/-!
# Lexemes of programs

The parts that programs of both dialects are read from: numbers, commands with
numbers between parentheses, and bare calls.
-/

namespace PathStudio.Program

open Text

/-- A number as programs write it: a sign, digits, and digits after a point. -/
structure WrittenNumber where
  negative : Bool
  mantissa : Nat
  places : Nat
  deriving DecidableEq, Repr

/-- The scalar nearest to a written number. -/
def WrittenNumber.value {ν : Type} [Add ν] [Sub ν] [Mul ν] [Div ν] [Neg ν] [Scalar ν]
    (n : WrittenNumber) : ν :=
  Scalar.ofDecimal n.negative n.mantissa (-(n.places : Int))

/-- Reads the digits of a number, with a point among them or behind them. -/
def readUnsigned (negative : Bool) : Reader WrittenNumber := fun s =>
  let (whole, rest) := s.span isDigit
  if whole.isEmpty then none
  else
    match rest with
    | '.' :: more =>
      let (fraction, rest) := more.span isDigit
      some (⟨negative, digitsValue (whole ++ fraction), fraction.length⟩, rest)
    | _ => some (⟨negative, digitsValue whole, 0⟩, rest)

/-- Reads a number. -/
def readNumber : Reader WrittenNumber
  | '-' :: rest => readUnsigned true rest
  | s => readUnsigned false s

/-- Reads an opening parenthesis after a word, with blanks around it. -/
def readOpening (word s : List Char) : Option (List Char) := do
  let s ← after? word s
  let s ← after? ['('] (skipBlanks s)
  some (skipBlanks s)

/-- Reads a number and the sign that follows it, with blanks between. -/
def readNumberThen (sign : Char) : Reader WrittenNumber := fun s => do
  let (n, s) ← readNumber s
  let s ← after? [sign] (skipBlanks s)
  some (n, s)

/-- Reads a word with one number between parentheses. -/
def readCommand (word : List Char) : Reader WrittenNumber := fun s => do
  readNumberThen ')' (← readOpening word s)

/-- Reads a word with two numbers, of which the second is followed by the given sign. -/
def readPairThen (word : List Char) (sign : Char) : Reader (WrittenNumber × WrittenNumber) :=
  fun s => do
    let (a, s) ← readNumberThen ',' (← readOpening word s)
    let (b, s) ← readNumberThen sign (skipBlanks s)
    some ((a, b), s)

/-- Whether the rest of a line may follow a call: at most a semicolon and a comment. -/
def closesCall (s : List Char) : Bool :=
  let s := skipBlanks s
  let s := skipBlanks ((after? [';'] s).getD s)
  s.isEmpty || startsWith "//".toList s

/-- The text before the last closing parenthesis that can end a call. -/
def callArguments? : List Char → Option (List Char)
  | [] => none
  | c :: rest =>
    match callArguments? rest with
    | some args => some (c :: args)
    | none => if c = ')' && closesCall rest then some [] else none

/-- Reads a line that is one call, as its name and its arguments. -/
def readCall? (line : List Char) : Option (List Char × List Char) :=
  match skipBlanks line with
  | c :: rest =>
    if isNameStart c then do
      let (name, rest) := rest.span isWord
      let rest ← after? ['('] (skipBlanks rest)
      let args ← callArguments? rest
      some (c :: name, args)
    else none
  | [] => none

end PathStudio.Program
