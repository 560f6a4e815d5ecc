/-!
# Unpaired surrogates

JSON text can escape half of a surrogate pair without the other half. Such a
code unit is no character, but it is read, kept and written again. A text
carries it as a character of a block for private use, one for each unit, so that
lengths and positions count it as one and nothing is lost.
-/

namespace PathStudio.Text

/-- Whether a code unit is the first half of a pair. -/
def isHighSurrogate (n : Nat) : Bool := 0xD800 ≤ n && n ≤ 0xDBFF

/-- Whether a code unit is the second half of a pair. -/
def isLowSurrogate (n : Nat) : Bool := 0xDC00 ≤ n && n ≤ 0xDFFF

/-- The character of a pair. -/
def joinSurrogates (high low : Nat) : Char :=
  Char.ofNat (0x10000 + (high - 0xD800) * 0x400 + (low - 0xDC00))

/-- The distance from a surrogate to the character that carries it. -/
def carriage : Nat := 0x10B000 - 0xD800

/-- The character that carries a surrogate. -/
def carrySurrogate (n : Nat) : Char := Char.ofNat (n + carriage)

/-- The surrogate that a character carries. -/
def surrogate? (c : Char) : Option Nat :=
  if 0x10B000 ≤ c.toNat && c.toNat ≤ 0x10B7FF then some (c.toNat - carriage) else none

/-- Whether a character carries a surrogate. -/
def isSurrogate (c : Char) : Bool := (surrogate? c).isSome

/-- Where the first surrogate that is not allowed stands, counted from the given place, and how many
surrogates there are in a row from there on. -/
def surrogateRun? (allowed : Nat → Bool) (at_ : Nat) : List Char → Option (Nat × Nat)
  | [] => none
  | c :: rest =>
    if (surrogate? c).any fun unit => !allowed unit then
      some (at_, 1 + (rest.takeWhile isSurrogate).length)
    else surrogateRun? allowed (at_ + 1) rest

end PathStudio.Text
