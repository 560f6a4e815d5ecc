/-!
# Digits

The decimal digits of all scripts. Each script has its ten digits in a row, so a
table of the zeros says it all. Code points and bytes are shown with hexadecimal
digits instead, a fixed number of them in lower case.
-/

namespace PathStudio.Text

/-- The zeros of the scripts other than the Latin one. -/
def foreignZeros : List Nat := [
  1632, 1776, 1984, 2406, 2534, 2662, 2790, 2918, 3046, 3174, 3302, 3430, 3558, 3664, 3792, 3872,
  4160, 4240, 6112, 6160, 6470, 6608, 6784, 6800, 6992, 7088, 7232, 7248, 42528, 43216, 43264,
  43472, 43504, 43600, 44016, 65296, 66720, 68912, 69734, 69872, 69942, 70096, 70384, 70736,
  70864, 71248, 71360, 71472, 71904, 72016, 72784, 73040, 73120, 92768, 92864, 93008, 120782,
  120792, 120802, 120812, 120822, 123200, 123632, 125264, 130032]

/-- The value of a decimal digit of any script. -/
def digitValue? (c : Char) : Option Nat :=
  let n := c.toNat
  if n < 128 then
    if 48 ≤ n && n ≤ 57 then some (n - 48) else none
  else
    (foreignZeros.find? fun first => first ≤ n && n < first + 10).map fun first => n - first

/-- Whether a character is a decimal digit of some script. -/
def isDigit (c : Char) : Bool := (digitValue? c).isSome

/-- The number that a run of digits writes; other characters count as zero. -/
def digitsValue (s : List Char) : Nat :=
  s.foldl (fun value c => 10 * value + (digitValue? c).getD 0) 0

/-- The digits of a number, most significant first. -/
def digitsOf (n : Nat) : List Char :=
  if n < 10 then [Char.ofNat (48 + n)] else digitsOf (n / 10) ++ [Char.ofNat (48 + n % 10)]

/-- How many decimal digits a number has. -/
def digitCount (n : Nat) : Nat := (digitsOf n).length

/-- The decimal text of an integer. -/
def integerText (n : Int) : List Char :=
  if n < 0 then '-' :: digitsOf n.natAbs else digitsOf n.natAbs

/-- The lower-case digit of a number below sixteen. -/
def hexDigit (n : Nat) : Char :=
  if n < 10 then Char.ofNat (48 + n) else Char.ofNat (87 + n)

/-- The last `width` hexadecimal digits of a number. -/
def hexDigits : Nat → Nat → List Char
  | 0, _ => []
  | width + 1, n => hexDigits width (n / 16) ++ [hexDigit (n % 16)]

end PathStudio.Text
