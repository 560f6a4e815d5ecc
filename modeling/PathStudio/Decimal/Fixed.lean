import PathStudio.Decimal.Binary
import PathStudio.Text.Digit

/-!
# Fixed-point text

A count of decimal units written with its point. Two formats use it: amounts in
programs, which may have no more than 28 digits and fall back to an exponent far
from the point, and amounts on the status line, where a half goes to the even
neighbour.
-/

namespace PathStudio.Decimal

open Text

/-- Digits with a point before the last `places` of them, filled up with zeros on the left. -/
def withPoint (digits : List Char) (places : Nat) : List Char :=
  if places = 0 then digits
  else
    let padded := List.replicate (places + 1 - digits.length) '0' ++ digits
    padded.take (padded.length - places) ++ '.' :: padded.drop (padded.length - places)

/-- Digits as one digit, a point and the others, with a decimal exponent. -/
def withExponent (digits : List Char) (exponent : Int) : List Char :=
  let mantissa :=
    match digits with
    | [] => []
    | [d] => [d]
    | d :: rest => d :: '.' :: rest
  mantissa ++ 'E' :: (if exponent < 0 then integerText exponent else '+' :: integerText exponent)

/-- The most digits that an amount in a program may have. -/
def digitLimit : Nat := 28

/-- The text of `count` units of `10 ^ (-places)`, if it keeps to the digit limit. -/
def amount? (negative : Bool) (count : Nat) (places : Int) : Option (List Char) :=
  if powerOfTen digitLimit ≤ count then none
  else
    let digits := digitsOf count
    let adjusted := (digits.length : Int) - 1 - places
    let body :=
      if 0 ≤ places ∧ -6 ≤ adjusted then withPoint digits places.toNat
      else withExponent digits adjusted
    some (if negative then '-' :: body else body)

/-- A double with a fixed number of places, a half going to the even neighbour. -/
def status (x : Float) (places : Nat) : List Char :=
  match Binary.ofFloat x with
  | .notANumber => "nan".toList
  | .infinite negative => if negative then "-inf".toList else "inf".toList
  | .finite negative mantissa exponent =>
    let body := withPoint (digitsOf (units .toEven mantissa exponent places)) places
    if negative then '-' :: body else body

end PathStudio.Decimal
