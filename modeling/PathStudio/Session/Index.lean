import PathStudio.Scalar

/-!
# Indices and selections

An index says which waypoint is meant. As it arrives it can be an integer, a
truth value, which counts as zero or one, or a real, which can be compared with
the places of a path but names none of them. A selection keeps the form in which
its index was given until the path changes before it.
-/

namespace PathStudio

open Scalar

/-- An index as it arrives; a real comes with the text that shows it. -/
inductive IndexOperand (ν : Type) where
  | whole (n : Int)
  | flag (b : Bool)
  | real (x : ν) (shown : String)
  | unusable
  deriving DecidableEq, Repr

/-- What is selected: the place of a waypoint, or another value that was accepted as an index. -/
inductive Selection (ν : Type) where
  | place (i : Nat)
  | flag (b : Bool)
  | real (x : ν)
  deriving DecidableEq, Repr

variable {ν : Type}

namespace IndexOperand

/-- The integer that an index stands for; a real stands for none. -/
def position : IndexOperand ν → Outcome Int
  | .whole n => .ok n
  | .flag b => .ok b.toNat
  | .real _ _ | .unusable => .error .wrongType

/-- An index as messages show it. -/
def shown : IndexOperand ν → String
  | .whole n => toString n
  | .flag b => if b then "True" else "False"
  | .real _ shown => shown
  | .unusable => ""

/-- The selection that an index makes. -/
def selection : IndexOperand ν → Outcome (Selection ν)
  | .whole n => .ok (.place n.toNat)
  | .flag b => .ok (.flag b)
  | .real x _ => .ok (.real x)
  | .unusable => .error .wrongType

/-- Whether an index lies among the first places, counted from the front only. -/
def isAmong [Add ν] [Sub ν] [Mul ν] [Div ν] [Neg ν] [Scalar ν] (index : IndexOperand ν)
    (count : Nat) : Outcome Bool :=
  match index with
  | .whole n => .ok (decide (0 ≤ n ∧ n < count))
  | .flag b => .ok (decide (b.toNat < count))
  | .real x _ => .ok (le 0 x && lt x (ofInt count))
  | .unusable => .error .wrongType

end IndexOperand

namespace Selection

/-- A selection as an index, with the text that shows a real. -/
def index (realText : ν → String) : Selection ν → IndexOperand ν
  | .place i => .whole i
  | .flag b => .flag b
  | .real x => .real x (realText x)

variable [Add ν] [Sub ν] [Mul ν] [Div ν] [Neg ν] [Scalar ν]

/-- Whether a selection is at a place. -/
def isAt (s : Selection ν) (i : Nat) : Bool :=
  match s with
  | .place j => j == i
  | .flag b => b.toNat == i
  | .real x => eq x (ofInt i)

/-- Whether a selection is behind a place. -/
def isAfter (s : Selection ν) (i : Nat) : Bool :=
  match s with
  | .place j => decide (i < j)
  | .flag b => decide (i < b.toNat)
  | .real x => lt (ofInt i) x

/-- The selection one place further on. -/
def next : Selection ν → Selection ν
  | .place j => .place (j + 1)
  | .flag b => .place (b.toNat + 1)
  | .real x => .real (x + 1)

/-- The selection one place further to the front. -/
def previous : Selection ν → Selection ν
  | .place j => .place (j - 1)
  | .flag b => .place (b.toNat - 1)
  | .real x => .real (x - 1)

end Selection

end PathStudio
