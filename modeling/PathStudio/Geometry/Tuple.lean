import PathStudio.Geometry.Bezier
import PathStudio.Geometry.Polyline

/-!
# Points as tuples

A point can be given as a list of numbers of any length. The functions of this
module take such lists and look an entry up at the moment they need it, so what
they do not need may be missing. Where all entries are there they agree with the
functions on points.
-/

namespace PathStudio

open Scalar

/-- A number, or a list of such. -/
inductive Tuple (ν : Type) where
  | number (x : ν)
  | list (entries : List (Tuple ν))

namespace Tuple

variable {ν : Type}

/-- A tuple that is a number. -/
def toNumber : Tuple ν → Outcome ν
  | .number x => .ok x
  | .list _ => .error .wrongType

/-- The entries of a list. -/
def toList : Tuple ν → Outcome (List (Tuple ν))
  | .number _ => .error .wrongType
  | .list entries => .ok entries

/-- The number at a place of a list. -/
def coordinate (t : Tuple ν) (i : Nat) : Outcome ν := do
  match (← t.toList)[i]? with
  | some entry => entry.toNumber
  | none => throw .listIndex

/-- The two entries of a list that has no others. -/
def toPair (t : Tuple ν) : Outcome (Tuple ν × Tuple ν) := do
  match ← t.toList with
  | [x, y] => return (x, y)
  | [] => throw (.pairTooShort 0)
  | [_] => throw (.pairTooShort 1)
  | _ => throw .pairTooLong

/-- The point of the first two entries. -/
def point (t : Tuple ν) : Outcome (Point ν) := return ⟨← t.coordinate 0, ← t.coordinate 1⟩

/-- Two points, read coordinate by coordinate. -/
def points2 (p q : Tuple ν) : Outcome (Point ν × Point ν) := do
  let px ← p.coordinate 0
  let qx ← q.coordinate 0
  let py ← p.coordinate 1
  let qy ← q.coordinate 1
  return (⟨px, py⟩, ⟨qx, qy⟩)

/-- Three points, read coordinate by coordinate. -/
def points3 (p q r : Tuple ν) : Outcome (Point ν × Point ν × Point ν) := do
  let px ← p.coordinate 0
  let qx ← q.coordinate 0
  let rx ← r.coordinate 0
  let py ← p.coordinate 1
  let qy ← q.coordinate 1
  let ry ← r.coordinate 1
  return (⟨px, py⟩, ⟨qx, qy⟩, ⟨rx, ry⟩)

variable [Add ν] [Sub ν] [Mul ν] [Div ν] [Neg ν] [Scalar ν]

/-- The length of the line from one point to another. -/
def distance (p q : Tuple ν) : Outcome ν := do
  let (q, p) ← points2 q p
  return Point.distance p q

/-- The direction from one point to another in degrees. -/
def bearing (p q : Tuple ν) : Outcome ν := do
  let (q, p) ← points2 q p
  return Point.bearing p q

/-- Where the lines through two points meet. The points of parallel lines are not looked at. -/
def intersection? (p d q e : Tuple ν) : Outcome (Option (Point ν)) := do
  let dx ← d.coordinate 0
  let ey ← e.coordinate 1
  let dy ← d.coordinate 1
  let ex ← e.coordinate 0
  let d : Point ν := ⟨dx, dy⟩
  let e : Point ν := ⟨ex, ey⟩
  if Point.areParallel d e then return none
  let (q, p) ← points2 q p
  Point.intersection? p d q e

/-- The control point of an arc that has none of its own. -/
def defaultControl (start finish : Tuple ν) : Outcome (Point ν) := do
  let (finish, start) ← points2 finish start
  PathStudio.defaultControl start finish

/-- The point of a curve at a parameter; outside 0 to 1 only the nearer end is looked at. -/
def curvePoint (t : ν) (p0 p1 p2 : Tuple ν) : Outcome (Point ν) := do
  if le t 0 then p0.point
  else if le 1 t then p2.point
  else
    let (p0, p1, p2) ← points3 p0 p1 p2
    return Bezier.inner t p0 p1 p2

/-- The direction of a curve at a parameter in degrees. -/
def curveTangent (t : ν) (p0 p1 p2 : Tuple ν) : Outcome ν := do
  let (p1, p0, p2) ← points3 p1 p0 p2
  return Bezier.tangent t p0 p1 p2

/-- The length of a curve over equal steps. A single step looks at the ends only. -/
def curveLength (p0 p1 p2 : Tuple ν) : (steps : Nat) → Outcome ν
  | 0 => .ok 0
  | 1 => do
    let finish ← p2.point
    let start ← p0.point
    return Bezier.length start start finish 1
  | steps => do
    let (p0, p1, p2) ← points3 p0 p1 p2
    return Bezier.length p0 p1 p2 steps

/-- A polyline with its corners cut. -/
def smooth (polyline : Tuple ν) : Outcome (List (Point ν)) := do
  return Polyline.smooth (← (← polyline.toList).mapM point)

/-- Fills the gaps between points as they are read. -/
def refineList (gap spacing : ν) : List (Tuple ν) → Outcome (List (Point ν))
  | [] => .ok []
  | [p] => do return [← p.point]
  | p :: q :: rest => do
    let start ← p.point
    let finish ← q.point
    let filling ← Polyline.fill gap spacing start finish
    let more ← refineList gap spacing (q :: rest)
    return start :: (filling ++ more)

/-- A polyline with its long gaps filled. -/
def refine (gap spacing : ν) (polyline : Tuple ν) : Outcome (List (Point ν)) := do
  refineList gap spacing (← polyline.toList)

end Tuple

end PathStudio
