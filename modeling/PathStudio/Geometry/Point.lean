import PathStudio.Scalar

/-!
# Points, poses and angles

Positions on the field in metres, with the distance and the direction from one
to another, and poses, which add a heading in radians. Angles in degrees are
reduced to one turn; a program carries whole degrees, and its heading is the
negated heading of the path, to the nearest degree.
-/

namespace PathStudio

/-- A position on the field. -/
structure Point (ν : Type) where
  x : ν
  y : ν
  deriving DecidableEq, Repr

/-- A position with a heading in radians. -/
structure Pose (ν : Type) where
  x : ν
  y : ν
  h : ν
  deriving DecidableEq, Repr

/-- The position of a pose. -/
def Pose.point {ν : Type} (p : Pose ν) : Point ν := ⟨p.x, p.y⟩

open Scalar

variable {ν : Type} [Add ν] [Sub ν] [Mul ν] [Div ν] [Neg ν] [Scalar ν]

/-- Lengths below this one count as nothing. -/
def negligible : ν := 1e-6

/-- Degrees of an angle in radians. -/
def toDegrees (r : ν) : ν := r * 180 / pi

/-- Radians of an angle in degrees. -/
def toRadians (d : ν) : ν := d * pi / 180

/-- The pose at the origin that faces along the first axis. -/
def Pose.origin : Pose ν := ⟨0, 0, 0⟩

namespace Point

/-- The length of the line from one point to another. -/
def distance (p q : Point ν) : ν := hypot (q.x - p.x) (q.y - p.y)

/-- The direction from one point to another in degrees. -/
def bearing (p q : Point ν) : ν := toDegrees (atan2 (q.y - p.y) (q.x - p.x))

/-- The cross product of two vectors. -/
def cross (d e : Point ν) : ν := d.x * e.y - d.y * e.x

/-- Whether two vectors have the same direction or opposite ones, or nearly so. -/
def areParallel (d e : Point ν) : Bool := lt (abs (cross d e)) negligible

/-- Where the lines through two points, in the directions of two vectors, meet; nothing if they
are parallel. -/
def intersection? (p d q e : Point ν) : Outcome (Option (Point ν)) := do
  if areParallel d e then return none
  let dx := q.x - p.x
  let dy := q.y - p.y
  let s ← divide (dx * e.y - dy * e.x) (cross d e)
  return some ⟨p.x + s * d.x, p.y + s * d.y⟩

end Point

/-! ## Angles -/

/-- The nearest integer, a half going up. -/
def roundHalfUp (v : ν) : Outcome Int := floor (v + 0.5)

/-- The angle above -180 and up to 180 degrees that differs by whole turns. -/
def normalizeDegrees (d : ν) : Outcome ν := do
  let r ← remainder d 360
  if lt 180 r then return r - 360
  else if le r (-180) then return r + 360
  else return r

/-- The whole degrees that a program gives for a heading in radians. -/
def programHeading (h : ν) : Outcome Int := roundHalfUp (toDegrees (-h))

end PathStudio
