import PathStudio.Geometry.Point

/-!
# Quadratic curves

An arc is a quadratic Bézier curve between two points with one control point.
Without an explicit control point it bulges to the left of its chord.
-/

namespace PathStudio

open Scalar

variable {ν : Type} [Add ν] [Sub ν] [Mul ν] [Div ν] [Neg ν] [Scalar ν]

/-- The control point of an arc that has none of its own: the middle of the chord, moved to the
left by three tenths of the chord's length. -/
def defaultControl (start finish : Point ν) : Outcome (Point ν) := do
  let dx := finish.x - start.x
  let dy := finish.y - start.y
  let midX := (start.x + finish.x) / 2
  let midY := (start.y + finish.y) / 2
  let length := hypot dx dy
  if lt length negligible then return ⟨midX, midY⟩
  let across := atan2 dy dx + pi / 2
  let offset := length * 0.3
  return ⟨midX + (← cos across) * offset, midY + (← sin across) * offset⟩

namespace Bezier

/-- The point of a curve at a parameter strictly between 0 and 1. -/
def inner (t : ν) (p0 p1 p2 : Point ν) : Point ν :=
  let mt := 1 - t
  let a := mt * mt
  let b := 2 * mt * t
  let c := t * t
  ⟨a * p0.x + b * p1.x + c * p2.x, a * p0.y + b * p1.y + c * p2.y⟩

/-- The point of a curve at a parameter; outside 0 to 1 the nearer end. -/
def point (t : ν) (p0 p1 p2 : Point ν) : Point ν :=
  if le t 0 then p0 else if le 1 t then p2 else inner t p0 p1 p2

/-- The direction of a curve at a parameter in degrees. -/
def tangent (t : ν) (p0 p1 p2 : Point ν) : ν :=
  let mt := 1 - t
  let dx := 2 * mt * (p1.x - p0.x) + 2 * t * (p2.x - p1.x)
  let dy := 2 * mt * (p1.y - p0.y) + 2 * t * (p2.y - p1.y)
  toDegrees (atan2 dy dx)

/-- The parameter of the given one of `steps` equal steps. -/
def parameter (step steps : Nat) : ν := ofInt step / ofInt steps

/-- The total length of the chords from a point through the curve points of the given steps. -/
def chords (p0 p1 p2 : Point ν) (steps : Nat) (last : Point ν) (total : ν) : List Nat → ν
  | [] => total
  | step :: more =>
    let next := point (parameter step steps) p0 p1 p2
    chords p0 p1 p2 steps next (total + Point.distance last next) more

/-- The length of a curve as the sum of its chords over equal steps. -/
def length (p0 p1 p2 : Point ν) (steps : Nat) : ν :=
  chords p0 p1 p2 steps p0 0 (List.range' 1 steps)

/-- The number of chords that stand for a curve where nothing else is asked. -/
def defaultSteps : Nat := 10

end Bezier

end PathStudio
