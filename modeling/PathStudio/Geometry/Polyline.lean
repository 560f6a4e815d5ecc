import PathStudio.Geometry.Point

/-!
# Polylines

The line that a field-oriented run follows: corners are cut twice, points that
fall together are merged, and long gaps are filled with evenly spaced points.
-/

namespace PathStudio.Polyline

open Scalar

variable {ν : Type} [Add ν] [Sub ν] [Mul ν] [Div ν] [Neg ν] [Scalar ν]

/-- Points after a kept one, without those too close to the last one kept. -/
def collapseAfter (last : Point ν) : List (Point ν) → List (Point ν)
  | [] => []
  | p :: rest =>
    if le (Point.distance last p) negligible then collapseAfter last rest
    else p :: collapseAfter p rest

/-- A polyline without points too close to the one before. -/
def collapse : List (Point ν) → List (Point ν)
  | [] => []
  | p :: rest => p :: collapseAfter p rest

/-- The points at one and three quarters of the way from one point to another. -/
def quarterPoints (p q : Point ν) : List (Point ν) :=
  [⟨0.75 * p.x + 0.25 * q.x, 0.75 * p.y + 0.25 * q.y⟩,
   ⟨0.25 * p.x + 0.75 * q.x, 0.25 * p.y + 0.75 * q.y⟩]

/-- The quarter points of each edge after a point, and the last point. -/
def cutAfter (p : Point ν) : List (Point ν) → List (Point ν)
  | [] => [p]
  | q :: rest => quarterPoints p q ++ cutAfter q rest

/-- A polyline with every edge replaced by its quarter points, both ends kept. -/
def cutCorners : List (Point ν) → List (Point ν)
  | [] => []
  | p :: rest => p :: cutAfter p rest

/-- Two rounds of cutting corners and merging points; nothing for a single point. -/
def smooth (points : List (Point ν)) : List (Point ν) :=
  match points with
  | [] | [_] => []
  | _ => collapse (cutCorners (collapse (cutCorners points)))

/-- The longest gap that is left unfilled. -/
def defaultGap : ν := 0.5

/-- The spacing that gaps are filled with. -/
def defaultSpacing : ν := 0.2

/-- The point a fraction of the way from one point to another. -/
def between (p q : Point ν) (f : ν) : Point ν := ⟨p.x + (q.x - p.x) * f, p.y + (q.y - p.y) * f⟩

/-- The points that fill the gap between two points, if it is too long. -/
def fill (gap spacing : ν) (p q : Point ν) : Outcome (List (Point ν)) := do
  let d := Point.distance p q
  if lt gap d then
    let n ← ceil (← divide d spacing)
    return (List.range' 1 (n.toNat - 1)).map fun (k : Nat) => between p q (ofInt k / ofInt n)
  else return []

/-- A polyline with its long gaps filled. -/
def refine (gap spacing : ν) : List (Point ν) → Outcome (List (Point ν))
  | [] => .ok []
  | [p] => .ok [p]
  | p :: q :: rest => do
    let filling ← fill gap spacing p q
    let more ← refine gap spacing (q :: rest)
    return p :: (filling ++ more)

end PathStudio.Polyline
