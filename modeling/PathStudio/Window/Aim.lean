import PathStudio.Geometry.Tuple
import PathStudio.Window.Picking

/-!
# Aiming

Which pixels are near to the mouse, and in which direction it is seen, where the
pixels and the mouse are given as tuples. Without a pixel to compare with, the
place of the mouse is not looked at.
-/

namespace PathStudio.Window.Aim

open Scalar

variable {ν : Type} [Add ν] [Sub ν] [Mul ν] [Div ν] [Neg ν] [Scalar ν]

/-- The square of the distance between a pixel and the mouse, one coordinate after the other. -/
def squaredDistance (pixel mouse : Tuple ν) : Outcome ν := do
  let (x, y) ← pixel.toPair
  let dx ← square ((← x.toNumber) - (← mouse.coordinate 0))
  let dy ← square ((← y.toNumber) - (← mouse.coordinate 1))
  return dx + dy

/-- The place of the nearest pixel so far, with the bound that a nearer one has to be under. -/
def nearestFrom (mouse : Tuple ν) (best : ν) (found : Option Nat) (index : Nat) :
    List (Tuple ν) → Outcome (Option Nat)
  | [] => .ok found
  | pixel :: rest => do
    let d ← squaredDistance pixel mouse
    if lt d best then nearestFrom mouse d (some index) (index + 1) rest
    else nearestFrom mouse best found (index + 1) rest

/-- The place of the nearest pixel within a radius, the first of equally near ones. -/
def nearest (pixels mouse : Tuple ν) (radius : ν) : Outcome (Option Nat) := do
  nearestFrom mouse (radius * radius) none 0 (← pixels.toList)

/-- The heading of a pose at a point whose handle is dragged to the mouse. -/
def heading (p : Point ν) (mouse : Tuple ν) : Outcome ν := do
  let y ← mouse.coordinate 1
  let x ← mouse.coordinate 0
  return headingAt p ⟨x, y⟩

end PathStudio.Window.Aim
