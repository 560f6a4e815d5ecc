import PathStudio.Geometry.Point

/-!
# The window

The field seen through a window: metres from the middle of the field become
pixels from the upper left corner. Every pose has a handle a little way off in
the direction of its heading.
-/

namespace PathStudio.Window

open Scalar

variable {ν : Type} [Add ν] [Sub ν] [Mul ν] [Div ν] [Neg ν] [Scalar ν]

/-- Half the width of the field in metres. -/
def halfField : ν := (3.6576 : ν) / 2

/-- The height of the window in pixels. -/
def height : ν := 720

/-- The pixels of one metre. -/
def scale : ν := (720 : ν) / 3.6576

/-- The pixels of a point on the field. -/
def toPixels (p : Point ν) : Point ν := ⟨(p.x + halfField) * scale, height - (p.y + halfField) * scale⟩

/-- The point on the field that is seen at a pixel. -/
def toMetres (p : Point ν) : Point ν := ⟨p.x / scale - halfField, (height - p.y) / scale - halfField⟩

/-- How far a handle is from its pose, in pixels. -/
def handleRadius : ν := 18

/-- Where the handle of a pose is seen. -/
def handle (p : Pose ν) : Outcome (Point ν) := do
  let centre := toPixels p.point
  return ⟨centre.x + (← cos p.h) * handleRadius, centre.y + (← sin p.h) * handleRadius⟩

/-- The heading of a pose at a point whose handle is seen at a pixel. -/
def headingAt (p : Point ν) (mouse : Point ν) : ν :=
  let centre := toPixels p
  atan2 (mouse.y - centre.y) (mouse.x - centre.x)

end PathStudio.Window
