import PathStudio.Geometry.Point

/-!
# Canvas

A picture is the list of strokes that make it. Positions are exact where they
come from the field and whole where they belong to the window itself.
-/

namespace PathStudio.Window

/-- A colour by its red, green and blue parts. -/
structure Colour where
  red : Nat
  green : Nat
  blue : Nat
  deriving DecidableEq, Repr

/-- The width and the height of a surface in pixels. -/
structure Extent where
  width : Int
  height : Int
  deriving DecidableEq, Repr

/-- A position on a surface. -/
inductive Spot (ν : Type) where
  | whole (x y : Int)
  | exact (p : Point ν)

/-- One step of drawing a picture. Where no width is given the pen is as wide as it is by itself;
a circle or polygon of width zero is filled. -/
inductive Stroke (ν : Type) where
  | line (colour : Colour) (start finish : Spot ν) (width : Option Nat)
  | polyline (colour : Colour) (points : List (Point ν)) (width : Nat)
  | circle (colour : Colour) (centre : Spot ν) (radius : Nat) (width : Option Nat)
  | polygon (colour : Colour) (corners : List (Point ν)) (width : Nat)
  | label (text : String) (colour : Colour) (corner : Spot ν)
  /-- Fills a sheet of its own with a colour of some opacity. -/
  | fill (sheet : Extent) (colour : Colour) (opacity : Nat)
  /-- Lays the sheet over the picture. -/
  | overlay (sheet : Extent) (corner : Spot ν)

/-- Drawing that can be refused part of the way; the strokes made so far stay. -/
abbrev Drawing (ν α : Type) := ExceptT Fault (StateM (Array (Stroke ν))) α

/-- Makes a stroke. -/
def draw {ν : Type} (s : Stroke ν) : Drawing ν Unit := modify (·.push s)

/-- The result of a drawing, if it came to its end, and its strokes. -/
def Drawing.strokes {ν α : Type} (d : Drawing ν α) : Outcome α × Array (Stroke ν) :=
  StateT.run (ExceptT.run d) #[]

end PathStudio.Window
