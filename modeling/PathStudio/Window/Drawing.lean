import PathStudio.Geometry.Tuple
import PathStudio.Session.Basic
import PathStudio.Window.Palette
import PathStudio.Window.Viewport

/-!
# Drawing

The pictures of the window: the grid, a session with its handles and control
points, the planned motion, the robot and the status strip.

A stroke is never refused by the surface that it is drawn on. A library that
draws text may refuse a label that contains a null character, and some refuse a
label without any width; such refusals are not part of a drawing here. What
refuses a drawing is the arithmetic of its coordinates.
-/

namespace PathStudio.Window

open Scalar

/-- The multiples of a step, zero first, that lie before a bound. -/
def multiplesBefore (bound step : Int) : List Int :=
  let count := if 0 < bound * step then (bound.natAbs + step.natAbs - 1) / step.natAbs else 0
  (List.range count).map fun (k : Nat) => (k : Int) * step

variable {ν : Type} [Add ν] [Sub ν] [Mul ν] [Div ν] [Neg ν] [Scalar ν]

/-- The whole number of pixels between two grid lines. -/
def gridStride (spacing : ν) : Outcome Int := do
  let stride ← truncate spacing
  if stride = 0 then throw .zeroStride
  return stride

/-- Draws the lines of the grid. -/
def drawGrid (surface : Extent) (spacing : ν) : Drawing ν Unit := do
  let stride ← gridStride spacing
  for x in multiplesBefore surface.width stride do
    draw (.line Palette.gridLine (.whole x 0) (.whole x surface.height) none)
  for y in multiplesBefore surface.height stride do
    draw (.line Palette.gridLine (.whole 0 y) (.whole surface.width y) none)

/-- The corners of a diamond around a pixel. -/
def diamond (p : Point ν) : List (Point ν) :=
  [⟨p.x, p.y - 7⟩, ⟨p.x + 7, p.y⟩, ⟨p.x, p.y + 7⟩, ⟨p.x - 7, p.y⟩]

/-- Draws the robot at a point of the field, with an arrow in the direction of its heading in
degrees. -/
def drawRobot (position : Point ν) (heading : ν) : Drawing ν Unit := do
  let p := toPixels position
  draw (.circle Palette.robot (.whole (← truncate p.x) (← truncate p.y)) 8 none)
  let angle := heading * (pi / 180)
  let tip : Point ν := ⟨p.x + (← cos angle) * 18, p.y - (← sin angle) * 18⟩
  draw (.line Palette.arrow (.exact p) (.exact tip) (some 2))

/-- Draws a planned motion; a single point is no motion. -/
def drawPreview (points : List (Point ν)) : Drawing ν Unit := do
  if 2 ≤ points.length then draw (.polyline Palette.preview (points.map toPixels) 3)

/-- Draws a planned motion whose points are given as tuples. -/
def drawTuples (points : Tuple ν) : Drawing ν Unit := do
  let points ← points.toList
  if 2 ≤ points.length then
    let points : List (Point ν) ← (points.mapM Tuple.point : Outcome (List (Point ν)))
    drawPreview points

/-- Draws the handle of a pose: a line and a knob. -/
def drawHandle (line knob : Colour) (p : Pose ν) : Drawing ν Unit := do
  let grip ← handle p
  draw (.line line (.exact (toPixels p.point)) (.exact grip) none)
  draw (.circle knob (.exact grip) 6 none)

/-- The pixels that an arc is drawn through. -/
def arcPixels (start control finish : Point ν) : List (Point ν) :=
  (List.range 25).map fun (k : Nat) => toPixels (Bezier.point (ofInt k / 24) start control finish)

/-- Draws a leg; where control points are shown, an arc as a curve with its control point. -/
def drawLeg (showControl : Bool) (leg : Layout.Leg ν) : Drawing ν Unit := do
  let colour := Palette.ofKind leg.move.kind
  let start := leg.before.point
  let finish := leg.move.point
  let control ← if showControl then Layout.controlOf leg.move.motion start finish else pure none
  match control with
  | some c =>
    draw (.polyline colour (arcPixels start c finish) 2)
    let pixel := toPixels c
    draw (.line Palette.control (.exact (toPixels finish)) (.exact pixel) (some 2))
    draw (.circle Palette.control (.exact pixel) 8 none)
  | none => draw (.line colour (.exact (toPixels start)) (.exact (toPixels finish)) (some 2))

/-- Draws a waypoint; a move has its handle shown on demand, an action is labelled with the name
of its marker. -/
def drawWaypoint (showHandle : Bool) (l : Layout ν) (index : Nat) (w : Waypoint ν) :
    Drawing ν Unit := do
  let p := toPixels w.pose.point
  if l.selection.any (·.isAt index) then draw (.circle Palette.selected (.exact p) 12 (some 2))
  match w with
  | .action a =>
    draw (.polygon Palette.action (diamond p) 0)
    match l.marker? a.markerId with
    | some m => draw (.label m.name Palette.label (.exact ⟨p.x + 10, p.y - 6⟩))
    | none => pure ()
  | .move m =>
    draw (.circle (Palette.ofKind m.kind) (.exact p) 6 none)
    if showHandle then drawHandle Palette.handle Palette.handleKnob m.pose

/-- Draws waypoints from a place on. -/
def drawWaypoints (showHandle : Bool) (l : Layout ν) (index : Nat) :
    List (Waypoint ν) → Drawing ν Unit
  | [] => pure ()
  | w :: rest => do
    drawWaypoint showHandle l index w
    drawWaypoints showHandle l (index + 1) rest

/-- Draws a path in a mode: the start, the legs, the waypoints and the markers. -/
def drawLayout (mode : Mode) (l : Layout ν) : Drawing ν Unit := do
  draw (.circle Palette.start (.exact (toPixels l.start.point)) 8 none)
  drawHandle Palette.start Palette.startHandle l.start
  l.legs.forM (drawLeg mode.isRobot)
  drawWaypoints mode.isRobot l 0 l.waypoints
  l.markers.forM fun m => draw (.polygon Palette.action (diamond (toPixels ⟨m.x, m.y⟩)) 1)

/-- Draws lines of text below each other from a height on. -/
def drawLines (lineHeight : Int) (top : Int) : List String → Drawing ν Unit
  | [] => pure ()
  | text :: rest => do
    draw (.label text Palette.statusText (.whole 8 top))
    drawLines lineHeight (top + lineHeight) rest

/-- Draws the status strip along the upper edge, one line of text for each entry. -/
def drawStatus (surface : Extent) (lineHeight : Int) (lines : List String) : Drawing ν Unit := do
  let sheet : Extent := ⟨surface.width, lineHeight * lines.length + 8⟩
  draw (.fill sheet Palette.statusSheet 170)
  draw (.overlay sheet (.whole 0 0))
  drawLines lineHeight 4 lines

end PathStudio.Window
