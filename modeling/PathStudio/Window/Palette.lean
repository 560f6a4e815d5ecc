import PathStudio.Session.Waypoint
import PathStudio.Window.Canvas

/-!
# Palette

The colours of what is drawn.
-/

namespace PathStudio.Window.Palette

def gridLine : Colour := ⟨50, 50, 50⟩
def start : Colour := ⟨16, 185, 129⟩
def startHandle : Colour := ⟨6, 95, 70⟩
def drive : Colour := ⟨59, 130, 246⟩
def strafe : Colour := ⟨234, 179, 8⟩
def arc : Colour := ⟨6, 182, 212⟩
def action : Colour := ⟨167, 139, 250⟩
def handle : Colour := ⟨245, 158, 11⟩
def handleKnob : Colour := ⟨180, 83, 9⟩
def control : Colour := ⟨236, 72, 153⟩
def robot : Colour := ⟨239, 68, 68⟩
def arrow : Colour := ⟨255, 255, 255⟩
def label : Colour := ⟨255, 255, 255⟩
def selected : Colour := ⟨16, 185, 129⟩
def preview : Colour := ⟨16, 185, 129⟩
def statusText : Colour := ⟨220, 220, 220⟩
def statusSheet : Colour := ⟨0, 0, 0⟩

/-- The colour of a kind of move. -/
def ofKind : MoveKind → Colour
  | .drive => drive
  | .strafe => strafe
  | .arc => arc

end PathStudio.Window.Palette
