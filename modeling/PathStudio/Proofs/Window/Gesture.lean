import PathStudio.Window.Gesture
import PathStudio.Proofs.Session.Dragging
import PathStudio.Proofs.Session.Undo
import PathStudio.Proofs.Window.Picking

/-!
# Drags from press to release

A gesture on a part that a path has can be moved anywhere. Each movement sets its
part anew from where the mouse is, so that only the last one counts, and the first
one saves the layout, so that one undo takes the whole gesture back.
-/

namespace PathStudio.Window

variable {ν : Type} [Add ν] [Sub ν] [Mul ν] [Div ν] [Neg ν] [Scalar ν]

/-! ## Movements -/

/-- A waypoint of which a part has been dragged to a pixel. -/
def draggedWaypoint (part : Part) (mouse : Point ν) (w : Waypoint ν) : Waypoint ν :=
  match part, w with
  | .waypoint, w => (w.relocate (toMetres mouse).x (toMetres mouse).y).plain
  | .heading, w => w.turn (headingAt w.pose.point mouse)
  | .control, .move m => .move (m.pulled (toMetres mouse))
  | _, w => w

/-- A start of which a part has been dragged to a pixel. -/
def draggedStart (part : Part) (mouse : Point ν) (start : Pose ν) : Pose ν :=
  match part with
  | .start => ⟨(toMetres mouse).x, (toMetres mouse).y, start.h⟩
  | .startHeading => ⟨start.x, start.y, headingAt start.point mouse⟩
  | _ => start

/-- A session in which a part has been dragged to a pixel. -/
def Hit.dragged (hit : Hit) (mouse : Point ν) (s : Session ν) : Session ν :=
  match hit.index with
  | none => { s with start := draggedStart hit.part mouse s.start }
  | some i => { s with waypoints := s.waypoints.modify i (draggedWaypoint hit.part mouse) }

/-- The parts of a path that can be dragged. -/
inductive Grips (l : Layout ν) : Hit → Prop
  | start : Grips l ⟨.start, none⟩
  | startHeading : Grips l ⟨.startHeading, none⟩
  | waypoint {i : Nat} {w : Waypoint ν} (there : l.waypoints[i]? = some w) :
    Grips l ⟨.waypoint, some i⟩
  | heading {i : Nat} {w : Waypoint ν} (there : l.waypoints[i]? = some w) :
    Grips l ⟨.heading, some i⟩
  | control {i : Nat} {m : Move ν} (there : l.waypoints[i]? = some (.move m))
    (bends : m.kind = .arc) : Grips l ⟨.control, some i⟩

/-- Whatever a path shows can be dragged, but for an action. -/
theorem grips_of_shows {mode : Mode} {l : Layout ν} {hit : Hit} {pixel : Point ν}
    (h : Shows mode l hit pixel) (drags : hit.part ≠ .action) : Grips l hit := by
  cases h with
  | start => exact .start
  | startHeading => exact .startHeading
  | action => exact absurd rfl drags
  | waypoint there => exact .waypoint there
  | heading there => exact .heading there
  | control there bends => exact .control there bends

/-- A part of a waypoint is one of a waypoint that is there. -/
theorem Shows.lt_length {mode : Mode} {l : Layout ν} {hit : Hit} {pixel : Point ν} {i : Nat}
    (h : Shows mode l hit pixel) (place : hit.index = some i) : i < l.waypoints.length := by
  cases h with
  | start | startHeading => cases place
  | action there | waypoint there | heading there | control there =>
    cases place
    exact (List.getElem?_eq_some_iff.mp there).1

section Dragged

variable {s : Session ν} {hit : Hit}

theorem draggedWaypoint_draggedWaypoint (part : Part) (first mouse : Point ν) (w : Waypoint ν) :
    draggedWaypoint part mouse (draggedWaypoint part first w) = draggedWaypoint part mouse w := by
  cases part with
  | waypoint =>
    cases w with
    | move m => simp [draggedWaypoint, Waypoint.relocate, Waypoint.plain, Move.relocate, Move.plain,
        Motion.plain]
    | action a => rfl
  | heading => cases w <;> rfl
  | control => cases w <;> rfl
  | start | startHeading | action => rfl

@[simp] theorem draggedStart_draggedStart (part : Part) (first mouse : Point ν) (start : Pose ν) :
    draggedStart part mouse (draggedStart part first start) = draggedStart part mouse start := by
  cases part <;> rfl

/-- Only the last movement counts. -/
theorem Hit.dragged_dragged (hit : Hit) (first mouse : Point ν) (s : Session ν) :
    hit.dragged mouse (hit.dragged first s) = hit.dragged mouse s := by
  rw [dragged, dragged, dragged]
  cases hit.index with
  | none =>
    dsimp only
    rw [draggedStart_draggedStart]
  | some i =>
    dsimp only
    rw [List.modify_modify_eq]
    have same : draggedWaypoint hit.part mouse ∘ draggedWaypoint hit.part first =
        draggedWaypoint hit.part mouse :=
      funext (draggedWaypoint_draggedWaypoint hit.part first mouse)
    rw [same]

/-- A part that has been dragged can be dragged on. -/
theorem Grips.dragged (h : Grips s.toLayout hit) (mouse : Point ν) :
    Grips (hit.dragged mouse s).toLayout hit := by
  have place {i : Nat} {w : Waypoint ν} (f : Waypoint ν → Waypoint ν)
      (there : s.waypoints[i]? = some w) : (s.waypoints.modify i f)[i]? = some (f w) := by
    rw [List.getElem?_modify_eq, there]
    rfl
  cases h with
  | start => exact .start
  | startHeading => exact .startHeading
  | waypoint there => exact .waypoint (place _ there)
  | heading there => exact .heading (place _ there)
  | control there => exact .control (place _ there) rfl

theorem Hit.dragged_of_getElem? {i : Nat} {w : Waypoint ν} (there : s.waypoints[i]? = some w)
    (part : Part) (mouse : Point ν) :
    Hit.dragged ⟨part, some i⟩ mouse s = s.setWaypoint i (draggedWaypoint part mouse w) := by
  rw [dragged, Session.setWaypoint]
  dsimp only
  rw [List.modify_eq_set_getElem?, there]
  rfl

/-- A drag of a part that the path has is not refused. -/
theorem on_dragPart (h : Grips s.toLayout hit) (mouse : Point ν) :
    Edit.on (dragPart (some hit.part) (Gesture.ofHit hit).index mouse) s =
      (.ok (), hit.dragged mouse s) := by
  cases h with
  | start => rfl
  | startHeading => rfl
  | waypoint there =>
    rw [Hit.dragged_of_getElem? there]
    exact Edit.on_dragWaypoint (Layout.locate_natCast there) there _ _
  | @heading i w there =>
    have found : (liftM (s.toLayout.waypointAt i) : Edit ν (Waypoint ν)).on s = (.ok w, s) :=
      congrArg (·, s) (Layout.waypointAt_natCast there)
    rw [Hit.dragged_of_getElem? there]
    refine (Edit.on_bind_ok (a := s.toLayout) rfl).trans ?_
    refine (Edit.on_bind_ok (a := (i : Int)) rfl).trans ?_
    rw [Edit.on_bind_ok found]
    exact Edit.on_dragHeading (Layout.locate_natCast there) there _
  | control there bends =>
    rw [Hit.dragged_of_getElem? there]
    exact Edit.on_dragArcControl _ (Layout.locate_natCast there) there bends

/-- What is not dragged stays as it is. -/
theorem Hit.dragged_frame (hit : Hit) (mouse : Point ν) (s : Session ν) :
    let t := hit.dragged mouse s
    t.markers = s.markers ∧ t.selection = s.selection ∧ t.mode = s.mode ∧
      t.nextMarkerId = s.nextMarkerId ∧ t.history = s.history ∧
      (hit.index = none → t.waypoints = s.waypoints) ∧
      ∀ i, hit.index = some i → t.start = s.start ∧ t.waypoints.length = s.waypoints.length ∧
        ∀ j, j ≠ i → t.waypoints[j]? = s.waypoints[j]? := by
  obtain ⟨part, index⟩ := hit
  cases index with
  | none => exact ⟨rfl, rfl, rfl, rfl, rfl, fun _ => rfl, fun _ => nofun⟩
  | some i =>
    refine ⟨rfl, rfl, rfl, rfl, rfl, nofun, ?_⟩
    rintro _ ⟨⟩
    refine ⟨rfl, List.length_modify .., fun j other => ?_⟩
    exact List.getElem?_modify_ne _ _ other.symm

end Dragged

/-! ## Gestures -/

/-- Moves a gesture to one pixel after the other. -/
def Gesture.drag : Gesture → List (Point ν) → Edit ν Unit
  | _, [] => pure ()
  | g, mouse :: rest => do
    (g.move (.ok mouse)).1
    Gesture.drag (g.move (.ok mouse)).2 rest

section Gestures

variable {s : Session ν} {hit : Hit}

/-- A gesture that has moved goes on to where the mouse comes at last. -/
theorem on_drag_moved (h : Grips s.toLayout hit) (mice : List (Point ν)) (last : Point ν) :
    ({ Gesture.ofHit hit with moved := true }.drag (mice ++ [last])).on s =
      (.ok (), hit.dragged last s) := by
  induction mice generalizing s with
  | nil => exact (Edit.on_bind_ok (on_dragPart h last)).trans (Edit.on_pure () _)
  | cons mouse rest ih =>
    refine (Edit.on_bind_ok (on_dragPart h mouse)).trans ((ih (h.dragged mouse)).trans ?_)
    rw [Hit.dragged_dragged]

/-- A gesture saves the layout and drags its part to where the mouse comes at last. -/
theorem on_drag (h : Grips s.toLayout hit) (mice : List (Point ν)) (last : Point ν) :
    ((Gesture.ofHit hit).drag (mice ++ [last])).on s = (.ok (), hit.dragged last s.saved) := by
  have saving (mouse : Point ν) : ((Gesture.ofHit hit).move (.ok mouse)).1.on s =
      (.ok (), hit.dragged mouse s.saved) :=
    (Edit.on_bind_ok (Edit.on_saveState s)).trans (on_dragPart (s := s.saved) h mouse)
  cases mice with
  | nil => exact (Edit.on_bind_ok (saving last)).trans (Edit.on_pure () _)
  | cons mouse rest =>
    refine (Edit.on_bind_ok (saving mouse)).trans ?_
    refine (on_drag_moved (Grips.dragged (s := s.saved) h mouse) rest last).trans ?_
    rw [Hit.dragged_dragged]

/-- A drag of what a click has found is one step, and only where the mouse comes at last counts. It
saves the layout once, changes nothing but the start or the waypoint that it holds, and one undo
takes it back. -/
theorem drag_is_one_step {mouse : Point ν} {radius : ν}
    (picked : pick s.mode s.toLayout mouse radius = .ok (some hit)) (drags : hit.part ≠ .action)
    (mice : List (Point ν)) (last : Point ν) :
    ∃ t, ((Gesture.ofHit hit).drag (mice ++ [last])).on s = (.ok (), t) ∧
      ((Gesture.ofHit hit).drag [last]).on s = (.ok (), t) ∧
      t.history = (s.toLayout :: s.history).take historyLimit ∧
      (t.markers = s.markers ∧ t.selection = s.selection ∧ t.mode = s.mode ∧
        t.nextMarkerId = s.nextMarkerId ∧ (hit.index = none → t.waypoints = s.waypoints) ∧
        ∀ i, hit.index = some i → t.start = s.start ∧ t.waypoints.length = s.waypoints.length ∧
          ∀ j, j ≠ i → t.waypoints[j]? = s.waypoints[j]?) ∧
      ∃ u, Edit.undo.on t = (.ok true, u) ∧ u.toLayout = s.toLayout := by
  obtain ⟨pixel, shown, -⟩ := finds_pick picked
  have grips := grips_of_shows shown drags
  obtain ⟨markers, selection, mode, next, history, start, waypoint⟩ :=
    hit.dragged_frame last s.saved
  refine ⟨_, on_drag grips mice last, on_drag grips [] last, history,
    ⟨markers, selection, mode, next, start, waypoint⟩, _, on_undo_of_cons history, rfl⟩

end Gestures

/-- An arc with its control point in the middle of the chord. -/
def bow : Session Float :=
  { start := ⟨0.0, 0.0, 0.0⟩
    waypoints := [.move ⟨.arc (some ⟨0.5, 0.0⟩), ⟨1.0, 0.0, 0.0⟩, 0.8⟩]
    markers := []
    selection := none
    mode := .dialect .robot
    nextMarkerId := 1
    past := .empty }

theorem pick_bow :
    letI := Program.Robot.axes.scalar
    pick bow.mode bow.toLayout ⟨458.0, 360.0⟩ 10.0 = .ok (some ⟨.control, some 0⟩) := by
  exact eq_ok_of_toOption (by decide +kernel)

/-- The control point is dragged by two movements. -/
theorem drag_is_one_step_bow :
    letI := Program.Robot.axes.scalar
    pick bow.mode bow.toLayout ⟨458.0, 360.0⟩ 10.0 = .ok (some ⟨.control, some 0⟩) ∧
      Part.control ≠ .action ∧
      ∃ t u, ((Gesture.ofHit ⟨.control, some 0⟩).drag [⟨400.0, 300.0⟩, ⟨450.0, 200.0⟩]).on bow =
          (.ok (), t) ∧
        ((Gesture.ofHit ⟨.control, some 0⟩).drag [⟨450.0, 200.0⟩]).on bow = (.ok (), t) ∧
        t.history = [bow.toLayout] ∧ t.start = bow.start ∧ Edit.undo.on t = (.ok true, u) ∧
        u.toLayout = bow.toLayout := by
  let := Program.Robot.axes.scalar
  have drags : Part.control ≠ .action := by decide
  obtain ⟨t, both, last, history, ⟨-, -, -, -, -, others⟩, u, undone, back⟩ :=
    drag_is_one_step pick_bow drags [⟨400.0, 300.0⟩] ⟨450.0, 200.0⟩
  exact ⟨pick_bow, drags, t, u, both, last, history, (others 0 rfl).1, undone, back⟩

section Picked

variable {s : Session ν} {mouse : Point ν} {radius : ν} {found : Option Hit}

/-- A click that answers with a part answers with one that the path has and that is seen within the
radius, and a gesture on it can be moved anywhere unless it is an action. A click that answers with
nothing has no part within the radius. With exact numbers a click always answers, and within the
radius is what is less than the radius away. -/
theorem pick_sound_complete (picked : pick s.mode s.toLayout mouse radius = .ok found) :
    (∀ hit, found = some hit →
      (∃ pixel, Shows s.mode s.toLayout hit pixel ∧ Within mouse radius pixel) ∧
      (∀ i, hit.index = some i → i < s.waypoints.length) ∧
      (hit.part ≠ .action → ∀ mice : List (Point ν),
        ∃ t, ((Gesture.ofHit hit).drag mice).on s = (.ok (), t))) ∧
    (found = none →
      ∀ hit pixel, Shows s.mode s.toLayout hit pixel → ¬ Within mouse radius pixel) ∧
    ∀ (mode : Mode) (l : Layout ℝ) (mouse : Point ℝ) (radius : ℝ), 0 ≤ radius →
      (∃ found, pick mode l mouse radius = .ok found) ∧
      ∀ pixel, Within mouse radius pixel ↔ Point.distance mouse pixel < radius := by
  have finds := finds_pick picked
  refine ⟨?_, ?_, fun mode l mouse radius nonnegative => ?_⟩
  · rintro hit rfl
    obtain ⟨pixel, shown, inside⟩ := finds
    refine ⟨⟨pixel, shown, inside⟩, fun i place => shown.lt_length place, fun drags mice => ?_⟩
    obtain rfl | ⟨front, last, rfl⟩ := List.eq_nil_or_concat' mice
    · exact ⟨s, rfl⟩
    · exact ⟨_, on_drag (grips_of_shows shown drags) front last⟩
  · rintro rfl
    exact finds
  · exact ⟨exists_pick mode l mouse radius, fun pixel => within_iff nonnegative⟩

end Picked

/-- A click beside the control point of an arc finds it, and it can be dragged. -/
theorem pick_sound_complete_bow :
    letI := Program.Robot.axes.scalar
    pick bow.mode bow.toLayout ⟨458.0, 360.0⟩ 10.0 = .ok (some ⟨.control, some 0⟩) ∧
      (∃ pixel, Shows bow.mode bow.toLayout ⟨.control, some 0⟩ pixel ∧
        Within ⟨458.0, 360.0⟩ 10.0 pixel) ∧
      0 < bow.waypoints.length ∧
      ∃ t, ((Gesture.ofHit ⟨.control, some 0⟩).drag [⟨0.0, 0.0⟩, ⟨700.0, 10.0⟩]).on bow =
        (.ok (), t) := by
  let := Program.Robot.axes.scalar
  obtain ⟨sound, -, -⟩ := pick_sound_complete pick_bow
  obtain ⟨shown, inside, moves⟩ := sound _ rfl
  exact ⟨pick_bow, shown, inside 0 rfl, moves (by decide) _⟩

/-- A path without waypoints. -/
def bare : Session Float :=
  { start := ⟨0.0, 0.0, 0.0⟩, waypoints := [], markers := [], selection := none
    mode := .dialect .robot, nextMarkerId := 1, past := .empty }

/-- The square of a radius may be too small for a double. Then a click finds nothing, even where it is
made right at the start. -/
theorem pick_misses_within_tiny_radius :
    letI := Program.Robot.axes.scalar
    Program.Robot.FiniteNumbers bare.toLayout ∧
      Program.Robot.FinitePoint ⟨360.0, 360.0⟩ ∧ (1e-200 : Float).isFinite = true ∧
      (0.0 : Float) ≤ 1e-200 ∧
      pick bare.mode bare.toLayout ⟨360.0, 360.0⟩ 1e-200 = .ok none ∧
      Shows bare.mode bare.toLayout ⟨.start, none⟩ ⟨360.0, 360.0⟩ ∧
      Point.distance (⟨360.0, 360.0⟩ : Point Float) ⟨360.0, 360.0⟩ < 1e-200 := by
  let := Program.Robot.axes.scalar
  have seen : toPixels bare.start.point = ⟨360.0, 360.0⟩ := by decide +kernel
  have numbers : Program.Robot.FiniteNumbers bare.toLayout :=
    ⟨by decide, fun _ => nofun, fun _ => nofun, fun _ => nofun⟩
  have mouse : Program.Robot.FinitePoint ⟨360.0, 360.0⟩ := ⟨by decide, by decide⟩
  exact ⟨numbers, mouse, by decide +kernel, by decide +kernel,
    eq_ok_of_toOption (by decide +kernel), seen ▸ .start, by decide +kernel⟩

end PathStudio.Window
