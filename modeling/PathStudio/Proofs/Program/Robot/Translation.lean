import PathStudio.Program.Robot.Print
import PathStudio.Proofs.Geometry.Translation
import PathStudio.Proofs.Program.Adoption

/-!
# Robot-oriented programs are relative

A robot-oriented program says how far and in which direction to go, never where. Over the real
numbers a path that is moved as a whole is written as the same program, and a program that is read
from another start gives the same path, moved by the difference of the starts. The headings of the
starts do not matter.
-/

namespace PathStudio

/-! ## Paths moved by a vector -/

section Paths

variable {ν : Type} [Add ν]

/-- A motion whose own control point, if it has one, is moved by a vector. -/
def Motion.translated (v : Point ν) : Motion ν → Motion ν
  | .drive => .drive
  | .strafe => .strafe
  | .arc control => .arc (control.map (Point.translated v))

/-- A move whose end and own control point are moved by a vector. -/
def Move.translated (v : Point ν) (m : Move ν) : Move ν :=
  { m with motion := m.motion.translated v, pose := m.pose.translated v }

/-- An action that is shown elsewhere. -/
def Action.translated (v : Point ν) (a : Action ν) : Action ν :=
  { a with pose := a.pose.translated v }

def Waypoint.translated (v : Point ν) : Waypoint ν → Waypoint ν
  | .move m => .move (m.translated v)
  | .action a => .action (a.translated v)

def Marker.translated (v : Point ν) (m : Marker ν) : Marker ν :=
  { m with x := m.x + v.x, y := m.y + v.y }

/-- A layout whose start, waypoints and control points are moved by a vector. Its markers stay, as
a program does not say where they are. -/
def Layout.translated (v : Point ν) (l : Layout ν) : Layout ν :=
  { l with start := l.start.translated v, waypoints := l.waypoints.map (Waypoint.translated v) }

@[simp] theorem Move.point_translated (v : Point ν) (m : Move ν) :
    (m.translated v).point = Point.translated v m.point := rfl

/-- A motion of a kind alone has no control point to move. -/
@[simp] theorem Motion.translated_ofKind (v : Point ν) (k : MoveKind) :
    (Motion.ofKind k : Motion ν).translated v = .ofKind k := by
  cases k <;> rfl

end Paths

namespace Program

open Exact

/-! ## Writing -/

namespace Robot

variable (v : Point ℝ)

theorem arcLines_translated (start control : Point ℝ) (m : Move ℝ) (samples : Outcome Int) :
    arcLines (Point.translated v start) (Point.translated v control) (m.translated v) samples =
      arcLines start control m samples := by
  have inner (count : Nat) :
      innerSample (Point.translated v start) (Point.translated v control)
          (Point.translated v m.point) count =
        innerSample start control m.point count := by
    funext sample
    simp only [innerSample, tangent_translated]
  simp only [arcLines, Move.point_translated, length_translated, inner]
  rfl

/-- A move is written by its length and its direction, an arc by its shape. -/
theorem moveLines_translated (samples : Outcome Int) (start : Point ℝ) (m : Move ℝ) :
    moveLines samples (Point.translated v start) (m.translated v) = moveLines samples start m := by
  simp only [moveLines, Move.point_translated, distance_translated, bearing_translated]
  split
  · rfl
  · obtain ⟨motion, pose, speed⟩ := m
    cases motion with
    | drive => rfl
    | strafe => rfl
    | arc own =>
      have lines (control : Point ℝ) := arcLines_translated v start control ⟨.arc own, pose, speed⟩ samples
      cases own with
      | some control => exact congrArg _ (funext fun _ => lines control)
      | none =>
        -- the derived control point is moved as well
        have control := defaultControl_translated v start pose.point
        refine congrArg _ (funext fun _ => ?_)
        change defaultControl (Point.translated v start) (Point.translated v pose.point) >>= _ =
          defaultControl start pose.point >>= _
        rw [control]
        cases defaultControl start pose.point with
        | error fault => rfl
        | ok derived => exact lines derived

theorem waypointLines_translated (l : Layout ℝ) (samples : Outcome Int) (start : Point ℝ)
    (ws : List (Waypoint ℝ)) :
    waypointLines (l.translated v) samples (Point.translated v start)
        (ws.map (Waypoint.translated v)) =
      waypointLines l samples start ws := by
  induction ws generalizing start with
  | nil => rfl
  | cons w ws ih =>
    cases w with
    | move m =>
      simp only [List.map_cons, Waypoint.translated, waypointLines, moveLines_translated,
        Move.point_translated, ih]
    | action a =>
      simp only [List.map_cons, Waypoint.translated, waypointLines, ih]
      rfl

/-- A path that is moved as a whole, with its start and the control points of its arcs, is written
as the same program or refused for the same reason. -/
theorem print_translated (l : Layout ℝ) (samples : Outcome Int) :
    print (l.translated v) samples = print l samples :=
  congrArg (· >>= fun lines => pure (Text.unlines (opening ++ lines)))
    (waypointLines_translated v l samples l.start.point l.waypoints)

end Robot

/-! ## Reading -/

namespace Draft

variable (v : Point ℝ) (d : Draft ℝ)

/-- A draft whose waypoints and markers are all moved by a vector. -/
noncomputable def translated : Draft ℝ :=
  { d with
    waypoints := d.waypoints.map (Waypoint.translated v)
    markers := d.markers.map (Marker.translated v) }

/-- Calls are told apart by what they call and not by where they are. -/
theorem markerFor_translated (name args : List Char) (at_ : Point ℝ) :
    (d.translated v).markerFor name args (Point.translated v at_) =
      ((d.markerFor name args at_).1.translated v, (d.markerFor name args at_).2.translated v) := by
  have found : (d.translated v).markers.find?
        (fun m => m.name = String.ofList name && m.args = String.ofList args) =
      (d.markers.find? fun m => m.name = String.ofList name && m.args = String.ofList args).map
        (Marker.translated v) :=
    List.find?_map ..
  simp only [markerFor, found]
  cases d.markers.find? fun m => m.name = String.ofList name && m.args = String.ofList args with
  | some m => rfl
  | none => simp [translated, Marker.translated, Point.translated]

@[simp] theorem add_translated (w : Waypoint ℝ) :
    (d.translated v).add (w.translated v) = (d.add w).translated v := by
  simp [add, translated]

end Draft

@[simp] theorem markerAction_translated (v : Point ℝ) (m : Marker ℝ) :
    markerAction (m.translated v) = (markerAction m).translated v := rfl

namespace Robot

namespace Trail

/-- A trail whose path and cursor are moved by a vector. -/
noncomputable def translated (v : Point ℝ) (t : Trail ℝ) : Trail ℝ :=
  { t with draft := t.draft.translated v, cursor := Point.translated v t.cursor }

variable (v : Point ℝ) (t : Trail ℝ)

theorem ahead_translated (length degrees : ℝ) :
    (t.translated v).ahead length degrees =
      (t.ahead length degrees).map (Point.translated v) :=
  congrArg Except.ok (Exact.ahead_translated v t.cursor length degrees)

theorem move_translated {motion : Motion ℝ} (own : motion.translated v = motion) (p : Point ℝ)
    (degrees speed : ℝ) :
    (t.translated v).move motion (Point.translated v p) degrees speed =
      (t.move motion p degrees speed).translated v := by
  simp only [move, translated, ← Draft.add_translated, Waypoint.translated, Move.translated, own]
  rfl

@[simp] theorem addArc_translated (a : OpenArc) :
    (t.translated v).addArc a = (t.addArc a).map (translated v) := by
  simp only [addArc, ahead_translated]
  cases t.ahead a.length.value (arcHeadings (arcSamples a.body)).1 with
  | error fault => rfl
  | ok p => exact congrArg Except.ok (move_translated v { t with pending := none } rfl p _ _)

@[simp] theorem addCall_translated (name args : List Char) :
    (t.translated v).addCall name args = (t.addCall name args).translated v := by
  have marker := Draft.markerFor_translated v t.draft name args t.cursor
  simp only [addCall, translated] at marker ⊢
  rw [marker, markerAction_translated, Draft.add_translated]

@[simp] theorem extendArc_translated (a : OpenArc) (line : List Char) :
    (t.translated v).extendArc a line = (t.extendArc a line).map (translated v) := by
  simp only [extendArc]
  split
  · exact addArc_translated v t _
  · rfl

theorem readLine_translated (line : List Char) :
    (t.translated v).readLine line = (t.readLine line).map (translated v) := by
  have pending : (t.translated v).pending = t.pending := rfl
  rw [readLine, readLine, pending]
  cases t.pending with
  | some a => exact extendArc_translated v t a line
  | none =>
    dsimp only
    cases Command.ofLine line with
    | turn | nothing => rfl
    | travel kind length degrees =>
      rw [run, run, ahead_translated]
      cases t.ahead length.value degrees.value with
      | error fault => rfl
      | ok p =>
        have own := Motion.translated_ofKind v kind
        exact congrArg Except.ok (move_translated v t own p degrees.value defaultSpeed)
    | arc length speed => exact extendArc_translated v t _ line
    | call name args => exact congrArg Except.ok (addCall_translated v t name args)

@[simp] theorem finish_translated : (t.translated v).finish = t.finish.map (translated v) := by
  have pending : (t.translated v).pending = t.pending := rfl
  rw [finish, finish, pending]
  cases t.pending with
  | some a => exact addArc_translated v t a
  | none => rfl

end Trail

/-- Over the real numbers every text is read: a step in a direction always leads somewhere. -/
theorem exists_read (text : List Char) (prior : Session ℝ) : ∃ s, read text prior = .ok s := by
  have never (x : ℝ) (f : ℝ → ℝ) : FailsOnly (fun _ => False) (.ok (f x) : Outcome ℝ) := .ok _
  have reads : FailsOnly (fun _ => False) (read text prior) :=
    failsOnly_read (fun x => never x Real.cos) (fun x => never x Real.sin) text prior
  cases h : read text prior with
  | ok s => exact ⟨s, rfl⟩
  | error fault => exact (reads fault h).elim

/-- The vector from one start to another. -/
noncomputable def startShift (one other : Pose ℝ) : Point ℝ := ⟨other.x - one.x, other.y - one.y⟩

@[simp] theorem translated_startShift (one other : Pose ℝ) :
    Point.translated (startShift one other) one.point = other.point := by
  simp [Point.translated, startShift, Pose.point]

/-- A text is read from every start, and the session keeps its start. From two starts the paths are
the same but for the vector between the starts, by which every waypoint and every marker is moved. -/
theorem read_translated (text : List Char) (prior : Session ℝ) (other : Pose ℝ) :
    ∃ s, read text prior = .ok s ∧ s.start = prior.start ∧
      read text { prior with start := other } =
        .ok { s with
          start := other
          waypoints := s.waypoints.map (Waypoint.translated (startShift prior.start other))
          markers := s.markers.map (Marker.translated (startShift prior.start other)) } := by
  obtain ⟨s, h⟩ := exists_read text prior
  obtain ⟨trail, lines, ending⟩ := bind_eq_ok.mp h
  obtain ⟨last, finished, made⟩ := bind_eq_ok.mp ending
  cases made
  have begun : (⟨.after { prior with start := other }, other.point, none⟩ : Trail ℝ) =
      Trail.translated (startShift prior.start other) ⟨.after prior, prior.start.point, none⟩ := by
    rw [Trail.translated, translated_startShift]
    rfl
  refine ⟨_, h, rfl, ?_⟩
  rw [read, begun, foldlM_map_of_commutes (Trail.readLine_translated _), lines]
  change (trail.translated _).finish >>= _ = _
  rw [Trail.finish_translated, finished]
  rfl

end Robot

end Program

end PathStudio
