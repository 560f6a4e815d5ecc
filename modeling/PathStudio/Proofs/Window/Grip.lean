import PathStudio.Proofs.Session.Totality
import PathStudio.Proofs.Window.Gesture
import PathStudio.Proofs.Window.Totality

/-!
# Parts that are held while the path changes

A gesture holds a part by the place of its waypoint. As long as the path has the part, the gesture can
be moved; once it is gone, a movement is refused. Adding waypoints and actions leaves every part
where it is.
-/

namespace PathStudio.Window

open Double

variable {N count : Nat} {trig : Trigonometry} {s t : Session Float} {hit : Hit} {mouse : Point Float}

/-! ## Drags of sound sessions -/

theorem bounded_draggedWaypoint (circular : trig.Circular) (part : Part) {w : Waypoint Float}
    (hw : w.Bounded N) (hmouse : mouse.Bounded 10) (wide : 16 ≤ N) (small : N ≤ 700) :
    letI := trig.scalar
    (draggedWaypoint part mouse w).Bounded N := by
  let := trig.scalar
  have place := (bounded_toMetres trig hmouse).mono wide
  cases part with
  | waypoint => exact (hw.relocate place.x place.y).plain
  | heading =>
    exact hw.turn ((bounded_headingAt circular.toLawful hw.pose.point (hmouse.mono (by omega))
      (by omega) (by omega)).mono (by omega))
  | control =>
    cases w with
    | action a => exact hw
    | move m =>
      obtain ⟨pose, speed, -⟩ : m.Bounded N := hw
      have away := (bounded_atan2 circular.toLawful (pose.y.sub place.y (by omega))
        (pose.x.sub place.x (by omega))).mono (by omega : _ ≤ N)
      refine ⟨⟨pose.x, pose.y, away⟩, speed, fun c own => ?_⟩
      obtain rfl := Option.some.inj (Motion.arc.inj own)
      exact place
  | start | startHeading | action => exact hw

theorem bounded_draggedStart (circular : trig.Circular) (part : Part) {start : Pose Float}
    (h : start.Bounded N) (hmouse : mouse.Bounded 10) (wide : 16 ≤ N) (small : N ≤ 700) :
    letI := trig.scalar
    (draggedStart part mouse start).Bounded N := by
  let := trig.scalar
  have place := (bounded_toMetres trig hmouse).mono wide
  cases part with
  | start => exact ⟨place.x, place.y, h.h⟩
  | startHeading =>
    exact ⟨h.x, h.y, (bounded_headingAt circular.toLawful h.point (hmouse.mono (by omega)) (by omega)
      (by omega)).mono (by omega)⟩
  | waypoint | heading | control | action => exact h

/-- Dragging within the window leaves a session sound. -/
theorem sound_dragged (circular : trig.Circular) (h : s.Sound N count) (hit : Hit)
    (hmouse : mouse.Bounded 10) (wide : 16 ≤ N) (small : N ≤ 700) :
    letI := trig.scalar
    (hit.dragged mouse s).Sound N count := by
  let := trig.scalar
  obtain ⟨-, selection, mode, -, history, -⟩ := hit.dragged_frame mouse s
  have length : (hit.dragged mouse s).waypoints.length = s.waypoints.length := by
    rw [Hit.dragged]
    split
    · rfl
    · exact List.length_modify ..
  have bounded : (hit.dragged mouse s).toLayout.Bounded N := by
    rw [Hit.dragged]
    split
    · exact ⟨bounded_draggedStart circular _ h.bounded.start hmouse wide small, h.bounded.waypoints,
        h.bounded.markers⟩
    · refine ⟨h.bounded.start, fun w hw => ?_, h.bounded.markers⟩
      obtain ⟨k, hk⟩ := List.mem_iff_getElem?.mp hw
      rw [List.getElem?_modify] at hk
      obtain ⟨v, hv, rfl⟩ := Option.map_eq_some_iff.mp hk
      have within := h.bounded.waypoints v (List.mem_of_getElem? hv)
      split
      · exact bounded_draggedWaypoint circular _ within hmouse wide small
      · exact within
  refine h.of_layouts (Nat.le_refl _) ⟨bounded, length.trans_le h.layout.few⟩ ?_
    (h.anchored.replaced (h.anchored.layout.congr length selection) history) ?_
  · rw [history]
    exact List.subset_cons_self _ _
  · obtain ⟨d, hd⟩ := h.dialect
    exact ⟨d, mode.trans hd⟩

/-! ## Gestures -/

/-- A gesture on a part that the path has goes on. -/
theorem exists_move (circular : trig.Circular) (h : s.Sound N count) (grips : Grips s.toLayout hit)
    (moved : Bool) (hmouse : mouse.Bounded 10) (wide : 16 ≤ N) (small : N ≤ 700) :
    letI := trig.scalar
    ∃ t, Change.on (({ Gesture.ofHit hit with moved } : Gesture).move (.ok mouse)).1 s = (.ok (), t) ∧
      t.Sound N count ∧ Grips t.toLayout hit := by
  let := trig.scalar
  cases moved with
  | true =>
    exact ⟨_, on_dragPart grips mouse, sound_dragged circular h hit hmouse wide small,
      grips.dragged mouse⟩
  | false =>
    have held : Grips s.saved.toLayout hit := grips
    exact ⟨_, (Edit.on_bind_ok (Edit.on_saveState s)).trans (on_dragPart held mouse),
      sound_dragged circular h.saved hit hmouse wide small, held.dragged mouse⟩

/-- The faults of a movement whose part is gone. -/
def IsLost (fault : Fault) : Prop := fault = .listIndex ∨ fault = .noControlPoint

theorem locate_of_length_le {l : Layout Float} {i : Nat} (beyond : l.waypoints.length ≤ i)
    (narrow : i < 2 ^ 63) : l.locate i = .error .listIndex := by
  have none : Json.position? l.waypoints.length i = none := by
    rw [Json.position?, if_pos (Int.natCast_nonneg i), if_neg (by omega)]
  have fits : Layout.isTooWide i = false := by
    rw [Layout.isTooWide, decide_eq_false (by omega), decide_eq_false (by omega)]
    rfl
  rw [Layout.locate, none, Layout.indexFault, fits]
  rfl

/-- A drag of a part that the path had once and has no more is refused. -/
theorem exists_on_dragPart_of_not_grips (trig : Trigonometry) {l : Layout Float} (once : Grips l hit)
    (narrow : l.waypoints.length ≤ 2 ^ 63) (gone : ¬ Grips s.toLayout hit) (mouse : Point Float) :
    letI := trig.scalar
    ∃ fault, Change.on (dragPart (some hit.part) (Gesture.ofHit hit).index mouse) s =
      (.error fault, s) ∧ IsLost fault := by
  let := trig.scalar
  have small {i : Nat} {w : Waypoint Float} (there : l.waypoints[i]? = some w) : i < 2 ^ 63 :=
    (List.getElem?_eq_some_iff.mp there).1.trans_le narrow
  have refused {i : Nat} (narrow : i < 2 ^ 63) (nothing : s.waypoints[i]? = none) :
      s.toLayout.locate i = .error .listIndex :=
    locate_of_length_le (List.getElem?_eq_none_iff.mp nothing) narrow
  have lost {i : Nat} (narrow : i < 2 ^ 63) (nothing : s.waypoints[i]? = none) :
      Change.on (Edit.located (.ok (i : Int)) : Edit Float Nat) s = (.error .listIndex, s) :=
    congrArg (·, s) (refused narrow nothing)
  cases once with
  | start => exact absurd .start gone
  | startHeading => exact absurd .startHeading gone
  | @waypoint i w there =>
    cases now : s.waypoints[i]? with
    | some v => exact absurd (.waypoint now) gone
    | none => exact ⟨_, Change.on_bind_error (lost (small there) now), .inl rfl⟩
  | @heading i w there =>
    cases now : s.waypoints[i]? with
    | some v => exact absurd (.heading now) gone
    | none =>
      have nowhere : s.toLayout.waypointAt i = .error .listIndex := by
        rw [Layout.waypointAt, refused (small there) now]
        rfl
      refine ⟨_, (Change.on_bind_ok (a := s.toLayout) rfl).trans
        ((Change.on_bind_ok (a := (i : Int)) rfl).trans (Change.on_bind_error ?_)), .inl rfl⟩
      exact congrArg (·, s) nowhere
  | @control i m there =>
    cases now : s.waypoints[i]? with
    | none => exact ⟨_, Change.on_bind_error (lost (small there) now), .inl rfl⟩
    | some v =>
      have found : Change.on (Edit.located (.ok (i : Int)) : Edit Float Nat) s = (.ok i, s) :=
        Edit.on_located (Layout.locate_natCast now)
      have looked : Change.on (Edit.waypoint i) s = (.ok v, s) := Edit.on_waypoint now
      refine ⟨_, (Change.on_bind_ok found).trans ((Change.on_bind_ok looked).trans ?_), .inr rfl⟩
      cases v with
      | action a => rfl
      | move m =>
        obtain ⟨motion, pose, speed⟩ := m
        cases motion with
        | drive | strafe => rfl
        | arc own => exact absurd (.control now rfl) gone

/-- A gesture whose part is gone is refused, and at most the layout has been saved then. -/
theorem exists_move_of_not_grips (trig : Trigonometry) {l : Layout Float} (once : Grips l hit)
    (narrow : l.waypoints.length ≤ 2 ^ 63) (gone : ¬ Grips s.toLayout hit) (moved : Bool)
    (mouse : Point Float) :
    letI := trig.scalar
    ∃ fault t, Change.on (({ Gesture.ofHit hit with moved } : Gesture).move (.ok mouse)).1 s =
      (.error fault, t) ∧ IsLost fault ∧ t.toLayout = s.toLayout := by
  let := trig.scalar
  cases moved with
  | true =>
    obtain ⟨fault, run, lost⟩ := exists_on_dragPart_of_not_grips trig once narrow gone mouse
    exact ⟨fault, s, run, lost, rfl⟩
  | false =>
    obtain ⟨fault, run, lost⟩ :=
      exists_on_dragPart_of_not_grips (s := s.saved) trig once narrow gone mouse
    exact ⟨fault, s.saved, (Change.on_bind_ok (Edit.on_saveState s)).trans run, lost, rfl⟩

/-! ## Parts that stay -/

/-- Parts stay if every waypoint up to the last move stays at its place. -/
theorem Grips.append {l : Layout Float} (h : Grips s.toLayout hit) (more : List (Waypoint Float))
    (waypoints : l.waypoints = s.waypoints ++ more) : Grips l hit := by
  have stays {i : Nat} {w : Waypoint Float} (there : s.waypoints[i]? = some w) :
      l.waypoints[i]? = some w := by
    rw [waypoints, List.getElem?_append_left (List.getElem?_eq_some_iff.mp there).1, there]
  cases h with
  | start => exact .start
  | startHeading => exact .startHeading
  | waypoint there => exact .waypoint (stays there)
  | heading there => exact .heading (stays there)
  | control there bends => exact .control (stays there) bends

/-- An action is put behind all moves, so that it moves no part but those of actions. -/
theorem Grips.insertAction {l : Layout Float} (h : Grips s.toLayout hit) {a : Action Float}
    (waypoints : l.waypoints = s.waypoints.insertIdx (Layout.actionPlace s.waypoints) (.action a)) :
    Grips l hit := by
  have longer {i : Nat} {w : Waypoint Float} (there : s.waypoints[i]? = some w) :
      ∃ v, l.waypoints[i]? = some v := by
    refine ⟨_, List.getElem?_eq_getElem ?_⟩
    rw [waypoints, List.length_insertIdx_of_le_length (Layout.actionPlace_le _)]
    exact Nat.lt_succ_of_lt (List.getElem?_eq_some_iff.mp there).1
  cases h with
  | start => exact .start
  | startHeading => exact .startHeading
  | waypoint there =>
    obtain ⟨v, hv⟩ := longer there
    exact .waypoint hv
  | heading there =>
    obtain ⟨v, hv⟩ := longer there
    exact .heading hv
  | @control i m there bends =>
    refine .control ?_ bends
    obtain ⟨front, back, split, place, -, actions⟩ := Layout.exists_actionPlace s.waypoints
    have before : i < front.length := by
      by_contra behind
      rw [split, List.getElem?_append_right (Nat.not_lt.mp behind)] at there
      cases actions _ (List.mem_of_getElem? there)
    rw [waypoints, List.getElem?_insertIdx_of_lt (place ▸ before), there]

end PathStudio.Window
