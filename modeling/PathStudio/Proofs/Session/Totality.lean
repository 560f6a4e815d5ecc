import PathStudio.Proofs.Program.Robot.AddedAction
import PathStudio.Proofs.Geometry.Magnitude
import PathStudio.Proofs.Session.Selection

/-!
# Edits that are not refused

In a session whose numbers are bounded and whose selection names a waypoint, the edits that a mouse
and a keyboard ask for are carried out, and the session stays of that kind.
-/

namespace PathStudio

open Change

/-- A layout with bounded numbers and not too many waypoints. -/
structure Layout.Sound (N count : Nat) (l : Layout Float) : Prop where
  bounded : l.Bounded N
  few : l.waypoints.length ≤ count

/-- A session in a dialect whose layouts, the present one and the earlier ones, are bounded and
select at most a waypoint of their own. -/
structure Session.Sound (N count : Nat) (s : Session Float) : Prop where
  layouts : ∀ l ∈ s.toLayout :: s.history, l.Sound N count
  anchored : s.Anchored false
  dialect : ∃ d, s.mode = .dialect d

variable {N count : Nat} {s t : Session Float} {i : Nat} {w : Waypoint Float}

/-! ## Bounded waypoints -/

namespace Waypoint

variable {x y h : Float}

theorem Bounded.pose (hw : w.Bounded N) : w.pose.Bounded N := by
  cases w with
  | move m => exact Move.Bounded.pose hw
  | action a => exact hw

theorem Bounded.plain (hw : w.Bounded N) : w.plain.Bounded N := by
  cases w with
  | move m =>
    obtain ⟨pose, speed, -⟩ : m.Bounded N := hw
    refine ⟨pose, speed, fun c own => ?_⟩
    cases hm : m.motion with
    | drive | strafe | arc => simp [Move.plain, Motion.plain, Motion.ofKind, Motion.kind, hm] at own
  | action a => exact hw

theorem Bounded.relocate (hw : w.Bounded N) (hx : Double.Bounded N x) (hy : Double.Bounded N y) :
    (w.relocate x y).Bounded N := by
  cases w with
  | move m =>
    obtain ⟨pose, speed, control⟩ : m.Bounded N := hw
    exact ⟨⟨hx, hy, pose.h⟩, speed, control⟩
  | action a =>
    obtain ⟨-, -, heading⟩ : a.pose.Bounded N := hw
    exact ⟨hx, hy, heading⟩

theorem Bounded.turn (hw : w.Bounded N) (hh : Double.Bounded N h) : (w.turn h).Bounded N := by
  cases w with
  | move m =>
    obtain ⟨pose, speed, control⟩ : m.Bounded N := hw
    exact ⟨⟨pose.x, pose.y, hh⟩, speed, control⟩
  | action a =>
    obtain ⟨hx, hy, -⟩ : a.pose.Bounded N := hw
    exact ⟨hx, hy, hh⟩

end Waypoint

/-! ## Sound sessions -/

theorem Layout.Sound.mono {l : Layout Float} {more : Nat} (h : l.Sound N count) (le : count ≤ more) :
    l.Sound N more :=
  ⟨h.bounded, h.few.trans le⟩

namespace Session.Sound

theorem layout (h : s.Sound N count) : s.toLayout.Sound N count := h.layouts _ List.mem_cons_self

theorem bounded (h : s.Sound N count) : s.toLayout.Bounded N := h.layout.bounded

/-- A session of which some layouts are as before and the others are sound. -/
theorem of_layouts {more : Nat} (h : s.Sound N count) (le : count ≤ more)
    (layout : t.toLayout.Sound N more) (history : t.history ⊆ s.toLayout :: s.history)
    (anchored : t.Anchored false) (mode : ∃ d, t.mode = .dialect d) : t.Sound N more := by
  refine ⟨fun l hl => ?_, anchored, mode⟩
  obtain rfl | earlier := List.mem_cons.mp hl
  · exact layout
  · exact (h.layouts l (history earlier)).mono le

theorem saved (h : s.Sound N count) : s.saved.Sound N count :=
  h.of_layouts (Nat.le_refl _) h.layout (fun _ hl => List.mem_of_mem_take hl) h.anchored.saved h.dialect

theorem mono {more : Nat} (h : s.Sound N count) (le : count ≤ more) : s.Sound N more :=
  h.of_layouts le (h.layout.mono le) (List.subset_cons_self _ _) h.anchored h.dialect

end Session.Sound

theorem Layout.Bounded.set {l : Layout Float} (h : l.Bounded N) (hw : w.Bounded N) :
    ({ l with waypoints := l.waypoints.set i w } : Layout Float).Bounded N :=
  ⟨h.start, fun v hv => (List.mem_or_eq_of_mem_set hv).elim (h.waypoints v) fun same => same ▸ hw,
    h.markers⟩

/-- A sound empty session. -/
theorem Session.sound_empty (trig : Double.Trigonometry) (d : Dialect) :
    letI := trig.scalar
    ({ Session.empty with mode := .dialect d } : Session Float).Sound N 0 := by
  let := trig.scalar
  have zero := Double.bounded_zero N
  refine ⟨?_, ?_, d, rfl⟩
  · intro l hl
    obtain rfl := List.mem_singleton.mp hl
    exact ⟨⟨⟨zero, zero, zero⟩, nofun, nofun⟩, Nat.le_refl 0⟩
  · intro l hl
    obtain rfl := List.mem_singleton.mp hl
    exact .of_none rfl

/-! ## Adding -/

namespace Edit

section Adding

variable {p : Pose Float} {q : Point Float} {speed tolerance : Float} {name args : String}

theorem on_addWaypoint (trig : Double.Trigonometry) (p : Pose Float) (speed : Float) (s : Session Float) :
    letI := trig.scalar
    Change.on (addWaypoint (.ofPose p) (.move .drive) (.number speed)) s =
      (.ok s.waypoints.length, { s.saved with
        waypoints := s.waypoints ++ [.move ⟨.drive, p, speed⟩]
        selection := some (.place s.waypoints.length) }) :=
  rfl

theorem sound_addWaypoint (trig : Double.Trigonometry) (h : s.Sound N count) (hp : p.Bounded N)
    (hspeed : Double.Bounded N speed) :
    letI := trig.scalar
    (Change.on (addWaypoint (.ofPose p) (.move .drive) (.number speed)) s).2.Sound N (count + 1) := by
  let := trig.scalar
  have anchored := keeps_addWaypoint (.ofPose p) (.move .drive) (.number speed) s h.anchored
  rw [on_addWaypoint trig] at anchored ⊢
  have added : Waypoint.Bounded N (.move ⟨.drive, p, speed⟩) := ⟨hp, hspeed, nofun⟩
  refine h.of_layouts (Nat.le_succ _) ⟨⟨h.bounded.start, ?_, h.bounded.markers⟩, ?_⟩
    (fun _ hl => List.mem_of_mem_take hl) anchored h.dialect
  · exact List.forall_mem_append.mpr ⟨h.bounded.waypoints, List.forall_mem_singleton.mpr added⟩
  · have few := h.layout.few
    rw [List.length_append, List.length_singleton]
    omega

theorem bounded_insertAction {l : Session Float} {a : Action Float} (h : l.toLayout.Bounded N)
    (trig : Double.Trigonometry) (ha : a.pose.Bounded N) :
    letI := trig.scalar
    (l.insertAction a).toLayout.Bounded N := by
  let := trig.scalar
  refine ⟨h.start, fun w hw => ?_, h.markers⟩
  obtain rfl | old := List.eq_or_mem_of_mem_insertIdx hw
  · exact ha
  · exact h.waypoints w old

/-- An action is added for a name that is not blank. -/
theorem exists_addOrReuseMarker (trig : Double.Trigonometry) (h : s.Sound N count)
    (hq : q.Bounded N) (named : trimmed name ≠ "") (args : String) (tolerance : Float) :
    letI := trig.scalar
    ∃ m t a, Change.on (addOrReuseMarker (.ofPoint q) (.ok name) (.ok args) (.number tolerance)) s =
      (.ok m, t) ∧ t.Sound N (count + 1) ∧
        t.waypoints = s.waypoints.insertIdx (Layout.actionPlace s.waypoints) (.action a) := by
  let := trig.scalar
  have anchored := keeps_addOrReuseMarker (.ofPoint q) (.ok name) (.ok args) (.number tolerance) s
    h.anchored
  obtain ⟨m, u, provides, run⟩ := exists_on_addOrReuseMarker s q args tolerance named
  have run' : Change.on (addOrReuseMarker (.ofPoint q) (.ok name) (.ok args) (.number tolerance)) s =
    (.ok m, u.insertAction ⟨⟨m.x, m.y, Double.ofInt 0⟩, m.id⟩) := run
  rw [run'] at anchored
  have zero := Double.bounded_zero N
  -- the marker is an earlier one or lies at the point
  obtain ⟨place, within, history⟩ : (⟨m.x, m.y⟩ : Point Float).Bounded N ∧ u.toLayout.Bounded N ∧
      u.history = s.saved.history := by
    cases provides with
    | reused near => exact ⟨h.bounded.markers m (List.mem_of_find?_eq_some near), h.bounded, rfl⟩
    | new none eq =>
      have here : (⟨m.x, m.y⟩ : Point Float).Bounded N := eq ▸ hq
      exact ⟨here, ⟨h.bounded.start, h.bounded.waypoints, List.forall_mem_append.mpr
        ⟨h.bounded.markers, List.forall_mem_singleton.mpr here⟩⟩, rfl⟩
  have waypoints := provides.waypoints_eq
  have inserted : (u.insertAction ⟨⟨m.x, m.y, Double.ofInt 0⟩, m.id⟩).waypoints =
      s.waypoints.insertIdx (Layout.actionPlace s.waypoints)
        (.action ⟨⟨m.x, m.y, Double.ofInt 0⟩, m.id⟩) := by
    rw [Session.insertAction, waypoints]
    rfl
  refine ⟨m, _, _, run', ?_, inserted⟩
  refine h.of_layouts (Nat.le_succ _)
    ⟨bounded_insertAction within trig ⟨place.x, place.y, zero⟩, ?_⟩ ?_ anchored ?_
  · have few := h.layout.few
    rw [inserted, List.length_insertIdx_of_le_length (Layout.actionPlace_le _)]
    omega
  · intro l hl
    have earlier : l ∈ s.saved.history := history ▸ hl
    exact List.mem_of_mem_take earlier
  · obtain ⟨d, hd⟩ := h.dialect
    exact ⟨d, provides.mode_eq.trans hd⟩

end Adding

/-! ## Changing what is selected -/

section Selected

variable {j : Selection Float}

theorem exists_place (h : s.Sound N count) (selected : s.selection = some j) :
    ∃ i, j.place? = some i ∧ i < s.waypoints.length := by
  have anchored := h.anchored.layout
  have named := anchored.named rfl (by rw [selected]; rfl)
  rw [Layout.selectedPlace?, selected, Option.bind_some] at named
  obtain ⟨i, hi⟩ := Option.isSome_iff_exists.mp named
  exact ⟨i, hi, anchored.lt_length i (by rw [Layout.selectedPlace?, selected, Option.bind_some, hi])⟩

/-- A selection that names a place is an index of it. -/
theorem position_of_place {i : Nat} (realText : Float → String) (place : j.place? = some i) :
    (j.index realText).position = .ok i := by
  cases j <;> cases place <;> rfl

theorem checkIndex_of_place (trig : Double.Trigonometry) {l : Layout Float} (realText : Float → String)
    (place : j.place? = some i) (inside : i < l.waypoints.length) :
    letI := trig.scalar
    l.checkIndex (j.index realText) = .ok () := by
  let := trig.scalar
  have among : (j.index realText).isAmong l.waypoints.length = .ok true := by
    cases j with
    | real => cases place
    | place n =>
      cases place
      exact congrArg Except.ok (decide_eq_true ⟨Int.natCast_nonneg _, by omega⟩)
    | flag b =>
      cases place
      exact congrArg Except.ok (decide_eq_true inside)
  rw [Layout.checkIndex, among]
  rfl

theorem exists_select (trig : Double.Trigonometry) (h : s.Sound N count)
    (inside : i < s.waypoints.length) :
    letI := trig.scalar
    ∃ t, Change.on (select (some (.whole i))) s = (.ok (), t) ∧ t.Sound N count ∧
      t.waypoints = s.waypoints := by
  let := trig.scalar
  have keeps : Change.Keeps (Session.Anchored false) (select (ν := Float) (some (.whole i))) :=
    keeps_select (some (.whole i)) nofun
  have anchored := keeps s h.anchored
  have checked : s.toLayout.checkIndex (IndexOperand.whole i : IndexOperand Float) = .ok () :=
    checkIndex_of_place trig (fun _ => "") (j := .place i) rfl inside
  have run : Change.on (select (some (.whole i))) s =
      (.ok (), { s with selection := some (.place i) }) := by
    rw [select, Change.on_bind_ok (e := check (.whole i)) (congrArg (·, s) checked)]
    rfl
  rw [run] at anchored
  refine ⟨_, run, h.of_layouts (Nat.le_refl _) ⟨?_, h.layout.few⟩ (List.subset_cons_self _ _) anchored
    h.dialect, rfl⟩
  exact ⟨h.bounded.start, h.bounded.waypoints, h.bounded.markers⟩

/-- What is selected is deleted. -/
theorem exists_deleteWaypoint (trig : Double.Trigonometry) (h : s.Sound N count)
    (realText : Float → String) (selected : s.selection = some j) :
    letI := trig.scalar
    ∃ t, Change.on (deleteWaypoint (j.index realText)) s = (.ok (), t) ∧ t.Sound N count := by
  let := trig.scalar
  obtain ⟨i, place, inside⟩ := exists_place h selected
  have anchored := keeps_deleteWaypoint (j.index realText) s h.anchored
  have checked := checkIndex_of_place trig realText place inside
  have found : s.saved.toLayout.locate i = .ok i :=
    Layout.locate_natCast (l := s.saved.toLayout) (List.getElem?_eq_getElem inside)
  have run : Change.on (deleteWaypoint (j.index realText)) s = (.ok (), { s.saved with
      waypoints := s.waypoints.eraseIdx i
      selection := Session.selectionWithout s.selection i }) := by
    rw [deleteWaypoint, Change.on_bind_ok (e := check (j.index realText)) (congrArg (·, s) checked),
      position_of_place realText place]
    refine (Change.on_bind_ok (on_saveState s)).trans ?_
    exact Change.on_bind_ok (on_located found)
  rw [run] at anchored
  refine ⟨_, run, h.of_layouts (Nat.le_refl _) ⟨⟨h.bounded.start, fun w hw => ?_, h.bounded.markers⟩, ?_⟩
    (fun _ hl => List.mem_of_mem_take hl) anchored h.dialect⟩
  · exact h.bounded.waypoints w (List.mem_of_mem_eraseIdx hw)
  · exact (List.length_eraseIdx_le _ _).trans h.layout.few

/-- What is selected is found, and a move gets another kind. -/
theorem exists_retypeWaypoint (trig : Double.Trigonometry) (h : s.Sound N count)
    (realText : Float → String) (selected : s.selection = some j) (kind : MoveKind) :
    letI := trig.scalar
    ∃ w, Change.on (do waypoint (← located (j.index realText).position)) s = (.ok w, s) ∧
      ∀ m, w = .move m →
        ∃ t, Change.on (retypeWaypoint (j.index realText) (.move kind)) s = (.ok (), t) ∧
          t.Sound N count := by
  let := trig.scalar
  obtain ⟨i, place, inside⟩ := exists_place h selected
  have there := List.getElem?_eq_getElem inside
  have found : Change.on (located (.ok (i : Int)) : Edit Float Nat) s = (.ok i, s) :=
    on_located (Layout.locate_natCast there)
  have looked : Change.on (waypoint i) s = (.ok s.waypoints[i], s) := on_waypoint there
  rw [position_of_place realText place]
  refine ⟨s.waypoints[i], (Change.on_bind_ok found).trans looked, fun m move => ?_⟩
  have anchored := keeps_retypeWaypoint (j.index realText) (.move kind) s h.anchored
  have checked := checkIndex_of_place trig realText place inside
  have run : Change.on (retypeWaypoint (j.index realText) (.move kind)) s =
      (.ok (), Session.setWaypoint { s.saved with
        mode := if s.mode.isField && kind = .arc then .dialect .robot else s.mode } i
          (.move { m with motion := .ofKind kind })) := by
    rw [retypeWaypoint, Change.on_bind_ok (e := check (j.index realText)) (congrArg (·, s) checked),
      position_of_place realText place, Change.on_bind_ok found, Change.on_bind_ok looked, move]
    rfl
  rw [run] at anchored
  have bounded := h.bounded.waypoints _ (List.getElem_mem inside)
  rw [move] at bounded
  obtain ⟨pose, speed, -⟩ : m.Bounded N := bounded
  have retyped : Waypoint.Bounded N (.move { m with motion := .ofKind kind }) := by
    refine ⟨pose, speed, fun c own => ?_⟩
    cases kind <;> cases own
  refine ⟨_, run, h.of_layouts (Nat.le_refl _) ⟨h.bounded.set retyped, ?_⟩
    (fun _ hl => List.mem_of_mem_take hl) anchored ?_⟩
  · exact List.length_set.trans_le h.layout.few
  · obtain ⟨d, hd⟩ := h.dialect
    change ∃ d', (if s.mode.isField && kind = .arc then _ else s.mode) = .dialect d'
    split
    · exact ⟨_, rfl⟩
    · exact ⟨d, hd⟩

/-- Undoing is never refused. -/
theorem exists_undo (h : s.Sound N count) :
    ∃ b t, Change.on (undo : Edit Float Bool) s = (.ok b, t) ∧ t.Sound N count := by
  have anchored := keeps_undo s h.anchored
  cases earlier : s.history with
  | nil => exact ⟨_, _, on_undo_of_nil earlier, h⟩
  | cons l rest =>
    have run : Change.on (undo : Edit Float Bool) s = _ := on_undo_of_cons earlier
    rw [run] at anchored
    refine ⟨_, _, run, h.of_layouts (Nat.le_refl _) ?_ ?_ anchored h.dialect⟩
    · exact h.layouts l (by rw [earlier]; simp)
    · intro k hk
      rw [← Session.cons_layouts_tail earlier]
      exact List.mem_cons_of_mem _ (List.mem_cons_of_mem _ hk)

end Selected

end Edit

end PathStudio
