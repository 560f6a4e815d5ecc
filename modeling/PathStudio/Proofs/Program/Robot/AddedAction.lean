import PathStudio.Program.Encode
import PathStudio.Proofs.Program.Robot.Arrival

/-!
# Added actions

An action that is added for a call runs a marker of the call's name. A marker of the name near the
point is used again, with the arguments that it has; only where there is none does the call get a
marker of its own. Either way the next program has the call of that marker right behind the last move.
-/

namespace PathStudio

open Scalar

variable {ν : Type} [Add ν] [Sub ν] [Mul ν] [Div ν] [Neg ν] [Scalar ν]

/-! ## The place of an action -/

omit [Add ν] [Sub ν] [Mul ν] [Div ν] [Neg ν] [Scalar ν] in
/-- Actions are put right behind the last move: what comes after that place are actions. -/
theorem Layout.exists_actionPlace (ws : List (Waypoint ν)) : ∃ front back,
    ws = front ++ back ∧ actionPlace ws = front.length ∧
      (∀ w ∈ front.getLast?, w.isMove = true) ∧ ∀ w ∈ back, w.isMove = false := by
  induction ws with
  | nil => exact ⟨[], [], rfl, rfl, by simp, by simp⟩
  | cons w rest ih =>
    obtain ⟨front, back, rfl, place, last, actions⟩ := ih
    rw [actionPlace, place]
    cases front with
    | nil =>
      by_cases moves : w.isMove = true
      · exact ⟨[w], back, rfl, if_pos moves, by simpa using moves, actions⟩
      · have acts : w.isMove = false := Bool.eq_false_of_not_eq_true moves
        exact ⟨[], w :: back, rfl, if_neg moves, by simp, List.forall_mem_cons.mpr ⟨acts, actions⟩⟩
    | cons v front => exact ⟨w :: v :: front, back, rfl, rfl, by simpa using last, actions⟩

/-- What is put in behind the front of a list. -/
theorem insertIdx_length {α : Type} (front back : List α) (x : α) :
    (front ++ back).insertIdx front.length x = front ++ x :: back := by
  induction front with
  | nil => rfl
  | cons y front ih => exact congrArg (y :: ·) ih

/-! ## The marker of a call -/

/-- The first marker of a name that is nearer to a point than the tolerance. -/
def Layout.nearby? (l : Layout ν) (point : Point ν) (tolerance : ν) (name : String) :
    Option (Marker ν) :=
  l.markers.find? fun m => m.name = name && lt (Point.distance ⟨m.x, m.y⟩ point) tolerance

theorem Layout.name_of_nearby? {l : Layout ν} {point : Point ν} {tolerance : ν} {name : String}
    {m : Marker ν} (h : l.nearby? point tolerance name = some m) : m.name = name := by
  have found := List.find?_some h
  rw [Bool.and_eq_true, decide_eq_true_eq] at found
  exact found.1

/-- How a session comes by a marker for a call at a point: one of the name that is nearby is used
again, else the call gets one with the next free number. -/
inductive Session.Provides (s : Session ν) (point : Point ν) (tolerance : ν) (name args : String) :
    Marker ν → Session ν → Prop where
  | reused {m : Marker ν} : s.nearby? point tolerance name = some m →
    Provides s point tolerance name args m s
  | new {m : Marker ν} : s.nearby? point tolerance name = none →
    m = ⟨s.nextMarkerId, point.x, point.y, name, args⟩ →
    Provides s point tolerance name args m
      { s with nextMarkerId := s.nextMarkerId + 1, markers := s.markers ++ [m] }

namespace Session.Provides

variable {s u : Session ν} {point : Point ν} {tolerance : ν} {name args : String} {m : Marker ν}

theorem name_eq (h : s.Provides point tolerance name args m u) : m.name = name := by
  cases h with
  | reused near => exact Layout.name_of_nearby? near
  | new none eq => rw [eq]

theorem mode_eq (h : s.Provides point tolerance name args m u) : u.mode = s.mode := by
  cases h <;> rfl

theorem start_eq (h : s.Provides point tolerance name args m u) : u.start = s.start := by
  cases h <;> rfl

theorem waypoints_eq (h : s.Provides point tolerance name args m u) : u.waypoints = s.waypoints := by
  cases h <;> rfl

/-- The number of the marker leads to a marker, which is another one only if the session had another
one of this number. -/
theorem exists_marker? (h : s.Provides point tolerance name args m u) :
    ∃ r, u.marker? m.id = some r ∧ ((∀ k ∈ s.markers, k.id = m.id → k = m) → r = m) := by
  have among : m ∈ u.markers := by
    cases h with
    | reused near => exact List.mem_of_find?_eq_some near
    | new => exact List.mem_append_right _ (List.mem_singleton_self m)
  have origin : ∀ k ∈ u.markers, k ∈ s.markers ∨ k = m := by
    intro k hk
    cases h with
    | reused near => exact .inl hk
    | new => exact (List.mem_append.mp hk).imp_right List.mem_singleton.mp
  have found : (u.markers.find? fun k => k.id = m.id).isSome :=
    List.find?_isSome.mpr ⟨m, among, decide_eq_true rfl⟩
  obtain ⟨r, hr⟩ := Option.isSome_iff_exists.mp found
  refine ⟨r, hr, fun unique => ?_⟩
  have number : r.id = m.id := by simpa using List.find?_some hr
  obtain old | same := origin r (List.mem_of_find?_eq_some hr)
  · exact unique r old number
  · exact same

end Session.Provides

namespace Edit

theorem nearbyMarker_ofPoint (point : Point ν) (name : String) (tolerance : ν)
    (markers : List (Marker ν)) :
    nearbyMarker (.ofPoint point) name (.number tolerance) markers =
      .ok (markers.find? fun m =>
        m.name = name && lt (Point.distance ⟨m.x, m.y⟩ point) tolerance) := by
  induction markers with
  | nil => rfl
  | cons m rest ih =>
    rw [nearbyMarker, ih, List.find?_cons]
    by_cases named : m.name = name
    · rw [if_pos named, decide_eq_true named, Bool.true_and]
      change (if lt (Point.distance ⟨m.x, m.y⟩ point) tolerance = true then _ else _) = _
      cases lt (Point.distance ⟨m.x, m.y⟩ point) tolerance <;> rfl
    · rw [if_neg named, decide_eq_false named, Bool.false_and]

/-- Adding an action for a call: the layout is saved, the session comes by a marker, and an action for
it is put behind the last move. -/
theorem exists_on_addOrReuseMarker (s : Session ν) (point : Point ν) {name : String} (args : String)
    (tolerance : ν) (named : trimmed name ≠ "") : ∃ m u,
      s.saved.Provides point tolerance (trimmed name) (trimmed args) m u ∧
      (addOrReuseMarker (.ofPoint point) (.ok name) (.ok args) (.number tolerance)).on s =
        (.ok m, u.insertAction ⟨⟨m.x, m.y, ofInt 0⟩, m.id⟩) := by
  have search : (liftM (nearbyMarker (.ofPoint point) (trimmed name) (.number tolerance)
      s.saved.markers) : Edit ν (Option (Marker ν))).on s.saved =
        (.ok (s.saved.nearby? point tolerance (trimmed name)), s.saved) :=
    congrArg (·, s.saved) (nearbyMarker_ofPoint point (trimmed name) tolerance s.saved.markers)
  have reached : (addOrReuseMarker (.ofPoint point) (.ok name) (.ok args) (.number tolerance)).on s =
      (do
        let m ← (s.saved.nearby? point tolerance (trimmed name)).elim
          (newMarker (.ofPoint point) (trimmed name) (.ok args)) pure
        let _ ← insertAction m
        return m : Edit ν (Marker ν)).on s.saved := by
    rw [addOrReuseMarker, on_bind_ok (e := liftM (.ok name : Outcome String)) rfl]
    dsimp only
    rw [if_neg named, on_bind_ok (on_saveState s), on_bind_ok (on_get s.saved)]
    refine (on_bind_ok search).trans ?_
    cases s.saved.nearby? point tolerance (trimmed name) <;> rfl
  rw [reached]
  cases found : s.saved.nearby? point tolerance (trimmed name) with
  | some m => exact ⟨m, s.saved, .reused found, rfl⟩
  | none => exact ⟨_, _, .new found rfl, rfl⟩

end Edit

/-! ## The next program -/

namespace Program.Robot

/-- The lines of the calls among waypoints that only act. -/
def callLines (l : Layout ν) (ws : List (Waypoint ν)) : List (List Char) :=
  (ws.filterMap fun w => w.action?.bind fun a => l.marker? a.markerId).flatMap actionLines

omit [Add ν] [Sub ν] [Mul ν] [Div ν] [Neg ν] [Scalar ν] in
theorem callLines_action {l : Layout ν} {a : Action ν} {m : Marker ν}
    (found : l.marker? a.markerId = some m) (ws : List (Waypoint ν)) :
    callLines l (.action a :: ws) = actionLines m ++ callLines l ws := by
  simp [callLines, Waypoint.action?, found]

omit [Add ν] [Sub ν] [Mul ν] [Div ν] [Neg ν] [Scalar ν] in
theorem callLines_action_of_none {l : Layout ν} {a : Action ν} (missing : l.marker? a.markerId = none)
    (ws : List (Waypoint ν)) : callLines l (.action a :: ws) = callLines l ws := by
  simp [callLines, Waypoint.action?, missing]

/-- Actions are always written, and nothing but their calls is. -/
theorem waypointLines_of_actions (l : Layout ν) (samples : Outcome Int) (start : Point ν)
    {ws : List (Waypoint ν)} (actions : ∀ w ∈ ws, w.isMove = false) :
    waypointLines l samples start ws = .ok (callLines l ws) := by
  induction ws with
  | nil => rfl
  | cons w ws ih =>
    obtain ⟨acts, others⟩ := List.forall_mem_cons.mp actions
    cases w with
    | move m => cases acts
    | action a =>
      rw [waypointLines, ih others]
      cases found : l.marker? a.markerId with
      | none => exact congrArg Except.ok (callLines_action_of_none found ws).symm
      | some m => exact congrArg Except.ok (callLines_action found ws).symm

/-- A path is written with the calls of its last actions at the end. -/
theorem print_of_append {l : Layout ν} {front back : List (Waypoint ν)}
    (path : l.waypoints = front ++ back) (actions : ∀ w ∈ back, w.isMove = false)
    (samples : Outcome Int) :
    print l samples = do
      let before ← waypointLines l samples l.start.point front
      return Text.unlines (opening ++ (before ++ callLines l back)) := by
  rw [print, path, waypointLines_append]
  cases waypointLines l samples l.start.point front with
  | error fault => rfl
  | ok before =>
    rw [ok_bind, waypointLines_of_actions l samples _ actions]
    rfl

/-- Whether waypoints can be written does not depend on the markers. -/
theorem corresponds_waypointLines (l l' : Layout ν) (samples : Outcome Int) (start : Point ν)
    (ws : List (Waypoint ν)) :
    Corresponds (fun _ _ => True) (waypointLines l samples start ws)
      (waypointLines l' samples start ws) := by
  induction ws generalizing start with
  | nil => exact .ok trivial
  | cons w ws ih =>
    cases w with
    | move m =>
      rw [waypointLines, waypointLines]
      cases moveLines samples start m with
      | error fault => exact .error fault
      | ok lines => exact (ih m.point).bind fun _ _ _ => .ok trivial
    | action a =>
      rw [waypointLines, waypointLines]
      refine (ih start).bind fun _ _ _ => ?_
      cases l.marker? a.markerId <;> cases l'.marker? a.markerId <;> exact .ok trivial

/-- Whether a path can be written depends neither on its markers nor on the actions at its end. -/
theorem exists_print_iff {l l' : Layout ν} {front back back' : List (Waypoint ν)}
    (path : l.waypoints = front ++ back) (path' : l'.waypoints = front ++ back')
    (start : l'.start = l.start) (actions : ∀ w ∈ back, w.isMove = false)
    (actions' : ∀ w ∈ back', w.isMove = false) (samples : Outcome Int) :
    (∃ text, print l samples = .ok text) ↔ ∃ text, print l' samples = .ok text := by
  rw [print_of_append path actions, print_of_append path' actions', start]
  have both := corresponds_waypointLines l l' samples l.start.point front
  generalize waypointLines l samples l.start.point front = here at both ⊢
  generalize waypointLines l' samples l.start.point front = there at both ⊢
  cases both with
  | ok related => exact iff_of_true ⟨_, rfl⟩ ⟨_, rfl⟩
  | error fault => exact iff_of_false (by rintro ⟨_, ⟨⟩⟩) (by rintro ⟨_, ⟨⟩⟩)

theorem encode_of_robot {s : Session ν} (robot : s.mode = .dialect .robot) (count : Int) :
    encode (.ok count) s = print s.toLayout (.ok count) := by
  rw [encode, robot]
  rfl

/-- An action that is added for a call in a robot-oriented session runs a marker of the call's name. It
is the first one of the name near the point, with the arguments that this marker has, or else a new one
with the arguments of the call. The action stands right behind the last move and its number leads to
this marker, unless the session has another marker of the same number. The program shows the call of
the marker at that place, before the calls of the other actions there, and can be generated whenever it
could be before. -/
theorem added_action_runs_marker {s : Session ν} (point : Point ν) {name : String} (args : String)
    (tolerance : ν) (robot : s.mode = .dialect .robot) (named : Edit.trimmed name ≠ "") :
    ∃ m t r front back,
      (Edit.addOrReuseMarker (.ofPoint point) (.ok name) (.ok args) (.number tolerance)).on s =
        (.ok m, t) ∧
      m.name = Edit.trimmed name ∧
      (s.nearby? point tolerance (Edit.trimmed name) = some m ∧ t.markers = s.markers ∨
        s.nearby? point tolerance (Edit.trimmed name) = none ∧
          m = ⟨s.nextMarkerId, point.x, point.y, Edit.trimmed name, Edit.trimmed args⟩ ∧
          t.markers = s.markers ++ [m]) ∧
      s.waypoints = front ++ back ∧ (∀ w ∈ front.getLast?, w.isMove = true) ∧
      (∀ w ∈ back, w.isMove = false) ∧
      t.waypoints = front ++ .action ⟨⟨m.x, m.y, ofInt 0⟩, m.id⟩ :: back ∧
      t.marker? m.id = some r ∧ ((∀ k ∈ s.markers, k.id = m.id → k = m) → r = m) ∧
      ∀ count : Int,
        (encode (.ok count) t = do
          let before ← waypointLines t.toLayout (.ok count) s.start.point front
          return Text.unlines
            (opening ++ (before ++ (actionLines r ++ callLines t.toLayout back)))) ∧
        ((∃ text, encode (.ok count) s = .ok text) ↔ ∃ text, encode (.ok count) t = .ok text) := by
  obtain ⟨m, u, provides, added⟩ := Edit.exists_on_addOrReuseMarker s point args tolerance named
  obtain ⟨r, found, unique⟩ := provides.exists_marker?
  obtain ⟨front, back, path, place, last, actions⟩ := Layout.exists_actionPlace s.waypoints
  let action : Action ν := ⟨⟨m.x, m.y, ofInt 0⟩, m.id⟩
  have path' : (u.insertAction action).waypoints = front ++ .action action :: back := by
    have kept : u.waypoints = s.waypoints := provides.waypoints_eq
    change u.waypoints.insertIdx (Layout.actionPlace u.waypoints) _ = _
    rw [kept, place, path, insertIdx_length]
  have actions' : ∀ w ∈ .action action :: back, w.isMove = false :=
    List.forall_mem_cons.mpr ⟨rfl, actions⟩
  have start : (u.insertAction action).start = s.start := provides.start_eq
  have robot' : (u.insertAction action).mode = .dialect .robot := provides.mode_eq.trans robot
  refine ⟨m, u.insertAction action, r, front, back, added, provides.name_eq, ?_, path, last, actions,
    path', found, unique, fun count => ⟨?_, ?_⟩⟩
  · cases provides with
    | reused near => exact .inl ⟨near, rfl⟩
    | new none eq => exact .inr ⟨none, eq, rfl⟩
  · rw [encode_of_robot robot', print_of_append path' actions', start]
    have lines : callLines (u.insertAction action).toLayout (.action action :: back) =
        actionLines r ++ callLines (u.insertAction action).toLayout back :=
      callLines_action found back
    rw [lines]
  · rw [encode_of_robot robot, encode_of_robot robot']
    exact exists_print_iff path path' start actions actions' _

/-! ## Calls that are not run -/

section Examples

/-- The call of an action that is added for a call at the origin. -/
def addedCall? (s : Session Float) (name args : String) : Option (Option (String × String)) :=
  let t := ((Edit.addOrReuseMarker (.ofPoint ⟨0.0, 0.0⟩) (.ok name) (.ok args)
    (.number 0.025)).on s).2
  t.waypoints[Layout.actionPlace s.waypoints]?.bind t.callOf?

/-- A session with one action, which calls for an intake. -/
def intakeOnce : Session Float :=
  ((Edit.addOrReuseMarker (.ofPoint ⟨0.0, 0.0⟩) (.ok "intake") (.ok "1") (.number 0.025)).on .empty).2

/-- The same session after an intake with another argument has been asked for at the same point. -/
def intakeTwice : Session Float :=
  ((Edit.addOrReuseMarker (.ofPoint ⟨0.0, 0.0⟩) (.ok "intake") (.ok "2") (.number 0.025)).on
    intakeOnce).2

/-- A session in which two markers have the same number, as a stored one may. -/
def sharedNumber : Session Float :=
  { Session.empty with
    markers := [⟨1, 1.0, 0.0, "lift", ""⟩, ⟨1, 0.0, 0.0, "intake", ""⟩]
    nextMarkerId := 2 }

/-- The arguments that were asked for are lost where a marker of the name is nearby, and the program
calls the intake twice with the first one. Where two markers share a number, not even the name is kept. -/
theorem added_action_runs_another_call :
    intakeOnce.mode = .dialect .robot ∧
      Edit.trimmed "intake" = "intake" ∧ Edit.trimmed "2" = "2" ∧
      addedCall? intakeOnce "intake" "2" = some (some ("intake", "1")) ∧
      addedCall? intakeOnce "intake" "2" ≠ some (some ("intake", "2")) ∧
      (encode (.ok 5) intakeTwice).toOption = some (Text.unlines (opening ++
        ["".toList, "// Action: intake".toList, "intake(1);".toList,
          "".toList, "// Action: intake".toList, "intake(1);".toList])) ∧
      sharedNumber.mode = .dialect .robot ∧
      addedCall? sharedNumber "intake" "" = some (some ("lift", "")) := by
  refine ⟨rfl, ?_, ?_, ?_, ?_, ?_, rfl, ?_⟩
  all_goals decide +kernel

/-- A lift behind the same move as the intake gets a marker of its own, and the program calls it. -/
theorem added_action_runs_marker_lift :
    intakeOnce.mode = .dialect .robot ∧ Edit.trimmed " lift " ≠ "" ∧ ∃ m t,
      (Edit.addOrReuseMarker (.ofPoint ⟨0.0, 0.0⟩) (.ok " lift ") (.ok " 2 ") (.number 0.025)).on
        intakeOnce = (.ok m, t) ∧
      m.name = "lift" ∧ m.args = "2" ∧ t.marker? m.id = some m ∧
      ∃ before after : List (List Char), encode (.ok 5) t =
        .ok (Text.unlines (opening ++ (before ++ (actionLines m ++ after)))) := by
  have robot : intakeOnce.mode = .dialect .robot := rfl
  have named : Edit.trimmed " lift " ≠ "" := by decide
  have free : intakeOnce.nearby? ⟨0.0, 0.0⟩ 0.025 (Edit.trimmed " lift ") = none := by
    decide
  have apart : ∀ k ∈ intakeOnce.markers, k.id ≠ intakeOnce.nextMarkerId := by decide
  have written : ∃ text, encode (.ok 5) intakeOnce = .ok text :=
    exists_of_isSome_toOption (by decide)
  have name : Edit.trimmed " lift " = "lift" := by decide
  have args : Edit.trimmed " 2 " = "2" := by decide
  obtain ⟨m, t, r, front, back, added, -, provided, -, -, -, -, found, unique, shown⟩ :=
    added_action_runs_marker ⟨0.0, 0.0⟩ " 2 " 0.025 robot named
  obtain ⟨near, -⟩ | ⟨-, eq, -⟩ := provided
  · cases free.symm.trans near
  obtain ⟨program, same⟩ := shown 5
  obtain rfl : r = m := unique fun k hk number => absurd number (eq ▸ apart k hk)
  obtain ⟨text, h⟩ := same.mp written
  obtain ⟨before, -, rest⟩ := bind_eq_ok.mp (program.symm.trans h)
  obtain rfl := return_eq_ok.mp rest
  refine ⟨robot, named, r, t, added, ?_, ?_, found, before, _, h⟩
  · rw [eq, name]
  · rw [eq, args]

end Examples

end Program.Robot

end PathStudio
