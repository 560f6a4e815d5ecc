import PathStudio.Proofs.Change
import PathStudio.Session.Edit

/-!
# When edits save

An edit is run as a function from a session to a result and a session. What it
does to the history is one of three things, and none of them depends on the
history that it finds: it only reads the session, it changes the session and
leaves the history alone, or it saves the layout that it was given before it
changes anything. Each predicate is closed under sequencing, and every edit of a
path is classified from its steps.
-/

namespace PathStudio

/-- The session with another history. -/
def Session.withHistory {ν : Type} (s : Session ν) (h : History ν) : Session ν :=
  { s with past := h }

namespace Edit

section Running

variable {ν α β : Type}

/-- Runs an edit on a session. -/
def on (e : Edit ν α) (s : Session ν) : Outcome α × Session ν := StateT.run (ExceptT.run e) s

@[simp] theorem on_pure (a : α) (s : Session ν) : (pure a : Edit ν α).on s = (.ok a, s) := rfl

@[simp] theorem on_throw (f : Fault) (s : Session ν) :
    (throw f : Edit ν α).on s = (.error f, s) := rfl

@[simp] theorem on_get (s : Session ν) : (get : Edit ν (Session ν)).on s = (.ok s, s) := rfl

@[simp] theorem on_modify (g : Session ν → Session ν) (s : Session ν) :
    (modify g : Edit ν Unit).on s = (.ok (), g s) := rfl

theorem on_bind (e : Edit ν α) (f : α → Edit ν β) (s : Session ν) :
    (e >>= f).on s =
      match e.on s with
      | (.ok a, t) => (f a).on t
      | (.error fault, t) => (.error fault, t) := by
  refine (Change.on_bind e f s).trans ?_
  change _ = match Change.on e s with | (.ok a, t) => (f a).on t | (.error fault, t) => (.error fault, t)
  cases Change.on e s with
  | mk r t => cases r <;> rfl

theorem on_bind_ok {e : Edit ν α} {f : α → Edit ν β} {s t : Session ν} {a : α}
    (h : e.on s = (.ok a, t)) : (e >>= f).on s = (f a).on t := by
  rw [on_bind, h]

theorem on_bind_error {e : Edit ν α} {f : α → Edit ν β} {s t : Session ν} {fault : Fault}
    (h : e.on s = (.error fault, t)) : (e >>= f).on s = (.error fault, t) := by
  rw [on_bind, h]

/-- An edit that leaves the session alone, and does not look at the history. -/
def Reads (e : Edit ν α) : Prop :=
  ∀ s : Session ν, ∃ r, ∀ h, e.on (s.withHistory h) = (r, s.withHistory h)

/-- An edit that neither looks at the history nor changes it. -/
def Quiet (e : Edit ν α) : Prop :=
  ∀ s : Session ν, ∃ r, ∃ t : Session ν, ∀ h, e.on (s.withHistory h) = (r, t.withHistory h)

/-- An edit that, before it changes anything, saves the layout that it was given, and saves nothing
else. -/
def SavesFirst (e : Edit ν α) : Prop :=
  ∀ s : Session ν, (∃ r, ∀ h, e.on (s.withHistory h) = (r, s.withHistory h)) ∨
    ∃ r, ∃ t : Session ν, ∀ h, e.on (s.withHistory h) =
      (r, t.withHistory (h.push s.toLayout))

theorem Reads.quiet {e : Edit ν α} (h : Reads e) : Quiet e := by
  intro s
  obtain ⟨r, hr⟩ := h s
  exact ⟨r, s, hr⟩

theorem Reads.savesFirst {e : Edit ν α} (h : Reads e) : SavesFirst e := fun s => .inl (h s)

theorem reads_pure (a : α) : Reads (pure a : Edit ν α) := fun _ => ⟨.ok a, fun _ => rfl⟩

theorem reads_throw (f : Fault) : Reads (throw f : Edit ν α) := fun _ => ⟨.error f, fun _ => rfl⟩

theorem reads_lift (o : Outcome α) : Reads (liftM o : Edit ν α) := fun _ => ⟨o, fun _ => rfl⟩

theorem reads_layout : Reads (layout : Edit ν (Layout ν)) := fun s => ⟨.ok s.toLayout, fun _ => rfl⟩

theorem Reads.bind {e : Edit ν α} {f : α → Edit ν β} (he : Reads e) (hf : ∀ a, Reads (f a)) :
    Reads (e >>= f) := by
  intro s
  obtain ⟨r, hr⟩ := he s
  cases r with
  | error fault => exact ⟨.error fault, fun h => on_bind_error (hr h)⟩
  | ok a =>
    obtain ⟨r, ha⟩ := hf a s
    exact ⟨r, fun h => (on_bind_ok (hr h)).trans (ha h)⟩

theorem Quiet.bind {e : Edit ν α} {f : α → Edit ν β} (he : Quiet e) (hf : ∀ a, Quiet (f a)) :
    Quiet (e >>= f) := by
  intro s
  obtain ⟨r, t, hr⟩ := he s
  cases r with
  | error fault => exact ⟨.error fault, t, fun h => on_bind_error (hr h)⟩
  | ok a =>
    obtain ⟨r, u, ha⟩ := hf a t
    exact ⟨r, u, fun h => (on_bind_ok (hr h)).trans (ha h)⟩

/-- A change that does not touch the history. -/
theorem quiet_modify {g : Session ν → Session ν}
    (hg : ∀ s h, g (s.withHistory h) = (g s).withHistory h) : Quiet (modify g : Edit ν Unit) :=
  fun s => ⟨.ok (), g s, fun h => by rw [on_modify, hg]⟩

theorem Quiet.get_bind {f : Session ν → Edit ν β} (same : ∀ s h, f (s.withHistory h) = f s)
    (hf : ∀ s, Quiet (f s)) : Quiet (get >>= f) := by
  intro s
  obtain ⟨r, t, ha⟩ := hf s s
  exact ⟨r, t, fun h => by rw [on_bind_ok (on_get _), same, ha]⟩

/-- What only reads may come before the saving. -/
theorem Reads.bind_savesFirst {e : Edit ν α} {f : α → Edit ν β} (he : Reads e)
    (hf : ∀ a, SavesFirst (f a)) : SavesFirst (e >>= f) := by
  intro s
  obtain ⟨r, hr⟩ := he s
  cases r with
  | error fault => exact .inl ⟨.error fault, fun h => on_bind_error (hr h)⟩
  | ok a =>
    obtain ⟨r, ha⟩ | ⟨r, t, ha⟩ := hf a s
    · exact .inl ⟨r, fun h => (on_bind_ok (hr h)).trans (ha h)⟩
    · exact .inr ⟨r, t, fun h => (on_bind_ok (hr h)).trans (ha h)⟩

/-- An edit without its answer. -/
def silently (e : Edit ν α) : Edit ν Unit := do
  let _ ← e

@[simp] theorem on_silently (e : Edit ν α) (s : Session ν) :
    (silently e).on s = ((e.on s).1.map fun _ => (), (e.on s).2) := by
  rw [silently, on_bind]
  cases e.on s with
  | mk r t => cases r <;> rfl

theorem SavesFirst.silently {e : Edit ν α} (he : SavesFirst e) : SavesFirst (silently e) := by
  intro s
  obtain ⟨r, hr⟩ | ⟨r, t, hr⟩ := he s
  · exact .inl ⟨r.map fun _ => (), fun h => by rw [on_silently, hr]⟩
  · exact .inr ⟨r.map fun _ => (), t, fun h => by rw [on_silently, hr]⟩

end Running

variable {ν α : Type}

@[simp] theorem on_saveState (s : Session ν) : (saveState : Edit ν Unit).on s = (.ok (), s.saved) := rfl

@[simp] theorem saved_withHistory (s : Session ν) (h : History ν) :
    (s.withHistory h).saved = s.withHistory (h.push s.toLayout) := rfl

theorem savesFirst_saveState : SavesFirst (saveState : Edit ν Unit) :=
  fun s => .inr ⟨.ok (), s, fun _ => rfl⟩

/-- After the saving everything goes that does not save again. -/
theorem Quiet.after_save {f : Unit → Edit ν α} (hf : Quiet (f ())) :
    SavesFirst (saveState >>= f) := by
  intro s
  obtain ⟨r, t, ha⟩ := hf s
  refine .inr ⟨r, t, fun h => ?_⟩
  rw [on_bind_ok (on_saveState _), saved_withHistory, ha]

/-! ## The steps of edits -/

theorem reads_located (index : Outcome Int) : Reads (located index : Edit ν Nat) := by
  refine (reads_lift index).bind fun i => reads_layout.bind fun l => ?_
  exact reads_lift (l.locate i)

theorem on_waypoint {i : Nat} {w : Waypoint ν} {s : Session ν} (here : s.waypoints[i]? = some w) :
    (waypoint i).on s = (.ok w, s) := by
  rw [waypoint, on_bind_ok (on_get s), here, on_pure]

theorem reads_waypoint (i : Nat) : Reads (waypoint i : Edit ν (Waypoint ν)) := by
  intro s
  cases hw : s.waypoints[i]? with
  | none => exact ⟨.error .listIndex, fun h => by simp [waypoint, on_bind, Session.withHistory, hw]⟩
  | some w => exact ⟨.ok w, fun h => by simp [waypoint, on_bind, Session.withHistory, hw]⟩

theorem quiet_setWaypoint (i : Nat) (w : Waypoint ν) : Quiet (setWaypoint i w) :=
  quiet_modify fun _ _ => rfl

theorem quiet_newMarker (point : PointOperand ν) (name : String) (args : Outcome String) :
    Quiet (newMarker point name args) := by
  refine (reads_lift _).quiet.bind fun x => (reads_lift _).quiet.bind fun y =>
    (reads_lift _).quiet.bind fun args => Quiet.get_bind (fun _ _ => rfl) fun s => ?_
  exact (quiet_modify fun _ _ => rfl).bind fun _ => (reads_pure _).quiet

section Arithmetic

variable [Add ν] [Sub ν] [Mul ν] [Div ν] [Neg ν] [Scalar ν]

theorem reads_check (index : IndexOperand ν) : Reads (check index) := by
  refine reads_layout.bind fun l => ?_
  exact reads_lift (l.checkIndex index)

theorem quiet_insertAction (m : Marker ν) : Quiet (insertAction m) :=
  fun s => ⟨.ok (Layout.actionPlace s.waypoints),
    s.insertAction ⟨⟨m.x, m.y, Scalar.ofInt 0⟩, m.id⟩, fun _ => rfl⟩

end Arithmetic

/-! ## Edits that do not save -/

theorem quiet_setMode (mode : Mode) (shown : String) : Quiet (setMode mode shown : Edit ν Unit) := by
  cases mode with
  | dialect d => exact quiet_modify fun _ _ => rfl
  | other raw => exact (reads_throw _).quiet

theorem quiet_dragWaypoint (index : Outcome Int) (x y : Operand ν) :
    Quiet (dragWaypoint index x y) := by
  refine (reads_located index).quiet.bind fun i => (reads_waypoint i).quiet.bind fun w =>
    (reads_lift _).quiet.bind fun x => (reads_lift _).quiet.bind fun y => ?_
  exact quiet_setWaypoint i _

theorem quiet_dragHeading (index : Outcome Int) (h : Operand ν) : Quiet (dragHeading index h) := by
  refine (reads_lift _).quiet.bind fun h => (reads_located index).quiet.bind fun i =>
    (reads_waypoint i).quiet.bind fun w => ?_
  exact quiet_setWaypoint i _

theorem quiet_dragStart (x y : Operand ν) : Quiet (dragStart x y) := by
  refine (reads_lift _).quiet.bind fun x => (reads_lift _).quiet.bind fun y => ?_
  exact quiet_modify fun _ _ => rfl

theorem quiet_dragStartHeading (h : Operand ν) : Quiet (dragStartHeading h) := by
  refine (reads_lift _).quiet.bind fun h => ?_
  exact quiet_modify fun _ _ => rfl

variable [Add ν] [Sub ν] [Mul ν] [Div ν] [Neg ν] [Scalar ν]

theorem quiet_select (index : Option (IndexOperand ν)) : Quiet (select index) := by
  cases index with
  | none => exact quiet_modify fun _ _ => rfl
  | some index =>
    refine (reads_check index).quiet.bind fun _ => (reads_lift _).quiet.bind fun _ => ?_
    exact quiet_modify fun _ _ => rfl

theorem quiet_dragArcControl (index : Outcome Int) (point : PointOperand ν) :
    Quiet (dragArcControl index point) := by
  refine (reads_located index).quiet.bind fun i => (reads_waypoint i).quiet.bind fun w => ?_
  match w with
  | .action a => exact (reads_throw _).quiet
  | .move ⟨.drive, _, _⟩ => exact (reads_throw _).quiet
  | .move ⟨.strafe, _, _⟩ => exact (reads_throw _).quiet
  | .move ⟨.arc _, pose, speed⟩ =>
    refine (reads_lift _).quiet.bind fun x => (reads_lift _).quiet.bind fun y => ?_
    exact quiet_setWaypoint i _

/-! ## Edits that save -/

theorem savesFirst_setSpeed (index : IndexOperand ν) (speed : Operand ν) :
    SavesFirst (setSpeed index speed) := by
  refine (reads_check index).bind_savesFirst fun _ =>
    (reads_located _).bind_savesFirst fun i => (reads_waypoint i).bind_savesFirst fun w => ?_
  cases w with
  | action a => exact (reads_throw _).savesFirst
  | move m => exact ((reads_lift _).quiet.bind fun speed => quiet_setWaypoint i _).after_save

theorem savesFirst_retypeWaypoint (index : IndexOperand ν) (kind : KindOperand) :
    SavesFirst (retypeWaypoint index kind) := by
  refine (reads_check index).bind_savesFirst fun _ =>
    (reads_located _).bind_savesFirst fun i => (reads_waypoint i).bind_savesFirst fun w => ?_
  cases w with
  | action a => exact (reads_throw _).savesFirst
  | move m =>
    refine (reads_lift _).bind_savesFirst fun kind => Quiet.after_save ?_
    exact (quiet_modify fun _ _ => rfl).bind fun _ => quiet_setWaypoint i _

theorem savesFirst_deleteWaypoint (index : IndexOperand ν) : SavesFirst (deleteWaypoint index) := by
  refine (reads_check index).bind_savesFirst fun _ => Quiet.after_save ?_
  exact (reads_located _).quiet.bind fun i => quiet_modify fun _ _ => rfl

theorem savesFirst_moveWaypoint (index : IndexOperand ν) (pose : PoseOperand ν) :
    SavesFirst (moveWaypoint index pose) := by
  refine (reads_check index).bind_savesFirst fun _ => Quiet.after_save ?_
  refine (reads_located _).quiet.bind fun i => (reads_waypoint i).quiet.bind fun w =>
    (reads_lift _).quiet.bind fun x => (reads_lift _).quiet.bind fun y =>
    (quiet_setWaypoint i _).bind fun _ => ?_
  split
  · exact quiet_setWaypoint i _
  · exact quiet_setWaypoint i _
  · exact (reads_lift _).quiet.bind fun h => quiet_setWaypoint i _

theorem savesFirst_addAction (ref : MarkerRef) : SavesFirst (addAction ref : Edit ν Nat) := by
  refine reads_layout.bind_savesFirst fun l => ?_
  split
  · exact (reads_throw _).savesFirst
  · exact (quiet_insertAction _).after_save

theorem savesFirst_addWaypoint (pose : PoseOperand ν) (kind : KindOperand) (speed : Operand ν) :
    SavesFirst (addWaypoint pose kind speed) := by
  have added : SavesFirst (do
      presentPose pose
      let kind ← kind.lookup
      let x ← pose.x.read
      let y ← pose.y.read
      let h ← givenHeading pose.h
      let speed ← speed.read
      saveState
      let place := (← get).waypoints.length
      modify fun s =>
        { s with
          waypoints := s.waypoints ++ [.move ⟨.ofKind kind, ⟨x, y, h⟩, speed⟩]
          selection := some (.place place) }
      return place : Edit ν Nat) := by
    refine (reads_lift _).bind_savesFirst fun _ => (reads_lift _).bind_savesFirst fun kind =>
      (reads_lift _).bind_savesFirst fun x => (reads_lift _).bind_savesFirst fun y =>
      (reads_lift _).bind_savesFirst fun h => (reads_lift _).bind_savesFirst fun speed =>
      Quiet.after_save (Quiet.get_bind (fun _ _ => rfl) fun s => ?_)
    exact (quiet_modify fun _ _ => rfl).bind fun _ => (reads_pure _).quiet
  cases kind with
  | action => exact (reads_throw _).savesFirst
  | move kind => exact added
  | other shown searchable => exact added

theorem savesFirst_setStart (pose : PoseOperand ν) : SavesFirst (setStart pose) := by
  refine Quiet.after_save ?_
  refine (reads_lift _).quiet.bind fun x => (reads_lift _).quiet.bind fun y =>
    (reads_lift _).quiet.bind fun h => ?_
  exact quiet_modify fun _ _ => rfl

theorem savesFirst_clear : SavesFirst (clear : Edit ν Unit) :=
  Quiet.after_save (quiet_modify fun _ _ => rfl)

theorem savesFirst_addOrReuseMarker (point : PointOperand ν) (name args : Outcome String)
    (tolerance : Operand ν) : SavesFirst (addOrReuseMarker point name args tolerance) := by
  refine (reads_lift name).bind_savesFirst fun name => ?_
  dsimp only
  split
  · exact (reads_throw _).savesFirst
  · refine Quiet.after_save (Quiet.get_bind (fun _ _ => rfl) fun s =>
      (reads_lift _).quiet.bind fun found => ?_)
    have added : ∀ m : Marker ν, Quiet (do let _ ← insertAction m; return m : Edit ν (Marker ν)) :=
      fun m => (quiet_insertAction m).bind fun _ => (reads_pure m).quiet
    cases found with
    | some m => exact (reads_pure m).quiet.bind added
    | none => exact (quiet_newMarker point _ args).bind added

end Edit

end PathStudio
