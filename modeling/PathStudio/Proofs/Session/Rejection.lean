import PathStudio.Proofs.Session.Selection
import Mathlib.Data.List.Basic

/-!
# What a refused operation leaves behind

Most operations read all their arguments before they touch the session, so a
refusal leaves it as it was. Five of them save the layout once their index or
name has passed, and read the rest of their arguments behind that: when those
cannot be read, one more layout has been saved, and a move of a waypoint may
have been made already.
-/

namespace PathStudio

namespace Edit

/-! ## Edits that are all or nothing -/

section Atomic

variable {ν α β : Type}

/-- A refusal leaves the session as it was. -/
def Atomic (e : Edit ν α) : Prop := ∀ s fault t, e.on s = (.error fault, t) → t = s

/-- An edit that is refused nowhere. -/
def Total (e : Edit ν α) : Prop := ∀ s, ∃ a t, e.on s = (.ok a, t)

theorem total_pure (a : α) : Total (pure a : Edit ν α) := fun s => ⟨a, s, rfl⟩

theorem total_modify (g : Session ν → Session ν) : Total (modify g : Edit ν Unit) :=
  fun s => ⟨(), g s, rfl⟩

theorem total_get : Total (get : Edit ν (Session ν)) := fun s => ⟨s, s, rfl⟩

theorem Total.bind {e : Edit ν α} {f : α → Edit ν β} (he : Total e) (hf : ∀ a, Total (f a)) :
    Total (e >>= f) := by
  intro s
  obtain ⟨a, t, first⟩ := he s
  obtain ⟨b, u, second⟩ := hf a t
  exact ⟨b, u, (on_bind_ok first).trans second⟩

theorem Total.atomic {e : Edit ν α} (h : Total e) : Atomic e := by
  intro s fault t refused
  obtain ⟨a, u, ok⟩ := h s
  cases ok.symm.trans refused

theorem Reads.on_eq {e : Edit ν α} (h : Reads e) (s : Session ν) : (e.on s).2 = s := by
  obtain ⟨r, hr⟩ := h s
  exact congrArg Prod.snd (hr s.past)

theorem Reads.atomic {e : Edit ν α} (h : Reads e) : Atomic e := by
  intro s fault t refused
  rw [← h.on_eq s, refused]

/-- What only reads may come before what is all or nothing. -/
theorem Reads.bind_atomic {e : Edit ν α} {f : α → Edit ν β} (he : Reads e)
    (hf : ∀ a, Atomic (f a)) : Atomic (e >>= f) := by
  intro s fault t refused
  have same := he.on_eq s
  cases first : e.on s with
  | mk r u =>
    rw [first] at same
    obtain rfl : u = s := same
    cases r with
    | error fault' =>
      rw [on_bind_error first] at refused
      cases refused
      rfl
    | ok a =>
      rw [on_bind_ok first] at refused
      exact hf a u fault t refused

/-- What is refused nowhere may come behind what is all or nothing. -/
theorem Atomic.bind_total {e : Edit ν α} {f : α → Edit ν β} (he : Atomic e)
    (hf : ∀ a, Total (f a)) : Atomic (e >>= f) := by
  intro s fault t refused
  cases first : e.on s with
  | mk r u =>
    cases r with
    | error _ =>
      rw [on_bind_error first] at refused
      cases refused
      exact he s fault t first
    | ok a =>
      rw [on_bind_ok first] at refused
      obtain ⟨b, v, ok⟩ := hf a u
      cases ok.symm.trans refused

theorem atomic_get_bind {f : Session ν → Edit ν β} (hf : ∀ s, Atomic (f s)) :
    Atomic (get >>= f) := by
  intro s fault t refused
  rw [on_bind_ok (on_get s)] at refused
  exact hf s s fault t refused

theorem on_of_on_silently {e : Edit ν α} {s t : Session ν} {fault : Fault}
    (refused : (silently e).on s = (.error fault, t)) : e.on s = (.error fault, t) := by
  rw [on_silently] at refused
  cases run : e.on s with
  | mk r u =>
    rw [run] at refused
    cases r with
    | ok a => cases refused
    | error _ =>
      cases refused
      rfl

/-- Behind the saving, what is all or nothing leaves the session with its layout saved. -/
theorem Atomic.after_save {f : Unit → Edit ν α} (h : Atomic (f ())) {s t : Session ν}
    {fault : Fault} (refused : (saveState >>= f).on s = (.error fault, t)) : t = s.saved := by
  rw [on_bind_ok (on_saveState s)] at refused
  exact h _ fault t refused

end Atomic

section Edits

variable {ν : Type}

theorem total_saveState : Total (saveState : Edit ν Unit) := total_modify _

theorem total_setWaypoint (i : Nat) (w : Waypoint ν) : Total (setWaypoint i w) := total_modify _

theorem atomic_setMode (mode : Mode) (shown : String) : Atomic (setMode mode shown : Edit ν Unit) := by
  cases mode with
  | dialect d => exact (total_modify _).atomic
  | other raw => exact (reads_throw _).atomic

theorem atomic_dragWaypoint (index : Outcome Int) (x y : Operand ν) :
    Atomic (dragWaypoint index x y) :=
  (reads_located index).bind_atomic fun i => (reads_waypoint i).bind_atomic fun _ =>
    (reads_lift _).bind_atomic fun _ => (reads_lift _).bind_atomic fun _ =>
      (total_setWaypoint i _).atomic

theorem atomic_dragHeading (index : Outcome Int) (h : Operand ν) : Atomic (dragHeading index h) :=
  (reads_lift _).bind_atomic fun _ => (reads_located index).bind_atomic fun i =>
    (reads_waypoint i).bind_atomic fun _ => (total_setWaypoint i _).atomic

theorem atomic_dragStart (x y : Operand ν) : Atomic (dragStart x y) :=
  (reads_lift _).bind_atomic fun _ => (reads_lift _).bind_atomic fun _ => (total_modify _).atomic

theorem atomic_dragStartHeading (h : Operand ν) : Atomic (dragStartHeading h) :=
  (reads_lift _).bind_atomic fun _ => (total_modify _).atomic

theorem atomic_undo : Atomic (undo : Edit ν Bool) := by
  refine Total.atomic (total_get.bind fun s => ?_)
  cases s.undone? with
  | none => exact total_pure false
  | some t => exact (total_modify fun _ => t).bind fun _ => total_pure true

theorem atomic_newMarker (point : PointOperand ν) (name : String) (args : Outcome String) :
    Atomic (newMarker point name args) :=
  (reads_lift _).bind_atomic fun _ => (reads_lift _).bind_atomic fun _ =>
    (reads_lift _).bind_atomic fun _ =>
      (total_get.bind fun _ => (total_modify _).bind fun _ => total_pure _).atomic

variable [Add ν] [Sub ν] [Mul ν] [Div ν] [Neg ν] [Scalar ν]

theorem total_insertAction (m : Marker ν) : Total (insertAction m) :=
  total_get.bind fun _ => (total_modify _).bind fun _ => total_pure _

theorem atomic_addWaypoint (pose : PoseOperand ν) (kind : KindOperand) (speed : Operand ν) :
    Atomic (addWaypoint pose kind speed) := by
  rw [addWaypoint.eq_def]
  split
  · exact (reads_throw _).atomic
  · refine (reads_lift _).bind_atomic fun _ => (reads_lift _).bind_atomic fun kind =>
      (reads_lift _).bind_atomic fun x => (reads_lift _).bind_atomic fun y =>
      (reads_lift _).bind_atomic fun h => (reads_lift _).bind_atomic fun speed => Total.atomic ?_
    exact total_saveState.bind fun _ => total_get.bind fun s => (total_modify _).bind fun _ =>
      total_pure _

theorem atomic_retypeWaypoint (index : IndexOperand ν) (kind : KindOperand) :
    Atomic (retypeWaypoint index kind) := by
  refine (reads_check index).bind_atomic fun _ => (reads_located _).bind_atomic fun i =>
    (reads_waypoint i).bind_atomic fun w => ?_
  cases w with
  | action a => exact (reads_throw _).atomic
  | move m =>
    refine (reads_lift _).bind_atomic fun kind => Total.atomic ?_
    exact total_saveState.bind fun _ => (total_modify _).bind fun _ => total_setWaypoint i _

theorem atomic_addAction (ref : MarkerRef) : Atomic (addAction ref : Edit ν Nat) := by
  refine reads_layout.bind_atomic fun l => ?_
  split
  · exact (reads_throw _).atomic
  · exact (total_saveState.bind fun _ => total_insertAction _).atomic

theorem atomic_select (index : Option (IndexOperand ν)) : Atomic (select index) := by
  cases index with
  | none => exact (total_modify _).atomic
  | some index =>
    exact (reads_check index).bind_atomic fun _ => (reads_lift _).bind_atomic fun _ =>
      (total_modify _).atomic

theorem atomic_dragArcControl (index : Outcome Int) (point : PointOperand ν) :
    Atomic (dragArcControl index point) := by
  refine (reads_located index).bind_atomic fun i => (reads_waypoint i).bind_atomic fun w => ?_
  match w with
  | .action a => exact (reads_throw _).atomic
  | .move ⟨.drive, _, _⟩ => exact (reads_throw _).atomic
  | .move ⟨.strafe, _, _⟩ => exact (reads_throw _).atomic
  | .move ⟨.arc _, pose, speed⟩ =>
    exact (reads_lift _).bind_atomic fun x => (reads_lift _).bind_atomic fun y =>
      (total_setWaypoint i _).atomic

theorem total_clear : Total (clear : Edit ν Unit) := total_saveState.bind fun _ => total_modify _

end Edits

end Edit

namespace Operation

variable {ν : Type}

/-- Whether an index names a move; a real names nothing. -/
def namesMove (l : Layout ν) (index : IndexOperand ν) : Bool :=
  match index.position with
  | .ok i => l.waypoints[i.toNat]?.any Waypoint.isMove
  | .error _ => false

variable [Add ν] [Sub ν] [Mul ν] [Div ν] [Neg ν] [Scalar ν]

/-- Whether an operation comes as far as to save the layout although some of its arguments have not
been read by then. -/
def savesEarly : Operation ν → Layout ν → Bool
  | moveWaypoint index _, l | deleteWaypoint index, l => (l.checkIndex index).toBool
  | setSpeed index _, l => (l.checkIndex index).toBool && namesMove l index
  | setStart _, _ => true
  | addOrReuseMarker _ name _ _, _ => name.toBool && (name.map Edit.trimmed).toOption != some ""
  | _, _ => false

/-- Waypoints of which one has been moved to the point of a pose, if that can be read. -/
def relocated (i : Nat) (pose : PoseOperand ν) (ws : List (Waypoint ν)) : List (Waypoint ν) :=
  match pose.x.read, pose.y.read with
  | .ok x, .ok y => ws.modify i (·.relocate x y)
  | _, _ => ws

/-- The waypoints as an operation leaves them that is refused behind the saving: a waypoint is moved
before its heading has been read. -/
def halfDone : Operation ν → List (Waypoint ν) → List (Waypoint ν)
  | moveWaypoint index pose, ws =>
    match index.position with
    | .ok i => relocated i.toNat pose ws
    | .error _ => ws
  | _, ws => ws

section Refused

variable {s t : Session ν} {fault : Fault}

theorem refused_check {index : IndexOperand ν} {f : Unit → Edit ν Unit}
    (refused : (Edit.check index >>= f).on s = (.error fault, t)) :
    ((s.checkIndex index).toBool = false ∧ t = s) ∨
      (s.checkIndex index = .ok () ∧ (f ()).on s = (.error fault, t)) := by
  cases checked : s.checkIndex index with
  | error fault' =>
    rw [Edit.on_bind_error (e := Edit.check index) (congrArg (·, s) checked)] at refused
    cases refused
    exact .inl ⟨rfl, rfl⟩
  | ok _ =>
    rw [Edit.on_bind_ok (e := Edit.check index) (congrArg (·, s) checked)] at refused
    exact .inr ⟨rfl, refused⟩

/-- An index that has passed the check is refused as a real, or it names a waypoint. -/
theorem located_cases {index : IndexOperand ν} (checked : s.checkIndex index = .ok ()) :
    (∃ fault, index.position = .error fault) ∨
      ∃ i w, index.position = .ok i ∧ s.waypoints[i.toNat]? = some w ∧
        (Edit.located index.position).on s = (.ok i.toNat, s) := by
  cases position : index.position with
  | error fault => exact .inl ⟨fault, rfl⟩
  | ok i =>
    obtain ⟨lower, upper⟩ := Edit.inside_of_checkIndex checked position
    have inside : i.toNat < s.waypoints.length := by omega
    have place : s.locate i = .ok i.toNat := by
      rw [Layout.locate, Json.position?, if_pos lower, if_pos upper]
    exact .inr ⟨i, s.waypoints[i.toNat], rfl, List.getElem?_eq_getElem inside,
      congrArg (·, s) place⟩

theorem refused_deleteWaypoint {index : IndexOperand ν}
    (refused : (Edit.deleteWaypoint index).on s = (.error fault, t)) :
    t = if (deleteWaypoint index).savesEarly s.toLayout then s.saved else s := by
  obtain ⟨failed, rfl⟩ | ⟨checked, refused⟩ := refused_check refused
  · simp [savesEarly, failed]
  · have rest : Edit.Atomic (do
        let i ← Edit.located index.position
        modify fun s : Session ν =>
          { s with
            waypoints := s.waypoints.eraseIdx i
            selection := Session.selectionWithout s.selection i }) :=
      (Edit.reads_located _).bind_atomic fun _ => (Edit.total_modify _).atomic
    rw [rest.after_save refused]
    simp [savesEarly, checked, Except.toBool]

theorem refused_setSpeed {index : IndexOperand ν} {speed : Operand ν}
    (refused : (Edit.setSpeed index speed).on s = (.error fault, t)) :
    t = if (setSpeed index speed).savesEarly s.toLayout then s.saved else s := by
  obtain ⟨failed, rfl⟩ | ⟨checked, refused⟩ := refused_check refused
  · simp [savesEarly, failed]
  · have passed : (s.checkIndex index).toBool = true := by rw [checked]; rfl
    obtain ⟨_, position⟩ | ⟨i, w, position, here, located⟩ := located_cases checked
    · rw [Edit.on_bind_error (by rw [position]; rfl)] at refused
      cases refused
      simp [savesEarly, namesMove, position]
    · rw [Edit.on_bind_ok located, Edit.on_bind_ok (Edit.on_waypoint here)] at refused
      cases w with
      | action a =>
        cases refused
        simp [savesEarly, namesMove, position, here, Waypoint.isMove, Waypoint.move?]
      | move m =>
        have rest : Edit.Atomic (do
            let speed ← speed.read
            Edit.setWaypoint i.toNat (.move { m with speed })) :=
          (Edit.reads_lift _).bind_atomic fun _ => (Edit.total_setWaypoint _ _).atomic
        rw [rest.after_save refused]
        simp [savesEarly, namesMove, position, here, passed, Waypoint.isMove, Waypoint.move?]

theorem refused_addOrReuseMarker {point : PointOperand ν} {name args : Outcome String}
    {tolerance : Operand ν}
    (refused : (Edit.addOrReuseMarker point name args tolerance).on s = (.error fault, t)) :
    t = if (addOrReuseMarker point name args tolerance).savesEarly s.toLayout then s.saved else s := by
  cases name with
  | error fault' =>
    cases refused
    rfl
  | ok name =>
    have insert (m : Marker ν) : Edit.Total (do
        let _ ← Edit.insertAction m
        return m : Edit ν (Marker ν)) :=
      (Edit.total_insertAction m).bind fun _ => Edit.total_pure m
    rw [Edit.addOrReuseMarker, Edit.on_bind_ok (e := liftM (.ok name : Outcome String)) rfl] at refused
    dsimp only at refused
    split at refused
    next blank =>
      cases refused
      simp [savesEarly, Except.map, Except.toOption, blank]
    next named =>
      have early : (addOrReuseMarker point (.ok name) args tolerance).savesEarly s.toLayout = true := by
        simp [savesEarly, Except.toBool, Except.map, Except.toOption, named]
      rw [early, if_pos rfl]
      refine Edit.Atomic.after_save ?_ refused
      refine Edit.atomic_get_bind fun s => (Edit.reads_lift _).bind_atomic fun found => ?_
      cases found with
      | some m => exact ((Edit.total_pure m).bind insert).atomic
      | none => exact (Edit.atomic_newMarker point _ args).bind_total insert

theorem refused_setStart {pose : PoseOperand ν}
    (refused : (Edit.setStart pose).on s = (.error fault, t)) : t = s.saved := by
  refine Edit.Atomic.after_save ?_ refused
  exact (Edit.reads_lift _).bind_atomic fun x => (Edit.reads_lift _).bind_atomic fun y =>
    (Edit.reads_lift _).bind_atomic fun h => (Edit.total_modify _).atomic

omit [Add ν] [Sub ν] [Mul ν] [Div ν] [Neg ν] [Scalar ν] in
/-- A waypoint stays where it was if its point is refused, and has been moved if only its heading
is. -/
theorem refused_relocation {pose : PoseOperand ν} {i : Nat} {w : Waypoint ν}
    (here : s.waypoints[i]? = some w)
    (refused : (do
      let x ← pose.x.read
      let y ← pose.y.read
      let w := w.relocate x y
      Edit.setWaypoint i w
      match pose.h with
      | .omitted | .blank => Edit.setWaypoint i w.plain
      | .given heading =>
        let h ← heading.read
        Edit.setWaypoint i (w.turn h).plain : Edit ν Unit).on s = (.error fault, t)) :
    t = { s with waypoints := relocated i pose s.waypoints } := by
  rw [relocated]
  cases px : pose.x.read with
  | error fault' =>
    rw [px] at refused
    cases refused
    rfl
  | ok x =>
    rw [px, Edit.on_bind_ok (e := liftM (.ok x : Outcome ν)) rfl] at refused
    cases py : pose.y.read with
    | error fault' =>
      rw [py] at refused
      cases refused
      rfl
    | ok y =>
      have turned : Edit.Atomic (match pose.h with
          | .omitted | .blank => Edit.setWaypoint i (w.relocate x y).plain
          | .given heading => do
            let h ← heading.read
            Edit.setWaypoint i ((w.relocate x y).turn h).plain) := by
        split
        · exact (Edit.total_setWaypoint _ _).atomic
        · exact (Edit.total_setWaypoint _ _).atomic
        · exact (Edit.reads_lift _).bind_atomic fun _ => (Edit.total_setWaypoint _ _).atomic
      have moved : s.waypoints.modify i (·.relocate x y) = s.waypoints.set i (w.relocate x y) := by
        rw [List.modify_eq_set_getElem?, here]
        rfl
      rw [py, Edit.on_bind_ok (e := liftM (.ok y : Outcome ν)) rfl] at refused
      simp only [moved]
      exact turned (s.setWaypoint i (w.relocate x y)) fault t refused

theorem refused_moveWaypoint {index : IndexOperand ν} {pose : PoseOperand ν}
    (refused : (Edit.moveWaypoint index pose).on s = (.error fault, t)) :
    t = if (moveWaypoint index pose).savesEarly s.toLayout then
        { s.saved with waypoints := (moveWaypoint index pose).halfDone s.waypoints } else s := by
  obtain ⟨failed, rfl⟩ | ⟨checked, refused⟩ := refused_check refused
  · simp [savesEarly, failed]
  · have early : (moveWaypoint index pose).savesEarly s.toLayout = true := by
      rw [savesEarly, checked]
      rfl
    rw [early, if_pos rfl, halfDone]
    rw [Edit.on_bind_ok (Edit.on_saveState s)] at refused
    obtain ⟨_, position⟩ | ⟨i, w, position, here, located⟩ := located_cases (s := s.saved) checked
    · rw [Edit.on_bind_error (by rw [position]; rfl)] at refused
      cases refused
      rw [position]
      rfl
    · rw [Edit.on_bind_ok located, Edit.on_bind_ok (Edit.on_waypoint here)] at refused
      rw [position]
      exact refused_relocation here refused

end Refused

/-- A refused operation other than a decoding leaves the session as it was, unless it is one of those
that save the layout before they have read all their arguments and it has come as far. Then the
layout has been saved, for which the oldest one may have made room, and a waypoint to be moved has
been moved if only its heading was refused. -/
theorem refusal_saves_layout_at_most {op : Operation ν} (h : ∀ text, op ≠ .decodeInto text)
    {s : Session ν} (refused : op.refused s = true) :
    op.run s = if op.savesEarly s.toLayout then
      { s.saved with waypoints := op.halfDone s.waypoints } else s := by
  obtain ⟨fault, t, run⟩ : ∃ fault t, op.edit.on s = (.error fault, t) := by
    rw [Operation.refused] at refused
    cases run : op.edit.on s with
    | mk r t =>
      rw [run] at refused
      cases r with
      | error fault => exact ⟨fault, t, rfl⟩
      | ok _ => cases refused
  rw [Operation.run, run]
  cases op with
  | addWaypoint pose kind speed =>
    exact Edit.atomic_addWaypoint pose kind speed s fault t (Edit.on_of_on_silently run)
  | moveWaypoint index pose => exact refused_moveWaypoint run
  | retypeWaypoint index kind => exact Edit.atomic_retypeWaypoint index kind s fault t run
  | setSpeed index speed => exact refused_setSpeed run
  | deleteWaypoint index => exact refused_deleteWaypoint run
  | setStart pose => exact refused_setStart run
  | clear => exact Edit.total_clear.atomic s fault t run
  | addAction ref => exact Edit.atomic_addAction ref s fault t (Edit.on_of_on_silently run)
  | addOrReuseMarker point name args tolerance =>
    exact refused_addOrReuseMarker (Edit.on_of_on_silently run)
  | decodeInto text => exact absurd rfl (h text)
  | saveState | beginDrag => exact Edit.total_saveState.atomic s fault t run
  | dragWaypoint index x y => exact Edit.atomic_dragWaypoint index x y s fault t run
  | dragHeading index heading => exact Edit.atomic_dragHeading index heading s fault t run
  | dragArcControl index point => exact Edit.atomic_dragArcControl index point s fault t run
  | dragStart x y => exact Edit.atomic_dragStart x y s fault t run
  | dragStartHeading heading => exact Edit.atomic_dragStartHeading heading s fault t run
  | select index => exact Edit.atomic_select index s fault t run
  | setMode mode shown => exact Edit.atomic_setMode mode shown s fault t run
  | undo => exact Edit.atomic_undo s fault t (Edit.on_of_on_silently run)

/-- Moves the first waypoint to a pose whose heading is no number. -/
def moveAskew : Operation Float :=
  moveWaypoint (.whole 0)
    ⟨.number 5.0, .number 6.0, .given (.worded (.error (.unreadableReal "'abc'")))⟩

theorem refusal_saves_layout_at_most_moveAskew :
    let s := (addDrive 1.0).run Session.empty
    (∀ text, moveAskew ≠ .decodeInto text) ∧ moveAskew.refused s = true ∧
      moveAskew.run s = if moveAskew.savesEarly s.toLayout then
        { s.saved with waypoints := moveAskew.halfDone s.waypoints } else s := by
  have other : ∀ text, moveAskew ≠ .decodeInto text := by
    rintro text ⟨⟩
  have refused : moveAskew.refused ((addDrive 1.0).run Session.empty) = true := rfl
  exact ⟨other, refused, refusal_saves_layout_at_most other refused⟩

/-- Although it is refused, the waypoint has been moved and one more layout has been saved. -/
theorem moveAskew_leaves_trace :
    let s := (addDrive 1.0).run Session.empty
    moveAskew.refused s = true ∧ s.history.length = 1 ∧ (moveAskew.run s).history.length = 2 ∧
      (moveAskew.run s).waypoints ≠ s.waypoints := by
  refine ⟨rfl, rfl, rfl, ?_⟩
  decide

end Operation

end PathStudio
