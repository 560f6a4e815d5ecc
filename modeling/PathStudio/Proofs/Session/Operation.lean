import PathStudio.Proofs.Session.Saving
import PathStudio.Proofs.Outcome
import PathStudio.Program.Decode
import PathStudio.Session.Stored

/-!
# Operations on sessions

Everything that can be done to a session, as data, so that runs of any length
can be quantified over. Arguments are the operands of the edits and may be of any
kind. The layouts that an operation saves are what it leaves in a history that
was empty; `Operation.run_history` says that it puts just these in front of any
other history.
-/

namespace PathStudio

namespace Program

variable {ν : Type} [Add ν] [Sub ν] [Mul ν] [Div ν] [Neg ν] [Scalar ν]

theorem on_decodeInto_of_error {text : List Char} {s : Session ν} {f : Fault}
    (h : decode text s = .error f) : (decodeInto text).on s = (.error f, s) := by
  rw [decodeInto, Edit.on_bind_ok (Edit.on_get s)]
  exact Edit.on_bind_error (congrArg (·, s) h)

theorem on_decodeInto_of_ok {text : List Char} {s decoded : Session ν} {d : Dialect}
    (h : decode text s = .ok (d, decoded)) :
    (decodeInto text).on s =
      (if decoded.moves.isEmpty then .error (.noWaypoints d) else .ok d, adopt s d decoded) := by
  rw [decodeInto, Edit.on_bind_ok (Edit.on_get s)]
  refine (Edit.on_bind_ok (congrArg (·, s) h)).trans ?_
  rw [Edit.on_bind_ok (Edit.on_modify _ _), Edit.on_bind_ok (Edit.on_get _)]
  change (if decoded.moves.isEmpty then _ else _ : Edit ν Dialect).on _ = _
  split <;> rfl

end Program

/-- An operation on a session with its arguments. -/
inductive Operation (ν : Type) where
  | addWaypoint (pose : PoseOperand ν) (kind : KindOperand) (speed : Operand ν)
  | moveWaypoint (index : IndexOperand ν) (pose : PoseOperand ν)
  | retypeWaypoint (index : IndexOperand ν) (kind : KindOperand)
  | setSpeed (index : IndexOperand ν) (speed : Operand ν)
  | deleteWaypoint (index : IndexOperand ν)
  | setStart (pose : PoseOperand ν)
  | clear
  | addAction (ref : MarkerRef)
  | addOrReuseMarker (point : PointOperand ν) (name args : Outcome String) (tolerance : Operand ν)
  | decodeInto (text : List Char)
  | saveState
  | beginDrag
  | dragWaypoint (index : Outcome Int) (x y : Operand ν)
  | dragHeading (index : Outcome Int) (h : Operand ν)
  | dragArcControl (index : Outcome Int) (point : PointOperand ν)
  | dragStart (x y : Operand ν)
  | dragStartHeading (h : Operand ν)
  | select (index : Option (IndexOperand ν))
  | setMode (mode : Mode) (shown : String)
  | undo

namespace Operation

variable {ν : Type}

/-- The operations that save the layout before they change it. -/
def saves : Operation ν → Bool
  | addWaypoint .. | moveWaypoint .. | retypeWaypoint .. | setSpeed .. | deleteWaypoint ..
  | setStart .. | clear | addAction .. | addOrReuseMarker .. | decodeInto .. | saveState
  | beginDrag => true
  | dragWaypoint .. | dragHeading .. | dragArcControl .. | dragStart .. | dragStartHeading ..
  | select .. | setMode .. | undo => false

/-- Whether an operation is the undoing of another. -/
def isUndo : Operation ν → Bool
  | undo => true
  | _ => false

variable [Add ν] [Sub ν] [Mul ν] [Div ν] [Neg ν] [Scalar ν]

/-- The edit of an operation; its answer is left out. -/
def edit : Operation ν → Edit ν Unit
  | addWaypoint pose kind speed => Edit.silently (Edit.addWaypoint pose kind speed)
  | moveWaypoint index pose => Edit.moveWaypoint index pose
  | retypeWaypoint index kind => Edit.retypeWaypoint index kind
  | setSpeed index speed => Edit.setSpeed index speed
  | deleteWaypoint index => Edit.deleteWaypoint index
  | setStart pose => Edit.setStart pose
  | clear => Edit.clear
  | addAction ref => Edit.silently (Edit.addAction ref)
  | addOrReuseMarker point name args tolerance =>
    Edit.silently (Edit.addOrReuseMarker point name args tolerance)
  | decodeInto text => Edit.silently (Program.decodeInto text)
  | saveState => Edit.saveState
  | beginDrag => Edit.beginDrag
  | dragWaypoint index x y => Edit.dragWaypoint index x y
  | dragHeading index h => Edit.dragHeading index h
  | dragArcControl index point => Edit.dragArcControl index point
  | dragStart x y => Edit.dragStart x y
  | dragStartHeading h => Edit.dragStartHeading h
  | select index => Edit.select index
  | setMode mode shown => Edit.setMode mode shown
  | undo => Edit.silently Edit.undo

/-- The session after an operation, which may have been refused. -/
def run (op : Operation ν) (s : Session ν) : Session ν := (op.edit.on s).2

/-- Whether an operation is refused. -/
def refused (op : Operation ν) (s : Session ν) : Bool := !(op.edit.on s).1.toBool

/-- The layouts that an operation saves, the latest first. -/
def saved (op : Operation ν) (s : Session ν) : List (Layout ν) :=
  (op.run (s.withHistory .empty)).history

/-- The session after operations one after the other. -/
def runAll (ops : List (Operation ν)) (s : Session ν) : Session ν :=
  ops.foldl (fun s op => op.run s) s

/-- The layouts that operations save one after the other, the latest first. -/
def savedAll : List (Operation ν) → Session ν → List (Layout ν)
  | [], _ => []
  | op :: ops, s => savedAll ops (op.run s) ++ op.saved s

/-! ## What one operation does to the history -/

/-- Decoding does not look at the history, so each run of it is one of the two above. -/
theorem savesFirst_decodeInto (text : List Char) :
    Edit.SavesFirst (Program.decodeInto text : Edit ν Dialect) := by
  intro s
  cases hd : Program.decode text s with
  | error fault => exact .inl ⟨.error fault, fun h => Program.on_decodeInto_of_error hd⟩
  | ok found =>
    obtain ⟨d, decoded⟩ := found
    exact .inr ⟨_, Program.adopt s d decoded, fun h => Program.on_decodeInto_of_ok hd⟩

theorem edit_savesFirst (op : Operation ν) (h : op.saves = true) : Edit.SavesFirst op.edit := by
  cases op with
  | addWaypoint pose kind speed => exact (Edit.savesFirst_addWaypoint pose kind speed).silently
  | moveWaypoint index pose => exact Edit.savesFirst_moveWaypoint index pose
  | retypeWaypoint index kind => exact Edit.savesFirst_retypeWaypoint index kind
  | setSpeed index speed => exact Edit.savesFirst_setSpeed index speed
  | deleteWaypoint index => exact Edit.savesFirst_deleteWaypoint index
  | setStart pose => exact Edit.savesFirst_setStart pose
  | clear => exact Edit.savesFirst_clear
  | addAction ref => exact (Edit.savesFirst_addAction ref).silently
  | addOrReuseMarker point name args tolerance =>
    exact (Edit.savesFirst_addOrReuseMarker point name args tolerance).silently
  | decodeInto text => exact (savesFirst_decodeInto text).silently
  | saveState | beginDrag => exact Edit.savesFirst_saveState
  | dragWaypoint | dragHeading | dragArcControl | dragStart | dragStartHeading | select | setMode
  | undo => cases h

theorem edit_quiet (op : Operation ν) (h : op.saves = false) (hu : op.isUndo = false) :
    Edit.Quiet op.edit := by
  cases op with
  | dragWaypoint index x y => exact Edit.quiet_dragWaypoint index x y
  | dragHeading index heading => exact Edit.quiet_dragHeading index heading
  | dragArcControl index point => exact Edit.quiet_dragArcControl index point
  | dragStart x y => exact Edit.quiet_dragStart x y
  | dragStartHeading heading => exact Edit.quiet_dragStartHeading heading
  | select index => exact Edit.quiet_select index
  | setMode mode shown => exact Edit.quiet_setMode mode shown
  | undo => cases hu
  | addWaypoint | moveWaypoint | retypeWaypoint | setSpeed | deleteWaypoint | setStart | clear
  | addAction | addOrReuseMarker | decodeInto | saveState | beginDrag => cases h

/-- A saving operation has no effect at all, or has saved the layout that it was given and has put
it in front of the history. -/
theorem run_of_saves (op : Operation ν) (h : op.saves = true) (s : Session ν) :
    (op.saved s = [] ∧ op.run s = s) ∨
      (op.saved s = [s.toLayout] ∧
        (op.run s).history = (s.toLayout :: s.history).take historyLimit) := by
  obtain ⟨r, hr⟩ | ⟨r, t, hr⟩ := edit_savesFirst op h s
  · left
    exact ⟨congrArg (·.2.history) (hr .empty), congrArg (·.2) (hr s.past)⟩
  · right
    exact ⟨congrArg (·.2.history) (hr .empty), congrArg (·.2.history) (hr s.past)⟩

/-- A drag, a selection and a change of mode leave the history alone. -/
theorem run_of_not_saves (op : Operation ν) (h : op.saves = false) (hu : op.isUndo = false)
    (s : Session ν) : op.saved s = [] ∧ (op.run s).history = s.history := by
  obtain ⟨r, t, hr⟩ := edit_quiet op h hu s
  exact ⟨congrArg (·.2.history) (hr .empty), congrArg (·.2.history) (hr s.past)⟩

/-- An operation puts what it saves in front of the history, of which the oldest part is lost. -/
theorem run_history (op : Operation ν) (hu : op.isUndo = false) (s : Session ν) :
    (op.run s).history = (op.saved s ++ s.history).take historyLimit := by
  cases h : op.saves with
  | false =>
    obtain ⟨hp, hh⟩ := run_of_not_saves op h hu s
    rw [hp, hh, List.nil_append, List.take_of_length_le s.past.length_le]
  | true =>
    obtain ⟨hp, hh⟩ | ⟨hp, hh⟩ := run_of_saves op h s
    · rw [hp, hh, List.nil_append, List.take_of_length_le s.past.length_le]
    · rw [hp, hh, List.singleton_append]

end Operation

namespace Session

/-- A session as editing begins with it: a new one, or one that has been read. -/
def IsInitial (s : Session Float) : Prop := s = empty ∨ ∃ data, ofJson data = .ok s

/-- The sessions that operations lead to. -/
inductive Reachable : Session Float → Prop
  | initial {s : Session Float} : s.IsInitial → Reachable s
  | step {s : Session Float} (op : Operation Float) : Reachable s → Reachable (op.run s)

end Session

end PathStudio
