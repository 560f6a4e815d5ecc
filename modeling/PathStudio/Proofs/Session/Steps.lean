import PathStudio.Proofs.Session.Selection
import PathStudio.Proofs.Program.Registry
import Mathlib.Logic.Relation

/-!
# The steps that edits are made of

However an edit goes, and wherever it is refused, it takes a session through steps
of six kinds. What all of them keep is kept by every operation.
-/

namespace PathStudio

open Change

variable {ν : Type}

namespace Waypoint

variable {ids : List Int} {w : Waypoint ν}

theorem RunsAmong.relocate (h : w.RunsAmong ids) (x y : ν) : (w.relocate x y).RunsAmong ids := by
  cases w <;> exact h

theorem RunsAmong.turn (h : w.RunsAmong ids) (heading : ν) : (w.turn heading).RunsAmong ids := by
  cases w <;> exact h

theorem RunsAmong.plain (h : w.RunsAmong ids) : w.plain.RunsAmong ids := by
  cases w <;> exact h

end Waypoint

namespace Layout

variable {l t : Layout ν}

theorem Consistent.congr (h : l.Consistent) (markers : t.markers = l.markers)
    (runs : ∀ w ∈ t.waypoints, w ∈ l.waypoints ∨ w.RunsAmong l.markerIds) : t.Consistent := by
  have ids : t.markerIds = l.markerIds := by rw [markerIds, markers, markerIds]
  refine ⟨ids ▸ h.distinct, fun w hw => ?_⟩
  rw [ids]
  exact (runs w hw).elim (h.runs w) id

theorem mem_of_marker? {id : Int} {m : Marker ν} (h : l.marker? id = some m) : m ∈ l.markers :=
  List.mem_of_find?_eq_some h

end Layout

namespace Session

/-- A step of an edit: the present layout is changed, of which markers may be lost; it is saved, or a
saved one is restored; a marker is added with the next number; the mode is changed; or a decoded
program is adopted. -/
inductive Step : Session ν → Session ν → Prop
  | reshape {s : Session ν} (l : Layout ν) (markers : l.markers ⊆ s.markers)
      (consistent : s.toLayout.Consistent → l.Consistent) : Step s { s with toLayout := l }
  | save (s : Session ν) : Step s s.saved
  | restore {s : Session ν} {l : Layout ν} {rest : List (Layout ν)} (h : s.history = l :: rest) :
      Step s { s with toLayout := l, past := s.past.tail }
  | register {s : Session ν} {m : Marker ν} (h : m.id = s.nextMarkerId) :
      Step s { s with nextMarkerId := s.nextMarkerId + 1, markers := s.markers ++ [m] }
  | switch (s : Session ν) (d : Dialect) : Step s { s with mode := .dialect d }
  | adopt (s : Session ν) (d : Dialect) {draft : Program.Draft ν}
      (h : draft.Registers s.nextMarkerId) (start : Pose ν) :
      Step s (Program.adopt s d (draft.toSession start s))

/-- Any number of steps. -/
abbrev Steps : Session ν → Session ν → Prop := Relation.ReflTransGen Step

namespace Steps

variable {s t : Session ν}

theorem keeps {P : Session ν → Prop} (step : ∀ s t : Session ν, Step s t → P s → P t)
    (h : Steps s t) (hs : P s) : P t := by
  induction h with
  | refl => exact hs
  | tail _ last ih => exact step _ _ last ih

theorem reshape (h : Steps s t) {l : Layout ν} (markers : l.markers ⊆ t.markers)
    (consistent : t.toLayout.Consistent → l.Consistent) : Steps s { t with toLayout := l } :=
  h.tail (.reshape l markers consistent)

theorem save (h : Steps s t) : Steps s t.saved := h.tail (.save t)

/-- A change of what is neither a waypoint nor a marker. -/
theorem retouch (h : Steps s t) {l : Layout ν} (markers : l.markers = t.markers)
    (waypoints : l.waypoints = t.waypoints) : Steps s { t with toLayout := l } :=
  h.reshape (fun _ hm => markers ▸ hm)
    fun c => c.congr markers fun _ hw => .inl (waypoints ▸ hw)

theorem setWaypoint (h : Steps s t) (i : Nat) {w : Waypoint ν}
    (runs : t.toLayout.Consistent → w.RunsAmong t.markerIds) : Steps s (t.setWaypoint i w) := by
  refine h.reshape (List.Subset.refl _) fun c => c.congr rfl fun v hv => ?_
  obtain hv | rfl := List.mem_or_eq_of_mem_set hv
  · exact .inl hv
  · exact .inr (runs c)

variable [Add ν] [Sub ν] [Mul ν] [Div ν] [Neg ν] [Scalar ν]

theorem insertAction (h : Steps s t) {a : Action ν} (ha : a.markerId ∈ t.markerIds) :
    Steps s (t.insertAction a) := by
  refine h.reshape (List.Subset.refl _) fun c => c.congr rfl fun v hv => ?_
  obtain rfl | hv := (List.mem_insertIdx (Layout.actionPlace_le t.waypoints)).mp hv
  · exact .inr ha
  · exact .inl hv

end Steps

end Session

/-! ## Edits -/

namespace Edit

variable {s₀ : Session ν}

/-- A session that steps lead to, with a waypoint at a place. -/
def LeadsTo (s₀ : Session ν) (i : Nat) (w : Waypoint ν) (s : Session ν) : Prop :=
  s₀.Steps s ∧ s.waypoints[i]? = some w

theorem answers_waypoint (i : Nat) : Answers s₀.Steps (LeadsTo s₀ i) (waypoint i : Edit ν _) := by
  intro s hs w t run
  obtain ⟨_, _, look, run⟩ := Change.exists_of_on_bind run
  cases look
  split at run
  next v found =>
    cases run
    exact ⟨hs, found⟩
  next => cases run

/-- A waypoint may be replaced by one that runs the same. -/
theorem leads_setWaypoint {i : Nat} {w v : Waypoint ν}
    (same : ∀ ids, w.RunsAmong ids → v.RunsAmong ids) :
    Leads (LeadsTo s₀ i w) (LeadsTo s₀ i v) (setWaypoint i v) := by
  refine leads_modify fun s hs => ⟨hs.1.setWaypoint i fun c => ?_, ?_⟩
  · exact same _ (c.runs w (List.mem_of_getElem? hs.2))
  · have inside : i < s.waypoints.length := (List.getElem?_eq_some_iff.mp hs.2).1
    exact List.getElem?_set_self inside

theorem steps_setMove (i : Nat) (m : Move ν) : Keeps s₀.Steps (setWaypoint i (.move m)) :=
  leads_modify fun _ hs => hs.setWaypoint i fun _ => trivial

theorem steps_saveState : Keeps s₀.Steps (saveState : Edit ν Unit) := leads_modify fun _ hs => hs.save

theorem steps_dragWaypoint (index : Outcome Int) (x y : Operand ν) :
    Keeps s₀.Steps (dragWaypoint index x y) := by
  refine ((reads_located index).keeps _).keeps_bind fun i =>
    ((reads_waypoint i).keeps _).bind_answers (answers_waypoint i) fun w => ?_
  refine (keeps_lift x.read).bind (fun x => ?_) fun _ h => h.1
  refine (keeps_lift y.read).bind (fun y => ?_) fun _ h => h.1
  intro s hs
  exact (leads_setWaypoint (fun _ h => (h.relocate x y).plain) s hs).1

theorem steps_dragHeading (index : Outcome Int) (h : Operand ν) :
    Keeps s₀.Steps (dragHeading index h) := by
  refine (keeps_lift _).keeps_bind fun h => ((reads_located index).keeps _).keeps_bind fun i =>
    ((reads_waypoint i).keeps _).bind_answers (answers_waypoint i) fun w => ?_
  intro s hs
  exact (leads_setWaypoint (fun _ h' => h'.turn h) s hs).1

theorem steps_dragStart (x y : Operand ν) : Keeps s₀.Steps (dragStart x y) := by
  refine (keeps_lift _).keeps_bind fun x => (keeps_lift _).keeps_bind fun y => ?_
  exact leads_modify fun _ hs => hs.retouch rfl rfl

theorem steps_dragStartHeading (h : Operand ν) : Keeps s₀.Steps (dragStartHeading h) := by
  refine (keeps_lift _).keeps_bind fun h => ?_
  exact leads_modify fun _ hs => hs.retouch rfl rfl

theorem steps_setMode (mode : Mode) (shown : String) :
    Keeps s₀.Steps (setMode mode shown : Edit ν Unit) := by
  cases mode with
  | dialect d => exact leads_modify fun s hs => hs.tail (.switch s d)
  | other raw => exact keeps_throw _

theorem steps_undo : Keeps s₀.Steps (undo : Edit ν Bool) := by
  intro s hs
  cases h : s.history with
  | nil =>
    have same : (Change.on undo s).2 = s := congrArg (·.2) (on_undo_of_nil h)
    rwa [same]
  | cons l rest =>
    have back : (Change.on undo s).2 = { s with toLayout := l, past := s.past.tail } :=
      congrArg (·.2) (on_undo_of_cons h)
    rw [back]
    exact hs.tail (.restore h)

variable [Add ν] [Sub ν] [Mul ν] [Div ν] [Neg ν] [Scalar ν]

theorem steps_dragArcControl (index : Outcome Int) (point : PointOperand ν) :
    Keeps s₀.Steps (dragArcControl index point) := by
  refine ((reads_located index).keeps _).keeps_bind fun i =>
    ((reads_waypoint i).keeps _).keeps_bind fun w => ?_
  match w with
  | .action a => exact keeps_throw _
  | .move ⟨.drive, _, _⟩ => exact keeps_throw _
  | .move ⟨.strafe, _, _⟩ => exact keeps_throw _
  | .move ⟨.arc _, pose, speed⟩ =>
    refine (keeps_lift _).keeps_bind fun x => (keeps_lift _).keeps_bind fun y => ?_
    exact steps_setMove i _

theorem steps_select (index : Option (IndexOperand ν)) : Keeps s₀.Steps (select index) := by
  cases index with
  | none => exact leads_modify fun _ hs => hs.retouch rfl rfl
  | some index =>
    refine ((reads_check index).keeps _).keeps_bind fun _ => (keeps_lift _).keeps_bind fun _ => ?_
    exact leads_modify fun _ hs => hs.retouch rfl rfl

theorem steps_setSpeed (index : IndexOperand ν) (speed : Operand ν) :
    Keeps s₀.Steps (setSpeed index speed) := by
  refine ((reads_check index).keeps _).keeps_bind fun _ =>
    ((reads_located _).keeps _).keeps_bind fun i =>
    ((reads_waypoint i).keeps _).keeps_bind fun w => ?_
  cases w with
  | action a => exact keeps_throw _
  | move m =>
    refine steps_saveState.keeps_bind fun _ => (keeps_lift _).keeps_bind fun speed => ?_
    exact steps_setMove i _

theorem steps_retypeWaypoint (index : IndexOperand ν) (kind : KindOperand) :
    Keeps s₀.Steps (retypeWaypoint index kind) := by
  refine ((reads_check index).keeps _).keeps_bind fun _ =>
    ((reads_located _).keeps _).keeps_bind fun i =>
    ((reads_waypoint i).keeps _).keeps_bind fun w => ?_
  cases w with
  | action a => exact keeps_throw _
  | move m =>
    refine (keeps_lift _).keeps_bind fun kind => steps_saveState.keeps_bind fun _ =>
      Leads.keeps_bind (leads_modify fun s hs => ?_) fun _ => steps_setMove i _
    -- an arc has no place in field mode
    cases s.mode.isField && decide (kind = .arc) with
    | true => exact hs.tail (.switch s .robot)
    | false => exact hs

theorem steps_moveWaypoint (index : IndexOperand ν) (pose : PoseOperand ν) :
    Keeps s₀.Steps (moveWaypoint index pose) := by
  refine ((reads_check index).keeps _).keeps_bind fun _ => steps_saveState.keeps_bind fun _ =>
    ((reads_located _).keeps _).keeps_bind fun i =>
    ((reads_waypoint i).keeps _).bind_answers (answers_waypoint i) fun w => ?_
  refine (keeps_lift pose.x.read).bind (fun x => ?_) fun _ h => h.1
  refine (keeps_lift pose.y.read).bind (fun y => ?_) fun _ h => h.1
  refine (leads_setWaypoint fun _ h => h.relocate x y).bind (fun _ => ?_) fun _ h => h.1
  have plain : Leads (LeadsTo s₀ i (w.relocate x y)) s₀.Steps
      (setWaypoint i (w.relocate x y).plain) :=
    fun s hs => (leads_setWaypoint (fun _ h => h.plain) s hs).1
  split
  · exact plain
  · exact plain
  next heading _ =>
    refine (keeps_lift heading.read).bind (fun turned => ?_) fun _ h => h.1
    intro s hs
    exact (leads_setWaypoint (fun _ h => (h.turn turned).plain) s hs).1

theorem steps_deleteWaypoint (index : IndexOperand ν) : Keeps s₀.Steps (deleteWaypoint index) := by
  intro s hs
  obtain (same | same) | ⟨i, -, -, same⟩ :=
    deleteWaypoint_cases index (t := (Change.on (deleteWaypoint index) s).2) rfl
  · rwa [same]
  · rw [same]
    exact hs.save
  · rw [same]
    refine hs.save.reshape (List.Subset.refl _) fun c => ?_
    exact c.congr rfl fun w hw => .inl (List.mem_of_mem_eraseIdx hw)

theorem steps_setStart (pose : PoseOperand ν) : Keeps s₀.Steps (setStart pose) := by
  refine steps_saveState.keeps_bind fun _ => (keeps_lift _).keeps_bind fun x =>
    (keeps_lift _).keeps_bind fun y => (keeps_lift _).keeps_bind fun h => ?_
  exact leads_modify fun _ hs => hs.retouch rfl rfl

theorem steps_clear : Keeps s₀.Steps (clear : Edit ν Unit) := by
  refine steps_saveState.keeps_bind fun _ => leads_modify fun s hs => ?_
  exact hs.reshape (List.nil_subset _) fun _ => ⟨by simp [Layout.markerIds], by simp⟩

theorem steps_addWaypoint (pose : PoseOperand ν) (kind : KindOperand) (speed : Operand ν) :
    Keeps s₀.Steps (addWaypoint pose kind speed) := by
  cases kind with
  | action => exact keeps_throw _
  | move | other =>
    refine (keeps_lift _).keeps_bind fun _ => (keeps_lift _).keeps_bind fun kind =>
      (keeps_lift _).keeps_bind fun x => (keeps_lift _).keeps_bind fun y =>
      (keeps_lift _).keeps_bind fun h => (keeps_lift _).keeps_bind fun speed =>
      steps_saveState.keeps_bind fun _ => leads_get_bind fun s hs => ?_
    refine hs.reshape (List.Subset.refl _) fun c => c.congr rfl fun w hw => ?_
    obtain hw | hw := List.mem_append.mp hw
    · exact .inl hw
    · rw [List.mem_singleton.mp hw]
      exact .inr trivial

/-! ## Edits that give a marker out -/

/-- A session that steps lead to, with a marker among its markers. -/
def LeadsToMarker (s₀ : Session ν) (m : Marker ν) (s : Session ν) : Prop :=
  s₀.Steps s ∧ m ∈ s.markers

section

omit [Add ν] [Sub ν] [Mul ν] [Div ν] [Neg ν] [Scalar ν]

theorem answers_layout :
    Answers s₀.Steps (fun (l : Layout ν) s => s₀.Steps s ∧ s.toLayout = l) layout := by
  rintro s hs _ _ ⟨⟩
  exact ⟨hs, rfl⟩

theorem steps_newMarker (point : PointOperand ν) (name : String) (args : Outcome String) :
    Keeps s₀.Steps (newMarker point name args) := by
  refine (keeps_lift _).keeps_bind fun x => (keeps_lift _).keeps_bind fun y =>
    (keeps_lift _).keeps_bind fun args => leads_get_bind fun s hs => ?_
  exact hs.tail (.register (by rfl))

theorem answers_newMarker (point : PointOperand ν) (name : String) (args : Outcome String) :
    Answers s₀.Steps (LeadsToMarker s₀) (newMarker point name args) := by
  refine .bind (keeps_lift point.x.read) fun x => .bind (keeps_lift point.y.read) fun y =>
    .bind (keeps_lift args) fun args => ?_
  rintro s hs _ _ ⟨⟩
  exact ⟨hs.tail (.register (by rfl)), List.mem_append_right _ (List.mem_singleton_self _)⟩

end

theorem steps_insertAction (m : Marker ν) : Leads (LeadsToMarker s₀ m) s₀.Steps (insertAction m) :=
  leads_get_bind fun _ hs => hs.1.insertAction (List.mem_map_of_mem hs.2)

theorem steps_addAction (ref : MarkerRef) : Keeps s₀.Steps (addAction ref : Edit ν Nat) := by
  refine (reads_layout.keeps _).bind_answers answers_layout fun l => ?_
  split
  · exact fun s hs => hs.1
  next m found =>
    obtain ⟨id, -, found⟩ := Option.bind_eq_some_iff.mp found
    rintro s ⟨hs, rfl⟩
    exact steps_insertAction m s.saved ⟨hs.save, Layout.mem_of_marker? found⟩

theorem mem_of_nearbyMarker {point : PointOperand ν} {name : String} {tolerance : Operand ν}
    {markers : List (Marker ν)} {m : Marker ν}
    (h : nearbyMarker point name tolerance markers = .ok (some m)) : m ∈ markers := by
  induction markers with
  | nil => cases h
  | cons first rest ih =>
    have later (h : nearbyMarker point name tolerance rest = .ok (some m)) : m ∈ first :: rest :=
      List.mem_cons_of_mem _ (ih h)
    rw [nearbyMarker] at h
    split at h
    · obtain ⟨x, -, h⟩ := bind_eq_ok.mp h
      obtain ⟨y, -, h⟩ := bind_eq_ok.mp h
      obtain ⟨bound, -, h⟩ := bind_eq_ok.mp h
      split at h
      · cases h
        exact List.mem_cons_self
      · exact later h
    · exact later h

theorem steps_addOrReuseMarker (point : PointOperand ν) (name args : Outcome String)
    (tolerance : Operand ν) :
    Keeps s₀.Steps (addOrReuseMarker point name args tolerance) := by
  have added (m : Marker ν) : Leads (LeadsToMarker s₀ m) s₀.Steps
      (do let _ ← insertAction m; return m : Edit ν (Marker ν)) :=
    (steps_insertAction m).bind (fun _ => keeps_pure m) fun _ h => h
  refine (keeps_lift name).keeps_bind fun name => ?_
  dsimp only
  split
  · exact keeps_throw _
  · refine steps_saveState.keeps_bind fun _ => leads_get_bind fun s hs => ?_
    have here : Leads (· = s) s₀.Steps
        (liftM (nearbyMarker point (trimmed name) tolerance s.markers) : Edit ν _) := by
      rintro _ rfl
      exact hs
    refine Leads.bind_answers here (answers_lift _) (fun found => ?_) s rfl
    cases found with
    | some m =>
      rintro _ ⟨rfl, found⟩
      exact added m _ ⟨hs, mem_of_nearbyMarker found⟩
    | none =>
      rintro _ ⟨rfl, -⟩
      exact (steps_newMarker point (trimmed name) args).bind_answers
        (answers_newMarker point (trimmed name) args) added _ hs

theorem steps_decodeInto (text : List Char) :
    Keeps s₀.Steps (Program.decodeInto text : Edit ν Dialect) := by
  intro s hs
  cases hd : Program.decode text s with
  | error fault =>
    have same : (Change.on (Program.decodeInto text) s).2 = s :=
      congrArg (·.2) (Program.on_decodeInto_of_error hd)
    rwa [same]
  | ok found =>
    obtain ⟨d, decoded⟩ := found
    have adopted : (Change.on (Program.decodeInto text) s).2 = Program.adopt s d decoded :=
      congrArg (·.2) (Program.on_decodeInto_of_ok hd)
    obtain ⟨draft, start, registers, rfl⟩ := Program.exists_registers hd
    rw [adopted]
    exact hs.tail (.adopt s d registers start)

end Edit

/-! ## Operations -/

namespace Operation

variable [Add ν] [Sub ν] [Mul ν] [Div ν] [Neg ν] [Scalar ν]

/-- An operation takes a session through steps, also when it is refused. -/
theorem steps_run (op : Operation ν) (s : Session ν) : s.Steps (op.run s) := by
  have keeps : Keeps s.Steps op.edit := by
    cases op with
    | addWaypoint pose kind speed => exact keeps_silently (Edit.steps_addWaypoint pose kind speed)
    | moveWaypoint index pose => exact Edit.steps_moveWaypoint index pose
    | retypeWaypoint index kind => exact Edit.steps_retypeWaypoint index kind
    | setSpeed index speed => exact Edit.steps_setSpeed index speed
    | deleteWaypoint index => exact Edit.steps_deleteWaypoint index
    | setStart pose => exact Edit.steps_setStart pose
    | clear => exact Edit.steps_clear
    | addAction ref => exact keeps_silently (Edit.steps_addAction ref)
    | addOrReuseMarker point name args tolerance =>
      exact keeps_silently (Edit.steps_addOrReuseMarker point name args tolerance)
    | decodeInto text => exact keeps_silently (Edit.steps_decodeInto text)
    | saveState | beginDrag => exact Edit.steps_saveState
    | dragWaypoint index x y => exact Edit.steps_dragWaypoint index x y
    | dragHeading index h => exact Edit.steps_dragHeading index h
    | dragArcControl index point => exact Edit.steps_dragArcControl index point
    | dragStart x y => exact Edit.steps_dragStart x y
    | dragStartHeading h => exact Edit.steps_dragStartHeading h
    | select index => exact Edit.steps_select index
    | setMode mode shown => exact Edit.steps_setMode mode shown
    | undo => exact keeps_silently Edit.steps_undo
  exact keeps s .refl

end Operation

end PathStudio
