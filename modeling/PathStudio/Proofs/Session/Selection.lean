import PathStudio.Proofs.Session.Undo

/-!
# Selections

A selection names the place of a waypoint, and edits that move the waypoint move
the selection with it. The places before and after an edit are tied by two
functions, one for a waypoint that is taken out and one for a waypoint that is
put in. What holds of the selection of a layout is kept by every operation, and
so it holds of all layouts that undoing may bring back. A real that was accepted
as an index names no place.
-/

namespace PathStudio

open Change

/-! ## Places -/

/-- Where the waypoint at a place is after the one at `i` has been taken out. -/
def placeWithout (i j : Nat) : Nat := if i < j then j - 1 else j

/-- Where the waypoint at a place is after another has been put in at `i`. -/
def placeWith (i j : Nat) : Nat := if i ≤ j then j + 1 else j

theorem getElem?_placeWithout {α : Type} (xs : List α) {i j : Nat} (h : j ≠ i) :
    (xs.eraseIdx i)[placeWithout i j]? = xs[j]? := by
  rw [placeWithout, List.getElem?_eraseIdx]
  split
  · rw [if_neg (by omega), Nat.sub_add_cancel (by omega)]
  · rw [if_pos (by omega)]

@[simp] theorem getElem?_placeWith {α : Type} (xs : List α) (x : α) (i j : Nat) :
    (xs.insertIdx i x)[placeWith i j]? = xs[j]? := by
  rw [placeWith, List.getElem?_insertIdx]
  split
  · rw [if_neg (by omega), if_neg (by omega), Nat.add_sub_cancel]
  · rw [if_pos (by omega)]

namespace Layout

variable {ν : Type}

/-- An action goes to a place within the path or right behind it. -/
theorem actionPlace_le (ws : List (Waypoint ν)) : actionPlace ws ≤ ws.length := by
  induction ws with
  | nil => exact Nat.le_refl 0
  | cons w rest ih =>
    rw [actionPlace, List.length_cons]
    split
    · split <;> omega
    · omega

end Layout

namespace Selection

variable {ν : Type}

/-- The place that a selection names; a real names none. -/
def place? : Selection ν → Option Nat
  | .place i => some i
  | .flag b => some b.toNat
  | .real _ => none

variable [Add ν] [Sub ν] [Mul ν] [Div ν] [Neg ν] [Scalar ν] {j : Selection ν}

theorem isAt_eq {n : Nat} (h : j.place? = some n) (i : Nat) : j.isAt i = (n == i) := by
  cases j <;> cases h <;> rfl

theorem isAfter_eq {n : Nat} (h : j.place? = some n) (i : Nat) : j.isAfter i = decide (i < n) := by
  cases j <;> cases h <;> rfl

@[simp] theorem place?_next (j : Selection ν) : j.next.place? = j.place?.map (· + 1) := by
  cases j <;> rfl

@[simp] theorem place?_previous (j : Selection ν) : j.previous.place? = j.place?.map (· - 1) := by
  cases j <;> rfl

/-- A selection that is not the one taken out stays with its waypoint. -/
theorem place?_selectionWithout {selection : Option (Selection ν)} {i : Nat}
    (h : selection.bind place? ≠ some i) :
    (Session.selectionWithout selection i).bind place? =
      (selection.bind place?).map (placeWithout i) := by
  cases selection with
  | none => rfl
  | some j =>
    rw [Session.selectionWithout]
    cases hn : j.place? with
    | none =>
      have real : j.previous.place? = none := by rw [place?_previous, hn, Option.map_none]
      split
      · simp [hn]
      · split <;> simp [hn, real]
    | some n =>
      have other : n ≠ i := by simpa [hn] using h
      rw [isAt_eq hn, isAfter_eq hn, beq_false_of_ne other, if_neg (by simp)]
      by_cases after : i < n <;> simp [after, hn, place?_previous, placeWithout]

/-- A selection at or behind the place where a waypoint is put in stays with its own one. -/
theorem place?_insertAction (selection : Option (Selection ν)) (i : Nat) :
    (selection.map fun j => if j.isAt i || j.isAfter i then j.next else j).bind place? =
      (selection.bind place?).map (placeWith i) := by
  cases selection with
  | none => rfl
  | some j =>
    cases hn : j.place? with
    | none =>
      have real : j.next.place? = none := by rw [place?_next, hn, Option.map_none]
      simp only [Option.map_some, Option.bind_some, hn, Option.map_none]
      split
      · exact real
      · exact hn
    | some n =>
      have behind : (j.isAt i || j.isAfter i) = decide (i ≤ n) := by
        rw [isAt_eq hn, isAfter_eq hn, Bool.eq_iff_iff]
        simp only [Bool.or_eq_true, beq_iff_eq, decide_eq_true_eq]
        omega
      simp only [Option.map_some, Option.bind_some, hn, behind, placeWith]
      by_cases h : i ≤ n <;> simp [h, hn, place?_next]

end Selection

/-! ## The selected waypoint -/

namespace Layout

variable {ν : Type}

/-- The place that is selected. -/
def selectedPlace? (l : Layout ν) : Option Nat := l.selection.bind Selection.place?

/-- The waypoint that is selected. -/
def selected? (l : Layout ν) : Option (Waypoint ν) := l.selectedPlace?.bind (l.waypoints[·]?)

/-- What an edit has done to the path and the selection: the waypoints are the given ones, and the
selected waypoint is now at the place that the given function tells. -/
structure Carries (l t : Layout ν) (waypoints : List (Waypoint ν)) (moved : Nat → Nat) : Prop where
  waypoints_eq : t.waypoints = waypoints
  place_eq : t.selectedPlace? = l.selectedPlace?.map moved
  selected_eq : t.selected? = l.selected?

/-- The selected waypoint is still found where it has moved to. -/
theorem Carries.of_place {l t : Layout ν} {waypoints : List (Waypoint ν)} {moved : Nat → Nat}
    (hw : t.waypoints = waypoints) (hp : t.selectedPlace? = l.selectedPlace?.map moved)
    (found : ∀ j, l.selectedPlace? = some j → waypoints[moved j]? = l.waypoints[j]?) :
    Carries l t waypoints moved := by
  refine ⟨hw, hp, ?_⟩
  rw [selected?, selected?, hp, hw]
  cases hj : l.selectedPlace? with
  | none => rfl
  | some j => exact found j hj

/-- An edit that touches neither the path nor the selection. -/
theorem Carries.of_eq {l t : Layout ν} (hw : t.waypoints = l.waypoints)
    (hs : t.selection = l.selection) : Carries l t l.waypoints id :=
  .of_place hw (by rw [selectedPlace?, selectedPlace?, hs, Option.map_id_fun, id_eq]) fun _ _ => rfl

/-- Path and selection are the same. -/
def SamePath (l t : Layout ν) : Prop := t.waypoints = l.waypoints ∧ t.selection = l.selection

/-- What putting an action after the last move may do to the path and the selection: nothing, or
the action is there and the selected waypoint has made room. -/
def Inserts (l t : Layout ν) : Prop :=
  l.Carries t l.waypoints id ∨ ∃ a,
    l.Carries t (l.waypoints.insertIdx (actionPlace l.waypoints) (.action a))
      (placeWith (actionPlace l.waypoints))

theorem SamePath.inserts {l t : Layout ν} (h : l.SamePath t) : l.Inserts t :=
  .inl (.of_eq h.1 h.2)

end Layout

section Steps

variable {ν : Type} [Add ν] [Sub ν] [Mul ν] [Div ν] [Neg ν] [Scalar ν]

theorem carries_without {l t : Layout ν} {i : Nat} (other : l.selectedPlace? ≠ some i)
    (hw : t.waypoints = l.waypoints.eraseIdx i)
    (hs : t.selection = Session.selectionWithout l.selection i) :
    l.Carries t (l.waypoints.eraseIdx i) (placeWithout i) := by
  refine .of_place hw ?_ fun j hj => ?_
  · rw [Layout.selectedPlace?, hs]
    exact Selection.place?_selectionWithout other
  · apply getElem?_placeWithout
    rintro rfl
    exact other hj

/-- The session may differ from the layout in what is neither path nor selection. -/
theorem carries_insertAction {l : Layout ν} {s : Session ν} (hw : s.waypoints = l.waypoints)
    (hs : s.selection = l.selection) (a : Action ν) :
    l.Carries (s.insertAction a).toLayout
      (l.waypoints.insertIdx (Layout.actionPlace l.waypoints) (.action a))
      (placeWith (Layout.actionPlace l.waypoints)) := by
  refine .of_place (by rw [← hw]; rfl) ?_ fun _ _ => getElem?_placeWith _ _ _ _
  rw [Layout.selectedPlace?, Layout.selectedPlace?, ← hs, ← hw]
  exact Selection.place?_insertAction s.selection _

end Steps

/-! ## Anchored selections -/

/-- A layout whose selection, if it has one, names a waypoint of the path. Where `reals` allows it,
the selection may also be a real, which names none. -/
structure Layout.Anchored {ν : Type} (reals : Bool) (l : Layout ν) : Prop where
  lt_length : ∀ i, l.selectedPlace? = some i → i < l.waypoints.length
  named : reals = false → l.selection.isSome = true → l.selectedPlace?.isSome = true

/-- A session of which all layouts are anchored, the present one and those that undoing restores. -/
def Session.Anchored {ν : Type} (reals : Bool) (s : Session ν) : Prop :=
  ∀ l ∈ s.toLayout :: s.history, l.Anchored reals

namespace Layout.Anchored

variable {ν : Type} {reals : Bool} {l t : Layout ν}

theorem of_none (h : l.selection = none) : l.Anchored reals where
  lt_length i hi := by simp [selectedPlace?, h] at hi
  named _ some := by simp [h] at some

theorem of_place {j : Selection ν} {i : Nat} (h : l.selection = some j) (place : j.place? = some i)
    (inside : i < l.waypoints.length) : l.Anchored reals where
  lt_length k hk := by
    rw [selectedPlace?, h, Option.bind_some, place] at hk
    cases hk
    exact inside
  named _ _ := by simp [selectedPlace?, h, place]

theorem congr (h : l.Anchored reals) (length : t.waypoints.length = l.waypoints.length)
    (selection : t.selection = l.selection) : t.Anchored reals where
  lt_length i hi := by
    rw [selectedPlace?, selection] at hi
    exact length ▸ h.lt_length i hi
  named strict some := by
    rw [selectedPlace?, selection]
    exact h.named strict (selection ▸ some)

/-- An edit that carries the selected waypoint along keeps the layout anchored. -/
theorem of_carries {waypoints : List (Waypoint ν)} {moved : Nat → Nat} (h : l.Anchored reals)
    (carries : l.Carries t waypoints moved) (some : t.selection.isSome = l.selection.isSome)
    (inside : ∀ j < l.waypoints.length, l.selectedPlace? = Option.some j → moved j < waypoints.length) :
    t.Anchored reals where
  lt_length i hi := by
    rw [carries.place_eq] at hi
    obtain ⟨j, hj, rfl⟩ := Option.map_eq_some_iff.mp hi
    rw [carries.waypoints_eq]
    exact inside j (h.lt_length j hj) hj
  named strict selected := by
    rw [carries.place_eq, Option.isSome_map]
    exact h.named strict (some ▸ selected)

variable [Add ν] [Sub ν] [Mul ν] [Div ν] [Neg ν] [Scalar ν]

/-- The selection of a waypoint that is taken out is lost, and another one moves with its own. -/
theorem without (h : l.Anchored reals) {i : Nat} (hi : i < l.waypoints.length)
    (hw : t.waypoints = l.waypoints.eraseIdx i)
    (hs : t.selection = Session.selectionWithout l.selection i) : t.Anchored reals := by
  cases hj : l.selection with
  | none =>
    apply of_none
    rw [hs, hj, Session.selectionWithout]
  | some j =>
    cases at_i : j.isAt i with
    | true =>
      apply of_none
      rw [hs, hj, Session.selectionWithout, if_pos at_i]
    | false =>
      have other : l.selectedPlace? ≠ some i := by
        intro same
        rw [selectedPlace?, hj, Option.bind_some] at same
        rw [Selection.isAt_eq same, beq_self_eq_true] at at_i
        cases at_i
      refine h.of_carries (carries_without other hw hs) ?_ fun n hn place => ?_
      · rw [hs, hj, Session.selectionWithout, at_i, if_neg (by simp)]
        split <;> rfl
      · have : n ≠ i := by
          rintro rfl
          exact other place
        rw [List.length_eraseIdx_of_lt hi, placeWithout]
        split <;> omega

end Layout.Anchored

namespace Session.Anchored

variable {ν : Type} {reals : Bool} {s t : Session ν}

theorem replaced (h : s.Anchored reals) (layout : t.toLayout.Anchored reals)
    (history : t.history = s.history) : t.Anchored reals := by
  intro l hl
  obtain rfl | hl := List.mem_cons.mp hl
  · exact layout
  · exact h l (List.mem_cons_of_mem _ (history ▸ hl))

theorem layout (h : s.Anchored reals) : s.toLayout.Anchored reals := h _ List.mem_cons_self

theorem saved (h : s.Anchored reals) : s.saved.Anchored reals := by
  intro l hl
  obtain rfl | hl := List.mem_cons.mp hl
  · exact h.layout
  · exact h l (List.mem_of_mem_take hl)

variable [Add ν] [Sub ν] [Mul ν] [Div ν] [Neg ν] [Scalar ν]

theorem insertAction (h : s.Anchored reals) (a : Action ν) : (s.insertAction a).Anchored reals := by
  refine h.replaced (h.layout.of_carries (carries_insertAction rfl rfl a) ?_ fun j hj _ => ?_) rfl
  · exact Option.isSome_map
  · rw [List.length_insertIdx_of_le_length (Layout.actionPlace_le _), placeWith]
    split <;> omega

end Session.Anchored

/-! ## Edits -/

namespace Edit

variable {ν α : Type} {reals : Bool}

theorem Reads.keeps {e : Edit ν α} (h : Reads e) (P : Session ν → Prop) : Change.Keeps P e := by
  intro s hs
  obtain ⟨r, hr⟩ := h s
  have same : (Change.on e s).2 = s := congrArg (·.2) (hr s.past)
  rwa [same]

theorem keeps_saveState : Keeps (Session.Anchored reals) (saveState : Edit ν Unit) :=
  leads_modify fun _ hs => hs.saved

/-- A change of anything but the selection and the number of waypoints. -/
theorem keeps_modify {g : Session ν → Session ν} (history : ∀ s, (g s).history = s.history)
    (length : ∀ s, (g s).waypoints.length = s.waypoints.length)
    (selection : ∀ s, (g s).selection = s.selection) :
    Keeps (Session.Anchored reals) (modify g : Edit ν Unit) :=
  leads_modify fun s hs => hs.replaced (hs.layout.congr (length s) (selection s)) (history s)

theorem keeps_setWaypoint (i : Nat) (w : Waypoint ν) :
    Keeps (Session.Anchored reals) (setWaypoint i w) :=
  keeps_modify (fun _ => rfl) (fun _ => List.length_set) fun _ => rfl

theorem keeps_newMarker (point : PointOperand ν) (name : String) (args : Outcome String) :
    Keeps (Session.Anchored reals) (newMarker point name args) := by
  refine (keeps_lift _).keeps_bind fun x => (keeps_lift _).keeps_bind fun y =>
    (keeps_lift _).keeps_bind fun args => leads_get_bind fun s hs => ?_
  exact hs.replaced (hs.layout.congr rfl rfl) rfl

theorem keeps_dragWaypoint (index : Outcome Int) (x y : Operand ν) :
    Keeps (Session.Anchored reals) (dragWaypoint index x y) := by
  refine ((reads_located index).keeps _).keeps_bind fun i =>
    ((reads_waypoint i).keeps _).keeps_bind fun w =>
    (keeps_lift _).keeps_bind fun x => (keeps_lift _).keeps_bind fun y => ?_
  exact keeps_setWaypoint i _

theorem keeps_dragHeading (index : Outcome Int) (h : Operand ν) :
    Keeps (Session.Anchored reals) (dragHeading index h) := by
  refine (keeps_lift _).keeps_bind fun h => ((reads_located index).keeps _).keeps_bind fun i =>
    ((reads_waypoint i).keeps _).keeps_bind fun w => ?_
  exact keeps_setWaypoint i _

theorem keeps_dragStart (x y : Operand ν) : Keeps (Session.Anchored reals) (dragStart x y) := by
  refine (keeps_lift _).keeps_bind fun x => (keeps_lift _).keeps_bind fun y => ?_
  exact keeps_modify (fun _ => rfl) (fun _ => rfl) fun _ => rfl

theorem keeps_dragStartHeading (h : Operand ν) :
    Keeps (Session.Anchored reals) (dragStartHeading h) := by
  refine (keeps_lift _).keeps_bind fun h => ?_
  exact keeps_modify (fun _ => rfl) (fun _ => rfl) fun _ => rfl

theorem keeps_setMode (mode : Mode) (shown : String) :
    Keeps (Session.Anchored reals) (setMode mode shown : Edit ν Unit) := by
  cases mode with
  | dialect d => exact keeps_modify (fun _ => rfl) (fun _ => rfl) fun _ => rfl
  | other raw => exact keeps_throw _

theorem keeps_undo : Keeps (Session.Anchored reals) (undo : Edit ν Bool) := by
  intro s hs
  cases h : s.history with
  | nil =>
    have same : (Change.on undo s).2 = s := congrArg (·.2) (on_undo_of_nil h)
    rwa [same]
  | cons l rest =>
    have back : (Change.on undo s).2 = { s with toLayout := l, past := s.past.tail } :=
      congrArg (·.2) (on_undo_of_cons h)
    rw [back]
    intro k (hk : k ∈ l :: s.past.tail.layouts)
    rw [Session.cons_layouts_tail h] at hk
    exact hs k (List.mem_cons_of_mem _ hk)

variable [Add ν] [Sub ν] [Mul ν] [Div ν] [Neg ν] [Scalar ν]

theorem keeps_insertAction (m : Marker ν) : Keeps (Session.Anchored reals) (insertAction m) :=
  leads_get_bind fun _ hs => hs.insertAction _

theorem keeps_dragArcControl (index : Outcome Int) (point : PointOperand ν) :
    Keeps (Session.Anchored reals) (dragArcControl index point) := by
  refine ((reads_located index).keeps _).keeps_bind fun i =>
    ((reads_waypoint i).keeps _).keeps_bind fun w => ?_
  match w with
  | .action a => exact keeps_throw _
  | .move ⟨.drive, _, _⟩ => exact keeps_throw _
  | .move ⟨.strafe, _, _⟩ => exact keeps_throw _
  | .move ⟨.arc _, pose, speed⟩ =>
    refine (keeps_lift _).keeps_bind fun x => (keeps_lift _).keeps_bind fun y => ?_
    exact keeps_setWaypoint i _

theorem keeps_setSpeed (index : IndexOperand ν) (speed : Operand ν) :
    Keeps (Session.Anchored reals) (setSpeed index speed) := by
  refine ((reads_check index).keeps _).keeps_bind fun _ =>
    ((reads_located _).keeps _).keeps_bind fun i =>
    ((reads_waypoint i).keeps _).keeps_bind fun w => ?_
  cases w with
  | action a => exact keeps_throw _
  | move m =>
    refine keeps_saveState.keeps_bind fun _ => (keeps_lift _).keeps_bind fun speed => ?_
    exact keeps_setWaypoint i _

theorem keeps_retypeWaypoint (index : IndexOperand ν) (kind : KindOperand) :
    Keeps (Session.Anchored reals) (retypeWaypoint index kind) := by
  refine ((reads_check index).keeps _).keeps_bind fun _ =>
    ((reads_located _).keeps _).keeps_bind fun i =>
    ((reads_waypoint i).keeps _).keeps_bind fun w => ?_
  cases w with
  | action a => exact keeps_throw _
  | move m =>
    refine (keeps_lift _).keeps_bind fun kind => keeps_saveState.keeps_bind fun _ =>
      Leads.keeps_bind ?_ fun _ => keeps_setWaypoint i _
    exact keeps_modify (fun _ => rfl) (fun _ => rfl) fun _ => rfl

theorem keeps_moveWaypoint (index : IndexOperand ν) (pose : PoseOperand ν) :
    Keeps (Session.Anchored reals) (moveWaypoint index pose) := by
  refine ((reads_check index).keeps _).keeps_bind fun _ => keeps_saveState.keeps_bind fun _ =>
    ((reads_located _).keeps _).keeps_bind fun i => ((reads_waypoint i).keeps _).keeps_bind fun w =>
    (keeps_lift _).keeps_bind fun x => (keeps_lift _).keeps_bind fun y =>
    (keeps_setWaypoint i _).keeps_bind fun _ => ?_
  split
  · exact keeps_setWaypoint i _
  · exact keeps_setWaypoint i _
  · exact (keeps_lift _).keeps_bind fun h => keeps_setWaypoint i _

theorem keeps_setStart (pose : PoseOperand ν) : Keeps (Session.Anchored reals) (setStart pose) := by
  refine keeps_saveState.keeps_bind fun _ => (keeps_lift _).keeps_bind fun x =>
    (keeps_lift _).keeps_bind fun y => (keeps_lift _).keeps_bind fun h => ?_
  exact keeps_modify (fun _ => rfl) (fun _ => rfl) fun _ => rfl

/-- An index that has passed the check is that of a waypoint. -/
theorem inside_of_checkIndex {l : Layout ν} {index : IndexOperand ν} {i : Int}
    (h : l.checkIndex index = .ok ()) (hi : index.position = .ok i) :
    0 ≤ i ∧ i < l.waypoints.length := by
  obtain ⟨among, found, checked⟩ := bind_eq_ok.mp h
  cases among with
  | false => cases checked
  | true =>
    cases index with
    | whole n =>
      cases hi
      simpa [IndexOperand.isAmong] using found
    | flag b =>
      cases hi
      simp only [IndexOperand.isAmong, Except.ok.injEq, decide_eq_true_eq] at found
      omega
    | real | unusable => cases hi

/-- A real becomes the selection only where `reals` allows it. -/
theorem keeps_select (index : Option (IndexOperand ν))
    (allowed : ∀ x shown, index = some (.real x shown) → reals = true) :
    Keeps (Session.Anchored reals) (select index) := by
  intro s hs
  cases index with
  | none => exact hs.replaced (.of_none rfl) rfl
  | some index =>
    cases checked : s.toLayout.checkIndex index with
    | error fault =>
      rw [select, Change.on_bind_error (e := check index) (congrArg (·, s) checked)]
      exact hs
    | ok _ =>
      rw [select, Change.on_bind_ok (e := check index) (congrArg (·, s) checked)]
      cases index with
      | whole n =>
        have inside := inside_of_checkIndex checked rfl
        exact hs.replaced (.of_place (i := n.toNat) rfl rfl (by show _ < s.waypoints.length; omega)) rfl
      | flag b =>
        have inside := inside_of_checkIndex checked rfl
        exact hs.replaced (.of_place (i := b.toNat) rfl rfl (by show _ < s.waypoints.length; omega)) rfl
      | real x shown =>
        refine hs.replaced ⟨?_, ?_⟩ rfl
        · rintro i ⟨⟩
        · intro strict
          cases (allowed x shown rfl).symm.trans strict
      | unusable => exact hs

/-- Deleting is refused, which may come after the saving, or takes the waypoint out that the index
names. -/
theorem deleteWaypoint_cases (index : IndexOperand ν) {s t : Session ν}
    (ht : ((deleteWaypoint index).on s).2 = t) :
    (t = s ∨ t = s.saved) ∨ ∃ i, index.position = .ok i ∧ i.toNat < s.waypoints.length ∧
      t = { s.saved with
        waypoints := s.waypoints.eraseIdx i.toNat
        selection := Session.selectionWithout s.selection i.toNat } := by
  cases checked : s.toLayout.checkIndex index with
  | error fault =>
    rw [deleteWaypoint, on_bind_error (e := check index) (congrArg (·, s) checked)] at ht
    exact .inl (.inl ht.symm)
  | ok _ =>
    rw [deleteWaypoint, on_bind_ok (e := check index) (congrArg (·, s) checked),
      on_bind_ok (on_saveState s)] at ht
    cases hi : index.position with
    | error fault =>
      rw [hi] at ht
      exact .inl (.inr ht.symm)
    | ok i =>
      obtain ⟨lower, upper⟩ := inside_of_checkIndex checked hi
      have place : s.saved.toLayout.locate i = .ok i.toNat := by
        rw [Layout.locate, Json.position?, if_pos lower, if_pos (by exact upper)]
      have found : (located (.ok i) : Edit ν Nat).on s.saved = (.ok i.toNat, s.saved) :=
        congrArg (·, s.saved) place
      rw [hi, on_bind_ok found] at ht
      exact .inr ⟨i, rfl, by omega, ht.symm⟩

theorem keeps_deleteWaypoint (index : IndexOperand ν) :
    Keeps (Session.Anchored reals) (deleteWaypoint index) := by
  intro s hs
  obtain (same | same) | ⟨i, -, hi, same⟩ :=
    deleteWaypoint_cases index (t := (Change.on (deleteWaypoint index) s).2) rfl
  · rwa [same]
  · rw [same]
    exact hs.saved
  · rw [same]
    exact hs.saved.replaced (hs.layout.without hi rfl rfl) rfl

theorem keeps_clear : Keeps (Session.Anchored reals) (clear : Edit ν Unit) := by
  refine keeps_saveState.keeps_bind fun _ => leads_modify fun s hs => ?_
  exact hs.replaced (.of_none rfl) rfl

theorem keeps_addAction (ref : MarkerRef) :
    Keeps (Session.Anchored reals) (addAction ref : Edit ν Nat) := by
  refine (reads_layout.keeps _).keeps_bind fun l => ?_
  split
  · exact keeps_throw _
  · exact keeps_saveState.keeps_bind fun _ => keeps_insertAction _

/-- The added move is the last waypoint of the longer path. -/
theorem keeps_addWaypoint (pose : PoseOperand ν) (kind : KindOperand) (speed : Operand ν) :
    Keeps (Session.Anchored reals) (addWaypoint pose kind speed) := by
  cases kind with
  | action => exact keeps_throw _
  | move | other =>
    refine (keeps_lift _).keeps_bind fun _ => (keeps_lift _).keeps_bind fun kind =>
      (keeps_lift _).keeps_bind fun x => (keeps_lift _).keeps_bind fun y =>
      (keeps_lift _).keeps_bind fun h => (keeps_lift _).keeps_bind fun speed =>
      keeps_saveState.keeps_bind fun _ => leads_get_bind fun s hs => ?_
    have longer : s.waypoints.length <
        (s.waypoints ++ [Waypoint.move ⟨.ofKind kind, ⟨x, y, h⟩, speed⟩]).length := by simp
    exact hs.replaced (.of_place rfl rfl longer) rfl

theorem keeps_addOrReuseMarker (point : PointOperand ν) (name args : Outcome String)
    (tolerance : Operand ν) :
    Keeps (Session.Anchored reals) (addOrReuseMarker point name args tolerance) := by
  refine (keeps_lift name).keeps_bind fun name => ?_
  dsimp only
  split
  · exact keeps_throw _
  · refine keeps_saveState.keeps_bind fun _ => leads_get_bind fun s hs => ?_
    refine Leads.keeps_bind (keeps_lift _) (fun found => ?_) s hs
    have added : ∀ m : Marker ν,
        Keeps (Session.Anchored reals) (do let _ ← insertAction m; return m : Edit ν (Marker ν)) :=
      fun m => (keeps_insertAction m).keeps_bind fun _ => keeps_pure m
    cases found with
    | some m => exact (keeps_pure m).keeps_bind added
    | none => exact (keeps_newMarker point _ args).keeps_bind added

theorem keeps_decodeInto (text : List Char) :
    Keeps (Session.Anchored reals) (Program.decodeInto text : Edit ν Dialect) := by
  intro s hs
  cases hd : Program.decode text s with
  | error fault =>
    have same : (Change.on (Program.decodeInto text) s).2 = s :=
      congrArg (·.2) (Program.on_decodeInto_of_error hd)
    rwa [same]
  | ok found =>
    obtain ⟨d, decoded⟩ := found
    have adopted : (Change.on (Program.decodeInto text) s).2 = Program.adopt s d decoded :=
      congrArg (·.2) (Program.on_decodeInto_of_ok hd)
    rw [adopted]
    refine hs.saved.replaced ?_ rfl
    cases hw : decoded.waypoints with
    | nil => exact .of_none (by simp [Program.adopt, hw])
    | cons w rest =>
      exact .of_place (by simp only [Program.adopt, hw]; rfl) rfl (by simp [Program.adopt, hw])

/-! ## Which waypoint is selected -/

theorem carries_deleteWaypoint {index : IndexOperand ν} {s : Session ν}
    (other : ∀ i, index.position = .ok i → s.selectedPlace? ≠ some i.toNat) :
    let t := ((deleteWaypoint index).on s).2
    s.Carries t.toLayout s.waypoints id ∨ ∃ i, index.position = .ok i ∧
      s.Carries t.toLayout (s.waypoints.eraseIdx i.toNat) (placeWithout i.toNat) := by
  obtain (same | same) | ⟨i, position, -, same⟩ := deleteWaypoint_cases index (s := s) rfl
  · exact .inl (.of_eq (by rw [same]) (by rw [same]))
  · exact .inl (.of_eq (by rw [same]; rfl) (by rw [same]; rfl))
  · exact .inr ⟨i, position, carries_without (other i position) (by rw [same]) (by rw [same])⟩

theorem leads_insertAction {l : Layout ν} (m : Marker ν) :
    Leads (fun t => l.SamePath t.toLayout) (fun t => l.Inserts t.toLayout) (insertAction m) :=
  leads_get_bind fun _ hs => .inr ⟨_, carries_insertAction hs.1 hs.2 _⟩

theorem inserts_addAction (ref : MarkerRef) (s : Session ν) :
    s.Inserts ((addAction ref).on s).2.toLayout := by
  have saved : Keeps (fun t => s.SamePath t.toLayout) saveState := leads_modify fun _ hs => hs
  have leads : Leads (fun t => s.SamePath t.toLayout) (fun t => s.Inserts t.toLayout)
      (addAction ref) := by
    refine (reads_layout.keeps _).bind (fun l => ?_) fun _ ht => ht.inserts
    split
    · exact fun _ ht => ht.inserts
    · exact saved.bind (fun _ => leads_insertAction _) fun _ ht => ht.inserts
  exact leads s ⟨rfl, rfl⟩

theorem inserts_addOrReuseMarker (point : PointOperand ν) (name args : Outcome String)
    (tolerance : Operand ν) (s : Session ν) :
    s.Inserts ((addOrReuseMarker point name args tolerance).on s).2.toLayout := by
  have saved : Keeps (fun t => s.SamePath t.toLayout) saveState := leads_modify fun _ hs => hs
  have numbered : ∀ name, Keeps (fun t => s.SamePath t.toLayout) (newMarker point name args) := by
    intro name
    exact (keeps_lift _).keeps_bind fun x => (keeps_lift _).keeps_bind fun y =>
      (keeps_lift _).keeps_bind fun args => leads_get_bind fun _ ht => ht
  have added : ∀ m : Marker ν, Leads (fun t => s.SamePath t.toLayout)
      (fun t => s.Inserts t.toLayout) (do let _ ← insertAction m; return m) :=
    fun m => (leads_insertAction m).bind (fun _ => keeps_pure m) fun _ ht => ht
  have leads : Leads (fun t => s.SamePath t.toLayout) (fun t => s.Inserts t.toLayout)
      (addOrReuseMarker point name args tolerance) := by
    refine (keeps_lift name).bind (fun name => ?_) fun _ ht => ht.inserts
    dsimp only
    split
    · exact fun _ ht => ht.inserts
    · refine saved.bind (fun _ => leads_get_bind fun u hu => ?_) fun _ ht => ht.inserts
      refine (@keeps_lift _ _ (fun t : Session ν => s.SamePath t.toLayout) _).bind (fun found => ?_)
        (fun _ ht => ht.inserts) u hu
      cases found with
      | some m => exact (keeps_pure m).bind added fun _ ht => ht.inserts
      | none => exact (numbered _).bind added fun _ ht => ht.inserts
  exact leads s ⟨rfl, rfl⟩

end Edit

/-! ## Operations -/

namespace Operation

/-- Whether an operation selects by a real. -/
def selectsReal {ν : Type} : Operation ν → Bool
  | select (some (.real _ _)) => true
  | _ => false

variable {ν : Type} {reals : Bool}

theorem keeps_silently {α : Type} {P : Session ν → Prop} {e : Edit ν α} (h : Keeps P e) :
    Keeps P (Edit.silently e) :=
  h.keeps_bind fun _ => keeps_pure ()

variable [Add ν] [Sub ν] [Mul ν] [Div ν] [Neg ν] [Scalar ν]

theorem anchored_run {op : Operation ν} (allowed : op.selectsReal = true → reals = true)
    {s : Session ν} (hs : s.Anchored reals) : (op.run s).Anchored reals := by
  have keeps : Keeps (Session.Anchored reals) op.edit := by
    cases op with
    | addWaypoint pose kind speed => exact keeps_silently (Edit.keeps_addWaypoint pose kind speed)
    | moveWaypoint index pose => exact Edit.keeps_moveWaypoint index pose
    | retypeWaypoint index kind => exact Edit.keeps_retypeWaypoint index kind
    | setSpeed index speed => exact Edit.keeps_setSpeed index speed
    | deleteWaypoint index => exact Edit.keeps_deleteWaypoint index
    | setStart pose => exact Edit.keeps_setStart pose
    | clear => exact Edit.keeps_clear
    | addAction ref => exact keeps_silently (Edit.keeps_addAction ref)
    | addOrReuseMarker point name args tolerance =>
      exact keeps_silently (Edit.keeps_addOrReuseMarker point name args tolerance)
    | decodeInto text => exact keeps_silently (Edit.keeps_decodeInto text)
    | saveState | beginDrag => exact Edit.keeps_saveState
    | dragWaypoint index x y => exact Edit.keeps_dragWaypoint index x y
    | dragHeading index h => exact Edit.keeps_dragHeading index h
    | dragArcControl index point => exact Edit.keeps_dragArcControl index point
    | dragStart x y => exact Edit.keeps_dragStart x y
    | dragStartHeading h => exact Edit.keeps_dragStartHeading h
    | select index =>
      apply Edit.keeps_select
      rintro x shown rfl
      exact allowed rfl
    | setMode mode shown => exact Edit.keeps_setMode mode shown
    | undo => exact keeps_silently Edit.keeps_undo
  exact keeps s hs

theorem anchored_runAll {ops : List (Operation ν)}
    (allowed : ∀ op ∈ ops, op.selectsReal = true → reals = true) {s : Session ν}
    (hs : s.Anchored reals) : (runAll ops s).Anchored reals := by
  induction ops generalizing s with
  | nil => exact hs
  | cons op ops ih =>
    apply ih (fun op h => allowed op (List.mem_cons_of_mem _ h))
    exact anchored_run (allowed op List.mem_cons_self) hs

end Operation

namespace Session

theorem IsInitial.anchored {s : Session Float} (h : s.IsInitial) (reals : Bool) :
    s.Anchored reals := by
  intro l hl
  rw [h.history_eq_nil, List.mem_singleton] at hl
  subst hl
  apply Layout.Anchored.of_none
  obtain rfl | ⟨data, hd⟩ := h
  · rfl
  · exact (fresh_of_ofJson hd).1

end Session

open Operation

/-- Whatever has been done to a session, an integer that it holds as selection, now or in a saved
layout, is the place of a waypoint, and unless reals have been used to select it holds nothing
else. Deleting another waypoint and putting in actions change the place of the selected waypoint as
they shift it in the path, and so it stays selected; where they are refused they change neither
path nor selection. -/
theorem selection_follows_waypoint {s₀ : Session Float} (h : s₀.IsInitial)
    (ops : List (Operation Float)) :
    let s := runAll ops s₀
    (∀ l ∈ s.toLayout :: s.history, ∀ i, l.selectedPlace? = some i → i < l.waypoints.length) ∧
      ((∀ op ∈ ops, op.selectsReal = false) → ∀ l ∈ s.toLayout :: s.history,
        l.selection = none ∨ ∃ i < l.waypoints.length, l.selectedPlace? = some i) ∧
      (∀ index, (∀ i, index.position = .ok i → s.selectedPlace? ≠ some i.toNat) →
        let t := (deleteWaypoint index).run s
        s.Carries t.toLayout s.waypoints id ∨ ∃ i, index.position = .ok i ∧
          s.Carries t.toLayout (s.waypoints.eraseIdx i.toNat) (placeWithout i.toNat)) ∧
      (∀ ref, s.Inserts ((addAction ref).run s).toLayout) ∧
      ∀ point name args tolerance,
        s.Inserts ((addOrReuseMarker point name args tolerance).run s).toLayout := by
  intro s
  have anchored : s.Anchored true := anchored_runAll (fun _ _ _ => rfl) (h.anchored true)
  refine ⟨fun l hl => (anchored l hl).lt_length, fun whole l hl => ?_, fun index other => ?_,
    fun ref => ?_, fun point name args tolerance => ?_⟩
  · have strict : s.Anchored false :=
      anchored_runAll (fun op hop real => absurd real (by simp [whole op hop])) (h.anchored false)
    cases hs : l.selection with
    | none => exact .inl rfl
    | some j =>
      obtain ⟨i, hi⟩ := Option.isSome_iff_exists.mp ((strict l hl).named rfl (by rw [hs]; rfl))
      exact .inr ⟨i, (strict l hl).lt_length i hi, hi⟩
  · exact Edit.carries_deleteWaypoint other
  · rw [Operation.run, Operation.edit, Edit.on_silently]
    exact Edit.inserts_addAction ref s
  · rw [Operation.run, Operation.edit, Edit.on_silently]
    exact Edit.inserts_addOrReuseMarker point name args tolerance s

/-- Adds a drive at the given distance along the first axis. -/
def addDrive (x : Float) : Operation Float :=
  addWaypoint (.ofPose ⟨x, 0.0, 0.0⟩) (.move .drive) (.number 0.8)

/-- Of two moves the second one stays selected when the first is deleted. -/
theorem selection_follows_waypoint_past_delete :
    (Session.empty : Session Float).IsInitial ∧
      let s := runAll [addDrive 1.0, addDrive 2.0] Session.empty
      let t := (deleteWaypoint (.whole 0)).run s
      s.selectedPlace? = some 1 ∧ t.selectedPlace? = some 0 ∧ t.selected? = s.selected? := by
  have initial : (Session.empty : Session Float).IsInitial := .inl rfl
  have follows := selection_follows_waypoint initial [addDrive 1.0, addDrive 2.0]
  refine ⟨initial, rfl, rfl, ?_⟩
  have other : ∀ i, (IndexOperand.whole 0 : IndexOperand Float).position = .ok i →
      (runAll [addDrive 1.0, addDrive 2.0] Session.empty).selectedPlace? ≠ some i.toNat := by
    rintro i ⟨⟩
    decide
  obtain carries | ⟨i, -, carries⟩ := follows.2.2.1 (.whole 0) other
  · exact carries.selected_eq
  · exact carries.selected_eq

/-- A real half way to the second place passes for an index, and after the only waypoint has been
deleted it has become a selection that does not. -/
theorem not_selection_among_waypoints :
    ¬ ∀ s : Session Float, s.Reachable → ∀ j, s.selection = some j →
      (j.index fun _ => "").isAmong s.waypoints.length = .ok true := by
  intro all
  let s := runAll [addDrive 1.0, select (some (.real 0.5 "0.5")), deleteWaypoint (.whole 0)]
    (Session.empty : Session Float)
  have reachable : s.Reachable := .step _ (.step _ (.step _ (.initial (.inl rfl))))
  have outside : s.selection.map (fun j =>
      ((j.index fun _ => "").isAmong s.waypoints.length).toOption) = some (some false) := by
    decide
  obtain ⟨j, hj, answer⟩ := Option.map_eq_some_iff.mp outside
  rw [all s reachable j hj] at answer
  cases answer

end PathStudio
