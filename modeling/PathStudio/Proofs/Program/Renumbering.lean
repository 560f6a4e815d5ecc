import PathStudio.Proofs.Program.Registry
import PathStudio.Proofs.Session.Operation

/-!
# Reading a program again

Of the session that it goes on from, a reader takes the start and the free marker number. A program
that is read again finds the start that it has set itself, and so it gives the same path; only its
markers are numbered further on.
-/

namespace PathStudio

variable {ν : Type}

/-! ## Numbers further on -/

/-- A marker with a number further on. -/
def Marker.renumbered (shift : Int) (m : Marker ν) : Marker ν := { m with id := m.id + shift }

/-- A waypoint that runs a marker with a number further on. -/
def Waypoint.renumbered (shift : Int) : Waypoint ν → Waypoint ν
  | .move m => .move m
  | .action a => .action { a with markerId := a.markerId + shift }

@[simp] theorem Waypoint.move?_renumbered (shift : Int) (w : Waypoint ν) :
    (w.renumbered shift).move? = w.move? := by
  cases w <;> rfl

/-- A session whose marker numbers are all further on. -/
def Session.renumbered (shift : Int) (s : Session ν) : Session ν :=
  { s with
    waypoints := s.waypoints.map (Waypoint.renumbered shift)
    markers := s.markers.map (Marker.renumbered shift)
    nextMarkerId := s.nextMarkerId + shift }

namespace Session

variable (shift : Int) (s : Session ν)

@[simp] theorem waypoints_renumbered :
    (s.renumbered shift).waypoints = s.waypoints.map (Waypoint.renumbered shift) := rfl

@[simp] theorem markers_renumbered :
    (s.renumbered shift).markers = s.markers.map (Marker.renumbered shift) := rfl

@[simp] theorem moves_renumbered : (s.renumbered shift).moves = s.moves := by
  rw [Layout.moves, Layout.moves, waypoints_renumbered, List.filterMap_map]
  congr 1
  exact funext fun w => w.move?_renumbered shift

/-- A marker is found by its number as it was by the earlier one. -/
@[simp] theorem marker?_renumbered (id : Int) :
    (s.renumbered shift).marker? (id + shift) = (s.marker? id).map (Marker.renumbered shift) := by
  have same : (fun m : Marker ν => decide (m.id = id + shift)) ∘ Marker.renumbered shift =
      fun m => decide (m.id = id) := by
    funext m
    simp [Marker.renumbered]
  rw [Layout.marker?, Layout.marker?, markers_renumbered, List.find?_map, same]

/-- The actions call what they did. -/
theorem calls_renumbered : (s.renumbered shift).calls = s.calls := by
  rw [Layout.calls, Layout.calls, waypoints_renumbered, List.filterMap_map]
  congr 1
  funext w
  cases w with
  | move m => rfl
  | action a =>
    simp only [Function.comp_apply, Waypoint.renumbered, Layout.callOf?, marker?_renumbered,
      Option.map_map]
    rfl

end Session

namespace Program

/-! ## Drafts -/

namespace Draft

/-- A draft whose marker numbers are all further on. -/
def renumbered (shift : Int) (d : Draft ν) : Draft ν :=
  { waypoints := d.waypoints.map (Waypoint.renumbered shift)
    markers := d.markers.map (Marker.renumbered shift)
    nextMarkerId := d.nextMarkerId + shift }

theorem after_renumbered {prior other : Session ν} {shift : Int}
    (next : other.nextMarkerId = prior.nextMarkerId + shift) :
    after other = (after prior).renumbered shift := by
  rw [after, next]
  rfl

/-- Calls are told apart by what they call and not by their numbers. -/
theorem markerFor_renumbered (shift : Int) (d : Draft ν) (name args : List Char) (at_ : Point ν) :
    (d.renumbered shift).markerFor name args at_ =
      ((d.markerFor name args at_).1.renumbered shift,
        (d.markerFor name args at_).2.renumbered shift) := by
  have found : (d.renumbered shift).markers.find?
        (fun m => m.name = String.ofList name && m.args = String.ofList args) =
      (d.markers.find? fun m => m.name = String.ofList name && m.args = String.ofList args).map
        (Marker.renumbered shift) :=
    List.find?_map ..
  simp only [markerFor, found]
  cases d.markers.find? fun m => m.name = String.ofList name && m.args = String.ofList args with
  | some m => rfl
  | none => simp [renumbered, Marker.renumbered, Int.add_right_comm]

@[simp] theorem add_renumbered (shift : Int) (d : Draft ν) (w : Waypoint ν) :
    (d.renumbered shift).add (w.renumbered shift) = (d.add w).renumbered shift := by
  simp [add, renumbered]

end Draft

variable [Add ν] [Sub ν] [Mul ν] [Div ν] [Neg ν] [Scalar ν]

@[simp] theorem markerAction_renumbered (shift : Int) (m : Marker ν) :
    markerAction (m.renumbered shift) = (markerAction m).renumbered shift := rfl

/-! ## Robot-oriented programs -/

namespace Robot

namespace Trail

/-- A trail whose marker numbers are all further on. -/
def renumbered (shift : Int) (t : Trail ν) : Trail ν := { t with draft := t.draft.renumbered shift }

variable (shift : Int) (t : Trail ν)

theorem move_renumbered (motion : Motion ν) (p : Point ν) (degrees speed : ν) :
    (t.renumbered shift).move motion p degrees speed =
      (t.move motion p degrees speed).renumbered shift := by
  rw [move, move, renumbered, renumbered, ← Draft.add_renumbered]
  rfl

theorem addArc_renumbered (a : OpenArc) :
    (t.renumbered shift).addArc a = (t.addArc a).map (renumbered shift) := by
  have moved (p : Point ν) := move_renumbered shift { t with pending := none } (.arc none) p
  have ahead : (t.renumbered shift).ahead = t.ahead := rfl
  rw [addArc, addArc, ahead]
  obtain ⟨first, last⟩ := arcHeadings (arcSamples a.body)
  dsimp only
  cases t.ahead a.length.value first with
  | error fault => rfl
  | ok p => exact congrArg Except.ok (moved p last a.speed.value)

@[simp] theorem addCall_renumbered (name args : List Char) :
    (t.renumbered shift).addCall name args = (t.addCall name args).renumbered shift := by
  have marker := Draft.markerFor_renumbered shift t.draft name args t.cursor
  simp only [addCall, renumbered] at marker ⊢
  rw [marker, markerAction_renumbered, Draft.add_renumbered]

@[simp] theorem extendArc_renumbered (a : OpenArc) (line : List Char) :
    (t.renumbered shift).extendArc a line = (t.extendArc a line).map (renumbered shift) := by
  simp only [extendArc]
  split
  · exact addArc_renumbered shift t _
  · rfl

theorem readLine_renumbered (line : List Char) :
    (t.renumbered shift).readLine line = (t.readLine line).map (renumbered shift) := by
  have pending : (t.renumbered shift).pending = t.pending := rfl
  rw [readLine, readLine, pending]
  cases t.pending with
  | some a => exact extendArc_renumbered shift t a line
  | none =>
    dsimp only
    cases Command.ofLine line with
    | turn | nothing => rfl
    | travel kind length degrees =>
      have ahead : (t.renumbered shift).ahead = t.ahead := rfl
      rw [run, run, ahead]
      cases t.ahead length.value degrees.value with
      | error fault => rfl
      | ok p => exact congrArg Except.ok (move_renumbered shift t _ p _ _)
    | arc length speed => exact extendArc_renumbered shift t _ line
    | call name args => exact congrArg Except.ok (addCall_renumbered shift t name args)

@[simp] theorem finish_renumbered : (t.renumbered shift).finish = t.finish.map (renumbered shift) := by
  have pending : (t.renumbered shift).pending = t.pending := rfl
  rw [finish, finish, pending]
  cases t.pending with
  | some a => exact addArc_renumbered shift t a
  | none => rfl

end Trail

/-- Read from the same start, a program has the same path with its markers numbered further on. -/
theorem read_renumbered {text : List Char} {prior decoded other : Session ν} {shift : Int}
    (h : read text prior = .ok decoded) (start : other.start = decoded.start)
    (next : other.nextMarkerId = prior.nextMarkerId + shift) :
    read text other = .ok { decoded.renumbered shift with mode := other.mode } := by
  obtain ⟨trail, lines, h⟩ := bind_eq_ok.mp h
  obtain ⟨last, finished, h⟩ := bind_eq_ok.mp h
  cases h
  have begun : (⟨.after other, other.start.point, none⟩ : Trail ν) =
      Trail.renumbered shift ⟨.after prior, prior.start.point, none⟩ := by
    rw [Draft.after_renumbered next, start]
    rfl
  rw [read, begun, foldlM_map_of_commutes (Trail.readLine_renumbered shift), lines]
  change (trail.renumbered shift).finish >>= _ = _
  rw [Trail.finish_renumbered, finished, start]
  rfl

end Robot

/-! ## Field-oriented programs -/

namespace Field

open Text

/-- What has been read of the markers, with all numbers further on. -/
def Slots.renumbered (shift : Int) (slots : Slots ν) : Slots ν :=
  { draft := slots.draft.renumbered shift
    actions := slots.actions.map fun a => (a.1, a.2.renumbered shift) }

theorem addMarker_renumbered (shift : Int) (start : Pose ν) (moves : List (Pose ν)) (slots : Slots ν)
    (written : WrittenNumber × List Char) :
    addMarker start moves (slots.renumbered shift) written =
      (addMarker start moves slots written).map (Slots.renumbered shift) := by
  rw [addMarker, addMarker]
  split
  · rfl
  next name args _ =>
    cases slot (ν := ν) written.1 moves.length with
    | error fault => rfl
    | ok k =>
      have marker := Draft.markerFor_renumbered shift slots.draft name args (pointAfter start moves k)
      simp only [ok_bind, Slots.renumbered, marker, markerAction_renumbered]
      refine congrArg Except.ok ?_
      simp [Slots.renumbered]

omit [Add ν] [Sub ν] [Mul ν] [Div ν] [Neg ν] [Scalar ν] in
theorem actionsAt_renumbered (shift : Int) (actions : List (Nat × Waypoint ν)) (k : Nat) :
    actionsAt (actions.map fun a => (a.1, a.2.renumbered shift)) k =
      (actionsAt actions k).map (Waypoint.renumbered shift) := by
  rw [actionsAt, actionsAt, List.filter_map, List.map_map, List.map_map]
  rfl

theorem interleave_renumbered (shift : Int) (actions : List (Nat × Waypoint ν))
    (moves : List (Pose ν)) (k : Nat) :
    interleave (actions.map fun a => (a.1, a.2.renumbered shift)) k moves =
      (interleave actions k moves).map (Waypoint.renumbered shift) := by
  induction moves generalizing k with
  | nil => rfl
  | cons p rest ih =>
    rw [interleave, interleave, actionsAt_renumbered, ih, List.map_cons, List.map_append]
    rfl

/-- The start that a program has set is the one that it sets again. -/
@[simp] theorem readStart_readStart (prior : Pose ν) (poses : List (Pose ν)) :
    readStart (readStart prior poses) poses = readStart prior poses := by
  match poses with
  | [] | [_] => rfl
  | first :: second :: rest =>
    simp only [readStart]
    split <;> rfl

/-- Read on from the start that it has set, a program has the same path with its markers numbered
further on. -/
theorem read_renumbered {text : List Char} {prior decoded other : Session ν} {shift : Int}
    (h : read text prior = .ok decoded) (start : other.start = decoded.start)
    (next : other.nextMarkerId = prior.nextMarkerId + shift) :
    read text other = .ok { decoded.renumbered shift with mode := other.mode } := by
  obtain ⟨slots, found, h⟩ := bind_eq_ok.mp h
  cases h
  have again : readStart other.start ((searchAll readPose text).map WrittenPose.pose) =
      readStart prior.start ((searchAll readPose text).map WrittenPose.pose) :=
    (congrArg (readStart · _) start).trans (readStart_readStart prior.start _)
  have begun : (⟨.after other, []⟩ : Slots ν) = Slots.renumbered shift ⟨.after prior, []⟩ := by
    rw [Draft.after_renumbered next]
    rfl
  simp only [read, again, begun]
  rw [foldlM_map_of_commutes (addMarker_renumbered shift _ _), found]
  simp only [Except.map, ok_bind, Slots.renumbered, actionsAt_renumbered, interleave_renumbered,
    ← List.map_append]
  rfl

end Field

/-! ## Decoding -/

theorem decode_renumbered {text : List Char} {prior decoded other : Session ν} {d : Dialect}
    {shift : Int} (h : decode text prior = .ok (d, decoded)) (start : other.start = decoded.start)
    (next : other.nextMarkerId = prior.nextMarkerId + shift) :
    decode text other = .ok (d, { decoded.renumbered shift with mode := other.mode }) := by
  obtain ⟨dialect, sniffed, h⟩ := bind_eq_ok.mp h
  split at h
  next found first =>
    cases h
    have again : read d text other = .ok { decoded.renumbered shift with mode := other.mode } := by
      cases d with
      | field => exact Field.read_renumbered first start next
      | robot => exact Robot.read_renumbered first start next
    rw [decode, sniffed, ok_bind, again]
    rfl
  next => split at h <;> cases h

/-- Decoding a text once more ends as it did, with or without moves, and leaves the session with the
same start, mode, selection and moves. Its markers are the same in the same order, with numbers further
on by as many as there are; its waypoints are the same, with the actions running the markers with
these numbers and so calling what they did. -/
theorem decodeInto_again_renumbers {text : List Char} {s decoded : Session ν} {d : Dialect}
    (h : decode text s = .ok (d, decoded)) :
    let (r₁, t₁) := (decodeInto text).on s
    let (r₂, t₂) := (decodeInto text).on t₁
    let shift : Int := t₁.markers.length
    r₁ = (if t₁.moves.isEmpty then .error (.noWaypoints d) else .ok d) ∧ r₂ = r₁ ∧
      t₂.start = t₁.start ∧ t₂.mode = t₁.mode ∧ t₂.selection = t₁.selection ∧
      t₂.moves = t₁.moves ∧ t₂.calls = t₁.calls ∧
      t₂.waypoints = t₁.waypoints.map (Waypoint.renumbered shift) ∧
      t₂.markers = t₁.markers.map (Marker.renumbered shift) ∧
      t₂.nextMarkerId = t₁.nextMarkerId + shift := by
  obtain ⟨draft, start, registers, rfl⟩ := exists_registers h
  generalize decoding : draft.toSession start s = decoded at h ⊢
  have next : decoded.nextMarkerId = s.nextMarkerId + (decoded.markers.length : Int) :=
    decoding ▸ registers.numbered.next_eq
  have again : decode text (adopt s d decoded) =
      .ok (d, { decoded.renumbered decoded.markers.length with mode := (adopt s d decoded).mode }) :=
    decode_renumbered h rfl next
  have moves : (decoded.renumbered decoded.markers.length).moves = decoded.moves :=
    decoded.moves_renumbered decoded.markers.length
  have calls : (decoded.renumbered decoded.markers.length).calls = decoded.calls :=
    decoded.calls_renumbered decoded.markers.length
  have selection : (decoded.waypoints.map (Waypoint.renumbered decoded.markers.length)).isEmpty =
      decoded.waypoints.isEmpty := List.isEmpty_map
  rw [on_decodeInto_of_ok h]
  dsimp only
  rw [on_decodeInto_of_ok again]
  refine ⟨rfl, ?_, rfl, rfl, ?_, moves, calls, rfl, rfl, rfl⟩
  · change (if (decoded.renumbered decoded.markers.length).moves.isEmpty then _ else _) = _
    rw [moves]
  · change (if (decoded.waypoints.map (Waypoint.renumbered _)).isEmpty then _ else _) = _
    rw [selection]
    rfl

/-- A program with a start of its own and one action on the way. -/
def pickOnTheWay : List Char :=
  "waypoints.add(new Pose2d(10, 0, Rotation2d.fromDegrees(0)));\n".toList ++
    "waypoints.add(new Pose2d(100, 0, Rotation2d.fromDegrees(90)));\n".toList ++
    "markers.add(new PathMarker(0.0, () -> \x7b\npick(1);\n\x7d));\n".toList

/-- The marker of the action is number 1 when the program has been decoded, and then number 2. -/
theorem decodeInto_again_renumbers_pickOnTheWay :
    ∃ decoded, decode pickOnTheWay (Session.empty : Session Float) = .ok (.field, decoded) ∧
      let t₁ := ((decodeInto pickOnTheWay).on (Session.empty : Session Float)).2
      let t₂ := ((decodeInto pickOnTheWay).on t₁).2
      t₁.markerIds = [1] ∧ t₂.markerIds = [2] ∧ t₂.calls = t₁.calls := by
  -- for any text and session, so that nothing is decoded again while the theorem is applied
  have again {text : List Char} {s decoded : Session Float} (h : decode text s = .ok (.field, decoded))
      (one : ((decodeInto text).on s).2.markers.length = 1) :
      let t₁ := ((decodeInto text).on s).2
      let t₂ := ((decodeInto text).on t₁).2
      t₂.markerIds = t₁.markerIds.map (· + 1) ∧ t₂.calls = t₁.calls := by
    have renumbers := decodeInto_again_renumbers h
    generalize (decodeInto text).on s = first at one renumbers ⊢
    obtain ⟨r₁, t₁⟩ := first
    dsimp only at one renumbers ⊢
    generalize (decodeInto text).on t₁ = second at renumbers ⊢
    obtain ⟨r₂, t₂⟩ := second
    obtain ⟨-, -, -, -, -, -, calls, -, markers, -⟩ := renumbers
    refine ⟨?_, calls⟩
    rw [Layout.markerIds, Layout.markerIds, markers, one, List.map_map, List.map_map]
    rfl
  have found : ((decode pickOnTheWay (Session.empty : Session Float)).map (·.1)).toOption =
      some .field := by decide +kernel
  have ids : ((decodeInto pickOnTheWay).on (Session.empty : Session Float)).2.markerIds = [1] := by
    decide +kernel
  have one : ((decodeInto pickOnTheWay).on (Session.empty : Session Float)).2.markers.length = 1 := by
    decide +kernel
  cases decoding : decode pickOnTheWay (Session.empty : Session Float) with
  | error fault =>
    rw [decoding] at found
    cases found
  | ok result =>
    obtain ⟨d, decoded⟩ := result
    rw [decoding] at found
    cases found
    obtain ⟨further, calls⟩ := again decoding one
    exact ⟨decoded, rfl, ids, further.trans (congrArg _ ids), calls⟩

end Program

end PathStudio
