import PathStudio.Proofs.Program.Draft
import PathStudio.Proofs.Program.Field.Markers
import PathStudio.Proofs.Program.Field.Order

/-!
# Field-oriented programs are read back

What a session is printed as is read back as its entries in order: each move as
a drive to the printed pose, each action as a call of the same name with the same
arguments.
-/

namespace PathStudio.Program.Field

open Text Scalar

variable {ν : Type} [Add ν] [Sub ν] [Mul ν] [Div ν] [Neg ν] [Scalar ν]

/-- A pose is the one that the printed numbers of another pose stand for. -/
def RereadsPose (p q : Pose ν) : Prop :=
  ∃ (x y : List Char) (heading : Int) (X Y D : ν), centimetres p.x = .ok x ∧
    centimetres p.y = .ok y ∧ programHeading p.h = .ok heading ∧ numeral? x = some X ∧
      numeral? y = some Y ∧ numeral? (integerText heading) = some D ∧
        q = ⟨X / 100, Y / 100, toRadians (-D)⟩

/-- A waypoint of a decoded path is what an entry is read back as. -/
def Rereads (decoded : Layout ν) : Entry ν → Waypoint ν → Prop
  | .move m, w => ∃ q, RereadsPose m.pose q ∧ w = .move ⟨.drive, q, defaultSpeed⟩
  | .call name args, w => decoded.entryOf? w = some (.call name args)

/-- A session is what another one is read back as, on top of an earlier one. -/
structure RereadAs (l : Layout ν) (prior decoded : Session ν) : Prop where
  waypoints : List.Forall₂ (Rereads decoded.toLayout) l.entries decoded.waypoints
  start : ∃ q, RereadsPose l.start q ∧
    decoded.start = if l.moves = [] ∨ isOrigin q = true then prior.start else q

theorem rereadsPose_of_printsAs {p : Pose ν} {w : WrittenPose} (h : PrintsAs p w) :
    RereadsPose p w.pose := by
  obtain ⟨x, y, heading, hx, hy, hh, sx, sy, sd⟩ := h
  exact ⟨x, y, heading, _, _, _, hx, hy, hh, sx.numeral?, sy.numeral?, sd.numeral?, rfl⟩

/-! ## Reading the markers -/

/-- A printed marker is read as the call and the slot that it was printed for. -/
def Finds (total : Nat) (s : Nat × Marker ν) (w : WrittenNumber × List Char) : Prop :=
  bodyAction? w.2 = some (s.2.name.toList, s.2.args.toList) ∧ slot (ν := ν) w.1 total = .ok s.1

theorem finds_of_printsMarker {total total' d k : Nat}
    (written : ∃ count, unitsHalfUp (percentage d total : ν) 1 = .units count ∧
      lt (percentage d total : ν) 0 = false ∧ slot (ν := ν) ⟨false, count, 1⟩ total' = .ok k)
    {m : Marker ν} (hc : Findable m.name.toList m.args.toList) {w : WrittenNumber × List Char}
    (h : PrintsMarker ((percentage d total : ν), m) w) : Finds (ν := ν) total' (k, m) w := by
  obtain ⟨percent, count, -, units, spelling, spelled, body⟩ := h
  obtain ⟨count', units', sign, found⟩ := written
  obtain rfl : count' = count := by
    rw [units] at units'
    exact (Magnitude.units.inj units').symm
  rw [sign] at spelling
  have noQuote : '"' ∉ percent := fun hq => absurd (spelled.subset _ hq) (by decide)
  refine ⟨?_, ?_⟩
  · rw [body, bodyAction?_markerBody spelled.plain noQuote hc]
  · rw [spelling]
    exact found

section Shown

variable {l : Layout ν}

/-- The percentages of actions are those of their slots. -/
theorem actionPercentages_eq (l : Layout ν) : actionPercentages l =
    (slotsFrom l 0 l.waypoints).map fun s => (percentage s.1 l.moves.length, s.2) :=
  percentagesFrom_eq ..

theorem forall_mem_actionPercentages {P : ν × Marker ν → Prop}
    (h : ∀ s ∈ slotsFrom l 0 l.waypoints, P (percentage s.1 l.moves.length, s.2)) :
    ∀ a ∈ actionPercentages l, P a := by
  rw [actionPercentages_eq]
  exact List.forall_mem_map.mpr h

/-- The printed markers of a path are read as its calls, each in the place that its percentage points
at. -/
theorem forall₂_finds {f : Nat → Nat} {total : Nat}
    (written : ∀ done ≤ l.moves.length, ∃ count,
      unitsHalfUp (percentage done l.moves.length : ν) 1 = .units count ∧
        lt (percentage done l.moves.length : ν) 0 = false ∧
          slot (ν := ν) ⟨false, count, 1⟩ total = .ok (f done))
    (findable : ∀ s ∈ slotsFrom l 0 l.waypoints, Findable s.2.name.toList s.2.args.toList)
    {ms : List (WrittenNumber × List Char)}
    (hms : List.Forall₂ PrintsMarker (actionPercentages l) ms) :
    List.Forall₂ (Finds (ν := ν) total)
      ((slotsFrom l 0 l.waypoints).map fun s => (f s.1, s.2)) ms := by
  rw [actionPercentages_eq, List.forall₂_map_left_iff] at hms
  rw [List.forall₂_map_left_iff]
  have both := (List.forall₂_and_left (p := fun s => s ∈ slotsFrom l 0 l.waypoints) _ _).mpr
    ⟨fun s hs => hs, hms⟩
  exact both.imp fun s w found => finds_of_printsMarker
    (written s.1 (le_of_mem_slotsFrom found.1)) (findable s found.1) found.2

end Shown

/-- An action runs, in its slot, one of the given markers, which makes the same call. -/
def Runs (markers : List (Marker ν)) (s : Nat × Marker ν) (a : Nat × Waypoint ν) : Prop :=
  a.1 = s.1 ∧ ∃ m ∈ markers, m.name = s.2.name ∧ m.args = s.2.args ∧ a.2 = markerAction m

theorem addMarker_eq {start : Pose ν} {moves : List (Pose ν)} {s : Nat × Marker ν}
    {w : WrittenNumber × List Char} (h : Finds moves.length s w) (slots : Slots ν) :
    let found := slots.draft.markerFor s.2.name.toList s.2.args.toList (pointAfter start moves s.1)
    addMarker start moves slots w =
      .ok ⟨found.2, slots.actions ++ [(s.1, markerAction found.1)]⟩ := by
  rw [addMarker, h.1]
  simp only [h.2, ok_bind]
  rfl

/-- Reading markers adds one action for each, in order, and keeps those read before. -/
theorem foldlM_addMarker (start : Pose ν) {moves : List (Pose ν)} {found : List (Nat × Marker ν)}
    {ws : List (WrittenNumber × List Char)} (h : List.Forall₂ (Finds moves.length) found ws)
    {first : Int} (slots : Slots ν) (hs : slots.draft.Numbered first) :
    ∃ slots' placed, ws.foldlM (addMarker start moves) slots = .ok slots' ∧
      slots'.draft.Numbered first ∧ slots.draft.markers <+: slots'.draft.markers ∧
      slots'.actions = slots.actions ++ placed ∧
      List.Forall₂ (Runs slots'.draft.markers) found placed := by
  induction h generalizing slots with
  | nil => exact ⟨slots, [], rfl, hs, List.prefix_rfl, by simp, .nil⟩
  | @cons s w found ws hw _ ih =>
    let point := pointAfter start moves s.1
    let marker := slots.draft.markerFor s.2.name.toList s.2.args.toList point
    obtain ⟨slots', placed, run, numbered, grown, actions, runs⟩ :=
      @ih ⟨marker.2, slots.actions ++ [(s.1, markerAction marker.1)]⟩
        (hs.markerFor s.2.name.toList s.2.args.toList point)
    refine ⟨slots', (s.1, markerAction marker.1) :: placed, ?_, numbered,
      (Draft.markers_markerFor ..).trans grown, ?_, .cons ?_ runs⟩
    · rw [List.foldlM_cons, addMarker_eq hw, ok_bind]
      exact run
    · rw [actions, List.append_assoc]
      rfl
    · refine ⟨rfl, _, grown.subset (Draft.markerFor_mem ..), ?_, ?_, rfl⟩
      · rw [Draft.markerFor_name, String.ofList_toList]
      · rw [Draft.markerFor_args, String.ofList_toList]

/-- In a path with the markers of a draft, what runs a marker is a call of the marker. -/
theorem placed_of_runs {decoded : Layout ν} {draft : Draft ν} {first : Int}
    (numbered : draft.Numbered first) (same : decoded.markers = draft.markers)
    {s : Nat × Marker ν} {a : Nat × Waypoint ν} (h : Runs draft.markers s a) :
    Placed (Rereads decoded) s a := by
  obtain ⟨slot, m, hm, name, args, action⟩ := h
  refine ⟨slot, ?_⟩
  rw [Rereads, action, numbered.entryOf?_markerAction same hm, name, args]

/-! ## The round trip -/

theorem exists_forall₂ {α β : Type} {R : α → β → Prop} {xs : List α} (h : ∀ x ∈ xs, ∃ y, R x y) :
    ∃ ys, List.Forall₂ R xs ys := by
  induction xs with
  | nil => exact ⟨[], .nil⟩
  | cons x xs ih =>
    obtain ⟨y, hy⟩ := h x (by simp)
    obtain ⟨ys, hys⟩ := ih fun x hx => h x (List.mem_cons_of_mem _ hx)
    exact ⟨y :: ys, .cons hy hys⟩

/-- The printed markers of a path are spelled out. -/
theorem exists_printsMarker {l : Layout ν}
    (percents : ∀ a ∈ actionPercentages l, unitsHalfUp a.1 1 ≠ .notANumber) {text : List Char}
    (h : print l = .ok text) : ∃ ms, List.Forall₂ PrintsMarker (actionPercentages l) ms := by
  obtain ⟨first, -, h⟩ := bind_eq_ok.mp h
  obtain ⟨lines, -, h⟩ := bind_eq_ok.mp h
  obtain ⟨block, hblock, -⟩ := bind_eq_ok.mp h
  refine exists_forall₂ fun a ha => ?_
  rw [markerBlock, if_neg (by simpa using List.ne_nil_of_mem ha)] at hblock
  obtain ⟨blocks, hblocks, -⟩ := bind_eq_ok.mp hblock
  obtain ⟨block, hblock⟩ := exists_of_mapM hblocks a ha
  exact printsMarker_of_markerLines (percents a ha) hblock

/-- What a program shows of its path: the poses and the markers that its two searches find. -/
theorem searches_of_print {l : Layout ν} (start : HasNumbers l.start)
    (moves : ∀ m ∈ l.moves, HasNumbers m.pose)
    (percents : ∀ a ∈ actionPercentages l, unitsHalfUp a.1 1 ≠ .notANumber)
    (calls : ∀ a ∈ actionPercentages l, Callable a.2.name.toList a.2.args.toList)
    {text : List Char} (h : print l = .ok text) :
    ∃ w ws ms, PrintsAs l.start w ∧ List.Forall₂ PrintsAs (l.moves.map Move.pose) ws ∧
      List.Forall₂ PrintsMarker (actionPercentages l) ms ∧
      searchAll readPose text = w :: ws ∧ searchAll readMarker text = ms := by
  obtain ⟨ms, hms⟩ := exists_printsMarker percents h
  have markers := searchAll_readMarker h (fun a ha => (calls a ha).findable) hms
  obtain ⟨first, hfirst, h⟩ := bind_eq_ok.mp h
  obtain ⟨lines, hlines, h⟩ := bind_eq_ok.mp h
  obtain ⟨block, hblock, h⟩ := bind_eq_ok.mp h
  have mapped : (l.moves.map Move.pose).mapM poseLine = .ok lines := by
    rw [List.mapM_map]
    exact hlines
  obtain ⟨w, hw⟩ := printsAs_of_poseLine start hfirst
  obtain ⟨ws, hws⟩ : ∃ ws, List.Forall₂ PrintsAs (l.moves.map Move.pose) ws := by
    refine exists_forall₂ fun p hp => ?_
    obtain ⟨m, hm, rfl⟩ := List.mem_map.mp hp
    obtain ⟨line, hline⟩ := exists_of_mapM mapped _ hp
    exact printsAs_of_poseLine (moves m hm) hline
  refine ⟨w, ws, ms, hw, hws, hms, ?_, markers⟩
  have noPose : contains "Pose2d".toList (unlines (middle ++ block)) = false := by
    have apart : (middle ++ block).any (contains "Pose2d".toList) = false := by
      rw [List.any_append, contains_markerBlock hms calls hblock]
      decide
    rw [← List.append_nil (unlines _), contains_unlines_append (by decide), apart]
    rfl
  rw [← return_eq_ok.mp h, List.append_assoc]
  exact searchAll_readPose hw hws hfirst mapped noPose

theorem readStart_eq (prior first : Pose ν) (moves : List (Pose ν)) :
    readStart prior (first :: moves) =
      if moves = [] ∨ isOrigin first = true then prior else first := by
  cases moves with
  | nil => simp [readStart]
  | cons p moves => simp [readStart]

/-- A printed path is read back as its entries, if its numbers are numbers, its percentages point
back at their moves and its calls are ones that a program can carry. -/
theorem exists_rereadAs {l : Layout ν} (start : HasNumbers l.start)
    (moves : ∀ m ∈ l.moves, HasNumbers m.pose) (fit : SlotsFit ν l.moves.length)
    (calls : l.CallsCarry Callable)
    {text : List Char} (h : print l = .ok text) (prior : Session ν) :
    ∃ decoded, read text prior = .ok decoded ∧ RereadAs l prior decoded := by
  have callable : ∀ s ∈ slotsFrom l 0 l.waypoints, Callable s.2.name.toList s.2.args.toList :=
    fun s hs => calls _ _ (call_mem_of_mem_slotsFrom hs)
  have percents : ∀ a ∈ actionPercentages l, unitsHalfUp a.1 1 ≠ .notANumber := by
    refine forall_mem_actionPercentages fun s hs => ?_
    obtain ⟨count, units, -⟩ := fit s.1 (le_of_mem_slotsFrom hs)
    rw [units]
    exact Magnitude.noConfusion
  obtain ⟨w, ws, ms, hw, hws, hms, poses, markers⟩ :=
    searches_of_print start moves percents (forall_mem_actionPercentages callable) h
  have length : (ws.map WrittenPose.pose : List (Pose ν)).length = l.moves.length := by
    rw [List.length_map, ← hws.length_eq, List.length_map]
  have finds := forall₂_finds (f := id) fit (fun s hs => (callable s hs).findable) hms
  have same : ((slotsFrom l 0 l.waypoints).map fun s => (id s.1, s.2)) = slotsFrom l 0 l.waypoints :=
    List.map_id _
  rw [same] at finds
  rw [← length] at finds
  obtain ⟨slots', placed, run, numbered, -, actions, runs⟩ := foldlM_addMarker
    (readStart prior.start (w.pose :: ws.map WrittenPose.pose)) finds ⟨.after prior, []⟩
    (Draft.numbered_after prior)
  rw [List.nil_append] at actions
  have result : read text prior = .ok (Draft.toSession { slots'.draft with
      waypoints := actionsAt placed 0 ++ interleave placed 0 (ws.map WrittenPose.pose) }
      (readStart prior.start (w.pose :: ws.map WrittenPose.pose)) prior) := by
    simp only [read, poses, markers, List.map_cons, List.tail_cons]
    rw [run, ok_bind, actions]
    rfl
  refine ⟨_, result, ?_, w.pose, rereadsPose_of_printsAs hw, ?_⟩
  · refine forall₂_interleave (runs.imp fun s a ran => placed_of_runs numbered rfl ran) ?_
    rw [List.forall₂_map_right_iff]
    rw [List.forall₂_map_left_iff] at hws
    exact hws.imp fun m written printed => ⟨_, rereadsPose_of_printsAs printed, rfl⟩
  · have empty : ws.map WrittenPose.pose = ([] : List (Pose ν)) ↔ l.moves = [] := by
      rw [← List.length_eq_zero_iff, length, List.length_eq_zero_iff]
    simp only [Draft.toSession, readStart_eq, empty]

end PathStudio.Program.Field
