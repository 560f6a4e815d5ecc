import PathStudio.Proofs.Program.Robot.RoundTrip

/-!
# Robot-oriented programs keep the calls

The calls of the actions come back from a robot-oriented program in their order.
The lines of a move add at most a move, whatever its numbers are, so they neither
hide a call nor look like one.
-/

namespace PathStudio.Program.Robot

open Text Scalar

variable {ν : Type} [Add ν] [Sub ν] [Mul ν] [Div ν] [Neg ν] [Scalar ν]

/-! ## The lines of a move -/

/-- Where a direction can be rounded, the length along it is a number, and the direction has a cosine
and a sine. -/
structure Guided (ν : Type) [Add ν] [Sub ν] [Mul ν] [Div ν] [Neg ν] [Scalar ν] : Prop where
  distance : ∀ (p q : Point ν) (degrees : Int), roundHalfUp (Point.bearing p q) = .ok degrees →
    unitsHalfUp (Point.distance p q) 2 ≠ .notANumber
  faces : ∀ (p q : Point ν) (degrees : Int), roundHalfUp (Point.bearing p q) = .ok degrees →
    Faces ν degrees

/-- Reading lines adds a move, or nothing. -/
structure Passes (t : Trail ν) (lines : List (List Char)) (t' : Trail ν) : Prop where
  oneLine : ∀ l ∈ lines, '\n' ∉ l
  moved : t' = t ∨ ∃ m c, t' = t.reach (.move m) c
  reads : ∀ ls, t.readLines (lines ++ ls) = t'.readLines ls

variable {t : Trail ν} {p : Point ν} {m : Move ν}

/-- Lines that are followed add their move, or nothing. -/
theorem Follows.exists_passes {lines : List (List Char)}
    (h : Follows (fun _ _ _ => False) t (p, .move m) lines) : ∃ t', Passes t lines t' := by
  obtain ⟨oneLine, ⟨-, reads⟩ | ⟨-, w, c, retraces, reads⟩⟩ := h
  · exact ⟨t, oneLine, .inl rfl, reads⟩
  · cases retraces with
    | straight => exact ⟨_, oneLine, .inr ⟨_, _, rfl⟩, reads⟩
    | arc => exact ⟨_, oneLine, .inr ⟨_, _, rfl⟩, reads⟩

/-- The lines of a move add a move, or nothing. -/
theorem exists_passes_moveLines (guided : Guided ν) (ahead : Faces ν 0) (h : t.pending = none)
    {samples : Outcome Int} {lines : List (List Char)} (hl : moveLines samples p m = .ok lines) :
    ∃ t', Passes t lines t' := by
  have directed (degrees : Int) (rounded : roundHalfUp (Point.bearing p m.point) = .ok degrees) :=
    And.intro (guided.distance p m.point degrees rounded) (guided.faces p m.point degrees rounded)
  by_cases number : m.kind = .arc → unitsHalfUp m.speed 2 ≠ .notANumber
  · exact (follows_moveLines h directed number ahead hl).exists_passes
  obtain ⟨kind, lost⟩ := Classical.not_imp.mp number
  rw [moveLines] at hl
  simp only at hl
  split at hl
  next near =>
    have idle := idle_stillLines hl
    exact ⟨t, fun l hl => (idle l hl).1, .inl rfl, Trail.readLines_idle_append h idle⟩
  next far =>
    obtain ⟨degrees, -, hl⟩ := bind_eq_ok.mp hl
    cases hm : m.motion with
    | drive => exact absurd (kind.symm.trans (congrArg Motion.kind hm)) MoveKind.noConfusion
    | strafe => exact absurd (kind.symm.trans (congrArg Motion.kind hm)) MoveKind.noConfusion
    | arc own =>
      rw [hm] at hl
      obtain ⟨control, -, hl⟩ := exists_controlOf hl hm
      obtain ⟨length, speed, inner, final, hlength, hspeed, -, hi, rfl⟩ := exists_printedArc hl
      have isLength := isAmount_of_amount hlength
      obtain ⟨-, rfl⟩ | ⟨found, -⟩ := amount_cases hspeed
      · exact ⟨t, oneLine_printedArc isLength (.inl rfl) hi final, .inl rfl,
          Trail.readLines_printedArc_notANumber h isLength (.inl rfl) (.inr rfl) hi final⟩
      · exact absurd (not_not.mp lost) found

/-! ## The lines of a path -/

/-- What waypoints call that run the given markers. -/
inductive Calling (markers : List (Marker ν)) :
    List (Option (String × String)) → List (Waypoint ν) → Prop where
  | nil : Calling markers [] []
  | move {calls : List (Option (String × String))} {ws : List (Waypoint ν)} {m : Move ν} :
    Calling markers calls ws → Calling markers calls (.move m :: ws)
  | call {calls : List (Option (String × String))} {ws : List (Waypoint ν)} {w : Waypoint ν}
      {name args : String} :
    RunsMarker markers w name args → Calling markers calls ws →
    Calling markers (some (name, args) :: calls) (w :: ws)

/-- What a path with the markers of a draft calls. -/
theorem Calling.filterMap_callOf? {draft : Draft ν} {first : Int} (numbered : draft.Numbered first)
    {l : Layout ν} (same : l.markers = draft.markers) {calls : List (Option (String × String))}
    {ws : List (Waypoint ν)} (h : Calling draft.markers calls ws) :
    ws.filterMap l.callOf? = calls := by
  induction h with
  | nil => rfl
  | move _ ih => rw [List.filterMap_cons_none rfl, ih]
  | @call calls ws w name args run _ ih =>
    obtain ⟨m, hm, rfl, rfl, rfl⟩ := run
    rw [List.filterMap_cons_some (numbered.callOf?_markerAction same hm), ih]

/-- Lines without line feeds, the reading of which adds waypoints with the given calls. -/
structure Collects (first : Int) (t : Trail ν) (lines : List (List Char))
    (calls : List (Option (String × String))) (t' : Trail ν) : Prop where
  oneLine : ∀ l ∈ lines, '\n' ∉ l
  run : t.readLines lines = .ok t'
  pending : t'.pending = none
  numbered : t'.draft.Numbered first
  markers : t.draft.markers <+: t'.draft.markers
  waypoints : ∃ added, t'.draft.waypoints = t.draft.waypoints ++ added ∧
    Calling t'.draft.markers calls added

section Collects

variable {first : Int} {t' : Trail ν} {more : List (List Char)}
  {calls : List (Option (String × String))}

/-- The lines of a call come before others. -/
theorem Collects.call (h : t.pending = none) {m : Marker ν}
    (callable : Callable m.name.toList m.args.toList)
    (rest : Collects first (t.addCall m.name.toList m.args.toList) more calls t') :
    Collects first t (actionLines m ++ more) (some (m.name, m.args) :: calls) t' where
  oneLine := List.forall_mem_append.mpr ⟨oneLine_actionLines callable, rest.oneLine⟩
  run := by rw [Trail.readLines_actionLines h callable, rest.run]
  pending := rest.pending
  numbered := rest.numbered
  markers := (Draft.markers_markerFor ..).trans rest.markers
  waypoints := by
    obtain ⟨added, grown, calling⟩ := rest.waypoints
    refine ⟨_ :: added, ?_, .call ⟨_, rest.markers.subset (Draft.markerFor_mem ..), ?_, ?_, rfl⟩
      calling⟩
    · rw [grown, Trail.waypoints_addCall, List.append_assoc, List.singleton_append]
    · rw [Draft.markerFor_name, String.ofList_toList]
    · rw [Draft.markerFor_args, String.ofList_toList]

/-- The lines of a move come before others. -/
theorem Collects.move {next : Trail ν} {lines : List (List Char)} (passes : Passes t lines next)
    (rest : Collects first next more calls t') : Collects first t (lines ++ more) calls t' where
  oneLine := List.forall_mem_append.mpr ⟨passes.oneLine, rest.oneLine⟩
  run := (passes.reads more).trans rest.run
  pending := rest.pending
  numbered := rest.numbered
  markers := by
    have grown := rest.markers
    obtain rfl | ⟨m, c, rfl⟩ := passes.moved
    · exact grown
    · exact grown
  waypoints := by
    obtain ⟨added, grown, calling⟩ := rest.waypoints
    obtain rfl | ⟨m, c, rfl⟩ := passes.moved
    · exact ⟨added, grown, calling⟩
    · refine ⟨.move m :: added, ?_, .move calling⟩
      rw [grown]
      exact List.append_assoc t.draft.waypoints [.move m] added

/-- Reading the lines of waypoints adds their calls. -/
theorem exists_collects_waypointLines (guided : Guided ν) (ahead : Faces ν 0) {l : Layout ν}
    {samples : Outcome Int} {ws : List (Waypoint ν)} {start : Point ν} {lines : List (List Char)}
    (hl : waypointLines l samples start ws = .ok lines)
    (carried : ∀ a, .action a ∈ ws → ∃ m, l.marker? a.markerId = some m ∧
      Callable m.name.toList m.args.toList)
    {t : Trail ν} (h : t.pending = none) (numbered : t.draft.Numbered first) :
    ∃ t', Collects first t lines (ws.filterMap l.callOf?) t' := by
  induction ws generalizing start lines t with
  | nil =>
    cases hl
    exact ⟨t, by simp, rfl, h, numbered, List.prefix_rfl, [], by simp, .nil⟩
  | cons w ws ih =>
    have later : ∀ a, .action a ∈ ws → ∃ m, l.marker? a.markerId = some m ∧
      Callable m.name.toList m.args.toList := fun a ha => carried a (.tail _ ha)
    cases w with
    | action a =>
      obtain ⟨m, found, callable⟩ := carried a List.mem_cons_self
      obtain ⟨more, hmore, hl⟩ := bind_eq_ok.mp hl
      rw [found] at hl
      cases hl
      have called : l.callOf? (.action a) = some (some (m.name, m.args)) := by
        rw [Layout.callOf?, found, Option.map_some]
      have numbered' := (numbered.markerFor m.name.toList m.args.toList t.cursor).add
        (markerAction (t.draft.markerFor m.name.toList m.args.toList t.cursor).1)
      obtain ⟨t', rest⟩ := @ih _ _ hmore later (t.addCall m.name.toList m.args.toList) h numbered'
      rw [List.filterMap_cons_some called]
      exact ⟨t', rest.call h callable⟩
    | move m =>
      obtain ⟨lines, hlines, hl⟩ := bind_eq_ok.mp hl
      obtain ⟨more, hmore, hl⟩ := bind_eq_ok.mp hl
      cases hl
      obtain ⟨next, passes⟩ := exists_passes_moveLines guided ahead h hlines
      have ready : next.pending = none ∧ next.draft.Numbered first := by
        obtain rfl | ⟨m, c, rfl⟩ := passes.moved
        · exact ⟨h, numbered⟩
        · exact ⟨rfl, numbered.add _⟩
      obtain ⟨t', rest⟩ := ih hmore later ready.1 ready.2
      rw [List.filterMap_cons_none rfl]
      exact ⟨t', rest.move passes⟩

end Collects

/-! ## The calls of a program -/

/-- A printed path whose actions all have markers is read back with its calls in their order, if they
are ones that a program can carry. -/
theorem exists_calls_read (guided : Guided ν) (ahead : Faces ν 0) {l : Layout ν} {samples : Outcome Int}
    (carried : ∀ a, .action a ∈ l.waypoints → ∃ m, l.marker? a.markerId = some m ∧
      Callable m.name.toList m.args.toList)
    {text : List Char} (h : print l samples = .ok text) (prior : Session ν) :
    ∃ decoded, read text prior = .ok decoded ∧ decoded.calls = l.calls := by
  obtain ⟨lines, hlines, built⟩ := bind_eq_ok.mp h
  obtain ⟨t, collects⟩ := exists_collects_waypointLines guided ahead hlines carried
    (t := ⟨.after prior, prior.start.point, none⟩) rfl (Draft.numbered_after prior)
  obtain ⟨added, grown, calling⟩ := collects.waypoints
  refine ⟨t.draft.toSession prior.start prior, ?_, ?_⟩
  · rw [← return_eq_ok.mp built]
    exact read_unlines_opening collects.oneLine collects.run collects.pending
  · show t.draft.waypoints.filterMap _ = _
    rw [grown]
    exact calling.filterMap_callOf? collects.numbered rfl

end PathStudio.Program.Robot
