import PathStudio.Proofs.Program.Robot.Trail

/-!
# Robot-oriented programs are read back

A printed program is read back as a path that retraces the track of the printed
one: every move that goes somewhere and every call, in order. Only an arc whose
length is not a number is lost.
-/

namespace PathStudio.Program.Robot

open Text Scalar

variable {ν : Type} [Add ν] [Sub ν] [Mul ν] [Div ν] [Neg ν] [Scalar ν]

/-- Whether a printed program shows an entry so that it can be read. -/
def isShown (step : Point ν × Entry ν) : Bool := !goesNowhere step && !lacksLength step

/-- A direction of whole degrees has a cosine and a sine. -/
def Faces (ν : Type) [Add ν] [Sub ν] [Mul ν] [Div ν] [Neg ν] [Scalar ν] (degrees : Int) : Prop :=
  ∃ x y : ν, cos (toRadians (WrittenNumber.whole degrees).value) = .ok x ∧
    sin (toRadians (WrittenNumber.whole degrees).value) = .ok y

/-- A move whose printed numbers are numbers, in a direction that has a cosine and a sine. -/
structure Navigable (p : Point ν) (m : Move ν) : Prop where
  distance : unitsHalfUp (Point.distance p m.point) 2 ≠ .notANumber
  speed : unitsHalfUp m.speed 2 ≠ .notANumber
  faces : ∀ degrees, roundHalfUp (Point.bearing p m.point) = .ok degrees → Faces ν degrees

theorem Navigable.guided {p : Point ν} {m : Move ν} (h : Navigable p m) (degrees : Int)
    (rounded : roundHalfUp (Point.bearing p m.point) = .ok degrees) :
    unitsHalfUp (Point.distance p m.point) 2 ≠ .notANumber ∧ Faces ν degrees :=
  ⟨h.distance, h.faces degrees rounded⟩

theorem Faces.leadsTo {degrees : Int} (h : Faces ν degrees) (c : Point ν) (length : ν) :
    ∃ c', LeadsTo c length (WrittenNumber.whole degrees).value c' := by
  obtain ⟨x, y, hx, hy⟩ := h
  exact ⟨_, x, y, hx, hy, rfl⟩

/-! ## The lines of a move -/

theorem amount_cases {v : ν} {text : List Char} (h : amount v 2 = .ok text) :
    (unitsHalfUp v 2 = .notANumber ∧ text = "NaN".toList) ∨
      (unitsHalfUp v 2 ≠ .notANumber ∧ ∃ n, Spells text n) := by
  obtain none | ⟨count, units, spelled⟩ := spells_amount 2 (by decide) (by decide) h
  · exact .inl none
  · exact .inr ⟨fun none => Magnitude.noConfusion (units.symm.trans none), _, spelled⟩

theorem isAmount_of_amount {v : ν} {text : List Char} (h : amount v 2 = .ok text) : IsAmount text :=
  (amount_cases h).imp And.right And.right

theorem spells_of_amount {v : ν} {text : List Char} (h : amount v 2 = .ok text)
    (hv : unitsHalfUp v 2 ≠ .notANumber) : ∃ n, Spells text n :=
  (amount_cases h).elim (fun none => absurd none.1 hv) And.right

theorem isSampleLine_of_innerSample {p0 p1 p2 : Point ν} {samples sample : Nat} {line : List Char}
    (h : innerSample p0 p1 p2 samples sample = .ok line) : IsSampleLine line := by
  obtain ⟨t, ht, h⟩ := bind_eq_ok.mp h
  obtain ⟨degrees, -, h⟩ := bind_eq_ok.mp h
  cases h
  exact ⟨t, degrees, isAmount_of_amount ht, rfl⟩

theorem exists_printedArc {start control : Point ν} {m : Move ν} {samples : Outcome Int}
    {lines : List (List Char)} (h : arcLines start control m samples = .ok lines) :
    ∃ length speed inner final,
      amount (Bezier.length start control m.point Bezier.defaultSteps) 2 = .ok length ∧
      amount m.speed 2 = .ok speed ∧ programHeading m.pose.h = .ok final ∧
      (∀ l ∈ inner, IsSampleLine l) ∧ lines = printedArc length speed inner final := by
  obtain ⟨length, hlength, h⟩ := bind_eq_ok.mp h
  obtain ⟨speed, hspeed, h⟩ := bind_eq_ok.mp h
  obtain ⟨count, -, h⟩ := bind_eq_ok.mp h
  obtain ⟨inner, hinner, h⟩ := bind_eq_ok.mp h
  obtain ⟨final, hfinal, h⟩ := bind_eq_ok.mp h
  cases h
  refine ⟨length, speed, inner, final, hlength, hspeed, hfinal, ?_, ?_⟩
  · intro l hl
    obtain ⟨sample, -, hsample⟩ := forall_mem_of_mapM hinner l hl
    exact isSampleLine_of_innerSample hsample
  · simp [printedArc, arcLine]

theorem idle_stillLines {m : Move ν} {lines : List (List Char)} (h : stillLines m = .ok lines) :
    Idle lines := by
  rw [stillLines] at h
  split at h
  · obtain ⟨degrees, -, h⟩ := bind_eq_ok.mp h
    cases h
    exact idle_turnLine degrees (by decide) (by rintro c ⟨⟩; decide)
  · cases h
    exact idle_nil

theorem idle_arrivalLines {m : Move ν} {bearing : ν} {lines : List (List Char)}
    (h : arrivalLines m bearing = .ok lines) : Idle lines := by
  rw [arrivalLines] at h
  split at h
  · obtain ⟨away, -, h⟩ := bind_eq_ok.mp h
    split at h
    · obtain ⟨degrees, -, h⟩ := bind_eq_ok.mp h
      cases h
      exact idle_turnLine degrees (by decide) (by rintro c ⟨⟩; decide)
    · cases h
      exact idle_nil
  · cases h
    exact idle_nil

section Move

variable {carries : Waypoint ν → String → String → Prop} {t : Trail ν} {p : Point ν} {m : Move ν}

/-- Reading the lines of an entry retraces it, if the program shows it, and changes nothing if
not. -/
structure Follows (carries : Waypoint ν → String → String → Prop) (t : Trail ν)
    (step : Point ν × Entry ν) (lines : List (List Char)) : Prop where
  oneLine : ∀ l ∈ lines, '\n' ∉ l
  reads :
    (isShown step = false ∧ ∀ ls, t.readLines (lines ++ ls) = t.readLines ls) ∨
      (isShown step = true ∧ ∃ w c', Retraces carries t.cursor step w c' ∧
        ∀ ls, t.readLines (lines ++ ls) = (t.reach w c').readLines ls)

theorem lacksLength_of_not_arc (kind : m.kind ≠ .arc) : lacksLength (p, .move m) = false := by
  rw [lacksLength]
  cases h : m.motion with
  | drive => rfl
  | strafe => rfl
  | arc own => exact absurd (congrArg Motion.kind h) kind

/-- The lines of a straight move are followed, if its own line is understood and no line before it
matters. -/
theorem follows_straight (h : t.pending = none)
    (distance : unitsHalfUp (Point.distance p m.point) 2 ≠ .notANumber) (kind : m.kind ≠ .arc)
    (far : lt (Point.distance p m.point) negligible = false) {degrees : Int}
    (hdegrees : roundHalfUp (Point.bearing p m.point) = .ok degrees) (faces : Faces ν degrees)
    {command : List Char}
    (head : ∀ c ∈ command.head?, isBlank c = false) (oneLine : '\n' ∉ command)
    (understood : ∀ length n, Spells length n →
      Command.ofLine (travelLine command length degrees) = .travel m.kind n (.whole degrees))
    {before lines : List (List Char)} (hbefore : Idle before)
    (hl : (do
      let length ← amount (Point.distance p m.point) 2
      let after ← arrivalLines m (Point.bearing p m.point)
      return before ++ travelLine command length degrees :: after) = .ok lines) :
    Follows carries t (p, .move m) lines := by
  obtain ⟨length, hlength, hl⟩ := bind_eq_ok.mp hl
  obtain ⟨after, hafter, hl⟩ := bind_eq_ok.mp hl
  cases hl
  obtain ⟨n, hn⟩ := spells_of_amount hlength distance
  obtain ⟨c', leads⟩ := faces.leadsTo t.cursor n.value
  have arrival := idle_arrivalLines hafter
  have shown : isShown (p, .move m) = true := by
    rw [isShown, lacksLength_of_not_arc kind, goesNowhere, far]
    rfl
  constructor
  · intro l hl
    simp only [List.mem_append, List.mem_cons] at hl
    obtain hl | rfl | hl := hl
    · exact (hbefore l hl).1
    · rw [travelLine_eq]
      exact not_mem_pairText (.inr ⟨n, hn⟩) (isAmount_integerText degrees) oneLine (by decide)
    · exact (arrival l hl).1
  refine .inr ⟨shown, _, c', .straight kind hlength hdegrees hn.numeral?
    (spells_integerText degrees).numeral? leads, fun ls => ?_⟩
  rw [List.append_assoc, Trail.readLines_idle_append h hbefore, List.cons_append,
    Trail.readLines_travelLine h head (understood length n hn) leads, Trail.move_eq_reach h,
    Trail.readLines_idle_append rfl arrival]
  rfl

/-- An arc that has been printed bends towards a control point, its own or the default one. -/
theorem exists_controlOf {own : Option (Point ν)} {α : Type} {f : Point ν → Outcome α} {a : α}
    (h : (match own with
      | some c => do
        let control ← pure c
        f control
      | none => do
        let control ← defaultControl p m.point
        f control) = .ok a)
    (hm : m.motion = .arc own) :
    ∃ control, Layout.controlOf m.motion p m.point = .ok (some control) ∧ f control = .ok a := by
  cases own with
  | some c => exact ⟨c, by rw [hm, Layout.controlOf], h⟩
  | none =>
    obtain ⟨control, hcontrol, h⟩ := bind_eq_ok.mp h
    refine ⟨control, ?_, h⟩
    rw [hm, Layout.controlOf, hcontrol]
    rfl

theorem follows_printedArc (h : t.pending = none)
    (number : unitsHalfUp m.speed 2 ≠ .notANumber) (ahead : Faces ν 0)
    (far : lt (Point.distance p m.point) negligible = false) {control : Point ν}
    (hcontrol : Layout.controlOf m.motion p m.point = .ok (some control)) {length speed : List Char}
    (hlength : amount (Bezier.length p control m.point Bezier.defaultSteps) 2 = .ok length)
    (hspeed : amount m.speed 2 = .ok speed) {final : Int}
    (hfinal : programHeading m.pose.h = .ok final) {inner : List (List Char)}
    (hi : ∀ l ∈ inner, IsSampleLine l) :
    Follows carries t (p, .move m) (printedArc length speed inner final) := by
  have complete : lacksLength (p, .move m) = decide (unitsHalfUp
      (Bezier.length p control m.point Bezier.defaultSteps) 2 = .notANumber) := by
    rw [lacksLength, hcontrol]
  have plain : m.motion.plain = .arc none := by
    cases hm : m.motion with
    | drive => simp [hm, Layout.controlOf] at hcontrol
    | strafe => simp [hm, Layout.controlOf] at hcontrol
    | arc own => rfl
  obtain ⟨k, hk⟩ := spells_of_amount hspeed number
  refine ⟨oneLine_printedArc (isAmount_of_amount hlength) (.inr ⟨k, hk⟩) hi final, ?_⟩
  obtain ⟨lost, rfl⟩ | ⟨found, n, hn⟩ := amount_cases hlength
  · refine .inl ⟨?_, Trail.readLines_printedArc_notANumber h (.inl rfl) (.inr ⟨k, hk⟩)
      (.inl rfl) hi final⟩
    rw [isShown, complete, decide_eq_true lost]
    simp
  · have shown : lacksLength (p, .move m) = false := complete.trans (decide_eq_false found)
    obtain ⟨c', leads⟩ := ahead.leadsTo t.cursor n.value
    refine .inr ⟨?_, _, c', .arc hcontrol hlength hspeed hfinal hn.numeral? hk.numeral?
      (spells_integerText 0).numeral? (spells_integerText final).numeral? leads, fun ls => ?_⟩
    · rw [isShown, shown, goesNowhere, far]
      rfl
    · rw [Trail.readLines_printedArc h hn hk hi leads, Trail.move_eq_reach h, plain]

/-- The lines of a move are followed. -/
theorem follows_moveLines (h : t.pending = none)
    (guided : ∀ degrees, roundHalfUp (Point.bearing p m.point) = .ok degrees →
      unitsHalfUp (Point.distance p m.point) 2 ≠ .notANumber ∧ Faces ν degrees)
    (number : m.kind = .arc → unitsHalfUp m.speed 2 ≠ .notANumber) (ahead : Faces ν 0) {samples : Outcome Int}
    {lines : List (List Char)} (hl : moveLines samples p m = .ok lines) :
    Follows carries t (p, .move m) lines := by
  rw [moveLines] at hl
  simp only at hl
  split at hl
  next near =>
    have hidden : isShown (p, .move m) = false := by
      rw [isShown, goesNowhere, near]
      rfl
    have idle := idle_stillLines hl
    exact ⟨fun l hl => (idle l hl).1, .inl ⟨hidden, Trail.readLines_idle_append h idle⟩⟩
  next far =>
    rw [Bool.not_eq_true] at far
    obtain ⟨degrees, hdegrees, hl⟩ := bind_eq_ok.mp hl
    obtain ⟨distance, faces⟩ := guided degrees hdegrees
    cases hm : m.motion with
    | drive =>
      have kind : m.kind = .drive := congrArg Motion.kind hm
      rw [hm] at hl
      have turn : Idle [turnLine degrees []] := idle_turnLine degrees (by decide) (by rintro c ⟨⟩)
      refine follows_straight h distance (by rw [kind]; decide) far hdegrees faces ?_ (by decide) ?_
        turn hl
      · rintro c ⟨⟩
        decide
      · rw [kind]
        exact fun length n hn => ofLine_travelLine_drive hn degrees
    | strafe =>
      have kind : m.kind = .strafe := congrArg Motion.kind hm
      rw [hm] at hl
      refine follows_straight h distance (by rw [kind]; decide) far hdegrees faces ?_ (by decide) ?_
        idle_nil hl
      · rintro c ⟨⟩
        decide
      · rw [kind]
        exact fun length n hn => ofLine_travelLine_strafe hn degrees
    | arc own =>
      rw [hm] at hl
      obtain ⟨control, hcontrol, hl⟩ := exists_controlOf hl hm
      obtain ⟨length, speed, inner, final, hlength, hspeed, hfinal, hi, rfl⟩ := exists_printedArc hl
      exact follows_printedArc h (number (congrArg Motion.kind hm)) ahead far hcontrol hlength hspeed hfinal hi

end Move

/-! ## The lines of a path -/

/-- An action runs one of the given markers, which makes the given call. -/
def RunsMarker (markers : List (Marker ν)) (w : Waypoint ν) (name args : String) : Prop :=
  ∃ m ∈ markers, m.name = name ∧ m.args = args ∧ w = markerAction m

/-- What reading the lines of a track leads to, from one trail without an open arc to another. -/
structure Covers (first : Int) (t : Trail ν) (track : List (Point ν × Entry ν)) (t' : Trail ν) :
    Prop where
  pending : t'.pending = none
  numbered : t'.draft.Numbered first
  markers : t.draft.markers <+: t'.draft.markers
  waypoints : ∃ added, t'.draft.waypoints = t.draft.waypoints ++ added ∧
    RetracesAll (RunsMarker t'.draft.markers) t.cursor (track.filter isShown) added

section Covers

variable {first : Int} {t t' : Trail ν} {track : List (Point ν × Entry ν)}

theorem covers_nil (h : t.pending = none) (numbered : t.draft.Numbered first) :
    Covers first t [] t :=
  ⟨h, numbered, List.prefix_rfl, [], by simp, .nil⟩

/-- An entry that is not shown is passed over. -/
theorem Covers.hidden (h : Covers first t track t') {step : Point ν × Entry ν}
    (hidden : isShown step = false) : Covers first t (step :: track) t' := by
  have rest : (step :: track).filter isShown = track.filter isShown := by
    rw [List.filter_cons, hidden]
    rfl
  exact ⟨h.pending, h.numbered, h.markers, by rw [rest]; exact h.waypoints⟩

/-- An entry that is shown comes first. -/
theorem Covers.shown {next : Trail ν} (h : Covers first next track t') {step : Point ν × Entry ν}
    (shown : isShown step = true) {w : Waypoint ν}
    (markers : t.draft.markers <+: next.draft.markers)
    (waypoints : next.draft.waypoints = t.draft.waypoints ++ [w])
    (retraces : Retraces (RunsMarker t'.draft.markers) t.cursor step w next.cursor) :
    Covers first t (step :: track) t' := by
  obtain ⟨added, grown, all⟩ := h.waypoints
  refine ⟨h.pending, h.numbered, markers.trans h.markers, w :: added, ?_, ?_⟩
  · rw [grown, waypoints, List.append_assoc, List.singleton_append]
  · rw [List.filter_cons, shown]
    exact .cons retraces all

end Covers

/-- Lines without line feeds, the reading of which covers a track. -/
structure LinesCover (first : Int) (t : Trail ν) (lines : List (List Char))
    (track : List (Point ν × Entry ν)) (t' : Trail ν) : Prop where
  oneLine : ∀ line ∈ lines, '\n' ∉ line
  run : t.readLines lines = .ok t'
  covers : Covers first t track t'

section LinesCover

variable {first : Int} {t t' : Trail ν} {more : List (List Char)} {track : List (Point ν × Entry ν)}

/-- The lines of a call come before others. -/
theorem LinesCover.call (h : t.pending = none) {m : Marker ν}
    (callable : Callable m.name.toList m.args.toList)
    (rest : LinesCover first (t.addCall m.name.toList m.args.toList) more track t') (p : Point ν) :
    LinesCover first t (actionLines m ++ more) ((p, .call m.name m.args) :: track) t' where
  oneLine := List.forall_mem_append.mpr ⟨oneLine_actionLines callable, rest.oneLine⟩
  run := by rw [Trail.readLines_actionLines h callable, rest.run]
  covers := by
    refine rest.covers.shown rfl (Draft.markers_markerFor ..) (Trail.waypoints_addCall ..) (.call ?_)
    refine ⟨_, rest.covers.markers.subset (Draft.markerFor_mem ..), ?_, ?_, rfl⟩
    · rw [Draft.markerFor_name, String.ofList_toList]
    · rw [Draft.markerFor_args, String.ofList_toList]

/-- The lines of a move come before others, which are read from wherever the move has led. A move
carries no call, so any relation of calls will do for it. -/
theorem LinesCover.move (h : t.pending = none) (numbered : t.draft.Numbered first) {p : Point ν}
    {m : Move ν} {lines : List (List Char)}
    (follows : Follows (fun _ _ _ => False) t (p, .move m) lines)
    (rest : ∀ next : Trail ν, next.pending = none → next.draft.Numbered first →
      ∃ t', LinesCover first next more track t') :
    ∃ t', LinesCover first t (lines ++ more) ((p, .move m) :: track) t' := by
  obtain ⟨oneLine, ⟨hidden, reads⟩ | ⟨shown, w, c', retraces, reads⟩⟩ := follows
  · obtain ⟨t', others⟩ := rest t h numbered
    exact ⟨t', List.forall_mem_append.mpr ⟨oneLine, others.oneLine⟩, (reads more).trans others.run,
      others.covers.hidden hidden⟩
  · obtain ⟨t', others⟩ := rest (t.reach w c') rfl (numbered.add w)
    refine ⟨t', List.forall_mem_append.mpr ⟨oneLine, others.oneLine⟩, (reads more).trans others.run,
      others.covers.shown shown List.prefix_rfl rfl (retraces.imp ?_)⟩
    rintro _ _ _ ⟨⟩

end LinesCover

/-- Reading the lines of waypoints covers their track. -/
theorem exists_linesCover_waypointLines {l : Layout ν} {samples : Outcome Int} (ahead : Faces ν 0)
    {first : Int} {ws : List (Waypoint ν)} {start : Point ν} {lines : List (List Char)}
    (hl : waypointLines l samples start ws = .ok lines)
    (nav : ∀ q m, (q, .move m) ∈ l.trackFrom start ws → Navigable q m)
    (calls : ∀ q name args, (q, .call name args) ∈ l.trackFrom start ws →
      Callable name.toList args.toList)
    {t : Trail ν} (h : t.pending = none) (numbered : t.draft.Numbered first) :
    ∃ t', LinesCover first t lines (l.trackFrom start ws) t' := by
  induction ws generalizing start lines t with
  | nil =>
    cases hl
    exact ⟨t, by simp, rfl, covers_nil h numbered⟩
  | cons w ws ih =>
    cases w with
    | action a =>
      obtain ⟨more, hmore, hl⟩ := bind_eq_ok.mp hl
      cases found : l.marker? a.markerId with
      | none =>
        rw [found] at hl
        cases hl
        have track : l.trackFrom start (.action a :: ws) = l.trackFrom start ws := by
          simp [Layout.trackFrom, Layout.entryOf?, found]
        rw [track] at nav calls ⊢
        exact ih hmore nav calls h numbered
      | some m =>
        rw [found] at hl
        cases hl
        have track : l.trackFrom start (.action a :: ws) =
            (start, .call m.name m.args) :: l.trackFrom start ws := by
          simp [Layout.trackFrom, Layout.entryOf?, found]
        rw [track] at nav calls ⊢
        have numbered' := (numbered.markerFor m.name.toList m.args.toList t.cursor).add
          (markerAction (t.draft.markerFor m.name.toList m.args.toList t.cursor).1)
        obtain ⟨t', others⟩ := @ih _ _ hmore (fun q m' hm => nav q m' (List.mem_cons_of_mem _ hm))
          (fun q name args hm => calls q name args (List.mem_cons_of_mem _ hm))
          (t.addCall m.name.toList m.args.toList) h numbered'
        exact ⟨t', others.call h (calls start m.name m.args (by simp)) start⟩
    | move m =>
      obtain ⟨lines, hlines, hl⟩ := bind_eq_ok.mp hl
      obtain ⟨more, hmore, hl⟩ := bind_eq_ok.mp hl
      cases hl
      have navigable := nav start m (by simp [Layout.trackFrom])
      apply LinesCover.move h numbered (follows_moveLines h navigable.guided (fun _ => navigable.speed)
        ahead hlines)
      exact fun next => ih hmore (fun q m' hm => nav q m' (List.mem_cons_of_mem _ hm))
        fun q name args hm => calls q name args (List.mem_cons_of_mem _ hm)

/-! ## The round trip -/

theorem idle_opening : Idle opening := by
  have comments : ∀ l ∈ ["// Robot-Oriented Path".toList,
      "// Start: x=0.00 y=0.00 h=0deg (always relative to origin)".toList],
      '\n' ∉ l ∧ startsWith "//".toList (trim l) = true := by
    simp only [List.forall_mem_cons]
    decide
  simp only [List.forall_mem_cons] at comments
  obtain ⟨first, second, -⟩ := comments
  intro l hl
  simp only [opening, List.mem_cons, List.not_mem_nil, or_false] at hl
  obtain rfl | rfl | rfl | rfl := hl
  · exact ⟨first.1, .inr (ofLine_comment first.2)⟩
  · exact ⟨second.1, .inr (ofLine_comment second.2)⟩
  · exact ⟨by simp, .inr rfl⟩
  · exact idle_turnLine 0 (by decide) (by rintro c ⟨⟩; decide) _ (List.mem_singleton.mpr rfl)

/-- A program is read as what its lines behind the opening add to an empty trail. -/
theorem read_unlines_opening {lines : List (List Char)} (oneLine : ∀ l ∈ lines, '\n' ∉ l)
    {prior : Session ν} {t : Trail ν}
    (run : Trail.readLines ⟨.after prior, prior.start.point, none⟩ lines = .ok t)
    (closed : t.pending = none) :
    read (unlines (opening ++ lines)) prior = .ok (t.draft.toSession prior.start prior) := by
  have start : (⟨.after prior, prior.start.point, none⟩ : Trail ν).pending = none := rfl
  have split : splitLines (unlines (opening ++ lines)) = opening ++ (lines ++ [[]]) := by
    rw [splitLines_unlines, flatMap_splitLines, List.append_assoc]
    exact List.forall_mem_append.mpr ⟨fun l hl => (idle_opening l hl).1, oneLine⟩
  have result : (programLines (unlines (opening ++ lines))).foldlM Trail.readLine
      ⟨.after prior, prior.start.point, none⟩ = .ok t := by
    rw [programLines, split]
    have rest : Trail.readLines ⟨.after prior, prior.start.point, none⟩ (lines ++ [[]]) = .ok t := by
      rw [Trail.readLines_append, run]
      rfl
    exact (Trail.readLines_idle_append start idle_opening (lines ++ [[]])).trans rest
  have finished : t.finish = .ok t := by rw [Trail.finish, closed]
  exact bind_eq_ok.mpr ⟨t, result, bind_eq_ok.mpr ⟨t, finished, rfl⟩⟩

/-- A session is what the track of a path is read back as, on top of an earlier session. -/
structure RetracedAs (track : List (Point ν × Entry ν)) (prior decoded : Session ν) : Prop where
  start : decoded.start = prior.start
  waypoints : RetracesAll (fun w name args => decoded.entryOf? w = some (.call name args))
    prior.start.point track decoded.waypoints

/-- A printed path is read back as what its program shows of its track, if its numbers are numbers
and its calls are ones that a program can carry. -/
theorem exists_retracedAs {l : Layout ν} {samples : Outcome Int} (ahead : Faces ν 0)
    (nav : ∀ q m, (q, .move m) ∈ l.track → Navigable q m)
    (calls : l.CallsCarry Callable)
    {text : List Char} (h : print l samples = .ok text) (prior : Session ν) :
    ∃ decoded, read text prior = .ok decoded ∧
      RetracedAs (l.track.filter isShown) prior decoded := by
  obtain ⟨lines, hlines, h⟩ := bind_eq_ok.mp h
  cases h
  have callable : ∀ q name args, (q, .call name args) ∈ l.track →
      Callable name.toList args.toList := by
    intro q name args hq
    apply calls
    rw [← l.map_snd_track]
    exact List.mem_map_of_mem hq
  have start : (⟨.after prior, prior.start.point, none⟩ : Trail ν).pending = none := rfl
  obtain ⟨t, oneLine, run, covers⟩ := exists_linesCover_waypointLines ahead hlines nav callable start
    (Draft.numbered_after prior)
  obtain ⟨added, grown, retraces⟩ := covers.waypoints
  refine ⟨t.draft.toSession prior.start prior, read_unlines_opening oneLine run covers.pending, rfl, ?_⟩
  · show RetracesAll _ _ _ t.draft.waypoints
    rw [grown]
    refine retraces.imp ?_
    rintro w name args ⟨m, hm, rfl, rfl, rfl⟩
    exact covers.numbered.entryOf?_markerAction rfl hm

end PathStudio.Program.Robot
