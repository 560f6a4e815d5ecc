import PathStudio.Proofs.Program.Robot.Settling

/-!
# Robot-oriented programs are printed again

A robot-oriented program without actions that is read and printed again is the
program of its strokes, and read and printed once more the program of what is left
of them. The two are the same exactly if every stroke settles.
-/

namespace PathStudio.Program.Robot

open Text Exact

/-- A program that is read and printed again. -/
def recode {ν : Type} [Add ν] [Sub ν] [Mul ν] [Div ν] [Neg ν] [Scalar ν] (samples : Outcome Int)
    (text : List Char) (prior : Session ν) : Outcome (List Char) := do
  let decoded ← read text prior
  print decoded.toLayout samples

/-! ## Programs of strokes -/

/-- The stroke that a program shows of an entry of a track, if any. -/
noncomputable def strokeOf? : Point ℝ × Entry ℝ → Option Stroke
  | (p, .move m) => if goesNowhere (p, .move m) then none else some (shownAs p m)
  | (_, .call ..) => none

/-- The moves that strokes are read as, one after the other from a point. -/
noncomputable def lay (c : Point ℝ) : List Stroke → List (Waypoint ℝ)
  | [] => []
  | s :: rest => .move (s.move c) :: lay (s.move c).point rest

/-- The program of strokes that have been read. -/
noncomputable def linesAll (samples : Outcome Int) (strokes : List Stroke) :
    Outcome (List (List Char)) := do
  return (← strokes.mapM (Stroke.lines samples)).flatten

variable {samples : Outcome Int}

@[simp] theorem linesAll_cons (s : Stroke) (rest : List Stroke) : linesAll samples (s :: rest) = do
    let first ← s.lines samples
    let more ← linesAll samples rest
    return first ++ more := by
  simp [linesAll]

@[simp] theorem waypointLines_lay (l : Layout ℝ) (c : Point ℝ) (strokes : List Stroke) :
    waypointLines l samples c (lay c strokes) = linesAll samples strokes := by
  induction strokes generalizing c with
  | nil => rfl
  | cons s rest ih => rw [lay, waypointLines, moveLines_move, ih, linesAll_cons]

theorem strokes_lay (l : Layout ℝ) (c : Point ℝ) (strokes : List Stroke) :
    (l.trackFrom c (lay c strokes)).filterMap strokeOf? = strokes.filterMap Stroke.again := by
  induction strokes generalizing c with
  | nil => rfl
  | cons s rest ih =>
    have first : strokeOf? (c, .move (s.move c)) = s.again := by
      rw [strokeOf?, goesNowhere_move]
      cases h : s.again with
      | none => rfl
      | some next => rw [shownAs_move c h]; rfl
    rw [lay, Layout.trackFrom, List.filterMap_cons, first, ih, List.filterMap_cons]

theorem linesAll_again (strokes : List Stroke) : linesAll samples (strokes.filterMap Stroke.again) = do
    return (← strokes.mapM (Stroke.linesAgain samples)).flatten := by
  induction strokes with
  | nil => rfl
  | cons s rest ih =>
    rw [List.filterMap_cons, List.mapM_cons]
    cases h : s.again with
    | none => simp [ih, Stroke.linesAgain_of_none h]
    | some next => simp [ih, linesAll_cons, Stroke.linesAgain_of_some h]

/-- What retraces a track of moves that all go somewhere is laid from its strokes. -/
theorem eq_lay_of_retracesAll {carries : Waypoint ℝ → String → String → Prop} {c : Point ℝ}
    {steps : List (Point ℝ × Entry ℝ)} {ws : List (Waypoint ℝ)}
    (h : RetracesAll carries c steps ws) (far : ∀ step ∈ steps, goesNowhere step = false)
    (moves : ∀ p name args, (p, .call name args) ∉ steps) :
    ws = lay c (steps.filterMap strokeOf?) := by
  induction h with
  | nil => rfl
  | @cons c c' step w steps ws first _ ih =>
    obtain ⟨p, m | ⟨name, args⟩⟩ := step
    · obtain ⟨rfl, rfl⟩ := eq_move_of_retraces first
      have shown : strokeOf? (p, .move m) = some (shownAs p m) := by
        rw [strokeOf?, far _ List.mem_cons_self]
        rfl
      rw [List.filterMap_cons_some shown, lay,
        ih (fun step h => far step (.tail _ h)) fun p name args h => moves p name args (.tail _ h)]
    · exact absurd List.mem_cons_self (moves p name args)

theorem isShown_real (step : Point ℝ × Entry ℝ) : isShown step = !goesNowhere step := by
  rw [isShown, lacksLength_real]
  simp

theorem filterMap_strokeOf?_filter (track : List (Point ℝ × Entry ℝ)) :
    (track.filter isShown).filterMap strokeOf? = track.filterMap strokeOf? := by
  rw [List.filterMap_filter]
  congr 1
  funext step
  rw [isShown_real]
  obtain ⟨p, m | ⟨name, args⟩⟩ := step
  · cases h : goesNowhere (p, .move m) <;> simp [strokeOf?, h]
  · rfl

theorem call_notMem_trackFrom (l : Layout ℝ) {ws : List (Waypoint ℝ)} (moves : ∀ a, .action a ∉ ws)
    (c p : Point ℝ) (name args : String) : (p, .call name args) ∉ l.trackFrom c ws := by
  induction ws generalizing c with
  | nil => exact List.not_mem_nil
  | cons w ws ih =>
    cases w with
    | move m => simp [Layout.trackFrom, ih fun a h => moves a (.tail _ h)]
    | action a => exact absurd List.mem_cons_self (moves a)

theorem action_notMem_lay (c : Point ℝ) (strokes : List Stroke) (a : Action ℝ) :
    .action a ∉ lay c strokes := by
  induction strokes generalizing c with
  | nil => exact List.not_mem_nil
  | cons s rest ih => simp [lay, ih]

/-- A path of moves alone, printed and read, is laid from the strokes of its track. -/
theorem exists_decoded {l : Layout ℝ} (moves : ∀ a, .action a ∉ l.waypoints) {text : List Char}
    (h : print l samples = .ok text) (prior : Session ℝ) :
    ∃ decoded, read text prior = .ok decoded ∧ decoded.start = prior.start ∧
      decoded.waypoints = lay prior.start.point (l.track.filterMap strokeOf?) := by
  have quiet (p : Point ℝ) (name args : String) : (p, .call name args) ∉ l.track :=
    call_notMem_trackFrom l moves _ p name args
  have calls : l.CallsCarry Callable := by
    intro name args called
    rw [← l.map_snd_track] at called
    obtain ⟨⟨p, entry⟩, hp, rfl⟩ := List.mem_map.mp called
    exact absurd hp (quiet p name args)
  obtain ⟨decoded, run, retraced⟩ :=
    exists_retracedAs (faces_real 0) (fun _ _ _ => navigable_real _ _) calls h prior
  refine ⟨decoded, run, retraced.start, ?_⟩
  rw [← filterMap_strokeOf?_filter]
  refine eq_lay_of_retracesAll retraced.waypoints ?_ fun p name args called =>
    quiet p name args (List.mem_filter.mp called).1
  intro step hs
  have shown := (List.mem_filter.mp hs).2
  rw [isShown_real] at shown
  simpa using shown

/-- A program of moves alone is printed again as the program of its strokes. -/
theorem recode_eq {l : Layout ℝ} (moves : ∀ a, .action a ∉ l.waypoints) {text : List Char}
    (h : print l samples = .ok text) (prior : Session ℝ) :
    recode samples text prior = do
      let blocks ← (l.track.filterMap strokeOf?).mapM (Stroke.lines samples)
      return unlines (opening ++ blocks.flatten) := by
  obtain ⟨decoded, run, start, laid⟩ := exists_decoded moves h prior
  rw [recode, run, ok_bind, print, start, laid, waypointLines_lay]
  simp [linesAll]

/-- A program of strokes is printed again as the program of what is left of them. -/
theorem recode_recode_eq {l : Layout ℝ} (moves : ∀ a, .action a ∉ l.waypoints)
    {text once : List Char} (h : print l samples = .ok text) {prior : Session ℝ}
    (first : recode samples text prior = .ok once) (prior' : Session ℝ) :
    recode samples once prior' = do
      let blocks ← (l.track.filterMap strokeOf?).mapM (Stroke.linesAgain samples)
      return unlines (opening ++ blocks.flatten) := by
  obtain ⟨decoded, run, start, laid⟩ := exists_decoded moves h prior
  have printed : print decoded.toLayout samples = .ok once := by
    rw [recode, run] at first
    exact first
  have moves' (a : Action ℝ) : .action a ∉ decoded.waypoints := by
    rw [laid]
    exact action_notMem_lay _ _ a
  obtain ⟨decoded', run', start', laid'⟩ := exists_decoded moves' printed prior'
  rw [recode, run', ok_bind, print, start', laid', waypointLines_lay, Layout.track, start, laid,
    strokes_lay, linesAll_again]
  simp

/-! ## Fixed points -/

/-- Lists of lists of which none has grown are the same if they are joined to the same. -/
theorem eq_of_flatten_eq {α : Type} {as bs : List (List α)}
    (h : List.Forall₂ (fun a b => b.length ≤ a.length) as bs) (same : as.flatten = bs.flatten) :
    as = bs := by
  have shorter {as bs : List (List α)} (h : List.Forall₂ (fun a b => b.length ≤ a.length) as bs) :
      bs.flatten.length ≤ as.flatten.length := by
    induction h with
    | nil => exact le_rfl
    | cons first _ ih => simpa using Nat.add_le_add first ih
  induction h with
  | nil => rfl
  | @cons a b as bs first rest ih =>
    rw [List.flatten_cons, List.flatten_cons] at same
    have total := congrArg List.length same
    rw [List.length_append, List.length_append] at total
    have remaining := shorter rest
    obtain ⟨rfl, tails⟩ := List.append_inj same (by omega)
    rw [ih tails]

/-- Every move of a printed path has lines. -/
theorem exists_moveLines {l : Layout ℝ} {ws : List (Waypoint ℝ)} {c : Point ℝ}
    {shown : List (List Char)} (h : waypointLines l samples c ws = .ok shown) {p : Point ℝ} {m : Move ℝ}
    (hm : (p, .move m) ∈ l.trackFrom c ws) : ∃ lines, moveLines samples p m = .ok lines := by
  induction ws generalizing c shown with
  | nil => cases hm
  | cons w ws ih =>
    cases w with
    | move m' =>
      obtain ⟨lines, first, h⟩ := bind_eq_ok.mp h
      obtain ⟨more, rest, -⟩ := bind_eq_ok.mp h
      obtain same | later := List.mem_cons.mp hm
      · cases same
        exact ⟨lines, first⟩
      · exact ih rest later
    | action a =>
      obtain ⟨more, rest, -⟩ := bind_eq_ok.mp h
      obtain here | later := List.mem_append.mp hm
      · simp [Layout.entryOf?] at here
      · exact ih rest later

/-- The strokes of a track are those of its moves that go somewhere. -/
theorem forall_mem_strokes_iff {track : List (Point ℝ × Entry ℝ)} {P : Stroke → Prop} :
    (∀ s ∈ track.filterMap strokeOf?, P s) ↔
      ∀ p m, (p, .move m) ∈ track → goesNowhere (p, .move m) = false → P (shownAs p m) := by
  constructor
  · intro all p m hm far
    refine all _ (List.mem_filterMap.mpr ⟨_, hm, ?_⟩)
    rw [strokeOf?, far]
    rfl
  · intro all s hs
    obtain ⟨⟨p, m | ⟨name, args⟩⟩, hm, shown⟩ := List.mem_filterMap.mp hs
    · rw [strokeOf?] at shown
      split at shown
      next => cases shown
      next far =>
        cases shown
        exact all p m hm (Bool.eq_false_iff.mpr far)
    · cases shown

section Blocks

variable {strokes : List Stroke} {blocks blocks' : List (List (List Char))}

/-- No block of lines grows when what is left of the strokes is printed. -/
theorem forall₂_length_le (h : strokes.mapM (Stroke.lines samples) = .ok blocks)
    (again : strokes.mapM (Stroke.linesAgain samples) = .ok blocks') :
    List.Forall₂ (fun b b' => b'.length ≤ b.length) blocks blocks' := by
  induction strokes generalizing blocks blocks' with
  | nil =>
    cases h
    cases again
    exact .nil
  | cons s rest ih =>
    obtain ⟨b, more, hb, hmore, rfl⟩ := mapM_cons_eq_ok.mp h
    obtain ⟨b', more', hb', hmore', rfl⟩ := mapM_cons_eq_ok.mp again
    exact .cons (s.length_le_of_linesAgain hb hb') (ih hmore hmore')

/-- Programs of blocks that are the same text have the same blocks. -/
theorem eq_of_unlines_eq (h : strokes.mapM (Stroke.lines samples) = .ok blocks)
    (again : strokes.mapM (Stroke.linesAgain samples) = .ok blocks')
    (same : unlines (opening ++ blocks.flatten) = unlines (opening ++ blocks'.flatten)) :
    blocks = blocks' := by
  have before : ∀ l ∈ opening, '\n' ∉ l := fun l hl => (idle_opening l hl).1
  have first : ∀ l ∈ blocks.flatten, '\n' ∉ l := by
    intro l hl
    obtain ⟨b, hb, hl⟩ := List.mem_flatten.mp hl
    obtain ⟨s, -, hs⟩ := forall_mem_of_mapM h b hb
    exact s.oneLine_lines hs l hl
  have second : ∀ l ∈ blocks'.flatten, '\n' ∉ l := by
    intro l hl
    obtain ⟨b, hb, hl⟩ := List.mem_flatten.mp hl
    obtain ⟨s, -, hs⟩ := forall_mem_of_mapM again b hb
    exact s.oneLine_linesAgain hs l hl
  have lines := unlines_inj (List.forall_mem_append.mpr ⟨before, first⟩)
    (List.forall_mem_append.mpr ⟨before, second⟩) same
  exact eq_of_flatten_eq (forall₂_length_le h again) (List.append_cancel_left lines)

end Blocks

/-- In exact arithmetic a robot-oriented program without actions that is read and printed again is
the same from then on exactly if each of its moves settles: where it is shown with a length of zero
it is shown with zero degrees, and an arc is shown with a length up to eight hundredths. -/
theorem recode_recode_iff (s prior prior' : Session ℝ) (samples : Outcome Int) (text : List Char)
    (moves : ∀ a, .action a ∉ s.waypoints) (printed : print s.toLayout samples = .ok text) :
    (∃ once, recode samples text prior = .ok once ∧ recode samples once prior' = .ok once) ↔
      ∀ p m, (p, .move m) ∈ s.track → goesNowhere (p, .move m) = false → (shownAs p m).Settles := by
  have once := recode_eq moves printed prior
  rw [← forall_mem_strokes_iff]
  constructor
  · rintro ⟨text', first, second⟩
    have twice := recode_recode_eq moves printed first prior'
    obtain ⟨blocks, hblocks, built⟩ := bind_eq_ok.mp (once.symm.trans first)
    obtain ⟨blocks', hblocks', built'⟩ := bind_eq_ok.mp (twice.symm.trans second)
    have same := (return_eq_ok.mp built).trans (return_eq_ok.mp built').symm
    obtain rfl := eq_of_unlines_eq hblocks hblocks' same
    intro stroke hs
    obtain ⟨b, hb⟩ := exists_of_mapM hblocks stroke hs
    exact stroke.settles_of_linesAgain hb ((eq_of_mapM_eq_ok hblocks hblocks' stroke hs).symm.trans hb)
  · intro settled
    obtain ⟨shown, hshown, -⟩ := bind_eq_ok.mp printed
    have lines : ∀ stroke ∈ s.track.filterMap strokeOf?, ∃ b, stroke.lines samples = .ok b := by
      rw [forall_mem_strokes_iff] at settled ⊢
      intro p m hm far
      obtain ⟨lines, hlines⟩ := exists_moveLines hshown hm
      exact Stroke.exists_lines (settled p m hm far) far hlines
    obtain ⟨blocks, hblocks⟩ := exists_mapM lines
    have first := once.trans (bind_eq_ok.mpr ⟨blocks, hblocks, rfl⟩)
    refine ⟨_, first, ?_⟩
    rw [recode_recode_eq moves printed first prior',
      mapM_congr fun stroke hs => stroke.linesAgain_of_settles (settled stroke hs), hblocks]
    rfl

/-- Strokes that have lines are printed. -/
theorem exists_print_lay {l : Layout ℝ} {strokes : List Stroke}
    (h : ∀ s ∈ strokes, ∃ b, s.lines samples = .ok b)
    (path : l.waypoints = lay l.start.point strokes) : ∃ text, print l samples = .ok text := by
  obtain ⟨blocks, hblocks⟩ := exists_mapM h
  have lines : waypointLines l samples l.start.point l.waypoints = .ok blocks.flatten := by
    rw [path, waypointLines_lay, linesAll, hblocks]
    rfl
  exact ⟨_, bind_eq_ok.mpr ⟨_, lines, rfl⟩⟩

/-- A drive of a metre, a strafe of half a metre to one side and an arc of five hundredths. -/
def mixedStrokes : List Stroke := [.straight false 100 0, .straight true 50 90, .arc 5 80 0]

/-- The path of these strokes. -/
noncomputable def stride : Session ℝ :=
  { Session.empty with waypoints := lay Pose.origin.point mixedStrokes }

theorem recode_recode_stride :
    ∃ text once, print stride.toLayout (.ok defaultSamples) = .ok text ∧
      recode (.ok defaultSamples) text stride = .ok once ∧
      recode (.ok defaultSamples) once stride = .ok once := by
  have lines : ∀ s ∈ mixedStrokes, ∃ b, s.lines (.ok defaultSamples) = .ok b := by
    rw [mixedStrokes, List.forall_mem_cons, List.forall_mem_cons, List.forall_mem_singleton]
    exact ⟨Stroke.exists_lines_of_lt (by decide), Stroke.exists_lines_of_lt (by decide),
      Stroke.exists_lines_of_le (by decide) (by decide)⟩
  obtain ⟨text, printed⟩ := exists_print_lay (l := stride.toLayout) lines rfl
  have settled : ∀ s ∈ stride.track.filterMap strokeOf?, s.Settles := by
    have strokes : stride.track.filterMap strokeOf? = mixedStrokes := by
      refine (strokes_lay stride.toLayout Pose.origin.point mixedStrokes).trans ?_
      simp [mixedStrokes, Stroke.again, bendCount_eq_self, wrap]
    rw [strokes, mixedStrokes]
    simp [Stroke.Settles]
  obtain ⟨once, first, second⟩ := (recode_recode_iff stride stride stride (.ok defaultSamples) _
    (action_notMem_lay _ _) printed).mpr (forall_mem_strokes_iff.mp settled)
  exact ⟨_, once, printed, first, second⟩

/-! ## Doubles -/

open Double

/-- A robot-oriented path of finite numbers and without actions, whose program still changes after
it has been read and printed again once. -/
structure StillChanges (trig : Trigonometry) (s : Session Float) : Prop where
  mode : s.mode = .dialect .robot
  finite : FiniteNumbers s.toLayout
  moves : ∀ a, .action a ∉ s.waypoints
  changes :
    letI := trig.scalar
    ∃ text once twice, print s.toLayout (.ok defaultSamples) = .ok text ∧
      recode (.ok defaultSamples) text s = .ok once ∧
      recode (.ok defaultSamples) once s = .ok twice ∧ twice ≠ once

/-- A path of one move. -/
def single (start : Pose Float) (m : Move Float) : Session Float :=
  { start
    waypoints := [.move m]
    markers := []
    selection := none
    mode := .dialect .robot
    nextMarkerId := 1
    past := .empty }

/-- Whether the second time that a program is read and printed again changes it. -/
def changesTwice (trig : Trigonometry) (s : Session Float) : Outcome Bool :=
  letI := trig.scalar
  do
    let text ← print s.toLayout (.ok defaultSamples)
    let once ← recode (.ok defaultSamples) text s
    let twice ← recode (.ok defaultSamples) once s
    return twice ≠ once

theorem finiteNumbers_single {start : Pose Float} {m : Move Float}
    (hs : FinitePosition start ∧ start.h.isFinite = true)
    (hm : FinitePosition m.pose ∧ m.pose.h.isFinite = true ∧ m.speed.isFinite = true)
    (own : ∀ c, m.motion ≠ .arc (some c)) : FiniteNumbers (single start m).toLayout := by
  refine ⟨hs, ?_, by simp [single], by simp [single]⟩
  intro m' hm'
  obtain rfl : m' = m := List.mem_singleton.mp hm'
  exact ⟨hm.1, hm.2.1, hm.2.2, fun c h => absurd h (own c)⟩

theorem stillChanges_single {trig : Trigonometry} {start : Pose Float} {m : Move Float}
    (hs : FinitePosition start ∧ start.h.isFinite = true)
    (hm : FinitePosition m.pose ∧ m.pose.h.isFinite = true ∧ m.speed.isFinite = true)
    (own : ∀ c, m.motion ≠ .arc (some c)) (h : changesTwice trig (single start m) = .ok true) :
    StillChanges trig (single start m) where
  mode := rfl
  finite := finiteNumbers_single hs hm own
  moves := by simp [single]
  changes := by
    obtain ⟨text, printed, h⟩ := bind_eq_ok.mp h
    obtain ⟨once, first, h⟩ := bind_eq_ok.mp h
    obtain ⟨twice, second, h⟩ := bind_eq_ok.mp h
    exact ⟨text, once, twice, printed, first, second, of_decide_eq_true (return_eq_ok.mp h)⟩

/-- The trigonometric functions where a path is asked for that goes forty-six degrees to the right. -/
def slope : Trigonometry where
  cos _ := 0.6946583704589974
  sin _ := -0.7193398003386511
  atan2 y _ := if y == -8.802097545486692 then -0.8065438543467979
    else if y == -8.768752166128156 then -0.8046476343237743 else -0.803827198887685

/-- Of a move that is shown with a length of zero a turn is left, and then nothing. An arc of a metre
gets longer each time. Where doubles are far apart, even the length of a drive gets smaller. -/
theorem not_every_program_settles :
    StillChanges axes (single ⟨0.0, 0.0, 0.0⟩ ⟨.drive, ⟨0.0, 0.001, 0.0⟩, 0.8⟩) ∧
    StillChanges axes (single ⟨0.0, 0.0, 0.0⟩ ⟨.arc none, ⟨1.0, 0.0, 0.0⟩, 0.8⟩) ∧
    StillChanges slope (single ⟨422212465065984.0, 0.0, 0.0⟩
      ⟨.drive, ⟨422212465065992.44, -8.802097545486692, 0.0⟩, 0.8⟩) := by
  refine ⟨?_, ?_, ?_⟩
  · exact stillChanges_single (by decide +kernel) (by decide +kernel) (by simp) (by decide +kernel)
  · exact stillChanges_single (by decide +kernel) (by decide +kernel) (by simp) (by decide +kernel)
  · exact stillChanges_single (by decide +kernel) (by decide +kernel) (by simp) (by decide +kernel)

end PathStudio.Program.Robot
