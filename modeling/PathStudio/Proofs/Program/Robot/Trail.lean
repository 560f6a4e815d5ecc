import PathStudio.Proofs.Program.Draft
import PathStudio.Proofs.Outcome
import PathStudio.Proofs.Program.Robot.Arc
import PathStudio.Proofs.Program.Robot.Retrace

/-!
# Reading printed lines

The lines of each waypoint take a trail without an open arc to the next such
trail: turns, comments and blank lines change nothing, a straight move or an arc
adds a move and carries the cursor on, and a call adds an action.
-/

namespace PathStudio.Program.Robot

open Text Scalar

variable {ν : Type}

theorem actionLines_eq (m : Marker ν) : actionLines m =
    [[], commentLine m.name.toList, callLine m.name.toList m.args.toList] := by
  simp [actionLines, commentLine, callLine]

theorem oneLine_actionLines {m : Marker ν} (hc : Callable m.name.toList m.args.toList) :
    ∀ l ∈ actionLines m, '\n' ∉ l := by
  have inName : '\n' ∉ m.name.toList := fun h =>
    absurd (isLineEnd_of_isWord (isWord_of_isIdentifier hc.identifier _ h)) (by decide)
  rw [actionLines_eq]
  simp [commentLine, callLine, inName, hc.oneLine]

variable [Add ν] [Sub ν] [Mul ν] [Div ν] [Neg ν] [Scalar ν]

/-- Lines that mean nothing outside an arc, or only turn the robot. -/
def Idle (lines : List (List Char)) : Prop :=
  ∀ l ∈ lines, '\n' ∉ l ∧
    (Command.ofLine (trim l) = .turn ∨ Command.ofLine (trim l) = .nothing)

theorem idle_nil : Idle [] := by
  intro l hl
  cases hl

theorem idle_turnLine (degrees : Int) {comment : List Char} (oneLine : '\n' ∉ comment)
    (h : ∀ c ∈ comment.getLast?, isBlank c = false) : Idle [turnLine degrees comment] := by
  intro l hl
  rw [List.mem_singleton.mp hl, trim_turnLine degrees h, ofLine_turnLine]
  have inDegrees : '\n' ∉ integerText degrees := (isAmount_integerText degrees).not_mem (by decide)
  refine ⟨?_, .inl rfl⟩
  simp [turnLine_eq, inDegrees, oneLine]

namespace Trail

/-- Reads lines as they stand in a program, with blanks around them and blank lines among them. -/
def readLines (t : Trail ν) (ls : List (List Char)) : Outcome (Trail ν) :=
  ((ls.map trim).filter (!·.isEmpty)).foldlM readLine t

variable {t : Trail ν}

@[simp] theorem readLines_append (a b : List (List Char)) :
    t.readLines (a ++ b) = t.readLines a >>= (·.readLines b) := by
  simp [readLines]

theorem readLines_cons {l : List Char} (h : trim l ≠ []) (ls : List (List Char)) :
    t.readLines (l :: ls) = t.readLine (trim l) >>= (·.readLines ls) := by
  simp [readLines, h]

@[simp] theorem readLines_blank (ls : List (List Char)) : t.readLines ([] :: ls) = t.readLines ls := rfl

theorem readLines_of_trim_eq_nil {l : List Char} (h : trim l = []) (ls : List (List Char)) :
    t.readLines (l :: ls) = t.readLines ls := by
  simp [readLines, h]

/-- The trail with which the reading of a program begins. -/
def start (prior : Session ν) : Trail ν := ⟨.after prior, prior.start.point, none⟩

/-- The session that a program is read into whose last lines are read from a trail on. -/
def conclude (t : Trail ν) (ls : List (List Char)) (prior : Session ν) : Outcome (Session ν) := do
  let t ← t.readLines ls
  let t ← t.finish
  return t.draft.toSession prior.start prior

theorem read_eq_conclude (text : List Char) (prior : Session ν) :
    read text prior = (start prior).conclude (splitLines text) prior := rfl

theorem conclude_append {t' : Trail ν} {before : List (List Char)} (h : t.readLines before = .ok t')
    (ls : List (List Char)) (prior : Session ν) :
    t.conclude (before ++ ls) prior = t'.conclude ls prior := by
  rw [conclude, readLines_append, h]
  rfl

theorem readLine_eq_run (h : t.pending = none) (line : List Char) :
    t.readLine line = t.run line (.ofLine line) := by
  rw [readLine, h]

/-- A line that means nothing, or that only turns the robot, changes nothing. -/
theorem readLines_idle (h : t.pending = none) {l : List Char}
    (idle : Command.ofLine (trim l) = .turn ∨ Command.ofLine (trim l) = .nothing)
    (ls : List (List Char)) : t.readLines (l :: ls) = t.readLines ls := by
  by_cases hl : trim l = []
  · simp [readLines, hl]
  · rw [readLines_cons hl, readLine_eq_run h]
    obtain turn | nothing := idle
    · rw [turn]
      rfl
    · rw [nothing]
      rfl

theorem readLines_idle_append (h : t.pending = none) {idle : List (List Char)} (hi : Idle idle)
    (ls : List (List Char)) : t.readLines (idle ++ ls) = t.readLines ls := by
  induction idle with
  | nil => rfl
  | cons l idle ih =>
    rw [List.cons_append, readLines_idle h (hi l (by simp)).2,
      ih fun l hl => hi l (List.mem_cons_of_mem _ hl)]

/-! ## Calls -/

/-- The lines of an action add its call. -/
theorem readLines_actionLines (h : t.pending = none) {m : Marker ν}
    (hc : Callable m.name.toList m.args.toList) (ls : List (List Char)) :
    t.readLines (actionLines m ++ ls) = (t.addCall m.name.toList m.args.toList).readLines ls := by
  have nonempty : trim (callLine m.name.toList m.args.toList) ≠ [] := by
    rw [trim_callLine hc.identifier]
    simp [callLine]
  rw [actionLines_eq, List.cons_append, List.cons_append, List.cons_append, List.nil_append,
    readLines_blank, readLines_idle h, readLines_cons nonempty, readLine_eq_run h,
    trim_callLine hc.identifier, ofLine_callLine hc]
  · rfl
  · rw [trim_commentLine hc.identifier, ofLine_commentLine]
    exact .inr rfl

theorem waypoints_addCall (t : Trail ν) (name args : List Char) :
    (t.addCall name args).draft.waypoints =
      t.draft.waypoints ++ [markerAction (t.draft.markerFor name args t.cursor).1] :=
  congrArg (· ++ [_]) (Draft.waypoints_markerFor ..)

/-! ## Moves -/

/-- The trail without an open arc on which a waypoint has been added and the cursor carried on. -/
def reach (t : Trail ν) (w : Waypoint ν) (c : Point ν) : Trail ν := ⟨t.draft.add w, c, none⟩

theorem move_eq_reach (h : t.pending = none) (motion : Motion ν) (c : Point ν) (degrees speed : ν) :
    t.move motion c degrees speed =
      t.reach (.move ⟨motion, ⟨c.x, c.y, toRadians (-degrees)⟩, speed⟩) c := by
  rw [move, h]
  rfl

theorem ahead_eq {length degrees : ν} {c' : Point ν} (h : LeadsTo t.cursor length degrees c') :
    t.ahead length degrees = .ok c' := by
  obtain ⟨x, y, hx, hy, rfl⟩ := h
  rw [ahead, hx, ok_bind, hy, ok_bind]
  rfl

/-- The line of a straight move adds the move and carries the cursor on. -/
theorem readLines_travelLine (h : t.pending = none) {command length : List Char}
    (head : ∀ c ∈ command.head?, isBlank c = false) {kind : MoveKind} {n : WrittenNumber}
    {degrees : Int}
    (understood : Command.ofLine (travelLine command length degrees) = .travel kind n (.whole degrees))
    {c' : Point ν} (leads : LeadsTo t.cursor n.value (WrittenNumber.whole degrees).value c')
    (ls : List (List Char)) :
    t.readLines (travelLine command length degrees :: ls) =
      (t.move (.ofKind kind) c' (WrittenNumber.whole degrees).value defaultSpeed).readLines ls := by
  have trimmed := trim_travelLine head length degrees
  have nonempty : trim (travelLine command length degrees) ≠ [] := by
    rw [trimmed, travelLine_eq]
    simp [pairText]
  rw [readLines_cons nonempty, readLine_eq_run h, trimmed, understood, run, ahead_eq leads, ok_bind]
  rfl

theorem addArc_eq {a : OpenArc} {first last : ν} (headings : arcHeadings (arcSamples a.body) = (first, last))
    {c' : Point ν} (leads : LeadsTo t.cursor a.length.value first c') :
    t.addArc a = .ok ({ t with pending := none }.move (.arc none) c' last a.speed.value) := by
  rw [addArc, headings]
  exact bind_eq_ok.mpr ⟨c', ahead_eq leads, rfl⟩

/-- The trail on which an arc is open, with the lines of it read so far. -/
def opened (t : Trail ν) (length speed : WrittenNumber) (body : List (List Char)) : Trail ν :=
  { t with pending := some ⟨length, speed, body⟩ }

/-- Lines without a closing parenthesis and a semicolon are added to an open arc. -/
theorem readLines_opened {length speed : WrittenNumber} {body inner : List (List Char)}
    (hi : ∀ l ∈ inner, trim l ≠ [] ∧ closesArc (trim l) = false) (ls : List (List Char)) :
    (t.opened length speed body).readLines (inner ++ ls) =
      (t.opened length speed (body ++ inner.map trim)).readLines ls := by
  induction inner generalizing body with
  | nil => simp
  | cons l inner ih =>
    obtain ⟨nonempty, inside⟩ := hi l (by simp)
    have step : (t.opened length speed body).readLine (trim l) =
        .ok (t.opened length speed (body ++ [trim l])) := by
      simp [readLine, opened, extendArc, inside]
    rw [List.cons_append, readLines_cons nonempty, step, ok_bind,
      ih fun l hl => hi l (List.mem_cons_of_mem _ hl)]
    simp

section Arc

variable {length speed : List Char} {inner : List (List Char)}

/-- The lines of an arc add the move and carry the cursor on. -/
theorem readLines_printedArc (h : t.pending = none) {n m : WrittenNumber} (hl : Spells length n)
    (hs : Spells speed m) (hi : ∀ l ∈ inner, IsSampleLine l) {final : Int} {c' : Point ν}
    (leads : LeadsTo t.cursor n.value (WrittenNumber.whole 0).value c') (ls : List (List Char)) :
    t.readLines (printedArc length speed inner final ++ ls) =
      (t.move (.arc none) c' (WrittenNumber.whole final).value m.value).readLines ls := by
  have first : trim (arcLine length speed) ≠ [] := by
    rw [trim_arcLine]
    simp [arcLine]
  have open_ : closesArc (arcLine length speed) = false :=
    contains_eq_false_of_not_mem (c := ';') (by decide)
      (not_mem_pairText (.inr ⟨n, hl⟩) (.inr ⟨m, hs⟩) (by decide) (by decide))
  have samples := isSampleLine_of_mem hi final
  have inside : ∀ l ∈ sampleLine "0.0".toList 0 :: inner ++ [sampleLine "1.0".toList final],
      trim l ≠ [] ∧ closesArc (trim l) = false := by
    intro l hl
    obtain ⟨x, degrees, hx, heq⟩ := (samples l hl).trim
    rw [heq]
    exact ⟨by simp [sampleText],
      contains_eq_false_of_not_mem (c := ';') (by decide)
        (not_mem_pairText hx (isAmount_integerText degrees) (by decide) (by decide))⟩
  have opening : t.readLine (arcLine length speed) = .ok (t.opened n m [arcLine length speed]) := by
    rw [readLine_eq_run h, ofLine_arcLine hl hs, run, extendArc, open_]
    rfl
  have body : arcLine length speed :: (sampleLine "0.0".toList 0 :: inner
        ++ [sampleLine "1.0".toList final]).map trim ++ [");".toList] =
      arcLine length speed :: arcBody (inner.map trim) final := by
    simp [arcBody, trim_sampleLine]
  have trimmed : ∀ l ∈ inner.map trim, IsSample l :=
    List.forall_mem_map.mpr fun l hl => (hi l hl).trim
  have closes : closesArc ");".toList = true := by decide
  have closing : (t.opened n m (arcLine length speed :: (sampleLine "0.0".toList 0 :: inner
        ++ [sampleLine "1.0".toList final]).map trim)).readLine ");".toList =
      .ok ({ t with pending := none }.move (.arc none) c' (WrittenNumber.whole final).value m.value) := by
    have headings := arcHeadings_arcBody (ν := ν) (.inr ⟨n, hl⟩) (.inr ⟨m, hs⟩) trimmed final
    rw [← body] at headings
    rw [readLine, opened]
    simp only [extendArc, closes, if_true]
    exact addArc_eq headings leads
  have same : { t with pending := none } = t := by rw [← h]
  rw [same] at closing
  rw [printedArc, List.append_assoc, List.cons_append, readLines_cons first, trim_arcLine, opening,
    ok_bind, readLines_opened inside, List.singleton_append, List.singleton_append,
    readLines_cons (by rw [trim_closing]; decide), trim_closing, closing, ok_bind]

/-- The lines of an arc whose length or speed is not a number change nothing. -/
theorem readLines_printedArc_notANumber (h : t.pending = none) (hl : IsAmount length)
    (hs : IsAmount speed) (lost : length = "NaN".toList ∨ speed = "NaN".toList)
    (hi : ∀ l ∈ inner, IsSampleLine l) (final : Int) (ls : List (List Char)) :
    t.readLines (printedArc length speed inner final ++ ls) = t.readLines ls := by
  have samples := isSampleLine_of_mem hi final
  apply readLines_idle_append h
  intro l inArc
  refine ⟨oneLine_printedArc hl hs hi final l inArc, .inr ?_⟩
  obtain first | last := List.mem_append.mp inArc
  · obtain rfl | inside := List.mem_cons.mp first
    · rw [trim_arcLine, ofLine_arcLine_notANumber hl hs lost]
    · obtain ⟨x, degrees, hx, heq⟩ := (samples l inside).trim
      rw [heq, ofLine_sampleText hx]
  · rw [List.mem_singleton.mp last, trim_closing, ofLine_closing]

end Arc

end Trail

end PathStudio.Program.Robot
