import PathStudio.Program.Decode
import PathStudio.Program.Encode
import PathStudio.Proofs.Program.Robot.Agreement

/-!
# Programs are recognized

The dialect of a text is told by words that occur anywhere in it. What programs
are printed with around the calls of actions, the numbers among it, has words of
its own dialect and none of the other, and no word of a dialect runs over the
parts that a call is printed between. So a generated program is taken for what
it is, unless it is robot-oriented and one of its calls has a word of the field
dialect.
-/

namespace PathStudio.Program

open Text Scalar

/-! ## Words of the field dialect -/

/-- A text has one of the words that only field-oriented programs have. -/
def MentionsField (text : List Char) : Prop :=
  "Pose2d".toList <:+: text ∨ "ArrayList".toList <:+: text

instance (text : List Char) : Decidable (MentionsField text) :=
  inferInstanceAs (Decidable ("Pose2d".toList <:+: text ∨ "ArrayList".toList <:+: text))

theorem mentionsField_iff {text : List Char} :
    MentionsField text ↔ ∃ word ∈ fieldTokens, contains word text = true := by
  simp [MentionsField, fieldTokens, contains_iff_isInfix]

/-- A character outside the words parts a text in which they occur. -/
theorem mentionsField_append_cons {c : Char} (hc : ∀ word ∈ fieldTokens, c ∉ word) (a b : List Char) :
    MentionsField (a ++ c :: b) ↔ MentionsField a ∨ MentionsField b := by
  simp only [mentionsField_iff, ← exists_or, ← and_or_left]
  refine exists_congr fun word => and_congr_right fun hword => ?_
  rw [contains_append_cons (hc word hword), Bool.or_eq_true]

theorem mentionsField_unlines {ls : List (List Char)} :
    MentionsField (unlines ls) ↔ ∃ l ∈ ls, MentionsField l := by
  induction ls with
  | nil => exact iff_of_false (by decide) (by simp)
  | cons l ls ih =>
    rw [unlines_cons, mentionsField_append_cons (by decide), ih]
    simp

/-- The words begin with two letters that a text may lack. -/
theorem not_mentionsField_of_not_mem {text : List Char} (hp : 'P' ∉ text) (ha : 'A' ∉ text) :
    ¬ MentionsField text := by
  rintro (pose | list)
  · exact hp (pose.subset (by decide))
  · exact ha (list.subset (by decide))

/-! ## The dialect of a text -/

theorem sniff_of_mentionsField {text : List Char} (h : MentionsField text) :
    sniff text = .ok .field := by
  have visible : trim text ≠ [] := by
    obtain pose | list := h
    · exact trim_ne_nil (pose.subset (by decide : 'P' ∈ "Pose2d".toList)) (by decide)
    · exact trim_ne_nil (list.subset (by decide : 'A' ∈ "ArrayList".toList)) (by decide)
  have found : fieldTokens.any (contains · text) = true :=
    List.any_eq_true.mpr (mentionsField_iff.mp h)
  rw [sniff, if_neg (mt List.isEmpty_iff.mp visible), if_pos found]

theorem sniff_of_turn {text : List Char} (h : ¬ MentionsField text)
    (turn : contains "turnPID".toList text = true) : sniff text = .ok .robot := by
  have inText : "turnPID".toList <:+: text := contains_iff_isInfix.mp turn
  have visible : trim text ≠ [] :=
    trim_ne_nil (inText.subset (by decide : 't' ∈ "turnPID".toList)) (by decide)
  have lost : ¬ fieldTokens.any (contains · text) = true := fun found =>
    h (mentionsField_iff.mpr (List.any_eq_true.mp found))
  have found : robotTokens.any (contains · text) = true :=
    List.any_eq_true.mpr ⟨_, by simp [robotTokens], turn⟩
  rw [sniff, if_neg (mt List.isEmpty_iff.mp visible), if_neg lost, if_pos found]

/-! ## Field-oriented programs -/

variable {ν : Type}

section

variable [Add ν] [Sub ν] [Mul ν] [Div ν] [Neg ν] [Scalar ν]

theorem mentionsField_print {l : Layout ν} {text : List Char} (h : Field.print l = .ok text) :
    MentionsField text := by
  obtain ⟨start, -, h⟩ := bind_eq_ok.mp h
  obtain ⟨moves, -, h⟩ := bind_eq_ok.mp h
  obtain ⟨markers, -, h⟩ := bind_eq_ok.mp h
  cases h
  have declared : MentionsField "private List<Pose2d> createPath() \x7b".toList := by decide
  exact mentionsField_unlines.mpr ⟨_, by simp [Field.opening], declared⟩

end

namespace Robot

/-! ## Robot-oriented programs -/

theorem not_mentionsField_turnLine (degrees : Int) {comment : List Char} (hp : 'P' ∉ comment)
    (ha : 'A' ∉ comment) : ¬ MentionsField (turnLine degrees comment) := by
  have inDegrees (c : Char) (hc : c ∉ "NaN".toList ++ numberCharacters) : c ∉ integerText degrees :=
    (isAmount_integerText degrees).not_mem hc
  rw [turnLine_eq, mentionsField_append_cons (by decide)]
  rintro (word | rest)
  · exact absurd word (by decide)
  · refine not_mentionsField_of_not_mem ?_ ?_ rest
    · simp [inDegrees 'P' (by decide), hp]
    · simp [inDegrees 'A' (by decide), ha]

theorem OnlyTurn.not_mentionsField {comment : List Char} {lines : List (List Char)}
    (h : OnlyTurn comment lines) (hp : 'P' ∉ comment) (ha : 'A' ∉ comment) :
    ∀ line ∈ lines, ¬ MentionsField line := by
  obtain rfl | ⟨degrees, rfl⟩ := h
  · simp
  · simpa using not_mentionsField_turnLine degrees hp ha

/-- A word with a pair of numbers has no word of the field dialect, if neither it nor what follows
the pair has one. -/
theorem not_mentionsField_pairText {word a b ending : List Char} (hword : ¬ MentionsField word)
    (ha : IsAmount a) (hb : IsAmount b) (hp : 'P' ∉ ending) (hA : 'A' ∉ ending) :
    ¬ MentionsField (pairText word a b ending) := by
  rw [pairText, mentionsField_append_cons (by decide)]
  rintro (inWord | rest)
  · exact hword inWord
  · refine not_mentionsField_of_not_mem ?_ ?_ rest
    · simp [ha.not_mem (c := 'P') (by decide), hb.not_mem (c := 'P') (by decide), hp]
    · simp [ha.not_mem (c := 'A') (by decide), hb.not_mem (c := 'A') (by decide), hA]

theorem not_mentionsField_travelLine {command length : List Char} (hc : ¬ MentionsField command)
    (hl : IsAmount length) (degrees : Int) :
    ¬ MentionsField (travelLine command length degrees) := by
  rw [travelLine_eq]
  exact not_mentionsField_pairText hc hl (isAmount_integerText degrees) (by decide) (by decide)

theorem IsSampleLine.not_mentionsField {line : List Char} (h : IsSampleLine line) :
    ¬ MentionsField line := by
  obtain ⟨t, degrees, ht, rfl⟩ := h
  have shape : sampleLine t degrees =
      pairText (List.replicate 16 ' ' ++ ".at".toList) t (integerText degrees) [')'] := by
    rw [sampleLine_eq, sampleText_eq]
    simp [pairText]
  rw [shape]
  exact not_mentionsField_pairText (by decide) ht (isAmount_integerText degrees) (by decide)
    (by decide)

theorem not_mentionsField_printedArc {length speed : List Char} (hl : IsAmount length)
    (hs : IsAmount speed) {inner : List (List Char)} (hi : ∀ l ∈ inner, IsSampleLine l) (final : Int) :
    ∀ line ∈ printedArc length speed inner final, ¬ MentionsField line := by
  intro line h
  obtain first | last := List.mem_append.mp h
  · obtain rfl | inside := List.mem_cons.mp first
    · rw [arcLine_eq]
      exact not_mentionsField_pairText (by decide) hl hs (by decide) (by decide)
    · exact (isSampleLine_of_mem hi final line inside).not_mentionsField
  · rw [List.mem_singleton.mp last]
    decide

/-- The lines of an action have a word of the field dialect just if its name or its arguments
have. -/
theorem mentionsField_actionLines {m : Marker ν} : (∃ line ∈ actionLines m, MentionsField line) ↔
    MentionsField m.name.toList ∨ MentionsField m.args.toList := by
  have comment : commentLine m.name.toList = "// Action:".toList ++ ' ' :: m.name.toList := rfl
  have blank : ¬ MentionsField [] := by decide
  have word : ¬ MentionsField "// Action:".toList := by decide
  have closing : ¬ MentionsField ";".toList := by decide
  have call : MentionsField (callLine m.name.toList m.args.toList) ↔
      MentionsField m.name.toList ∨ MentionsField m.args.toList := by
    rw [callLine, mentionsField_append_cons (by decide),
      show ");".toList = ')' :: ";".toList from rfl, mentionsField_append_cons (by decide),
      or_iff_left closing]
  rw [actionLines_eq, comment]
  simp only [List.mem_cons, List.not_mem_nil, or_false, exists_eq_or_imp, exists_eq_left,
    mentionsField_append_cons (by decide : ∀ word ∈ fieldTokens, ' ' ∉ word), call, blank, word,
    false_or]
  tauto

variable [Add ν] [Sub ν] [Mul ν] [Div ν] [Neg ν] [Scalar ν]

/-- No line of a move has a word of the field dialect. -/
theorem not_mentionsField_moveLines {samples : Outcome Int} {start : Point ν} {m : Move ν}
    {lines : List (List Char)} (h : moveLines samples start m = .ok lines) :
    ∀ line ∈ lines, ¬ MentionsField line := by
  have still {ls : List (List Char)} (h : stillLines m = .ok ls) : ∀ line ∈ ls, ¬ MentionsField line :=
    (onlyTurn_stillLines h).not_mentionsField (by decide) (by decide)
  have arrival {bearing : ν} {ls : List (List Char)} (h : arrivalLines m bearing = .ok ls) :
      ∀ line ∈ ls, ¬ MentionsField line :=
    (onlyTurn_arrivalLines h).not_mentionsField (by decide) (by decide)
  rw [moveLines] at h
  simp only at h
  split at h
  next => exact still h
  next =>
    obtain ⟨degrees, -, h⟩ := bind_eq_ok.mp h
    cases hm : m.motion with
    | drive =>
      rw [hm] at h
      obtain ⟨length, hlength, h⟩ := bind_eq_ok.mp h
      obtain ⟨after, hafter, h⟩ := bind_eq_ok.mp h
      cases h
      have turn : ¬ MentionsField (turnLine degrees []) :=
        not_mentionsField_turnLine degrees (by simp) (by simp)
      have travel : ¬ MentionsField (travelLine "drivePID".toList length degrees) :=
        not_mentionsField_travelLine (by decide) (isAmount_of_amount hlength) degrees
      exact List.forall_mem_cons.mpr ⟨turn, List.forall_mem_cons.mpr ⟨travel, arrival hafter⟩⟩
    | strafe =>
      rw [hm] at h
      obtain ⟨length, hlength, h⟩ := bind_eq_ok.mp h
      obtain ⟨after, hafter, h⟩ := bind_eq_ok.mp h
      cases h
      have travel : ¬ MentionsField (travelLine "strafePID".toList length degrees) :=
        not_mentionsField_travelLine (by decide) (isAmount_of_amount hlength) degrees
      exact List.forall_mem_cons.mpr ⟨travel, arrival hafter⟩
    | arc own =>
      rw [hm] at h
      obtain ⟨control, -, h⟩ := exists_controlOf h hm
      obtain ⟨length, speed, inner, final, hlength, hspeed, -, hi, rfl⟩ := exists_printedArc h
      exact not_mentionsField_printedArc (isAmount_of_amount hlength) (isAmount_of_amount hspeed) hi
        final

/-- The lines of waypoints have a word of the field dialect just if the call of an action with a
marker has. -/
theorem mentionsField_waypointLines {l : Layout ν} {samples : Outcome Int} {start : Point ν}
    {ws : List (Waypoint ν)} {lines : List (List Char)}
    (h : waypointLines l samples start ws = .ok lines) :
    (∃ line ∈ lines, MentionsField line) ↔ ∃ a m, .action a ∈ ws ∧ l.marker? a.markerId = some m ∧
      (MentionsField m.name.toList ∨ MentionsField m.args.toList) := by
  induction ws generalizing start lines with
  | nil =>
    cases h
    simp
  | cons w ws ih =>
    cases w with
    | move m =>
      obtain ⟨first, hfirst, h⟩ := bind_eq_ok.mp h
      obtain ⟨more, hmore, h⟩ := bind_eq_ok.mp h
      cases h
      have quiet : ¬ ∃ line ∈ first, MentionsField line := by
        rintro ⟨line, hline, mentions⟩
        exact not_mentionsField_moveLines hfirst line hline mentions
      simp only [List.mem_append, or_and_right, exists_or, quiet, false_or, ih hmore, List.mem_cons,
        reduceCtorEq]
    | action a =>
      obtain ⟨more, hmore, h⟩ := bind_eq_ok.mp h
      simp only [List.mem_cons, Waypoint.action.injEq]
      split at h
      next lost =>
        cases h
        rw [ih hmore]
        refine exists_congr fun b => exists_congr fun m => ?_
        constructor
        · exact fun ⟨hb, found⟩ => ⟨.inr hb, found⟩
        · rintro ⟨rfl | hb, found⟩
          · cases lost.symm.trans found.1
          · exact ⟨hb, found⟩
      next m found =>
        cases h
        simp only [List.mem_append, or_and_right, exists_or, ih hmore, mentionsField_actionLines]
        refine or_congr ?_ Iff.rfl
        constructor
        · exact fun mentions => ⟨a, m, rfl, found, mentions⟩
        · rintro ⟨_, m', rfl, found', mentions⟩
          obtain rfl := Option.some.inj (found.symm.trans found')
          exact mentions

theorem contains_turn_opening (lines : List (List Char)) :
    contains "turnPID".toList (unlines (opening ++ lines)) = true := by
  have opens : contains "turnPID".toList (unlines opening) = true := by decide
  rw [contains_iff_isInfix] at opens ⊢
  rw [unlines_append]
  exact opens.trans (List.prefix_append _ _).isInfix

theorem not_mentionsField_opening : ¬ ∃ line ∈ opening, MentionsField line := by decide +kernel

end Robot

/-! ## Generated programs -/

variable [Add ν] [Sub ν] [Mul ν] [Div ν] [Neg ν] [Scalar ν]

/-- A generated program is recognized as what it is. In the field mode it is a field-oriented
program; in any other mode it is taken for one just if an action that has a marker has a name or
arguments with a word of the field dialect, and else for a robot-oriented program. -/
theorem sniff_generate (cfg : Json) (s : Session ν) (text : String)
    (generated : generate cfg s = .ok text) :
    ∃ d, sniff text.toList = .ok d ∧
      if s.mode.isField then d = .field
      else (d = .field ↔ ∃ a m, .action a ∈ s.waypoints ∧ s.marker? a.markerId = some m ∧
        (MentionsField m.name.toList ∨ MentionsField m.args.toList)) := by
  obtain ⟨samples, -, generated⟩ := bind_eq_ok.mp generated
  obtain ⟨printed, encoded, generated⟩ := bind_eq_ok.mp generated
  cases generated
  rw [String.toList_ofList]
  rw [encode] at encoded
  split at encoded
  next field =>
    refine ⟨.field, sniff_of_mentionsField (mentionsField_print encoded), ?_⟩
    rw [if_pos field]
  next other =>
    simp only [if_neg other]
    obtain ⟨count, -, encoded⟩ := bind_eq_ok.mp encoded
    obtain ⟨lines, hlines, encoded⟩ := bind_eq_ok.mp encoded
    cases encoded
    have mentions : MentionsField (unlines (Robot.opening ++ lines)) ↔ ∃ a m,
        .action a ∈ s.waypoints ∧ s.marker? a.markerId = some m ∧
          (MentionsField m.name.toList ∨ MentionsField m.args.toList) := by
      rw [mentionsField_unlines, ← Robot.mentionsField_waypointLines hlines]
      simp only [List.mem_append, or_and_right, exists_or, Robot.not_mentionsField_opening, false_or]
    rw [← mentions]
    by_cases field : MentionsField (unlines (Robot.opening ++ lines))
    · exact ⟨.field, sniff_of_mentionsField field, iff_of_true rfl field⟩
    · exact ⟨.robot, sniff_of_turn field (Robot.contains_turn_opening lines),
        iff_of_false (by decide) field⟩

/-- A path whose action is handed a pose. -/
def handsOverPose : Session Float :=
  { start := ⟨0.0, 0.0, 0.0⟩
    waypoints := [.move ⟨.drive, ⟨1.0, 0.0, 0.0⟩, 0.8⟩, .action ⟨⟨1.0, 0.0, 0.0⟩, 1⟩]
    markers := [⟨1, 1.0, 0.0, "aim", "new Pose2d(0, 0)"⟩]
    selection := none
    mode := .dialect .robot
    nextMarkerId := 2
    past := .empty }

theorem sniff_generate_handsOverPose :
    letI := Robot.axes.scalar
    ∃ text, generate (.obj []) handsOverPose = .ok text ∧ sniff text.toList = .ok .field := by
  let := Robot.axes.scalar
  obtain ⟨text, generated⟩ : ∃ text, generate (.obj []) handsOverPose = .ok text :=
    exists_of_isSome_toOption (by decide +kernel)
  obtain ⟨d, sniffed, recognized⟩ := sniff_generate (.obj []) handsOverPose text generated
  have field : d = .field :=
    recognized.mpr ⟨_, _, List.mem_cons_of_mem _ (List.mem_singleton_self _), rfl, by decide⟩
  rw [field] at sniffed
  exact ⟨text, generated, sniffed⟩

end PathStudio.Program
