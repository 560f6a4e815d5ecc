import PathStudio.Proofs.Program.Robot.Double
import PathStudio.Proofs.Scalar.NotANumber
import PathStudio.Proofs.Simulation.Plan

/-!
# Programs and plans agree

A robot-oriented program and the plan of a path are made by two walks over its
waypoints. Side by side they keep the same place: the program has one command for
each segment of the plan that goes anywhere, in the order of the segments, and
the numbers in it are those of the segment. The calls of actions stand between
the commands, and their text is not under the program's control.
-/

namespace PathStudio

namespace Layout

variable {ν : Type}

/-- Whether some action of a path runs a marker. -/
def Runs (l : Layout ν) (m : Marker ν) : Prop :=
  ∃ a, .action a ∈ l.waypoints ∧ l.marker? a.markerId = some m

end Layout

namespace Program.Robot

open Text Scalar Simulation

/-! ## Commands of a text -/

/-- Whether a line begins with the command of a move. -/
def beginsCommand (line : List Char) : Bool :=
  ["drivePID(".toList, "strafePID(".toList, "arc(".toList].any (startsWith · line)

/-- The lines of a text that begin with the command of a move. -/
def commandLines (text : List Char) : List (List Char) := (splitLines text).filter beginsCommand

theorem commandLines_unlines (ls : List (List Char)) :
    commandLines (unlines ls) = (ls.flatMap splitLines).filter beginsCommand := by
  rw [commandLines, splitLines_unlines, List.filter_append]
  exact List.append_nil _

@[simp] theorem beginsCommand_turnLine (degrees : Int) (comment : List Char) :
    beginsCommand (turnLine degrees comment) = false := by
  rw [turnLine_eq]
  rfl

@[simp] theorem beginsCommand_sampleLine (t : List Char) (degrees : Int) :
    beginsCommand (sampleLine t degrees) = false := by
  rw [sampleLine_eq]
  rfl

/-- The lines that an action contributes to a text begin with no command of a move. -/
def NamesNoCommand {ν : Type} (m : Marker ν) : Prop :=
  ∀ line ∈ (actionLines m).flatMap splitLines, beginsCommand line = false

instance {ν : Type} (m : Marker ν) : Decidable (NamesNoCommand m) :=
  inferInstanceAs (Decidable (∀ line ∈ (actionLines m).flatMap splitLines, beginsCommand line = false))

/-! ## Commands for segments -/

/-- No line, or a single turn with the given comment. -/
def OnlyTurn (comment : List Char) (lines : List (List Char)) : Prop :=
  lines = [] ∨ ∃ degrees, lines = [turnLine degrees comment]

/-- The comment on a turn where the robot stays. -/
def snapComment : List Char := " // snap to waypoint heading".toList

/-- The comment on a turn after a straight move. -/
def arrivalComment : List Char := " // waypoint heading".toList

variable {ν : Type} [Add ν] [Sub ν] [Mul ν] [Div ν] [Neg ν] [Scalar ν]

/-- The command of a segment, with the lines that belong to it before and after: a drive turns to
its own direction first, and an arc goes on with its heading samples, of which the last one is the
heading at its end. -/
inductive PrintedAs (g : Segment ν) :
    List (List Char) → List Char → List (List Char) → Prop where
  | drive {length : List Char} {degrees : Int} {after : List (List Char)} :
    g.kind = .drive → amount g.length 2 = .ok length → roundHalfUp g.bearing = .ok degrees →
    OnlyTurn arrivalComment after →
    PrintedAs g [turnLine degrees []] (travelLine "drivePID".toList length degrees) after
  | strafe {length : List Char} {degrees : Int} {after : List (List Char)} :
    g.kind = .strafe → amount g.length 2 = .ok length → roundHalfUp g.bearing = .ok degrees →
    OnlyTurn arrivalComment after →
    PrintedAs g [] (travelLine "strafePID".toList length degrees) after
  | arc {control : Point ν} {length speed : List Char} {inner : List (List Char)} {final : Int} :
    g.kind = .arc → g.control = some control →
    amount (Bezier.length g.a control g.b Bezier.defaultSteps) 2 = .ok length → IsAmount speed →
    (∀ line ∈ inner, IsSampleLine line) → roundHalfUp g.endHeading = .ok final →
    PrintedAs g [] (arcLine length speed) (sampleLine "0.0".toList 0 :: inner
      ++ [sampleLine "1.0".toList final, "        );".toList])

/-- Whether a segment is long enough to have a command. -/
def isLong (g : Segment ν) : Bool := le negligible g.length

/-- Lines that are printed for segments, one segment after the other, and for the calls of a path
between them. -/
inductive Renders (l : Layout ν) : List (List Char) → List (Segment ν) → Prop where
  | nil : Renders l [] []
  | call {m : Marker ν} {lines : List (List Char)} {gs : List (Segment ν)} :
    l.Runs m → Renders l lines gs → Renders l (actionLines m ++ lines) gs
  | short {g : Segment ν} {turn lines : List (List Char)} {gs : List (Segment ν)} :
    isLong g = false → OnlyTurn snapComment turn → Renders l lines gs →
    Renders l (turn ++ lines) (g :: gs)
  | long {g : Segment ν} {before after lines : List (List Char)} {line : List Char}
      {gs : List (Segment ν)} :
    isLong g = true → PrintedAs g before line after → Renders l lines gs →
    Renders l (before ++ line :: (after ++ lines)) (g :: gs)

/-! ## The lines of a move and its segment -/

theorem onlyTurn_stillLines {m : Move ν} {lines : List (List Char)} (h : stillLines m = .ok lines) :
    OnlyTurn snapComment lines := by
  rw [stillLines] at h
  split at h
  · obtain ⟨degrees, -, h⟩ := bind_eq_ok.mp h
    cases h
    exact .inr ⟨degrees, rfl⟩
  · cases h
    exact .inl rfl

theorem onlyTurn_arrivalLines {m : Move ν} {bearing : ν} {lines : List (List Char)}
    (h : arrivalLines m bearing = .ok lines) : OnlyTurn arrivalComment lines := by
  rw [arrivalLines] at h
  split at h
  · obtain ⟨away, -, h⟩ := bind_eq_ok.mp h
    split at h
    · obtain ⟨degrees, -, h⟩ := bind_eq_ok.mp h
      cases h
      exact .inr ⟨degrees, rfl⟩
    · cases h
      exact .inl rfl
  · cases h
    exact .inl rfl

/-- What comparing a length with the tolerance answers, in either order, where the direction along
that length can be rounded. -/
structure Comparable (ν : Type) [Add ν] [Sub ν] [Mul ν] [Div ν] [Neg ν] [Scalar ν] : Prop where
  short : ∀ x : ν, lt x negligible = true → le negligible x = false
  long : ∀ (p q : Point ν) (degrees : Int), roundHalfUp (Point.bearing p q) = .ok degrees →
    lt (Point.distance p q) negligible = false → le negligible (Point.distance p q) = true

/-- The control point of a segment is the one that its arc bends towards. -/
theorem control_of_segmentOf {leg : Layout.Leg ν} {g : Segment ν} (h : segmentOf leg = .ok g) :
    Layout.controlOf leg.move.motion leg.before.point leg.move.point = .ok g.control := by
  obtain ⟨control, hc, built⟩ := bind_eq_ok.mp h
  obtain rfl := return_eq_ok.mp built
  exact hc

/-- The lines of a move are those of its segment. -/
theorem rendered_moveLines (comparable : Comparable ν) {samples : Outcome Int} (leg : Layout.Leg ν)
    {lines : List (List Char)} (hl : moveLines samples leg.before.point leg.move = .ok lines)
    {g : Segment ν} (hg : segmentOf leg = .ok g) :
    (isLong g = false ∧ OnlyTurn snapComment lines) ∨
      (isLong g = true ∧ ∃ before line after, PrintedAs g before line after ∧
        lines = before ++ line :: after) := by
  have stands := standsFor_of_segmentOf hg
  have control := control_of_segmentOf hg
  have measured : g.length = Point.distance leg.before.point leg.move.point := by
    rw [stands.length, stands.a, stands.b]
  have directed : g.bearing = Point.bearing leg.before.point leg.move.point := by
    rw [stands.bearing, stands.a, stands.b]
  rw [moveLines] at hl
  simp only at hl
  split at hl
  next near =>
    refine .inl ⟨?_, onlyTurn_stillLines hl⟩
    rw [isLong, measured]
    exact comparable.short _ near
  next far =>
    rw [Bool.not_eq_true] at far
    obtain ⟨degrees, hdegrees, hl⟩ := bind_eq_ok.mp hl
    have long : isLong g = true := by
      rw [isLong, measured]
      exact comparable.long _ _ _ hdegrees far
    rw [← directed] at hdegrees
    refine .inr ⟨long, ?_⟩
    cases hm : leg.move.motion with
    | drive =>
      rw [hm] at hl
      obtain ⟨length, hlength, hl⟩ := bind_eq_ok.mp hl
      obtain ⟨after, hafter, hl⟩ := bind_eq_ok.mp hl
      cases hl
      rw [← measured] at hlength
      have kind : g.kind = .drive := stands.kind.trans (congrArg Motion.kind hm)
      exact ⟨_, _, after, .drive kind hlength hdegrees (onlyTurn_arrivalLines hafter), rfl⟩
    | strafe =>
      rw [hm] at hl
      obtain ⟨length, hlength, hl⟩ := bind_eq_ok.mp hl
      obtain ⟨after, hafter, hl⟩ := bind_eq_ok.mp hl
      cases hl
      rw [← measured] at hlength
      have kind : g.kind = .strafe := stands.kind.trans (congrArg Motion.kind hm)
      exact ⟨_, _, after, .strafe kind hlength hdegrees (onlyTurn_arrivalLines hafter), rfl⟩
    | arc own =>
      rw [hm] at hl
      obtain ⟨bend, hbend, hl⟩ := exists_controlOf hl hm
      obtain ⟨length, speed, inner, final, hlength, hspeed, hfinal, hi, rfl⟩ := exists_printedArc hl
      have kind : g.kind = .arc := stands.kind.trans (congrArg Motion.kind hm)
      have bent : g.control = some bend := Except.ok.inj (control.symm.trans hbend)
      rw [← stands.a, ← stands.b] at hlength
      have ending : roundHalfUp g.endHeading = .ok final := by rw [stands.endHeading]; exact hfinal
      refine ⟨_, _, _, .arc kind bent hlength (isAmount_of_amount hspeed) hi ending, ?_⟩
      simp [printedArc]

/-- The lines of waypoints render the segments of their legs. -/
theorem renders_waypointLines (comparable : Comparable ν) {l : Layout ν} {samples : Outcome Int}
    {ws : List (Waypoint ν)} (sub : ws ⊆ l.waypoints) {before : Pose ν} {index : Nat}
    {lines : List (List Char)} (hl : waypointLines l samples before.point ws = .ok lines)
    {gs : List (Segment ν)} (hg : (Layout.legsFrom before index ws).mapM segmentOf = .ok gs) :
    Renders l lines gs := by
  induction ws generalizing before index lines gs with
  | nil =>
    cases hl
    cases hg
    exact .nil
  | cons w ws ih =>
    obtain ⟨here, later⟩ := List.cons_subset.mp sub
    cases w with
    | action a =>
      obtain ⟨more, hmore, hl⟩ := bind_eq_ok.mp hl
      have rest := ih later hmore hg
      split at hl
      next =>
        cases hl
        exact rest
      next m found =>
        cases hl
        exact .call ⟨a, here, found⟩ rest
    | move m =>
      obtain ⟨first, hfirst, hl⟩ := bind_eq_ok.mp hl
      obtain ⟨more, hmore, hl⟩ := bind_eq_ok.mp hl
      cases hl
      obtain ⟨g, gs, hleg, hrest, rfl⟩ := mapM_cons_eq_ok.mp hg
      have rest : Renders l more gs := ih later hmore hrest
      obtain ⟨short, turn⟩ | ⟨long, before, line, after, printed, rfl⟩ :=
        rendered_moveLines comparable ⟨before, m, index⟩ hfirst hleg
      · exact .short short turn rest
      · rw [List.append_assoc, List.cons_append]
        exact .long long printed rest

/-! ## The commands among rendered lines -/

/-- The pieces of lines that begin with a command. -/
def commandsOf (lines : List (List Char)) : List (List Char) :=
  (lines.flatMap splitLines).filter beginsCommand

@[simp] theorem commandsOf_append (a b : List (List Char)) :
    commandsOf (a ++ b) = commandsOf a ++ commandsOf b := by
  simp [commandsOf]

theorem commandsOf_cons (line : List Char) (b : List (List Char)) :
    commandsOf (line :: b) = commandsOf [line] ++ commandsOf b :=
  commandsOf_append [line] b

theorem commandsOf_eq_nil {lines : List (List Char)}
    (h : ∀ line ∈ lines, '\n' ∉ line ∧ beginsCommand line = false) : commandsOf lines = [] := by
  rw [commandsOf, flatMap_splitLines fun line hl => (h line hl).1, List.filter_eq_nil_iff]
  exact fun line hl => Bool.eq_false_iff.mp (h line hl).2

theorem commandsOf_singleton {line : List Char} (oneLine : '\n' ∉ line)
    (h : beginsCommand line = true) : commandsOf [line] = [line] := by
  rw [commandsOf, flatMap_splitLines (by simpa using oneLine), List.filter_cons_of_pos h]
  rfl

theorem commandsOf_turnLine (degrees : Int) {comment : List Char} (oneLine : '\n' ∉ comment) :
    commandsOf [turnLine degrees comment] = [] := by
  have inDegrees : '\n' ∉ integerText degrees := (isAmount_integerText degrees).not_mem (by decide)
  apply commandsOf_eq_nil
  intro line hl
  rw [List.mem_singleton.mp hl]
  refine ⟨?_, beginsCommand_turnLine degrees comment⟩
  simp [turnLine_eq, inDegrees, oneLine]

theorem OnlyTurn.commandsOf {comment : List Char} {lines : List (List Char)}
    (h : OnlyTurn comment lines) (oneLine : '\n' ∉ comment) : commandsOf lines = [] := by
  obtain rfl | ⟨degrees, rfl⟩ := h
  · rfl
  · exact commandsOf_turnLine degrees oneLine

/-- A command is the only one among its own line and lines that begin with none. -/
theorem commandsOf_cons_of_quiet {line : List Char} (oneLine : '\n' ∉ line)
    (h : beginsCommand line = true) {after : List (List Char)} (quiet : commandsOf after = []) :
    commandsOf (line :: after) = [line] := by
  rw [commandsOf_cons, commandsOf_singleton oneLine h, quiet]
  rfl

theorem commandsOf_sampleLines {inner : List (List Char)} (hi : ∀ line ∈ inner, IsSampleLine line)
    (final : Int) : commandsOf (sampleLine "0.0".toList 0 :: inner
      ++ [sampleLine "1.0".toList final, "        );".toList]) = [] := by
  apply commandsOf_eq_nil
  have samples : ∀ line ∈ sampleLine "0.0".toList 0 :: inner ++ [sampleLine "1.0".toList final],
      '\n' ∉ line ∧ beginsCommand line = false := by
    intro line hl
    have sample := isSampleLine_of_mem hi final line hl
    refine ⟨sample.oneLine, ?_⟩
    obtain ⟨t, degrees, ht, rfl⟩ := sample
    exact beginsCommand_sampleLine t degrees
  have closing : '\n' ∉ "        );".toList ∧ beginsCommand "        );".toList = false := by decide
  intro line hl
  have split : line ∈ sampleLine "0.0".toList 0 :: inner ++ [sampleLine "1.0".toList final] ∨
      line = "        );".toList := by
    simpa [or_assoc] using hl
  obtain inside | rfl := split
  · exact samples line inside
  · exact closing

/-- What is printed for a segment has the one command of the segment. -/
theorem PrintedAs.commandsOf {g : Segment ν} {before after : List (List Char)} {line : List Char}
    (h : PrintedAs g before line after) : commandsOf (before ++ line :: after) = [line] := by
  have travel {command length : List Char} {degrees : Int} (oneLine : '\n' ∉ command)
      (hl : amount g.length 2 = .ok length) : '\n' ∉ travelLine command length degrees := by
    rw [travelLine_eq]
    exact not_mem_pairText (isAmount_of_amount hl) (isAmount_integerText degrees) oneLine (by decide)
  cases h with
  | @drive length degrees after kind hl hd turn =>
    have begins : beginsCommand (travelLine "drivePID".toList length degrees) = true := by
      rw [travelLine_eq]
      rfl
    rw [commandsOf_append, commandsOf_turnLine degrees (by decide)]
    exact commandsOf_cons_of_quiet (travel (by decide) hl) begins (turn.commandsOf (by decide))
  | @strafe length degrees after kind hl hd turn =>
    have begins : beginsCommand (travelLine "strafePID".toList length degrees) = true := by
      rw [travelLine_eq]
      rfl
    exact commandsOf_cons_of_quiet (travel (by decide) hl) begins (turn.commandsOf (by decide))
  | @arc control length speed inner final kind hc hl hs hi hf =>
    have oneLine : '\n' ∉ arcLine length speed := by
      rw [arcLine_eq]
      exact not_mem_pairText (isAmount_of_amount hl) hs (by decide) (by decide)
    exact commandsOf_cons_of_quiet oneLine rfl (commandsOf_sampleLines hi final)

/-- If no action names a command, the commands among rendered lines are those of the long
segments. -/
theorem Renders.commandsOf {l : Layout ν} (quiet : ∀ m, l.Runs m → NamesNoCommand m)
    {lines : List (List Char)} {gs : List (Segment ν)} (h : Renders l lines gs) :
    List.Forall₂ (fun line g => ∃ before after, PrintedAs g before line after) (commandsOf lines)
      (gs.filter isLong) := by
  induction h with
  | nil => exact .nil
  | @call m lines gs runs rest ih =>
    have none : Robot.commandsOf (actionLines m) = [] :=
      List.filter_eq_nil_iff.mpr fun line hl => Bool.eq_false_iff.mp (quiet m runs line hl)
    rw [commandsOf_append, none, List.nil_append]
    exact ih
  | @short g turn lines gs short onlyTurn rest ih =>
    rw [commandsOf_append, onlyTurn.commandsOf (by decide), List.nil_append,
      List.filter_cons_of_neg (Bool.eq_false_iff.mp short)]
    exact ih
  | @long g before after lines line gs long printed rest ih =>
    have parted : before ++ line :: (after ++ lines) = (before ++ line :: after) ++ lines := by simp
    rw [parted, commandsOf_append, printed.commandsOf, List.filter_cons_of_pos long]
    exact .cons ⟨before, after, printed⟩ ih

/-! ## The whole program -/

/-- A printed program renders the segments of the plan of its path, behind its opening lines. -/
theorem exists_renders (comparable : Comparable ν) {l : Layout ν} {samples : Outcome Int}
    {text : List Char} (printed : print l samples = .ok text) {speeds : Speeds ν} {mode : Mode}
    {p : Plan ν} (built : buildPlan speeds mode l = .ok p) :
    ∃ lines, text = unlines (opening ++ lines) ∧ Renders l lines p.segments := by
  obtain ⟨lines, hlines, h⟩ := bind_eq_ok.mp printed
  cases h
  obtain ⟨-, -, -, hs⟩ := segments_of_buildPlan built
  exact ⟨lines, rfl, renders_waypointLines comparable (List.Subset.refl _) hlines hs⟩

@[simp] theorem commandsOf_opening : commandsOf opening = [] := by decide +kernel

/-! ## Doubles -/

open Double

/-- Where a direction of doubles can be rounded, neither of its components is lost. -/
theorem not_lost_of_rounded {trig : Trigonometry} (keeps : trig.KeepsNaN) {dx dy : Float}
    {degrees : Int}
    (rounded : Double.floor (trig.atan2 dy dx * Double.ofInt 180 / Double.pi
      + Double.ofDecimal false 5 (-1)) = .ok degrees) : dy.isNaN = false ∧ dx.isNaN = false := by
  rw [← Bool.not_eq_true, ← Bool.not_eq_true, ← not_or]
  intro component
  have refused := floor_notANumber (ofFloat_add_notANumber (ofFloat_div_notANumber
    (ofFloat_mul_notANumber (ofFloat_of_isNaN (keeps dy dx component)) (Double.ofInt 180)) Double.pi)
    (Double.ofDecimal false 5 (-1)))
  cases rounded.symm.trans refused

/-- Where the direction of a vector of doubles can be rounded, its length is a number. -/
theorem ofFloat_hypot_of_rounded {trig : Trigonometry} (keeps : trig.KeepsNaN) {dx dy : Float}
    {degrees : Int}
    (rounded : Double.floor (trig.atan2 dy dx * Double.ofInt 180 / Double.pi
      + Double.ofDecimal false 5 (-1)) = .ok degrees) :
    Binary.ofFloat (Double.hypot dx dy) ≠ .notANumber := by
  intro lost
  obtain ⟨hy, hx⟩ := not_lost_of_rounded keeps rounded
  obtain lost | lost := notANumber_of_hypot lost
  · cases hx.symm.trans (isNaN_eq_true lost)
  · cases hy.symm.trans (isNaN_eq_true lost)

theorem comparable_of_keepsNaN {trig : Trigonometry} (keeps : trig.KeepsNaN) :
    @Comparable Float _ _ _ _ _ trig.scalar := by
  let := trig.scalar
  constructor
  · intro x below
    exact decide_eq_false (not_le_of_lt (of_decide_eq_true below))
  · intro p q degrees rounded far
    have tolerance : Binary.ofFloat (Double.ofDecimal false 1 (-6)) ≠ .notANumber := by decide +kernel
    exact decide_eq_true (le_of_not_lt (ofFloat_hypot_of_rounded keeps rounded) tolerance
      (of_decide_eq_false far))

/-- The program of a session and the plan of its path, where both are made, agree on every segment.
Behind its opening lines the program has the lines of the segments in their order, with the calls of
actions between them: a segment of negligible length has no command, and every other one has the
command of its kind with the numbers of the segment. These are all the commands that lines of the
program begin with, as long as no action names one. -/
theorem print_agrees_with_plan (trig : Trigonometry) (keeps : trig.KeepsNaN) :
    letI := trig.scalar
    ∀ (s : Session Float) (samples : Outcome Int) (speeds : Speeds Float) (text : List Char)
      (p : Plan Float), print s.toLayout samples = .ok text →
        buildPlan speeds s.mode s.toLayout = .ok p →
          (∃ lines, text = unlines (opening ++ lines) ∧ Renders s.toLayout lines p.segments) ∧
          ((∀ m, s.toLayout.Runs m → NamesNoCommand m) →
            List.Forall₂ (fun line g => ∃ before after, PrintedAs g before line after)
              (commandLines text) (p.segments.filter isLong)) := by
  let := trig.scalar
  intro s samples speeds text p printed built
  obtain ⟨lines, rfl, renders⟩ := exists_renders (comparable_of_keepsNaN keeps) printed built
  refine ⟨⟨lines, rfl, renders⟩, fun quiet => ?_⟩
  have commands : commandLines (unlines (opening ++ lines)) = commandsOf lines := by
    rw [commandLines_unlines]
    change commandsOf (opening ++ lines) = _
    rw [commandsOf_append, commandsOf_opening, List.nil_append]
  rw [commands]
  exact renders.commandsOf quiet

/-- The trigonometric functions along the axes, where a direction that is not a number stays so. -/
def compass : Trigonometry :=
  { axes with atan2 := fun y x => if y.isNaN || x.isNaN then 0.0 / 0.0 else axes.atan2 y x }

theorem keepsNaN_compass : compass.KeepsNaN := by
  intro y x h
  have lost : (y.isNaN || x.isNaN) = true := Bool.or_eq_true_iff.mpr h
  have direction : compass.atan2 y x = 0.0 / 0.0 := if_pos lost
  rw [direction]
  decide

theorem namesNoCommand_alongAxis : ∀ m, alongAxis.toLayout.Runs m → NamesNoCommand m := by
  rintro m ⟨a, -, found⟩
  have only : m = ⟨1, 0.0, 0.0, "intake", "1, true"⟩ :=
    List.mem_singleton.mp (List.mem_of_find?_eq_some found)
  rw [only]
  decide

theorem print_agrees_with_plan_along_axis :
    letI := compass.scalar
    ∃ text p, print alongAxis.toLayout (.ok defaultSamples) = .ok text ∧
      buildPlan ⟨.ok 1.0, .ok 1.0, .ok 90.0⟩ alongAxis.mode alongAxis.toLayout = .ok p ∧
      commandLines text = ["drivePID(1.00, 0);".toList, "arc(2.00, 0.50, t -> t".toList] ∧
      (∃ lines, text = unlines (opening ++ lines) ∧ Renders alongAxis.toLayout lines p.segments) ∧
      List.Forall₂ (fun line g => ∃ before after, PrintedAs g before line after)
        (commandLines text) (p.segments.filter isLong) := by
  let := compass.scalar
  have commands : (print alongAxis.toLayout (.ok defaultSamples)).map commandLines =
      .ok ["drivePID(1.00, 0);".toList, "arc(2.00, 0.50, t -> t".toList] := by decide +kernel
  obtain ⟨text, printed, commands⟩ := map_eq_ok.mp commands
  obtain ⟨p, built⟩ : ∃ p : Plan Float,
      buildPlan ⟨.ok 1.0, .ok 1.0, .ok 90.0⟩ alongAxis.mode alongAxis.toLayout = .ok p :=
    exists_of_isSome_toOption (by decide)
  obtain ⟨renders, agrees⟩ := print_agrees_with_plan compass keepsNaN_compass alongAxis _ _ text p
    printed built
  exact ⟨text, p, printed, built, commands, renders, agrees namesNoCommand_alongAxis⟩

/-- A path without moves, whose action calls a function by the name of a command. -/
def callsDrive : Session Float :=
  { start := ⟨0.0, 0.0, 0.0⟩
    waypoints := [.action ⟨⟨0.0, 0.0, 0.0⟩, 1⟩]
    markers := [⟨1, 0.0, 0.0, "drivePID", "1, 2"⟩]
    selection := none
    mode := .dialect .robot
    nextMarkerId := 2
    past := .empty }

/-- The call of an action may be a command that no segment of the plan stands for. -/
theorem not_every_command_has_segment :
    ¬ ∀ trig : Trigonometry, trig.KeepsNaN →
      letI := trig.scalar
      ∀ (s : Session Float) (samples : Outcome Int) (speeds : Speeds Float) (text : List Char)
        (p : Plan Float), s.mode = .dialect .robot → print s.toLayout samples = .ok text →
          buildPlan speeds s.mode s.toLayout = .ok p →
            List.Forall₂ (fun line g => ∃ before after, PrintedAs g before line after)
              (commandLines text) (p.segments.filter isLong) := by
  intro all
  let := compass.scalar
  have commands : (print callsDrive.toLayout (.ok defaultSamples)).map commandLines =
      .ok ["drivePID(1, 2);".toList] := by decide +kernel
  obtain ⟨text, printed, commands⟩ := map_eq_ok.mp commands
  obtain ⟨p, built⟩ : ∃ p : Plan Float,
      buildPlan ⟨.ok 1.0, .ok 1.0, .ok 90.0⟩ callsDrive.mode callsDrive.toLayout = .ok p :=
    exists_of_isSome_toOption (by decide)
  have agrees := all compass keepsNaN_compass callsDrive _ _ text p rfl printed built
  obtain ⟨-, -, -, segments⟩ := segments_of_buildPlan built
  have none : p.segments = [] := (Except.ok.inj segments).symm
  rw [commands, none] at agrees
  cases agrees

end Program.Robot

end PathStudio
