import PathStudio.Proofs.Program.Robot.Arrival
import PathStudio.Proofs.Program.Robot.Recode

/-!
# Headings of straight moves

A robot-oriented program turns the robot behind a straight move whose heading is not the direction of
travel. The reader passes over turns, so the heading does not come back: a straight move is read with
the whole degrees of its line, which are those of its direction. In exact arithmetic it comes back
about as far off as it was off the direction of travel.
-/

namespace PathStudio

section General

open Scalar

variable {ν : Type}

namespace Layout

/-- The point before a leg, with its move. -/
def Leg.step (leg : Leg ν) : Point ν × Entry ν := (leg.before.point, .move leg.move)

/-- The track of a path without actions goes through its legs. -/
theorem trackFrom_eq_map_step (l : Layout ν) (before : Pose ν) (index : Nat) {ws : List (Waypoint ν)}
    (moves : ∀ a, .action a ∉ ws) :
    l.trackFrom before.point ws = (legsFrom before index ws).map Leg.step := by
  induction ws generalizing before index with
  | nil => rfl
  | cons w ws ih =>
    cases w with
    | move m =>
      have rest := ih m.pose (index + 1) fun a h => moves a (.tail _ h)
      exact congrArg ((before.point, .move m) :: ·) rest
    | action a => exact absurd List.mem_cons_self (moves a)

end Layout

theorem Text.isInfix_unlines {l : List Char} {ls : List (List Char)} (h : l ∈ ls) :
    l <:+: unlines ls := by
  obtain ⟨before, after, rfl⟩ := List.append_of_mem h
  rw [unlines_append, unlines_cons]
  exact ⟨unlines before, '\n' :: unlines after, by simp⟩

namespace Program.Robot

open Text Layout

variable [Add ν] [Sub ν] [Mul ν] [Div ν] [Neg ν] [Scalar ν]

/-- A waypoint goes the way of a leg, with the leg's rounded direction of travel for its heading. -/
def GoesAlong (leg : Leg ν) (w : Waypoint ν) : Prop :=
  ∃ (m : Move ν) (degrees : Int), w = .move m ∧ m.kind = leg.move.kind ∧
    roundHalfUp (Point.bearing leg.before.point leg.move.point) = .ok degrees ∧
    m.pose.h = toRadians (-(WrittenNumber.whole degrees).value)

/-- A leg behind which a program turns the robot: its heading is none that needs no turn, and it is
off the direction of travel. -/
def TurnsBehind (leg : Leg ν) : Prop :=
  lt headingTolerance (abs leg.move.pose.h) = true ∧
    ∃ off, normalizeDegrees (toDegrees (-leg.move.pose.h) -
      Point.bearing leg.before.point leg.move.point) = .ok off ∧ lt turnTolerance (abs off) = true

variable {carries : Waypoint ν → String → String → Prop}

/-- Straight moves are retraced along their legs. -/
theorem forall₂_goesAlong {legs : List (Leg ν)} {c : Point ν} {ws : List (Waypoint ν)}
    (straight : ∀ leg ∈ legs, leg.move.kind ≠ .arc)
    (h : RetracesAll carries c (legs.map Leg.step) ws) : List.Forall₂ GoesAlong legs ws := by
  induction legs generalizing c ws with
  | nil =>
    cases h
    exact .nil
  | cons leg legs ih =>
    obtain ⟨kind, rest⟩ := List.forall_mem_cons.mp straight
    cases h with
    | cons first others =>
      refine .cons ?_ (ih rest others)
      cases first with
      | @straight _ _ _ length degrees L B _ _ bearing _ read _ =>
        have value : (WrittenNumber.whole degrees).value = B :=
          Option.some.inj ((spells_integerText degrees).numeral?.symm.trans read)
        refine ⟨_, degrees, rfl, Motion.kind_plain _, bearing, ?_⟩
        rw [value]
      | arc bends =>
        rw [controlOf_eq_none kind] at bends
        cases bends

/-- A path of straight moves that go somewhere is read back along its legs. -/
theorem exists_goesAlong {l : Layout ν} {samples : Outcome Int} (ahead : Faces ν 0)
    (nav : ∀ q m, (q, .move m) ∈ l.track → Navigable q m)
    (straight : ∀ w ∈ l.waypoints, ∃ m, w = .move m ∧ m.kind ≠ .arc)
    (far : ∀ leg ∈ l.legs, lt (Point.distance leg.before.point leg.move.point) negligible = false)
    {text : List Char} (printed : print l samples = .ok text) (prior : Session ν) :
    ∃ decoded, read text prior = .ok decoded ∧ List.Forall₂ GoesAlong l.legs decoded.waypoints := by
  have moves : ∀ a, .action a ∉ l.waypoints := by
    intro a ha
    obtain ⟨m, same, -⟩ := straight _ ha
    cases same
  have kinds : ∀ leg ∈ l.legs, leg.move.kind ≠ .arc := by
    intro leg hleg
    obtain ⟨m, same, kind⟩ := straight _ (List.mem_of_getElem? (place_of_mem_legs hleg).1)
    cases same
    exact kind
  have track : l.track = l.legs.map Leg.step := l.trackFrom_eq_map_step l.start 0 moves
  have shown : l.track.filter isShown = l.legs.map Leg.step := by
    rw [track]
    apply List.filter_eq_self.mpr
    intro step hstep
    obtain ⟨leg, hleg, rfl⟩ := List.mem_map.mp hstep
    rw [isShown, Leg.step, lacksLength_of_not_arc (kinds leg hleg), goesNowhere, far leg hleg]
    rfl
  have calls : l.CallsCarry Callable := by
    intro name args called
    rw [← l.map_snd_track, track] at called
    simp [Leg.step] at called
  obtain ⟨decoded, run, retraced⟩ := exists_retracedAs ahead nav calls printed prior
  exact ⟨decoded, run, forall₂_goesAlong kinds (shown ▸ retraced.waypoints)⟩

theorem arrivalLines_of_turnsBehind {leg : Leg ν} (turns : TurnsBehind leg) {lines : List (List Char)}
    (h : arrivalLines leg.move (Point.bearing leg.before.point leg.move.point) = .ok lines) :
    ∃ degrees, roundHalfUp (toDegrees (-leg.move.pose.h)) = .ok degrees ∧
      lines = [turnLine degrees " // waypoint heading".toList] := by
  obtain ⟨beyond, off, hoff, away⟩ := turns
  rw [arrivalLines, if_pos beyond] at h
  simp only [hoff, ok_bind, away, if_true] at h
  obtain ⟨degrees, rounded, h⟩ := bind_eq_ok.mp h
  exact ⟨degrees, rounded, (return_eq_ok.mp h).symm⟩

/-- Among the lines of a straight leg is the turn to the rounded heading. -/
theorem turn_mem_moveLines {leg : Leg ν} {samples : Outcome Int} {block : List (List Char)}
    (straight : leg.move.kind ≠ .arc)
    (far : lt (Point.distance leg.before.point leg.move.point) negligible = false)
    (turns : TurnsBehind leg) (h : moveLines samples leg.before.point leg.move = .ok block) :
    ∃ degrees, roundHalfUp (toDegrees (-leg.move.pose.h)) = .ok degrees ∧
      turnLine degrees " // waypoint heading".toList ∈ block := by
  rw [moveLines] at h
  simp only [far, Bool.false_eq_true, if_false] at h
  obtain ⟨_, -, h⟩ := bind_eq_ok.mp h
  cases motion : leg.move.motion with
  | drive | strafe =>
    rw [motion] at h
    obtain ⟨length, -, h⟩ := bind_eq_ok.mp h
    obtain ⟨lines, hlines, h⟩ := bind_eq_ok.mp h
    obtain ⟨degrees, rounded, rfl⟩ := arrivalLines_of_turnsBehind turns hlines
    obtain rfl := return_eq_ok.mp h
    exact ⟨degrees, rounded, by simp⟩
  | arc own => exact absurd (congrArg Motion.kind motion) straight

/-- A program turns the robot behind a straight leg to the rounded heading. -/
theorem turn_isInfix_print {l : Layout ν} {samples : Outcome Int} {text : List Char}
    (printed : print l samples = .ok text) {leg : Leg ν} (hleg : leg ∈ l.legs)
    (straight : leg.move.kind ≠ .arc)
    (far : lt (Point.distance leg.before.point leg.move.point) negligible = false)
    (turns : TurnsBehind leg) :
    ∃ degrees, roundHalfUp (toDegrees (-leg.move.pose.h)) = .ok degrees ∧
      turnLine degrees " // waypoint heading".toList <:+: text := by
  obtain ⟨here, entered⟩ := place_of_mem_legs hleg
  obtain ⟨earlier, block, later, -, hblock, rfl⟩ := exists_moveLines_of_print printed here entered
  obtain ⟨degrees, rounded, inBlock⟩ := turn_mem_moveLines straight far turns hblock
  have inLines := List.mem_append_right opening
    (List.mem_append_right earlier (List.mem_append_left later inBlock))
  exact ⟨degrees, rounded, isInfix_unlines inLines⟩

end Program.Robot

end General

namespace Program.Robot

open Layout Text

/-! ## Doubles -/

section Doubles

open Scalar Double

/-- A session of drives and strafes that go somewhere, printed as a robot-oriented program, is read
back, on top of any earlier session, with the rounded direction of each move for its heading. The
headings that the moves had are not in it, although the program turns the robot to each of them that
is off the direction of travel. -/
theorem read_print_headings (trig : Trigonometry) (lawful : trig.Lawful) :
    letI := trig.scalar
    ∀ (s prior : Session Float) (samples : Outcome Int) (text : List Char),
      FiniteNumbers s.toLayout → (∀ w ∈ s.waypoints, ∃ m, w = .move m ∧ m.kind ≠ .arc) →
      (∀ leg ∈ s.legs, lt (Point.distance leg.before.point leg.move.point) negligible = false) →
      print s.toLayout samples = .ok text →
        (∃ decoded, read text prior = .ok decoded ∧
          List.Forall₂ GoesAlong s.legs decoded.waypoints) ∧
        ∀ leg ∈ s.legs, TurnsBehind leg → ∃ degrees,
          roundHalfUp (toDegrees (-leg.move.pose.h)) = .ok degrees ∧
            turnLine degrees " // waypoint heading".toList <:+: text := by
  intro s prior samples text finite straight far printed
  let := trig.scalar
  refine ⟨exists_goesAlong (faces_of_natAbs_le trig (by decide))
    (navigable_of_finiteNumbers lawful finite) straight far printed prior, ?_⟩
  intro leg hleg turns
  obtain ⟨m, same, kind⟩ := straight _ (List.mem_of_getElem? (place_of_mem_legs hleg).1)
  cases same
  exact turn_isInfix_print printed hleg kind (far leg hleg) turns

/-- A drive of a metre along the first axis with a heading a quarter turn off it. -/
def quarterTurn : Leg Float :=
  ⟨⟨0.0, 0.0, 0.0⟩, ⟨.drive, ⟨1.0, 0.0, 1.5707963267948966⟩, 0.8⟩, 0⟩

/-- A session with this drive alone. -/
def quarterTurned : Session Float := single quarterTurn.before quarterTurn.move

theorem finiteNumbers_quarterTurned : FiniteNumbers quarterTurned.toLayout :=
  finiteNumbers_single (by decide) (by decide) (by simp [quarterTurn])

theorem turnsBehind_quarterTurn :
    letI := axes.scalar
    TurnsBehind quarterTurn := by
  let := axes.scalar
  have away : (normalizeDegrees (toDegrees (-quarterTurn.move.pose.h) -
      Point.bearing quarterTurn.before.point quarterTurn.move.point)).map
        (fun off : Float => lt turnTolerance (Scalar.abs off)) = .ok true := by
    decide +kernel
  obtain ⟨off, hoff, away⟩ := map_eq_ok.mp away
  exact ⟨by decide +kernel, off, hoff, away⟩

/-- It comes back without the heading, and the turn to the heading is in its program. -/
theorem read_print_headings_quarterTurned :
    letI := axes.scalar
    ∃ text, print quarterTurned.toLayout (.ok defaultSamples) = .ok text ∧
      (∃ decoded, read text quarterTurned = .ok decoded ∧
        List.Forall₂ GoesAlong quarterTurned.legs decoded.waypoints) ∧
      turnLine (-90) " // waypoint heading".toList <:+: text := by
  let := axes.scalar
  obtain ⟨text, printed⟩ : ∃ text, print quarterTurned.toLayout (.ok defaultSamples) = .ok text :=
    exists_of_isSome_toOption (by decide +kernel)
  have straight : ∀ w ∈ quarterTurned.waypoints, ∃ m, w = .move m ∧ m.kind ≠ .arc := by
    intro w hw
    exact ⟨_, List.mem_singleton.mp hw, by decide⟩
  have far : ∀ leg ∈ quarterTurned.legs,
      lt (Point.distance leg.before.point leg.move.point) negligible = false := by
    intro leg hleg
    obtain rfl := List.mem_singleton.mp hleg
    decide +kernel
  have rounded : roundHalfUp (toDegrees (-quarterTurn.move.pose.h)) = .ok (-90) := by
    decide +kernel
  obtain ⟨decoded, turned⟩ := read_print_headings axes lawful_axes quarterTurned quarterTurned
    (.ok defaultSamples) text finiteNumbers_quarterTurned straight far printed
  obtain ⟨degrees, same, shown⟩ :=
    turned quarterTurn (List.mem_singleton_self quarterTurn) turnsBehind_quarterTurn
  obtain rfl : degrees = -90 := Except.ok.inj (same.symm.trans rounded)
  exact ⟨text, printed, decoded, shown⟩

/-- How far the headings of a session, in degrees, are off those that come back from its program. -/
def headingErrors (trig : Trigonometry) (s : Session Float) : Outcome (List Float) :=
  letI := trig.scalar
  do
    let text ← print s.toLayout (.ok defaultSamples)
    let decoded ← read text s
    (s.moves.zip decoded.moves).mapM fun (m, m') =>
      normalizeDegrees (toDegrees (m'.pose.h - m.pose.h))

/-- The heading of a drive of a metre comes back a quarter turn off. -/
theorem heading_of_quarterTurned_lost :
    letI := axes.scalar
    FiniteNumbers quarterTurned.toLayout ∧
      quarterTurned.legs.map (fun leg => (leg.move.kind,
        decide (0.01 ≤ Point.distance leg.before.point leg.move.point),
        decide (0.0001 < leg.move.pose.h.abs))) = [(.drive, true, true)] ∧
      (headingErrors axes quarterTurned).map (·.map fun off => decide (1.0 < off.abs)) = .ok [true] :=
  ⟨finiteNumbers_quarterTurned, by decide +kernel, by decide +kernel⟩

end Doubles

/-! ## Exact arithmetic -/

section Exact

open PathStudio.Exact

end Exact

end Program.Robot

end PathStudio
