import PathStudio.Proofs.Geometry.Arrival
import PathStudio.Proofs.Program.Amount
import PathStudio.Proofs.Program.Robot.RoundTrip
import PathStudio.Proofs.Session.Dragging
import PathStudio.Proofs.Simulation.Actions

/-!
# The end of a dragged arc

Dragging the control point of an arc turns its waypoint to the direction in which the
curve then arrives, as the plane counts angles. A program counts headings the other
way round, so the last heading sample of the arc is the mirror image of that direction,
while the samples before it are the directions themselves. The two agree only where
the arc arrives along the first axis.
-/

namespace PathStudio

section General

open Scalar

variable {ν : Type} [Add ν] [Sub ν] [Mul ν] [Div ν] [Neg ν] [Scalar ν]

omit [Add ν] [Sub ν] [Mul ν] [Div ν] [Neg ν] [Scalar ν] in
/-- Putting another waypoint at a place leaves the pose before it as it is. -/
@[simp] theorem Session.poseBefore_setWaypoint (s : Session ν) (i : Nat) (w : Waypoint ν) :
    (s.setWaypoint i w).poseBefore i = s.poseBefore i := by
  simp only [Layout.poseBefore, setWaypoint, List.length_set, Int.toNat_natCast,
    List.take_set_of_le (Nat.le_refl i)]

namespace Program.Robot

open Text

/-! ## The lines of an arc in a program -/

/-- The lines of a path are those of its first waypoints and those of the others, entered where the
first ones end. -/
theorem waypointLines_append (l : Layout ν) (samples : Outcome Int) (start : Pose ν)
    (ws rest : List (Waypoint ν)) :
    waypointLines l samples start.point (ws ++ rest) = do
      let earlier ← waypointLines l samples start.point ws
      let later ← waypointLines l samples (Layout.walkBack start ws.reverse).point rest
      return earlier ++ later := by
  induction ws generalizing start with
  | nil => simp [waypointLines, Layout.walkBack]
  | cons w ws ih =>
    rw [List.reverse_cons, Layout.walkBack_append, List.cons_append]
    cases w with
    | move m =>
      have entered := ih m.pose
      simp only [waypointLines, Layout.walkBack, Move.point, entered, bind_assoc, pure_bind,
        List.append_assoc]
    | action a =>
      simp only [waypointLines, Layout.walkBack, ih start, bind_assoc]
      cases l.marker? a.markerId <;> simp only [pure_bind, List.append_assoc]

/-- A written path shows the lines of each of its moves, behind those of the waypoints before. -/
theorem exists_moveLines_of_print {l : Layout ν} {samples : Outcome Int} {text : List Char}
    (printed : print l samples = .ok text) {i : Nat} {m : Move ν} {before : Pose ν}
    (here : l.waypoints[i]? = some (.move m)) (entered : l.poseBefore i = .ok before) :
    ∃ earlier block later,
      waypointLines l samples l.start.point (l.waypoints.take i) = .ok earlier ∧
      moveLines samples before.point m = .ok block ∧
      text = unlines (opening ++ (earlier ++ (block ++ later))) := by
  obtain ⟨inside, found⟩ := List.getElem?_eq_some_iff.mp here
  have back : Layout.walkBack l.start (l.waypoints.take i).reverse = before :=
    Except.ok.inj ((Layout.poseBefore_natCast inside.le).symm.trans entered)
  have cut : l.waypoints = l.waypoints.take i ++ .move m :: l.waypoints.drop (i + 1) := by
    rw [← found, ← List.drop_eq_getElem_cons inside, List.take_append_drop]
  obtain ⟨lines, hlines, printed⟩ := bind_eq_ok.mp printed
  obtain rfl := return_eq_ok.mp printed
  rw [cut, waypointLines_append, back] at hlines
  obtain ⟨earlier, hearlier, hlines⟩ := bind_eq_ok.mp hlines
  obtain ⟨rest, hrest, hlines⟩ := bind_eq_ok.mp hlines
  obtain rfl := return_eq_ok.mp hlines
  obtain ⟨block, hblock, hrest⟩ := bind_eq_ok.mp hrest
  obtain ⟨later, -, hrest⟩ := bind_eq_ok.mp hrest
  obtain rfl := return_eq_ok.mp hrest
  exact ⟨earlier, block, later, hearlier, hblock, rfl⟩

/-- A program with the lines of an arc where its waypoint stands. Between its ends the arc shows the
directions of its curve; the heading that it shows at its end is given. -/
def ShowsArc (l : Layout ν) (samples : Outcome Int) (text : List Char) (i : Nat)
    (start control : Point ν) (m : Move ν) (final : Int) : Prop :=
  ∃ earlier length speed inner later count,
    waypointLines l samples l.start.point (l.waypoints.take i) = .ok earlier ∧
    amount (Bezier.length start control m.point Bezier.defaultSteps) 2 = .ok length ∧
    amount m.speed 2 = .ok speed ∧
    samples = .ok count ∧
    (List.range' 1 (count.toNat - 1)).mapM (innerSample start control m.point count.toNat) =
      .ok inner ∧
    text = unlines (opening ++ (earlier ++ (printedArc length speed inner final ++ later)))

/-- A written path shows each of its arcs that go somewhere, with the heading of the waypoint at the
end. -/
theorem exists_showsArc {l : Layout ν} {samples : Outcome Int} {text : List Char}
    (printed : print l samples = .ok text) {i : Nat} {m : Move ν} {control : Point ν}
    {before : Pose ν} (here : l.waypoints[i]? = some (.move m))
    (bends : m.motion = .arc (some control)) (entered : l.poseBefore i = .ok before)
    (far : lt (Point.distance before.point m.point) negligible = false) :
    ∃ final, programHeading m.pose.h = .ok final ∧
      ShowsArc l samples text i before.point control m final := by
  obtain ⟨earlier, block, later, hearlier, hblock, rfl⟩ :=
    exists_moveLines_of_print printed here entered
  rw [moveLines] at hblock
  simp only [far, Bool.false_eq_true, if_false] at hblock
  obtain ⟨degrees, -, hblock⟩ := bind_eq_ok.mp hblock
  rw [bends] at hblock
  obtain ⟨own, same, hblock⟩ := bind_eq_ok.mp hblock
  obtain rfl := return_eq_ok.mp same
  obtain ⟨length, hlength, hblock⟩ := bind_eq_ok.mp hblock
  obtain ⟨speed, hspeed, hblock⟩ := bind_eq_ok.mp hblock
  obtain ⟨count, hcount, hblock⟩ := bind_eq_ok.mp hblock
  obtain ⟨inner, hinner, hblock⟩ := bind_eq_ok.mp hblock
  obtain ⟨final, hfinal, hblock⟩ := bind_eq_ok.mp hblock
  obtain rfl := return_eq_ok.mp hblock
  refine ⟨final, hfinal, earlier, length, speed, inner, later, count, hearlier, hlength, hspeed,
    hcount, hinner, ?_⟩
  simp [printedArc, arcLine]

end Program.Robot

end General

/-! ## The direction at the end -/

namespace Program.Robot

open Text Exact

/-- The heading of a dragged arc is the direction in which its curve arrives, and its whole degrees
in a program are those of the mirrored direction. -/
theorem programHeading_pulled (p : Point ℝ) (m : Move ℝ) (c : Point ℝ) :
    programHeading (m.pulled c).pose.h = .ok (round (-Bezier.tangent 1 p c m.point)) := by
  have mirrored : toDegrees (-(m.pulled c).pose.h) = -Bezier.tangent 1 p c m.point := by
    rw [tangent_one, bearing_eq, toDegrees_eq, toDegrees_eq, neg_mul, neg_div]
    rfl
  rw [programHeading, mirrored, roundHalfUp_eq]

/-- After the control point of an arc that goes somewhere has been dragged, the arc arrives in the
direction from the control point, and its program shows the whole degrees of the mirrored direction
as the last heading. They agree with those of the direction only if it is within half a degree of
the first axis. -/
theorem dragged_arc_shows_mirrored_end (s : Session ℝ) {index : Int} {i : Nat} {m : Move ℝ}
    {before : Pose ℝ} (c : Point ℝ) {samples : Outcome Int} {text : List Char}
    (place : s.locate index = .ok i) (here : s.waypoints[i]? = some (.move m))
    (bends : m.kind = .arc) (entered : s.poseBefore i = .ok before)
    (moves : negligible ≤ Point.distance before.point m.point)
    (printed : print (Change.on (Edit.dragArcControl (.ok index) (.ofPoint c)) s).2.toLayout
      samples = .ok text) :
    Change.on (Edit.dragArcControl (.ok index) (.ofPoint c)) s =
        (.ok (), s.setWaypoint i (.move (m.pulled c))) ∧
      ∃ arrival, Bezier.tangent 1 before.point c m.point = arrival ∧
        ahead c (Point.distance c m.point) arrival = m.point ∧
        roundHalfUp arrival = .ok (round arrival) ∧
        programHeading (m.pulled c).pose.h = .ok (round (-arrival)) ∧
        ShowsArc (s.setWaypoint i (.move (m.pulled c))).toLayout samples text i before.point c
          (m.pulled c) (round (-arrival)) ∧
        (Agree (round (-arrival)) (round arrival) ↔ |arrival| ≤ 1 / 2 ∨ 359 / 2 ≤ |arrival|) := by
  have dragged := Edit.on_dragArcControl c place here bends
  rw [dragged] at printed
  obtain ⟨inside, -⟩ := List.getElem?_eq_some_iff.mp here
  have there : (s.setWaypoint i (.move (m.pulled c))).waypoints[i]? = some (.move (m.pulled c)) :=
    List.getElem?_set_self inside
  have far : Scalar.lt (Point.distance before.point (m.pulled c).point) negligible = false :=
    decide_eq_false (not_lt.mpr moves)
  obtain ⟨final, hfinal, shown⟩ := exists_showsArc printed there rfl
    ((s.poseBefore_setWaypoint i (.move (m.pulled c))).trans entered) far
  obtain rfl := Except.ok.inj ((programHeading_pulled before.point m c).symm.trans hfinal)
  refine ⟨dragged, _, rfl, ?_, roundHalfUp_eq _, programHeading_pulled .., shown, ?_⟩
  · rw [tangent_one, ahead_bearing]
  · rw [tangent_one]
    exact agree_mirrored_iff (bearing_mem c m.point).1 (bearing_mem c m.point).2

/-! ## Arcs that can be written -/

theorem exists_amount_of_abs_le {v : ℝ} (short : |v| ≤ 10 ^ 20) :
    ∃ text, amount v 2 = .ok text := by
  refine (exists_amount_iff 2 (by decide)).mpr ?_
  have bound : |v| * 10 ^ 2 + 1 / 2 < ((10 ^ 28 : Nat) : ℝ) := by
    push_cast
    linarith
  exact (Nat.floor_lt (by positivity)).mpr bound

theorem exists_innerSample (p0 p1 p2 : Point ℝ) {samples sample : Nat} (within : sample ≤ samples) :
    ∃ line, innerSample p0 p1 p2 samples sample = .ok line := by
  have part : |(Bezier.parameter sample samples : ℝ)| ≤ 1 := by
    show |(((sample : Nat) : Int) : ℝ) / (((samples : Nat) : Int) : ℝ)| ≤ 1
    push_cast
    rw [abs_of_nonneg (by positivity)]
    exact div_le_one_of_le₀ (by exact_mod_cast within) (by positivity)
  obtain ⟨shown, hshown⟩ := exists_amount_of_abs_le (part.trans (by norm_num))
  exact ⟨_, bind_eq_ok.mpr ⟨shown, hshown, bind_eq_ok.mpr ⟨_, roundHalfUp_eq _, rfl⟩⟩⟩

/-- An arc between points of a square that is not too large can be written. -/
theorem exists_arcLines {half : ℝ} (near : half ≤ 10 ^ 18) {start control : Point ℝ} {m : Move ℝ}
    (h0 : InSquare half start) (h1 : InSquare half control) (h2 : InSquare half m.point)
    (slow : |m.speed| ≤ 10 ^ 20) (samples : Int) :
    ∃ lines, arcLines start control m (.ok samples) = .ok lines := by
  obtain ⟨lower, upper⟩ := length_mem h0 h1 h2 Bezier.defaultSteps
  have short : |Bezier.length start control m.point Bezier.defaultSteps| ≤ 10 ^ 20 := by
    have steps : ((Bezier.defaultSteps : Nat) : ℝ) = 10 := by norm_num [Bezier.defaultSteps]
    rw [abs_of_nonneg lower]
    rw [steps] at upper
    linarith
  obtain ⟨length, hlength⟩ := exists_amount_of_abs_le short
  obtain ⟨speed, hspeed⟩ := exists_amount_of_abs_le slow
  have sampled : ∀ sample ∈ List.range' 1 (samples.toNat - 1),
      ∃ line, innerSample start control m.point samples.toNat sample = .ok line := by
    intro sample h
    rw [List.mem_range'_1] at h
    exact exists_innerSample _ _ _ (by omega)
  obtain ⟨inner, hinner⟩ := exists_mapM sampled
  exact ⟨_, bind_eq_ok.mpr ⟨length, hlength, bind_eq_ok.mpr ⟨speed, hspeed, bind_eq_ok.mpr
    ⟨samples, rfl, bind_eq_ok.mpr ⟨inner, hinner, bind_eq_ok.mpr ⟨_, roundHalfUp_eq _, rfl⟩⟩⟩⟩⟩⟩

/-! ## An arc whose control point is dragged beside its end -/

/-- An arc to the point a metre ahead of the origin. -/
noncomputable def metreArc : Move ℝ := ⟨.arc none, ⟨1, 0, 0⟩, defaultSpeed⟩

/-- A path of that arc. -/
noncomputable def arcAhead : Session ℝ := { Session.empty with waypoints := [.move metreArc] }

/-- The point a metre to the right of where the arc ends. -/
def besideEnd : Point ℝ := ⟨1, -1⟩

theorem origin_point : (Pose.origin : Pose ℝ).point = ⟨0, 0⟩ := by
  have zero : (Scalar.ofInt 0 : ℝ) = 0 := Int.cast_zero
  show (⟨Scalar.ofInt 0, Scalar.ofInt 0⟩ : Point ℝ) = _
  rw [zero]

theorem moves_arcAhead : negligible ≤ Point.distance arcAhead.start.point metreArc.point := by
  show negligible ≤ Point.distance (Pose.origin : Pose ℝ).point ⟨1, 0⟩
  rw [origin_point, distance_eq, negligible_eq]
  norm_num

theorem far_arcAhead : Scalar.lt
    (Point.distance arcAhead.start.point (metreArc.pulled besideEnd).point) negligible = false :=
  decide_eq_false (not_lt.mpr moves_arcAhead)

/-- Dragged there, the control point is straight behind the end of the arc. -/
theorem tangent_arcAhead :
    Bezier.tangent 1 arcAhead.start.point besideEnd metreArc.point = 90 := by
  have across : (⟨(1 : ℝ) - 1, 0 - -1⟩ : ℂ) = Complex.I := by apply Complex.ext <;> simp
  rw [tangent_one, bearing_eq]
  show toDegrees (Complex.arg ⟨(1 : ℝ) - 1, 0 - -1⟩) = 90
  rw [across, Complex.arg_I, toDegrees_eq]
  field_simp
  norm_num

theorem on_drag_arcAhead :
    Change.on (Edit.dragArcControl (.ok 0) (.ofPoint besideEnd)) arcAhead =
      (.ok (), arcAhead.setWaypoint 0 (.move (metreArc.pulled besideEnd))) :=
  Edit.on_dragArcControl besideEnd rfl rfl rfl

theorem exists_print_arcAhead :
    ∃ text, print (Change.on (Edit.dragArcControl (.ok 0) (.ofPoint besideEnd)) arcAhead).2.toLayout
      (.ok defaultSamples) = .ok text := by
  have speed : |(metreArc.pulled besideEnd).speed| ≤ 10 ^ 20 := by
    show |(1 : ℝ) * ((8 : Nat) * 10 ^ (-1 : Int))| ≤ 10 ^ 20
    norm_num
  have start : InSquare 1 arcAhead.start.point := by
    show InSquare 1 (Pose.origin : Pose ℝ).point
    rw [origin_point]
    norm_num [InSquare]
  have control : InSquare 1 besideEnd := by norm_num [InSquare, besideEnd]
  have finish : InSquare 1 (metreArc.pulled besideEnd).point := by
    norm_num [InSquare, metreArc, Move.pulled, Move.point, Pose.point]
  obtain ⟨lines, hlines⟩ := exists_arcLines (by norm_num) start control finish speed defaultSamples
  have block : moveLines (.ok defaultSamples) arcAhead.start.point (metreArc.pulled besideEnd) =
      .ok lines := by
    rw [moveLines]
    simp only [far_arcAhead, Bool.false_eq_true, if_false, roundHalfUp_eq, ok_bind]
    exact hlines
  rw [on_drag_arcAhead]
  exact ⟨_, bind_eq_ok.mpr ⟨_, bind_eq_ok.mpr ⟨lines, block, bind_eq_ok.mpr ⟨_, rfl, rfl⟩⟩, rfl⟩⟩

theorem dragged_arc_shows_mirrored_end_beside :
    ∃ text, print (Change.on (Edit.dragArcControl (.ok 0) (.ofPoint besideEnd)) arcAhead).2.toLayout
        (.ok defaultSamples) = .ok text ∧
      ShowsArc (arcAhead.setWaypoint 0 (.move (metreArc.pulled besideEnd))).toLayout
        (.ok defaultSamples) text 0 arcAhead.start.point besideEnd (metreArc.pulled besideEnd)
        (round (-Bezier.tangent 1 arcAhead.start.point besideEnd metreArc.point)) := by
  obtain ⟨text, printed⟩ := exists_print_arcAhead
  obtain ⟨-, _, rfl, -, -, -, shown, -⟩ :=
    dragged_arc_shows_mirrored_end arcAhead besideEnd rfl rfl rfl rfl moves_arcAhead printed
  exact ⟨text, printed, shown⟩

/-- The arc arrives at a right angle to the left, and the program shows one to the right. -/
theorem dragged_arc_end_turned_around :
    ∃ text, print (Change.on (Edit.dragArcControl (.ok 0) (.ofPoint besideEnd)) arcAhead).2.toLayout
        (.ok defaultSamples) = .ok text ∧
      ShowsArc (arcAhead.setWaypoint 0 (.move (metreArc.pulled besideEnd))).toLayout
        (.ok defaultSamples) text 0 arcAhead.start.point besideEnd (metreArc.pulled besideEnd)
        (-90) ∧
      roundHalfUp (Bezier.tangent 1 arcAhead.start.point besideEnd metreArc.point) = .ok 90 ∧
      ¬ Agree (-90) 90 := by
  obtain ⟨text, printed⟩ := exists_print_arcAhead
  have written := printed
  rw [on_drag_arcAhead] at written
  obtain ⟨final, hfinal, shown⟩ := exists_showsArc written (i := 0) rfl rfl rfl far_arcAhead
  have mirrored := programHeading_pulled arcAhead.start.point metreArc besideEnd
  have right : round (-90 : ℝ) = -90 := by exact_mod_cast round_intCast (-90)
  rw [tangent_arcAhead, right] at mirrored
  obtain rfl := Except.ok.inj (mirrored.symm.trans hfinal)
  refine ⟨text, printed, shown, ?_, ?_⟩
  · rw [tangent_arcAhead]
    exact_mod_cast roundHalfUp_intCast 90
  · rintro ⟨turns, near⟩
    rw [abs_le] at near
    omega

end Program.Robot

end PathStudio
