import PathStudio.Proofs.Geometry.Bend
import PathStudio.Proofs.Program.Amount
import PathStudio.Proofs.Program.Robot.Agreement

/-!
# Strokes

What a robot-oriented program shows of a move in exact arithmetic is a stroke: its
length and its degrees, and for an arc its speed, all of them whole numbers. The
moves that strokes are read as can be laid from any point; how they are printed
again does not depend on it.
-/

namespace PathStudio.Program.Robot

open Text Exact

/-- The numbers that a program shows of a move, lengths and speeds in hundredths. -/
inductive Stroke where
  | straight (strafes : Bool) (length : Nat) (degrees : Int)
  | arc (length : Nat) (speed degrees : Int)
  deriving DecidableEq, Repr

/-- The nearest number of hundredths. -/
noncomputable def hundredths (v : ℝ) : Int := if v < 0 then -unitCount v 2 else unitCount v 2

/-- The stroke that a move from a point is shown as. -/
noncomputable def shownAs (p : Point ℝ) (m : Move ℝ) : Stroke :=
  match Layout.controlOf m.motion p m.point with
  | .ok (some control) =>
    .arc (unitCount (Bezier.length p control m.point Bezier.defaultSteps) 2) (hundredths m.speed)
      (round (toDegrees (-m.pose.h)))
  | _ =>
    .straight (m.kind = .strafe) (unitCount (Point.distance p m.point) 2)
      (round (Point.bearing p m.point))

/-- Whole degrees as a direction above -180 and up to 180 degrees. -/
def wrap (degrees : Int) : Int := 180 - (180 - degrees) % 360

/-- The hundredths of an arc straight ahead whose chord has so many. -/
noncomputable def bendCount (length : Nat) : Nat := unitCount (ofHundredths length * bendRatio) 2

namespace Stroke

/-- The move from a point that a stroke is read as. -/
noncomputable def move (c : Point ℝ) : Stroke → Move ℝ
  | straight strafes length degrees =>
    let p := ahead c (ofHundredths length) degrees
    ⟨if strafes then .strafe else .drive, ⟨p.x, p.y, toRadians (-degrees)⟩, defaultSpeed⟩
  | arc length speed degrees =>
    let p := ahead c (ofHundredths length) 0
    ⟨.arc none, ⟨p.x, p.y, toRadians (-degrees)⟩, ofHundredths speed⟩

/-- What is left of a stroke that has been read and shown again. -/
noncomputable def again : Stroke → Option Stroke
  | straight strafes length degrees =>
    if length = 0 then none else some (straight strafes length (wrap degrees))
  | arc length speed degrees =>
    if length = 0 then none else some (arc (bendCount length) speed degrees)

/-- The line of an inner heading sample of an arc straight ahead. -/
noncomputable def bendSample (samples sample : Nat) : Outcome (List Char) := do
  let t : ℝ := Bezier.parameter sample samples
  let shown ← amount t 2
  let degrees ← roundHalfUp (bendTangent t)
  return sampleLine shown degrees

/-- The lines of a stroke without a length. -/
def stillLines (degrees : Int) : List (List Char) :=
  if degrees = 0 then [] else [turnLine degrees snapComment]

/-- The lines that a stroke is printed as once it has been read. -/
noncomputable def lines (samples : Outcome Int) : Stroke → Outcome (List (List Char))
  | straight strafes length degrees =>
    if length = 0 then .ok (stillLines degrees)
    else do
      let shown ← amount (ofHundredths length) 2
      if strafes then return [travelLine "strafePID".toList shown (wrap degrees)]
      else return [turnLine (wrap degrees) [], travelLine "drivePID".toList shown (wrap degrees)]
  | arc length speed degrees =>
    if length = 0 then .ok (stillLines degrees)
    else do
      let shown ← amount (ofHundredths length * bendRatio) 2
      let speed ← amount (ofHundredths speed) 2
      let samples := (← samples).toNat
      let inner ← (List.range' 1 (samples - 1)).mapM (bendSample samples)
      return printedArc shown speed inner degrees

end Stroke

/-! ## Reading strokes -/

theorem rounded_eq_hundredths (v : ℝ) : rounded v 2 = hundredths v / 100 := by
  rw [rounded, hundredths, factor]
  by_cases below : v < 0
  · rw [decide_eq_true below, if_pos rfl, if_pos below]
    push_cast
    ring
  · rw [decide_eq_false below, if_neg (by decide), if_neg below]
    push_cast
    ring

@[simp] theorem unitCount_div (n : Nat) : unitCount (n / 100 : ℝ) 2 = n := by
  have scaled : |(n / 100 : ℝ)| * 10 ^ 2 + 1 / 2 = n + 1 / 2 := by
    rw [abs_of_nonneg (by positivity)]
    ring
  rw [unitCount, scaled, Nat.floor_eq_iff (by positivity)]
  constructor <;> linarith

@[simp] theorem unitCount_int_div (k : Int) : unitCount (k / 100 : ℝ) 2 = k.natAbs := by
  rw [← unitCount_div k.natAbs, unitCount, unitCount]
  congr 3
  rw [abs_div, abs_div, ← Int.cast_abs, Int.abs_eq_natAbs]
  simp

theorem hundredths_div (k : Int) : hundredths (k / 100 : ℝ) = k := by
  rw [hundredths, unitCount_int_div]
  obtain below | above := lt_or_ge k 0
  · have negative : (k / 100 : ℝ) < 0 := div_neg_of_neg_of_pos (by exact_mod_cast below) (by norm_num)
    rw [if_pos negative]
    omega
  · have positive : ¬ (k / 100 : ℝ) < 0 :=
      not_lt.mpr (div_nonneg (by exact_mod_cast above) (by norm_num))
    rw [if_neg positive]
    omega

theorem chords_le (p0 p1 p2 : Point ℝ) (steps : Nat) (last : Point ℝ) (total : ℝ) (js : List Nat) :
    total ≤ Bezier.chords p0 p1 p2 steps last total js := by
  induction js generalizing last total with
  | nil => exact le_rfl
  | cons j js ih =>
    rw [Bezier.chords]
    refine le_trans ?_ (ih _ _)
    exact le_add_of_nonneg_right (Real.sqrt_nonneg _)

theorem length_nonneg (p0 p1 p2 : Point ℝ) (steps : Nat) : 0 ≤ Bezier.length p0 p1 p2 steps := by
  have zero : (Scalar.ofInt 0 : ℝ) = 0 := Int.cast_zero
  have grows := chords_le p0 p1 p2 steps p0 (Scalar.ofInt 0) (List.range' 1 steps)
  exact zero.symm.le.trans grows

variable {carries : Waypoint ℝ → String → String → Prop} {c c' p : Point ℝ} {m : Move ℝ}

theorem eq_ahead_of_leadsTo {length degrees : ℝ} (h : LeadsTo c length degrees c') :
    c' = ahead c length degrees := by
  obtain ⟨x, y, hx, hy, rfl⟩ := h
  obtain rfl : Real.cos (toRadians degrees) = x := Except.ok.inj hx
  obtain rfl : Real.sin (toRadians degrees) = y := Except.ok.inj hy
  rfl

theorem controlOf_eq_none {ν : Type} [Add ν] [Sub ν] [Mul ν] [Div ν] [Neg ν] [Scalar ν] {p : Point ν}
    {m : Move ν} (kind : m.kind ≠ .arc) : Layout.controlOf m.motion p m.point = .ok none := by
  cases hm : m.motion with
  | drive => rfl
  | strafe => rfl
  | arc own => exact absurd (congrArg Motion.kind hm) kind

/-- The length of a straight move or an arc is read as its hundredths. -/
theorem eq_of_numeral {v L : ℝ} (nonnegative : 0 ≤ v) {text : List Char} (h : amount v 2 = .ok text)
    (hL : numeral? text = some L) : L = unitCount v 2 / 100 := by
  have read := numeral?_amount 2 (by decide) (by decide) h
  rw [Option.some.inj (hL.symm.trans read), rounded_of_nonneg nonnegative]
  norm_num

/-- What a move is read back as is the move of its stroke. -/
theorem eq_move_of_retraces {w : Waypoint ℝ} (h : Retraces carries c (p, .move m) w c') :
    w = .move ((shownAs p m).move c) ∧ c' = ((shownAs p m).move c).point := by
  cases h with
  | @straight _ _ _ length degrees L B kind hl hd hL hB leads =>
    obtain rfl := eq_of_numeral (Real.sqrt_nonneg _) hl hL
    obtain rfl : B = degrees := numeral?_integerText hB
    obtain rfl := eq_ahead_of_leadsTo leads
    obtain rfl : round (Point.bearing p m.point) = degrees :=
      Except.ok.inj ((roundHalfUp_eq _).symm.trans hd)
    have plain : m.motion.plain = if m.kind = .strafe then .strafe else .drive := by
      cases hm : m.motion with
      | drive => simp [Move.kind, hm, Motion.kind, Motion.plain, Motion.ofKind]
      | strafe => simp [Move.kind, hm, Motion.kind, Motion.plain, Motion.ofKind]
      | arc own => exact absurd (congrArg Motion.kind hm) kind
    have shown : shownAs p m = .straight (m.kind = .strafe) (unitCount (Point.distance p m.point) 2)
        (round (Point.bearing p m.point)) := by
      rw [shownAs, controlOf_eq_none kind]
    rw [shown, plain]
    simp only [Stroke.move, decide_eq_true_eq]
    exact ⟨rfl, rfl⟩
  | @arc _ _ control _ length speed final L V H E hc hl hs hf hL hV hH hE leads =>
    obtain rfl := eq_of_numeral (length_nonneg ..) hl hL
    obtain rfl : V = hundredths m.speed / 100 := by
      have read := numeral?_amount 2 (by decide) (by decide) hs
      rw [Option.some.inj (hV.symm.trans read), rounded_eq_hundredths]
    obtain rfl : H = (0 : Int) := numeral?_integerText hH
    obtain rfl : E = final := numeral?_integerText hE
    obtain rfl := eq_ahead_of_leadsTo leads
    obtain rfl : round (toDegrees (-m.pose.h)) = final :=
      Except.ok.inj ((roundHalfUp_eq _).symm.trans hf)
    have plain : m.motion.plain = .arc none := by
      cases hm : m.motion with
      | drive => simp [hm, Layout.controlOf] at hc
      | strafe => simp [hm, Layout.controlOf] at hc
      | arc own => rfl
    have shown : shownAs p m = .arc (unitCount (Bezier.length p control m.point Bezier.defaultSteps) 2)
        (hundredths m.speed) (round (toDegrees (-m.pose.h))) := by
      rw [shownAs, hc]
    rw [shown, plain, Int.cast_zero]
    exact ⟨rfl, rfl⟩

/-! ## Showing strokes again -/

theorem unitCount_bend (length : Nat) : unitCount (length / 100 * bendRatio) 2 = bendCount length := rfl

theorem bendCount_eq (length : Nat) : bendCount length = ⌊length * bendRatio + 1 / 2⌋₊ := by
  have positive : 0 < bendRatio := lt_trans (by norm_num) bendRatio_bounds.1
  rw [← unitCount_bend, unitCount, abs_of_nonneg (by positivity)]
  congr 2
  ring

@[simp] theorem wrap_wrap (degrees : Int) : wrap (wrap degrees) = wrap degrees := by
  simp only [wrap]
  omega

/-- Whole degrees in normal form are whole degrees. -/
theorem normal_intCast (degrees : Int) : normal degrees = wrap degrees := by
  have bounds : -180 < wrap degrees ∧ wrap degrees ≤ 180 := by
    simp only [wrap]
    omega
  have turns : degrees = wrap degrees + -((180 - degrees) / 360) * 360 := by
    simp only [wrap]
    omega
  exact normal_eq_of (by exact_mod_cast bounds.1) (by exact_mod_cast bounds.2) _
    (by exact_mod_cast turns)

theorem headingTolerance_eq : (headingTolerance : ℝ) = 1 / 10 ^ 4 := by
  show (1 : ℝ) * ((1 : Nat) * 10 ^ (-4 : Int)) = _
  norm_num

/-- A heading of whole degrees other than zero is beyond the tolerance. -/
theorem lt_headingTolerance (degrees : Int) :
    Scalar.lt headingTolerance (Scalar.abs (toRadians (-(degrees : ℝ)))) = decide (degrees ≠ 0) := by
  show decide ((headingTolerance : ℝ) < |toRadians (-(degrees : ℝ))|) = _
  rw [decide_eq_decide, headingTolerance_eq, toRadians_eq]
  constructor
  · rintro beyond rfl
    norm_num at beyond
  · intro some
    have one : (1 : ℝ) ≤ |(degrees : ℝ)| := by exact_mod_cast Int.one_le_abs some
    have pi := Real.pi_gt_three
    have size : |-(degrees : ℝ) * Real.pi / 180| = |(degrees : ℝ)| * Real.pi / 180 := by
      rw [abs_div, abs_mul, abs_neg, abs_of_pos Real.pi_pos, abs_of_pos (by norm_num : (0 : ℝ) < 180)]
    rw [size, lt_div_iff₀ (by norm_num)]
    nlinarith

theorem negligible_iff (n : Nat) : Scalar.lt (n / 100 : ℝ) negligible = decide (n = 0) := by
  show decide ((n / 100 : ℝ) < negligible) = _
  rw [decide_eq_decide, negligible_eq]
  constructor
  · intro short
    by_contra some
    have one : (1 : ℝ) ≤ n := by exact_mod_cast Nat.one_le_iff_ne_zero.mpr some
    norm_num at short
    linarith
  · rintro rfl
    norm_num

section Again

variable {samples : Outcome Int}

theorem stillLines_eq {m : Move ℝ} {degrees : Int} (heading : m.pose.h = toRadians (-(degrees : ℝ))) :
    stillLines m = .ok (Stroke.stillLines degrees) := by
  rw [stillLines, heading, lt_headingTolerance, programHeading_toRadians, Stroke.stillLines]
  by_cases level : degrees = 0
  · simp [level]
    rfl
  · simp [level]
    rfl

/-- A straight move that keeps its whole degrees has no turn behind it. -/
theorem arrivalLines_eq {m : Move ℝ} {degrees : Int} (heading : m.pose.h = toRadians (-(degrees : ℝ))) :
    arrivalLines m (normal degrees) = .ok [] := by
  have none : normalizeDegrees ((degrees : ℝ) - normal degrees) = .ok 0 := by
    rw [normalizeDegrees_eq, normal_sub_normal, sub_self, normal_of_mem (by norm_num) (by norm_num)]
  have within : Scalar.lt turnTolerance (Scalar.abs (0 : ℝ)) = false := by
    have tolerance : (turnTolerance : ℝ) = 1 := by
      show (1 : ℝ) * ((10 : Nat) * 10 ^ (-1 : Int)) = _
      norm_num
    show decide ((turnTolerance : ℝ) < |0|) = false
    rw [tolerance]
    norm_num
  rw [arrivalLines, heading]
  split
  · simp only [toDegrees_neg_toRadians, none, ok_bind, within]
    rfl
  · rfl

/-- Only a stroke without a length goes nowhere. -/
theorem goesNowhere_move (c : Point ℝ) (s : Stroke) :
    goesNowhere (c, .move (s.move c)) = s.again.isNone := by
  cases s with
  | straight strafes length degrees =>
    have far : Point.distance c (ahead c (length / 100) degrees) = length / 100 :=
      distance_ahead c (by positivity) degrees
    show Scalar.lt (Point.distance c (ahead c (length / 100) degrees)) negligible = _
    rw [far, negligible_iff, Stroke.again]
    split <;> simp [*]
  | arc length speed degrees =>
    have far : Point.distance c (ahead c (length / 100) 0) = length / 100 :=
      distance_ahead c (by positivity) 0
    show Scalar.lt (Point.distance c (ahead c (length / 100) 0)) negligible = _
    rw [far, negligible_iff, Stroke.again]
    split <;> simp [*]

theorem one_le_of_ne_zero {length : Nat} (moving : length ≠ 0) : (1 : ℝ) ≤ length := by
  exact_mod_cast Nat.one_le_iff_ne_zero.mpr moving

theorem controlOf_bend (c : Point ℝ) {length : Nat} (moving : length ≠ 0) :
    defaultControl c (ahead c (length / 100) 0) = .ok (bulge c (length / 100)) := by
  have one := one_le_of_ne_zero moving
  refine defaultControl_ahead c ?_
  norm_num
  linarith

/-- A stroke that has been read is shown as what is left of it. -/
theorem shownAs_move (c : Point ℝ) {s next : Stroke} (h : s.again = some next) :
    shownAs c (s.move c) = next := by
  cases s with
  | straight strafes length degrees =>
    rw [Stroke.again] at h
    split at h
    next => cases h
    next moving =>
      cases h
      have one := one_le_of_ne_zero moving
      have kind : (Stroke.move c (.straight strafes length degrees)).kind ≠ .arc := by
        cases strafes <;> exact MoveKind.noConfusion
      have strafe : decide ((Stroke.move c (.straight strafes length degrees)).kind = .strafe) =
          strafes := by cases strafes <;> rfl
      have point : (Stroke.move c (.straight strafes length degrees)).point =
          ahead c (length / 100) degrees := rfl
      rw [shownAs, controlOf_eq_none kind, strafe, point, distance_ahead c (by positivity),
        unitCount_div, bearing_ahead c (by positivity), normal_intCast, round_intCast]
  | arc length speed degrees =>
    rw [Stroke.again] at h
    split at h
    next => cases h
    next moving =>
      cases h
      have control : Layout.controlOf (Stroke.move c (.arc length speed degrees)).motion c
          (Stroke.move c (.arc length speed degrees)).point = .ok (some (bulge c (length / 100))) := by
        show (defaultControl c (ahead c (length / 100) 0)).map some = _
        rw [controlOf_bend c moving]
        rfl
      have point : (Stroke.move c (.arc length speed degrees)).point = ahead c (length / 100) 0 := rfl
      have heading : (Stroke.move c (.arc length speed degrees)).pose.h = toRadians (-(degrees : ℝ)) :=
        rfl
      have run : (Stroke.move c (.arc length speed degrees)).speed = (speed / 100 : ℝ) := rfl
      rw [shownAs, control, point, heading, run]
      simp only
      rw [length_bend c (by positivity), unitCount_bend, hundredths_div, toDegrees_neg_toRadians,
        round_intCast]

/-- A stroke that has been read is printed as its lines, wherever it begins. -/
theorem moveLines_move (c : Point ℝ) (s : Stroke) :
    moveLines samples c (s.move c) = s.lines samples := by
  cases s with
  | straight strafes length degrees =>
    have point : (Stroke.move c (.straight strafes length degrees)).point =
      ahead c (length / 100) degrees := rfl
    rw [moveLines, Stroke.lines, point, distance_ahead c (by positivity), negligible_iff]
    by_cases none : length = 0
    · simp only [none, decide_true, if_true]
      exact stillLines_eq rfl
    · have one := one_le_of_ne_zero none
      have bearing : Point.bearing c (ahead c (length / 100) degrees) = normal degrees :=
        bearing_ahead c (by positivity) degrees
      have degreesAgain : roundHalfUp (normal (degrees : ℝ)) = .ok (wrap degrees) := by
        rw [normal_intCast, roundHalfUp_intCast]
      have arrival := arrivalLines_eq (m := Stroke.move c (.straight strafes length degrees)) rfl
      simp only [none, decide_false, if_false, bearing, Bool.false_eq_true, degreesAgain, ok_bind,
        arrival]
      cases strafes <;> rfl
  | arc length speed degrees =>
    have point : (Stroke.move c (.arc length speed degrees)).point = ahead c (length / 100) 0 := rfl
    rw [moveLines, Stroke.lines, point, distance_ahead c (by positivity), negligible_iff]
    by_cases none : length = 0
    · simp only [none, decide_true, if_true]
      exact stillLines_eq rfl
    · have one := one_le_of_ne_zero none
      have positive : (0 : ℝ) < length / 100 := by positivity
      have samplesAgain (count : Nat) :
          innerSample c (bulge c (length / 100)) (ahead c (length / 100) 0) count =
            Stroke.bendSample count := by
        funext sample
        rw [innerSample, Stroke.bendSample, tangent_bend c positive]
      simp only [none, decide_false, if_false, Bool.false_eq_true, roundHalfUp_eq, ok_bind]
      show (defaultControl c (ahead c (length / 100) 0) >>= fun control =>
        arcLines c control (Stroke.move c (.arc length speed degrees)) samples) = _
      rw [controlOf_bend c none, ok_bind, arcLines, point, length_bend c positive.le]
      have final : programHeading (Stroke.move c (.arc length speed degrees)).pose.h = .ok degrees :=
        programHeading_toRadians degrees
      have run : (Stroke.move c (.arc length speed degrees)).speed = (speed / 100 : ℝ) := rfl
      simp only [final, run, ok_bind]
      have shape (shown speed : List Char) (inner : List (List Char)) :
          ("arc(".toList ++ shown ++ ", ".toList ++ speed ++ ", t -> t".toList)
            :: sampleLine "0.0".toList 0 :: inner
              ++ [sampleLine "1.0".toList degrees, "        );".toList] =
          printedArc shown speed inner degrees := by
        simp [printedArc, arcLine]
      simp only [shape, samplesAgain, ofHundredths]

end Again

end PathStudio.Program.Robot
