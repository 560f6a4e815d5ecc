import PathStudio.Proofs.Program.Robot.Stroke

/-!
# Strokes that settle

A stroke that has been read and printed again is not always shown as before. One
without a length leaves at most a turn, which is not read any more, and an arc is
read as a chord straight ahead, so that an arc of nine hundredths or more gets
longer each time. All other strokes stay as they are.
-/

namespace PathStudio.Program.Robot

open Text Exact

theorem navigable_real (p : Point ℝ) (m : Move ℝ) : Navigable p m :=
  ⟨Magnitude.noConfusion, Magnitude.noConfusion, fun _ _ => ⟨_, _, rfl, rfl⟩⟩

theorem faces_real (degrees : Int) : Faces ℝ degrees := ⟨_, _, rfl, rfl⟩

@[simp] theorem lacksLength_real (step : Point ℝ × Entry ℝ) : lacksLength step = false := by
  obtain ⟨p, m | ⟨name, args⟩⟩ := step
  · rw [lacksLength]
    split
    · exact decide_eq_false Magnitude.noConfusion
    · rfl
  · rfl

/-- Up to eight hundredths an arc straight ahead is shown as long as its chord. -/
theorem bendCount_eq_self {length : Nat} (short : length ≤ 8) : bendCount length = length := by
  obtain ⟨lower, upper⟩ := bendRatio_bounds
  have most : (length : ℝ) ≤ 8 := by exact_mod_cast short
  have natural : (0 : ℝ) ≤ length := Nat.cast_nonneg length
  have positive : 0 < bendRatio := lt_trans (by norm_num) lower
  rw [bendCount_eq, Nat.floor_eq_iff (by positivity)]
  constructor <;> nlinarith

/-- From nine hundredths on it is shown longer. -/
theorem lt_bendCount {length : Nat} (long : 8 < length) : length < bendCount length := by
  obtain ⟨lower, -⟩ := bendRatio_bounds
  have least : (9 : ℝ) ≤ length := by exact_mod_cast long
  have positive : 0 < bendRatio := lt_trans (by norm_num) lower
  rw [bendCount_eq, Nat.lt_iff_add_one_le, Nat.le_floor_iff (by positivity)]
  push_cast
  nlinarith

namespace Stroke

variable {samples : Outcome Int} {s : Stroke}

/-- A stroke stays as it is shown: where its length is shown as zero so are its degrees, and an arc
is no longer than eight hundredths. -/
def Settles : Stroke → Prop
  | straight _ length degrees => length = 0 → degrees = 0
  | arc length _ degrees => length ≤ 8 ∧ (length = 0 → degrees = 0)

/-- The lines of what is left of a stroke. -/
noncomputable def linesAgain (samples : Outcome Int) (s : Stroke) : Outcome (List (List Char)) :=
  match s.again with
  | none => .ok []
  | some next => next.lines samples

theorem linesAgain_of_none (h : s.again = none) : s.linesAgain samples = .ok [] := by
  rw [linesAgain, h]

theorem linesAgain_of_some {next : Stroke} (h : s.again = some next) :
    s.linesAgain samples = next.lines samples := by
  rw [linesAgain, h]

theorem linesAgain_straight (strafes : Bool) (length : Nat) (degrees : Int) :
    (straight strafes length degrees).linesAgain samples =
      if length = 0 then .ok [] else (straight strafes length (wrap degrees)).lines samples := by
  rw [linesAgain, again]
  split_ifs <;> rfl

theorem linesAgain_arc (length : Nat) (speed degrees : Int) :
    (arc length speed degrees).linesAgain samples =
      if length = 0 then .ok [] else (arc (bendCount length) speed degrees).lines samples := by
  rw [linesAgain, again]
  split_ifs <;> rfl

theorem linesAgain_of_settles (h : s.Settles) : s.linesAgain samples = s.lines samples := by
  cases s with
  | straight strafes length degrees =>
    rw [linesAgain_straight]
    by_cases still : length = 0
    · rw [if_pos still, lines, if_pos still, h still]
      rfl
    · rw [if_neg still, lines, lines, if_neg still, if_neg still, wrap_wrap]
  | arc length speed degrees =>
    rw [linesAgain_arc]
    by_cases still : length = 0
    · rw [if_pos still, lines, if_pos still, h.2 still]
      rfl
    · rw [if_neg still, bendCount_eq_self h.1]

theorem bendCount_ne_zero {length : Nat} (h : length ≠ 0) : bendCount length ≠ 0 := by
  by_cases short : length ≤ 8
  · rwa [bendCount_eq_self short]
  · have longer := lt_bendCount (not_le.mp short)
    omega

theorem eq_zero_of_stillLines {degrees : Int} (h : stillLines degrees = []) : degrees = 0 := by
  by_contra some
  rw [stillLines, if_neg some] at h
  cases h

/-- The shown length of an arc is found again in its lines. -/
theorem length_of_printedArc {length length' speed speed' : List Char} {inner inner' : List (List Char)}
    {final final' : Int} (hl : IsAmount length) (hl' : IsAmount length')
    (h : printedArc length speed inner final = printedArc length' speed' inner' final') :
    length = length' := by
  have first : arcLine length speed = arcLine length' speed' := (List.cons.inj h).1
  rw [arcLine, arcLine, List.append_cancel_left_eq, List.cons.injEq] at first
  exact eq_of_append_cons_eq (c := ',') (hl.not_mem (by decide)) (hl'.not_mem (by decide)) first.2

/-- Amounts that are shown alike have the same count of hundredths. -/
theorem unitCount_of_amount {v w : ℝ} {text : List Char} (hv : amount v 2 = .ok text)
    (hw : amount w 2 = .ok text) : unitCount v 2 = unitCount w 2 := by
  have same := (numeral?_amount 2 (by decide) (by decide) hv).symm.trans
    (numeral?_amount 2 (by decide) (by decide) hw)
  rw [← unitCount_rounded (v := v), Option.some.inj same, unitCount_rounded]

/-- The lines of an arc with a length. -/
theorem exists_printedArc_of_lines {length : Nat} {speed degrees : Int} (moving : length ≠ 0)
    {b : List (List Char)} (h : (arc length speed degrees).lines samples = .ok b) :
    ∃ shown run count inner, amount (length / 100 * bendRatio) 2 = .ok shown ∧
      amount (speed / 100 : ℝ) 2 = .ok run ∧ samples = .ok count ∧
      (List.range' 1 (count.toNat - 1)).mapM (bendSample count.toNat) = .ok inner ∧
      b = printedArc shown run inner degrees := by
  rw [lines, if_neg moving] at h
  obtain ⟨shown, hshown, h⟩ := bind_eq_ok.mp h
  obtain ⟨run, hrun, h⟩ := bind_eq_ok.mp h
  obtain ⟨count, hcount, h⟩ := bind_eq_ok.mp h
  obtain ⟨inner, hinner, h⟩ := bind_eq_ok.mp h
  exact ⟨shown, run, count, inner, hshown, hrun, hcount, hinner, (return_eq_ok.mp h).symm⟩

theorem settles_of_linesAgain {b : List (List Char)} (h : s.lines samples = .ok b)
    (again : s.linesAgain samples = .ok b) : s.Settles := by
  cases s with
  | straight strafes length degrees =>
    intro still
    rw [lines, if_pos still] at h
    rw [linesAgain_straight, if_pos still] at again
    exact eq_zero_of_stillLines (Except.ok.inj (h.trans again.symm))
  | arc length speed degrees =>
    rw [linesAgain_arc] at again
    by_cases still : length = 0
    · rw [lines, if_pos still] at h
      rw [if_pos still] at again
      exact ⟨by omega, fun _ => eq_zero_of_stillLines (Except.ok.inj (h.trans again.symm))⟩
    · rw [if_neg still] at again
      obtain ⟨shown, run, count, inner, hshown, -, -, -, rfl⟩ := exists_printedArc_of_lines still h
      obtain ⟨shown', run', count', inner', hshown', -, -, -, same⟩ :=
        exists_printedArc_of_lines (bendCount_ne_zero still) again
      obtain rfl := length_of_printedArc (isAmount_of_amount hshown) (isAmount_of_amount hshown') same
      have stays := unitCount_of_amount hshown hshown'
      rw [unitCount_bend, unitCount_bend] at stays
      refine ⟨?_, fun zero => absurd zero still⟩
      by_contra long
      have longer := lt_bendCount (not_le.mp long)
      have longest : bendCount length < bendCount (bendCount length) := lt_bendCount (by omega)
      omega

/-- What is left of a stroke has no more lines. -/
theorem length_le_of_linesAgain {b b' : List (List Char)} (h : s.lines samples = .ok b)
    (again : s.linesAgain samples = .ok b') : b'.length ≤ b.length := by
  cases s with
  | straight strafes length degrees =>
    rw [linesAgain_straight] at again
    by_cases still : length = 0
    · rw [if_pos still] at again
      cases again
      exact Nat.zero_le _
    · rw [if_neg still, lines, if_neg still] at again
      rw [lines, if_neg still] at h
      obtain ⟨shown, hshown, h⟩ := bind_eq_ok.mp h
      obtain ⟨shown', hshown', again⟩ := bind_eq_ok.mp again
      cases strafes <;> cases h <;> cases again <;> exact le_rfl
  | arc length speed degrees =>
    rw [linesAgain_arc] at again
    by_cases still : length = 0
    · rw [if_pos still] at again
      cases again
      exact Nat.zero_le _
    · rw [if_neg still] at again
      obtain ⟨shown, run, count, inner, -, -, hcount, hinner, rfl⟩ := exists_printedArc_of_lines still h
      obtain ⟨shown', run', count', inner', -, -, hcount', hinner', rfl⟩ :=
        exists_printedArc_of_lines (bendCount_ne_zero still) again
      obtain rfl := Except.ok.inj (hcount.symm.trans hcount')
      obtain rfl := Except.ok.inj (hinner.symm.trans hinner')
      simp [printedArc]

/-- The lines of a stroke have no line feeds. -/
theorem oneLine_lines {b : List (List Char)} (h : s.lines samples = .ok b) : ∀ l ∈ b, '\n' ∉ l := by
  rw [← moveLines_move Pose.origin.point s] at h
  have nav := navigable_real Pose.origin.point (s.move Pose.origin.point)
  have follows : Follows (fun _ _ _ => False) ⟨⟨[], [], 0⟩, Pose.origin.point, none⟩
      (Pose.origin.point, .move (s.move Pose.origin.point)) b :=
    follows_moveLines rfl nav.guided (fun _ => nav.speed) (faces_real 0) h
  exact follows.oneLine

theorem oneLine_linesAgain {b : List (List Char)} (h : s.linesAgain samples = .ok b) :
    ∀ l ∈ b, '\n' ∉ l := by
  cases again : s.again with
  | none =>
    rw [linesAgain_of_none again] at h
    cases h
    simp
  | some next =>
    rw [linesAgain_of_some again] at h
    exact oneLine_lines h

/-- A whole number of hundredths can be printed if an amount can that rounds to as many. -/
theorem exists_amount_of_unitCount {v w : ℝ} {text : List Char} (h : amount v 2 = .ok text)
    (same : unitCount w 2 = unitCount v 2) : ∃ shown, amount w 2 = .ok shown := by
  refine (exists_amount_iff 2 (by decide)).mpr ?_
  rw [same]
  exact (exists_amount_iff 2 (by decide)).mp ⟨text, h⟩

theorem exists_bendSample {p0 p1 p2 : Point ℝ} {count sample : Nat} {line : List Char}
    (h : innerSample p0 p1 p2 count sample = .ok line) : ∃ line, bendSample count sample = .ok line := by
  obtain ⟨shown, hshown, -⟩ := bind_eq_ok.mp h
  exact ⟨_, bind_eq_ok.mpr ⟨shown, hshown, bind_eq_ok.mpr ⟨_, roundHalfUp_eq _, rfl⟩⟩⟩

theorem exists_lines_straight {strafes : Bool} {v : ℝ} {degrees : Int} {text : List Char}
    (h : amount v 2 = .ok text) :
    ∃ b, (straight strafes (unitCount v 2) degrees).lines samples = .ok b := by
  obtain ⟨shown, hshown⟩ := exists_amount_of_unitCount h (unitCount_div _)
  rw [lines, ofHundredths, hshown]
  cases strafes <;> split_ifs <;> exact ⟨_, rfl⟩

/-- An inner sample of an arc straight ahead has a line. -/
theorem exists_bendSample_of_le {count sample : Nat} (h : sample ≤ count) :
    ∃ line, bendSample count sample = .ok line := by
  have part : |((sample : Int) : ℝ) / ((count : Int) : ℝ)| ≤ 1 := by
    rw [abs_of_nonneg (by positivity)]
    exact div_le_one_of_le₀ (by exact_mod_cast h) (by positivity)
  have few : unitCount (Bezier.parameter sample count : ℝ) 2 < 101 := by
    show ⌊|((sample : Int) : ℝ) / ((count : Int) : ℝ)| * 10 ^ 2 + 1 / 2⌋₊ < 101
    rw [Nat.floor_lt (by positivity)]
    push_cast at part ⊢
    linarith
  obtain ⟨shown, hshown⟩ := (exists_amount_iff 2 (by decide)).mpr (few.trans (by decide))
  exact ⟨_, bind_eq_ok.mpr ⟨shown, hshown, bind_eq_ok.mpr ⟨_, roundHalfUp_eq _, rfl⟩⟩⟩

/-- A straight stroke has lines unless its length has too many digits. -/
theorem exists_lines_of_lt {strafes : Bool} {length : Nat} {degrees : Int}
    (h : length < powerOfTen Decimal.digitLimit) :
    ∃ b, (straight strafes length degrees).lines samples = .ok b := by
  obtain ⟨text, shown⟩ := (exists_amount_iff 2 (by decide)).mpr ((unitCount_div length).trans_lt h)
  have lines : ∃ b, (straight strafes (unitCount (length / 100 : ℝ) 2) degrees).lines samples = .ok b :=
    exists_lines_straight shown
  rwa [unitCount_div] at lines

/-- An arc has lines where its two amounts and its inner samples have theirs. -/
theorem exists_lines_of_inner {length : Nat} {speed degrees count : Int} {shown run : List Char}
    {inner : List (List Char)} (hshown : amount (length / 100 * bendRatio : ℝ) 2 = .ok shown)
    (hrun : amount (speed / 100 : ℝ) 2 = .ok run) (hcount : samples = .ok count)
    (hinner : (List.range' 1 (count.toNat - 1)).mapM (bendSample count.toNat) = .ok inner) :
    ∃ b, (arc length speed degrees).lines samples = .ok b := by
  rw [lines]
  split_ifs
  · exact ⟨_, rfl⟩
  · exact ⟨_, bind_eq_ok.mpr ⟨_, hshown, bind_eq_ok.mpr ⟨_, hrun, bind_eq_ok.mpr ⟨_, hcount,
      bind_eq_ok.mpr ⟨_, hinner, rfl⟩⟩⟩⟩⟩

/-- An arc of up to eight hundredths has lines unless its speed has too many digits. -/
theorem exists_lines_of_le {length : Nat} {speed degrees count : Int} (short : length ≤ 8)
    (h : speed.natAbs < powerOfTen Decimal.digitLimit) :
    ∃ b, (arc length speed degrees).lines (.ok count) = .ok b := by
  have few : unitCount (length / 100 * bendRatio) 2 < powerOfTen Decimal.digitLimit := by
    rw [unitCount_bend, bendCount_eq_self short]
    exact lt_of_le_of_lt short (by decide)
  obtain ⟨shown, hshown⟩ := (exists_amount_iff 2 (by decide)).mpr few
  obtain ⟨run, hrun⟩ := (exists_amount_iff 2 (by decide)).mpr ((unitCount_int_div speed).trans_lt h)
  obtain ⟨inner, hinner⟩ : ∃ inner, (List.range' 1 (count.toNat - 1)).mapM (bendSample count.toNat) =
      .ok inner := by
    refine exists_mapM fun sample hs => exists_bendSample_of_le ?_
    rw [List.mem_range'_1] at hs
    omega
  exact exists_lines_of_inner hshown hrun rfl hinner

/-- An arc that settles has lines, if it has been printed before. -/
theorem exists_lines_arc {start control : Point ℝ} {m : Move ℝ} {shown : List (List Char)}
    (printed : arcLines start control m samples = .ok shown) {degrees : Int}
    (short : unitCount (Bezier.length start control m.point Bezier.defaultSteps) 2 ≤ 8) :
    ∃ b, (arc (unitCount (Bezier.length start control m.point Bezier.defaultSteps) 2)
      (hundredths m.speed) degrees).lines samples = .ok b := by
  obtain ⟨length, hlength, printed⟩ := bind_eq_ok.mp printed
  obtain ⟨speed, hspeed, printed⟩ := bind_eq_ok.mp printed
  obtain ⟨count, hcount, printed⟩ := bind_eq_ok.mp printed
  obtain ⟨inner, hinner, -⟩ := bind_eq_ok.mp printed
  have stays := (unitCount_bend _).trans (bendCount_eq_self short)
  obtain ⟨length', hlength'⟩ := exists_amount_of_unitCount hlength stays
  have sameSpeed : unitCount (hundredths m.speed / 100 : ℝ) 2 = unitCount m.speed 2 := by
    rw [← rounded_eq_hundredths, unitCount_rounded]
  obtain ⟨speed', hspeed'⟩ := exists_amount_of_unitCount hspeed sameSpeed
  obtain ⟨inner', hinner'⟩ := exists_mapM fun sample h =>
    (exists_of_mapM hinner sample h).elim fun line => exists_bendSample
  exact exists_lines_of_inner hlength' hspeed' hcount hinner'

/-- A stroke that settles has lines, if the move that is shown as it has some. -/
theorem exists_lines {p : Point ℝ} {m : Move ℝ} (h : (shownAs p m).Settles)
    (far : goesNowhere (p, .move m) = false) {shown : List (List Char)}
    (printed : moveLines samples p m = .ok shown) : ∃ b, (shownAs p m).lines samples = .ok b := by
  have apart : Scalar.lt (Point.distance p m.point) negligible = false := far
  rw [moveLines] at printed
  simp only [apart, Bool.false_eq_true, if_false] at printed
  obtain ⟨degrees, -, printed⟩ := bind_eq_ok.mp printed
  cases hm : m.motion with
  | drive =>
    rw [hm] at printed
    obtain ⟨length, hlength, -⟩ := bind_eq_ok.mp printed
    rw [shownAs, controlOf_eq_none (by simp [Move.kind, hm, Motion.kind])]
    exact exists_lines_straight hlength
  | strafe =>
    rw [hm] at printed
    obtain ⟨length, hlength, -⟩ := bind_eq_ok.mp printed
    rw [shownAs, controlOf_eq_none (by simp [Move.kind, hm, Motion.kind])]
    exact exists_lines_straight hlength
  | arc own =>
    rw [hm] at printed
    obtain ⟨control, hcontrol, printed⟩ := exists_controlOf printed hm
    rw [shownAs, hcontrol] at h ⊢
    exact exists_lines_arc printed h.1

end Stroke

end PathStudio.Program.Robot
