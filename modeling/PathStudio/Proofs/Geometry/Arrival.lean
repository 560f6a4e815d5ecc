import PathStudio.Geometry.Bezier
import PathStudio.Proofs.Geometry.Polar

/-!
# Where curves arrive

A curve arrives in the direction from its control point to its end, wherever it
comes from. Whole degrees of that direction and of the one mirrored at the first
axis are the same only near the axis. The chords of a curve between points of a
square are bounded by the square.
-/

namespace PathStudio.Exact

/-! ## The direction at the end -/

/-- The point before an arc has no part in the direction in which the arc ends. -/
theorem tangent_one (p c q : Point ℝ) : Bezier.tangent 1 p c q = Point.bearing c q := by
  have last (a b d : ℝ) : ((2 : Int) : ℝ) * (((1 : Int) : ℝ) - 1) * (b - a)
      + ((2 : Int) : ℝ) * 1 * (d - b) = 2 * (d - b) := by
    push_cast
    ring
  show toDegrees (Complex.arg
    ⟨((2 : Int) : ℝ) * (((1 : Int) : ℝ) - 1) * (c.x - p.x) + ((2 : Int) : ℝ) * 1 * (q.x - c.x),
    ((2 : Int) : ℝ) * (((1 : Int) : ℝ) - 1) * (c.y - p.y) + ((2 : Int) : ℝ) * 1 * (q.y - c.y)⟩) = _
  rw [last, last, arg_stretch two_pos, bearing_eq]

/-- The direction from one point to another leads there. -/
@[simp] theorem ahead_bearing (c q : Point ℝ) : ahead c (Point.distance c q) (Point.bearing c q) = q := by
  have radians : toRadians (Point.bearing c q) = Complex.arg ⟨q.x - c.x, q.y - c.y⟩ := by
    rw [bearing_eq, toRadians_eq, toDegrees_eq]
    field_simp
  rw [ahead, radians, distance_eq_norm, Complex.norm_mul_cos_arg, Complex.norm_mul_sin_arg]
  simp only [add_sub_cancel]

theorem bearing_mem (c q : Point ℝ) : -180 < Point.bearing c q ∧ Point.bearing c q ≤ 180 := by
  have positive := Real.pi_pos
  have lower := Complex.neg_pi_lt_arg ⟨q.x - c.x, q.y - c.y⟩
  have upper := Complex.arg_le_pi ⟨q.x - c.x, q.y - c.y⟩
  rw [bearing_eq, toDegrees_eq, lt_div_iff₀ positive, div_le_iff₀ positive]
  constructor <;> linarith

/-! ## Whole degrees of mirrored directions -/

/-- Whether whole degrees stand for the same direction, give or take one. -/
def Agree (a b : Int) : Prop := ∃ turns : Int, |a - b - 360 * turns| ≤ 1

theorem agree_mirrored_of_flat {d : ℝ} (flat : |d| ≤ 1 / 2) : Agree (round (-d)) (round d) := by
  obtain ⟨lower, upper⟩ := abs_le.mp flat
  have bounds {e : ℝ} (lower : -(1 / 2) ≤ e) (upper : e ≤ 1 / 2) : 0 ≤ round e ∧ round e ≤ 1 := by
    rw [round_eq]
    constructor
    · exact Int.floor_nonneg.mpr (by linarith)
    · exact Int.lt_add_one_iff.mp (Int.floor_lt.mpr (by push_cast; linarith))
  have here := bounds lower upper
  have mirrored := bounds (e := -d) (by linarith) (by linarith)
  exact ⟨0, abs_le.mpr (by omega)⟩

/-- A direction at least half a degree off the axis and the mirrored one have whole degrees of
different signs. -/
theorem round_of_steep {d : ℝ} (lower : 1 / 2 < d) (upper : d < 359 / 2) :
    (1 ≤ round d ∧ round d ≤ 179) ∧ (-179 ≤ round (-d) ∧ round (-d) ≤ -1) := by
  rw [round_eq, round_eq]
  refine ⟨⟨Int.le_floor.mpr ?_, Int.lt_add_one_iff.mp (Int.floor_lt.mpr ?_)⟩,
    Int.le_floor.mpr ?_, Int.lt_add_one_iff.mp (Int.floor_lt.mpr ?_)⟩
  all_goals push_cast; linarith

theorem round_of_back {d : ℝ} (lower : 359 / 2 ≤ d) (upper : d ≤ 180) :
    round d = 180 ∧ (-180 ≤ round (-d) ∧ round (-d) ≤ -179) := by
  rw [round_eq, round_eq]
  refine ⟨Int.floor_eq_iff.mpr ⟨?_, ?_⟩,
    Int.le_floor.mpr ?_, Int.lt_add_one_iff.mp (Int.floor_lt.mpr ?_)⟩
  all_goals push_cast; linarith

theorem Agree.symm {a b : Int} (h : Agree a b) : Agree b a := by
  obtain ⟨turns, near⟩ := h
  refine ⟨-turns, ?_⟩
  rw [abs_le] at near ⊢
  omega

/-- Whole degrees of a direction and of the one mirrored at the first axis agree only where the
direction is within half a degree of the axis. -/
theorem agree_mirrored_iff {d : ℝ} (lower : -180 < d) (upper : d ≤ 180) :
    Agree (round (-d)) (round d) ↔ |d| ≤ 1 / 2 ∨ 359 / 2 ≤ |d| := by
  -- the other half plane is the same with the two directions exchanged
  have right {e : ℝ} (above : 0 ≤ e) (upper : e ≤ 180) :
      Agree (round (-e)) (round e) ↔ e ≤ 1 / 2 ∨ 359 / 2 ≤ e := by
    by_cases flat : e ≤ 1 / 2
    · exact iff_of_true (agree_mirrored_of_flat (by rwa [abs_of_nonneg above])) (.inl flat)
    by_cases back : 359 / 2 ≤ e
    · obtain ⟨here, mirrored⟩ := round_of_back back upper
      refine iff_of_true ⟨-1, abs_le.mpr ?_⟩ (.inr back)
      omega
    · obtain ⟨here, mirrored⟩ := round_of_steep (not_le.mp flat) (not_le.mp back)
      refine iff_of_false ?_ (not_or.mpr ⟨flat, back⟩)
      rintro ⟨turns, near⟩
      rw [abs_le] at near
      omega
  obtain below | above := lt_or_ge d 0
  · have other := right (e := -d) (by linarith) (by linarith)
    rw [neg_neg] at other
    rw [abs_of_neg below, ← other]
    exact ⟨Agree.symm, Agree.symm⟩
  · rw [abs_of_nonneg above]
    exact right above upper

/-! ## The length of a curve -/

/-- Whether a point is in the square around the origin with sides of twice the given length. -/
def InSquare (half : ℝ) (p : Point ℝ) : Prop := |p.x| ≤ half ∧ |p.y| ≤ half

theorem distance_le {half : ℝ} {p q : Point ℝ} (hp : InSquare half p) (hq : InSquare half q) :
    Point.distance p q ≤ 4 * half := by
  have nonnegative : 0 ≤ half := (abs_nonneg _).trans hp.1
  have side {a b : ℝ} (ha : |a| ≤ half) (hb : |b| ≤ half) : (b - a) ^ 2 ≤ (2 * half) ^ 2 := by
    rw [abs_le] at ha hb
    exact sq_le_sq' (by linarith) (by linarith)
  rw [distance_eq]
  refine Real.sqrt_le_iff.mpr ⟨by linarith, ?_⟩
  have x := side hp.1 hq.1
  have y := side hp.2 hq.2
  nlinarith [sq_nonneg half]

/-- A curve stays in the square of its points. -/
theorem inSquare_point {half : ℝ} {p0 p1 p2 : Point ℝ} (h0 : InSquare half p0)
    (h1 : InSquare half p1) (h2 : InSquare half p2) (t : ℝ) :
    InSquare half (Bezier.point t p0 p1 p2) := by
  have zero : (Scalar.ofInt 0 : ℝ) = 0 := Int.cast_zero
  have one : (Scalar.ofInt 1 : ℝ) = 1 := Int.cast_one
  rw [Bezier.point]
  split
  next => exact h0
  next begun =>
    split
    next => exact h2
    next unfinished =>
      have lower : 0 < t := zero ▸ not_le.mp (of_decide_eq_false (Bool.eq_false_iff.mpr begun))
      have upper : t < 1 := one ▸ not_le.mp (of_decide_eq_false (Bool.eq_false_iff.mpr unfinished))
      have mean {a b c : ℝ} (ha : |a| ≤ half) (hb : |b| ≤ half) (hc : |c| ≤ half) :
          |(((1 : Int) : ℝ) - t) * (((1 : Int) : ℝ) - t) * a
            + ((2 : Int) : ℝ) * (((1 : Int) : ℝ) - t) * t * b + t * t * c| ≤ half := by
        have rest : 0 < 1 - t := by linarith
        rw [abs_le] at ha hb hc ⊢
        push_cast
        have w0 : 0 ≤ (1 - t) * (1 - t) := by positivity
        have w1 : 0 ≤ 2 * (1 - t) * t := by positivity
        have w2 : 0 ≤ t * t := by positivity
        constructor <;> nlinarith
      exact ⟨mean h0.1 h1.1 h2.1, mean h0.2 h1.2 h2.2⟩

theorem chords_mem {half : ℝ} {p0 p1 p2 : Point ℝ} (h0 : InSquare half p0) (h1 : InSquare half p1)
    (h2 : InSquare half p2) (steps : Nat) {last : Point ℝ} (hlast : InSquare half last) (total : ℝ)
    (more : List Nat) : total ≤ Bezier.chords p0 p1 p2 steps last total more ∧
      Bezier.chords p0 p1 p2 steps last total more ≤ total + more.length * (4 * half) := by
  induction more generalizing last total with
  | nil => simp [Bezier.chords]
  | cons step more ih =>
    have next := inSquare_point h0 h1 h2 (Bezier.parameter step steps)
    have short := distance_le hlast next
    have nonnegative :
        0 ≤ Point.distance last (Bezier.point (Bezier.parameter step steps) p0 p1 p2) :=
      Real.sqrt_nonneg _
    obtain ⟨lower, upper⟩ :=
      ih next (total + Point.distance last (Bezier.point (Bezier.parameter step steps) p0 p1 p2))
    rw [Bezier.chords, List.length_cons, Nat.cast_add, Nat.cast_one]
    constructor <;> linarith

/-- The chords of a curve are no longer than their number of ways across the square. -/
theorem length_mem {half : ℝ} {p0 p1 p2 : Point ℝ} (h0 : InSquare half p0) (h1 : InSquare half p1)
    (h2 : InSquare half p2) (steps : Nat) :
    0 ≤ Bezier.length p0 p1 p2 steps ∧ Bezier.length p0 p1 p2 steps ≤ steps * (4 * half) := by
  have zero : (Scalar.ofInt 0 : ℝ) = 0 := Int.cast_zero
  have bounds := chords_mem h0 h1 h2 steps h0 0 (List.range' 1 steps)
  rw [List.length_range', zero_add] at bounds
  change 0 ≤ Bezier.chords p0 p1 p2 steps p0 (Scalar.ofInt 0) (List.range' 1 steps) ∧
    Bezier.chords p0 p1 p2 steps p0 (Scalar.ofInt 0) (List.range' 1 steps) ≤ _
  rw [zero]
  exact bounds

end PathStudio.Exact
