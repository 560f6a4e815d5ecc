import PathStudio.Geometry.Bezier
import PathStudio.Proofs.Geometry.Polar

/-!
# Lengths of curves

Over the real numbers the chord between two points of a curve is put together from parts of the two
legs, which lead from the first end to the control point and from there to the other end. No part is
negative, and the parts of all chords make up the legs. So the chords are together at most as long as
the legs, and at least as long as the line from end to end.
-/

namespace PathStudio.Exact

/-! ## Points of a curve -/

theorem inner_eq (t : ℝ) (p0 p1 p2 : Point ℝ) : Bezier.inner t p0 p1 p2 =
    ⟨(1 - t) * (1 - t) * p0.x + 2 * (1 - t) * t * p1.x + t * t * p2.x,
      (1 - t) * (1 - t) * p0.y + 2 * (1 - t) * t * p1.y + t * t * p2.y⟩ := by
  have one : (Scalar.ofInt 1 : ℝ) = 1 := Int.cast_one
  have two : (Scalar.ofInt 2 : ℝ) = 2 := Int.cast_ofNat 2
  rw [← one, ← two]
  rfl

@[simp] theorem inner_zero (p0 p1 p2 : Point ℝ) : Bezier.inner 0 p0 p1 p2 = p0 := by simp [inner_eq]

@[simp] theorem inner_one (p0 p1 p2 : Point ℝ) : Bezier.inner 1 p0 p1 p2 = p2 := by simp [inner_eq]

/-- Between the ends the parameter needs no limits. -/
theorem point_eq_inner {t : ℝ} (lower : 0 ≤ t) (upper : t ≤ 1) (p0 p1 p2 : Point ℝ) :
    Bezier.point t p0 p1 p2 = Bezier.inner t p0 p1 p2 := by
  have zero : (Scalar.ofInt 0 : ℝ) = 0 := Int.cast_zero
  have one : (Scalar.ofInt 1 : ℝ) = 1 := Int.cast_one
  rw [Bezier.point]
  split
  next start =>
    have start : t ≤ Scalar.ofInt 0 := of_decide_eq_true start
    obtain rfl : t = 0 := le_antisymm (zero ▸ start) lower
    rw [inner_zero]
  next =>
    split
    next finish =>
      have finish : Scalar.ofInt 1 ≤ t := of_decide_eq_true finish
      obtain rfl : t = 1 := le_antisymm upper (one ▸ finish)
      rw [inner_one]
    next => rfl

theorem point_parameter {step steps : Nat} (some : 0 < steps) (within : step ≤ steps)
    (p0 p1 p2 : Point ℝ) :
    Bezier.point (Bezier.parameter step steps) p0 p1 p2 =
      Bezier.inner ((step : ℝ) / steps) p0 p1 p2 := by
  have parameter : (Bezier.parameter step steps : ℝ) = step / steps := by
    show ((step : Int) : ℝ) / ((steps : Int) : ℝ) = _
    rw [Int.cast_natCast, Int.cast_natCast]
  have upper : (step : ℝ) / steps ≤ 1 :=
    div_le_one_of_le₀ (by exact_mod_cast within) (Nat.cast_nonneg _)
  rw [parameter, point_eq_inner (by positivity) upper]

/-! ## Chords and legs -/

variable (p0 p1 p2 : Point ℝ)

/-- The length of the parts of the two legs that the chords up to a parameter are put together from. -/
noncomputable def legsBehind (t : ℝ) : ℝ :=
  (1 - (1 - t) ^ 2) * Point.distance p0 p1 + t ^ 2 * Point.distance p1 p2

@[simp] theorem legsBehind_zero : legsBehind p0 p1 p2 0 = 0 := by simp [legsBehind]

@[simp] theorem legsBehind_one :
    legsBehind p0 p1 p2 1 = Point.distance p0 p1 + Point.distance p1 p2 := by simp [legsBehind]

/-- A chord is at most as long as the parts of the legs that it is put together from. -/
theorem distance_inner_le {t u : ℝ} (lower : 0 ≤ t) (order : t ≤ u) (upper : u ≤ 1) :
    Point.distance (Bezier.inner t p0 p1 p2) (Bezier.inner u p0 p1 p2) ≤
      legsBehind p0 p1 p2 u - legsBehind p0 p1 p2 t := by
  have first : 0 ≤ (1 - t) ^ 2 - (1 - u) ^ 2 := by nlinarith
  have last : 0 ≤ u ^ 2 - t ^ 2 := by nlinarith
  have parts :
      (⟨(Bezier.inner u p0 p1 p2).x - (Bezier.inner t p0 p1 p2).x,
        (Bezier.inner u p0 p1 p2).y - (Bezier.inner t p0 p1 p2).y⟩ : ℂ) =
        (((1 - t) ^ 2 - (1 - u) ^ 2 : ℝ) : ℂ) * ⟨p1.x - p0.x, p1.y - p0.y⟩ +
          ((u ^ 2 - t ^ 2 : ℝ) : ℂ) * ⟨p2.x - p1.x, p2.y - p1.y⟩ := by
    rw [inner_eq, inner_eq]
    apply Complex.ext
    · rw [Complex.add_re, Complex.re_ofReal_mul, Complex.re_ofReal_mul]
      ring
    · rw [Complex.add_im, Complex.im_ofReal_mul, Complex.im_ofReal_mul]
      ring
  calc Point.distance (Bezier.inner t p0 p1 p2) (Bezier.inner u p0 p1 p2)
      ≤ ((1 - t) ^ 2 - (1 - u) ^ 2) * Point.distance p0 p1 +
          (u ^ 2 - t ^ 2) * Point.distance p1 p2 := by
        rw [distance_eq_norm, parts, distance_eq_norm p0, distance_eq_norm p1]
        refine (norm_add_le _ _).trans_eq ?_
        rw [norm_mul, norm_mul, Complex.norm_of_nonneg first, Complex.norm_of_nonneg last]
    _ = legsBehind p0 p1 p2 u - legsBehind p0 p1 p2 t := by
        rw [legsBehind, legsBehind]
        ring

/-- Chords that follow each other are together at least as long as the line from the first point to
the last one, and at most as long as their parts of the legs. -/
theorem chords_bounds {steps : Nat} (some : 0 < steps) (count done : Nat)
    (within : done + count ≤ steps) (total : ℝ) :
    let start := Bezier.inner ((done : ℝ) / steps) p0 p1 p2
    let finish := Bezier.inner (((done + count : Nat) : ℝ) / steps) p0 p1 p2
    let chords := Bezier.chords p0 p1 p2 steps start total (List.range' (done + 1) count)
    total + Point.distance start finish ≤ chords ∧
      chords ≤ total + (legsBehind p0 p1 p2 (((done + count : Nat) : ℝ) / steps) -
        legsBehind p0 p1 p2 ((done : ℝ) / steps)) := by
  intro start finish chords
  induction count generalizing done total with
  | zero =>
    have none : chords = total := rfl
    have same : finish = start := rfl
    rw [none, same, distance_self]
    simp
  | succ count ih =>
    have positive : (0 : ℝ) < steps := by exact_mod_cast some
    have order : (done : ℝ) / steps ≤ ((done + 1 : Nat) : ℝ) / steps := by
      gcongr
      omega
    have upper : ((done + 1 : Nat) : ℝ) / steps ≤ 1 :=
      div_le_one_of_le₀ (by exact_mod_cast (by omega : done + 1 ≤ steps)) positive.le
    have chord := distance_inner_le p0 p1 p2 (by positivity) order upper
    have rest : done + 1 + count = done + (count + 1) := by omega
    obtain ⟨longer, shorter⟩ := ih (done + 1) (by omega)
      (total + Point.distance start (Bezier.inner (((done + 1 : Nat) : ℝ) / steps) p0 p1 p2))
    rw [rest] at longer shorter
    have triangle := distance_triangle start
      (Bezier.inner (((done + 1 : Nat) : ℝ) / steps) p0 p1 p2) finish
    have first : chords = Bezier.chords p0 p1 p2 steps
        (Bezier.inner (((done + 1 : Nat) : ℝ) / steps) p0 p1 p2)
        (total + Point.distance start (Bezier.inner (((done + 1 : Nat) : ℝ) / steps) p0 p1 p2))
        (List.range' (done + 1 + 1) count) := by
      rw [← point_parameter some (by omega : done + 1 ≤ steps)]
      rfl
    rw [first]
    constructor <;> linarith

/-- A curve that is measured by the chords of any number of steps is at least as long as the line
between its ends and at most as long as its two legs. -/
theorem length_between_chord_and_legs {steps : Nat} (some : 1 ≤ steps) :
    Point.distance p0 p2 ≤ Bezier.length p0 p1 p2 steps ∧
      Bezier.length p0 p1 p2 steps ≤ Point.distance p0 p1 + Point.distance p1 p2 := by
  have positive : (0 : ℝ) < steps := by exact_mod_cast some
  have none : (Scalar.ofInt 0 : ℝ) = 0 := Int.cast_zero
  have bounds := chords_bounds p0 p1 p2 some steps 0 (by omega) (Scalar.ofInt 0)
  rw [Nat.zero_add, Nat.cast_zero, zero_div, div_self positive.ne'] at bounds
  dsimp only at bounds
  rw [inner_zero, inner_one, legsBehind_zero, legsBehind_one, none, zero_add, zero_add, zero_add,
    sub_zero] at bounds
  have length : Bezier.length p0 p1 p2 steps =
      Bezier.chords p0 p1 p2 steps p0 (Scalar.ofInt 0) (List.range' 1 steps) := rfl
  rw [length, none]
  exact bounds

/-- Ten chords over two legs of five metres each, with ends that are eight metres apart. -/
theorem length_between_chord_and_legs_bow : 1 ≤ Bezier.defaultSteps ∧
    8 ≤ Bezier.length (⟨0, 0⟩ : Point ℝ) ⟨4, 3⟩ ⟨8, 0⟩ Bezier.defaultSteps ∧
      Bezier.length (⟨0, 0⟩ : Point ℝ) ⟨4, 3⟩ ⟨8, 0⟩ Bezier.defaultSteps ≤ 10 := by
  have some : 1 ≤ Bezier.defaultSteps := by decide
  have root {a b c : ℝ} (nonnegative : 0 ≤ c) (square : a ^ 2 + b ^ 2 = c ^ 2) :
      Real.sqrt (a ^ 2 + b ^ 2) = c := by rw [square, Real.sqrt_sq nonnegative]
  have chord : Point.distance (⟨0, 0⟩ : Point ℝ) ⟨8, 0⟩ = 8 := root (by norm_num) (by norm_num)
  have first : Point.distance (⟨0, 0⟩ : Point ℝ) ⟨4, 3⟩ = 5 := root (by norm_num) (by norm_num)
  have last : Point.distance (⟨4, 3⟩ : Point ℝ) ⟨8, 0⟩ = 5 := root (by norm_num) (by norm_num)
  obtain ⟨lower, upper⟩ := length_between_chord_and_legs (⟨0, 0⟩ : Point ℝ) ⟨4, 3⟩ ⟨8, 0⟩ some
  rw [chord] at lower
  rw [first, last] at upper
  exact ⟨some, lower, upper.trans_eq (by norm_num)⟩

end PathStudio.Exact
