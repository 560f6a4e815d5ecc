import PathStudio.Proofs.Geometry.Angle
import PathStudio.Proofs.Scalar.Double

/-!
# The normal form of an angle

Among the angles that differ from a given one by whole turns exactly one is above -180 and up to
180 degrees. On finite doubles neither the remainder nor the correction after it is rounded, so
that their normal form is that of the number they stand for.
-/

namespace PathStudio.Exact

open Binary Double

/-- An angle above -180 and up to 180 degrees that differs from another by whole turns. -/
structure IsNormal (d r : ℝ) : Prop where
  lower : -180 < r
  upper : r ≤ 180
  congruent : ∃ turns : Int, d - r = turns * 360

theorem isNormal_iff {d r : ℝ} : IsNormal d r ↔ r = normal d := by
  constructor
  · intro h
    obtain ⟨turns, apart⟩ := h.congruent
    apply Eq.symm
    apply normal_eq_of h.lower h.upper turns
    linarith
  · rintro rfl
    obtain ⟨turns, apart⟩ := exists_turns d
    exact ⟨(normal_mem d).1, (normal_mem d).2, turns, by linarith⟩

@[simp] theorem normal_normal (d : ℝ) : normal (normal d) = normal d :=
  normal_of_mem (normal_mem d).1 (normal_mem d).2

/-- Just the whole turns have the normal form zero. -/
theorem normal_eq_zero_iff {d : ℝ} : normal d = 0 ↔ ∃ turns : Int, d = turns * 360 := by
  constructor
  · intro h
    obtain ⟨turns, apart⟩ := exists_turns d
    rw [h, zero_add] at apart
    exact ⟨turns, apart⟩
  · rintro ⟨turns, rfl⟩
    exact normal_eq_of (by norm_num) (by norm_num) turns (by ring)

/-! ## Doubles -/

/-- The truncated quotient is known by what remains: less than a turn, to the same side. -/
theorem truncate_turns_eq {d : ℝ} {turns : Int} (below : |d - turns * 360| < 360)
    (side : 0 ≤ d * (d - turns * 360)) : truncate (d / 360) = turns := by
  rw [abs_lt] at below
  rw [truncate]
  split
  next negative =>
    have before : d < 0 := by linarith
    have rest : d - turns * 360 ≤ 0 := nonpos_of_mul_nonneg_right side before
    apply Int.ceil_eq_iff.mpr
    constructor <;> linarith
  next nonnegative =>
    have rest : 0 ≤ d - turns * 360 := by
      obtain positive | zero := (show 0 ≤ d by linarith).lt_or_eq
      · exact nonneg_of_mul_nonneg_right side positive
      · -- less than a turn from zero there are no whole turns but none
        subst zero
        have few : -1 < (turns : ℝ) ∧ (turns : ℝ) < 1 := by constructor <;> linarith
        obtain rfl : turns = 0 := by
          have lower : -1 < turns := by exact_mod_cast few.1
          have upper : turns < 1 := by exact_mod_cast few.2
          omega
        norm_num
    apply Int.floor_eq_iff.mpr
    constructor <;> linarith

section Doubles

variable {x q : Float} {v t : ℚ}

theorem normal_ratCast {w : ℚ} (lower : -180 < w) (upper : w ≤ 180) (turns : Int)
    (h : v = w + turns * 360) : normal v = w := by
  apply normal_eq_of
  · exact_mod_cast lower
  · exact_mod_cast upper
  · exact_mod_cast h

/-- The remainder of a turn is not rounded. -/
theorem exists_remainder_turn (h : HasValue x v) :
    ∃ (q : Float) (t : ℚ), Scalar.remainder x (Scalar.ofInt 360) = .ok q ∧ HasValue q t ∧
      |t| < 360 ∧ (t : ℝ) = v - 360 * truncate (v / 360) := by
  have turn : HasValue (ofInt 360) 360 := hasValue_ofInt (n := 360) (by decide)
  obtain ⟨q, turns, found, value, below, side⟩ := exists_remainder h turn (by norm_num)
  have same : truncate ((v : ℝ) / 360) = turns := by
    apply truncate_turns_eq
    · exact_mod_cast below
    · exact_mod_cast side
  refine ⟨q, v - turns * 360, found, value, below, ?_⟩
  rw [same]
  push_cast
  ring

/-- The correction of a remainder is not rounded. -/
theorem exists_corrected (h : HasValue q t) (below : |t| < 360) :
    ∃ (r : Float) (w : ℚ),
      (if Scalar.lt (Scalar.ofInt 180) q then .ok (q - Scalar.ofInt 360)
        else if Scalar.le q (-Scalar.ofInt 180) then .ok (q + Scalar.ofInt 360)
        else .ok q : Outcome Float) = .ok r ∧ HasValue r w ∧ normal t = w := by
  have turn : HasValue (Scalar.ofInt 360) 360 := hasValue_ofInt (n := 360) (by decide)
  have half : HasValue (Scalar.ofInt 180) 180 := hasValue_ofInt (n := 180) (by decide)
  have above : Scalar.lt (Scalar.ofInt 180) q = true ↔ 180 < t := by
    rw [← lt_iff_of_hasValue half h]
    exact decide_eq_true_iff
  have under : Scalar.le q (-Scalar.ofInt 180) = true ↔ t ≤ -180 := by
    rw [← le_iff_of_hasValue h (hasValue_neg half)]
    exact decide_eq_true_iff
  rw [abs_lt] at below
  -- what is left after a correction is no larger than either of its terms
  by_cases high : 180 < t
  · refine ⟨_, t - 360, if_pos (above.mpr high), ?_, ?_⟩
    · apply hasValue_sub h turn
      · rw [abs_of_neg (by linarith), abs_of_pos (by linarith)]
        linarith
      · rw [abs_of_neg (by linarith), abs_of_pos (by norm_num)]
        linarith
    · apply normal_ratCast (by linarith) (by linarith) 1
      norm_num
  rw [if_neg (fun found => high (above.mp found))]
  by_cases low : t ≤ -180
  · refine ⟨_, t + 360, if_pos (under.mpr low), ?_, ?_⟩
    · apply hasValue_add h turn
      · rw [abs_of_pos (by linarith), abs_of_neg (by linarith)]
        linarith
      · rw [abs_of_pos (by linarith), abs_of_pos (by norm_num)]
        linarith
    · apply normal_ratCast (by linarith) (by linarith) (-1)
      norm_num
  · refine ⟨q, t, if_neg (fun found => low (under.mp found)), h, ?_⟩
    apply normal_ratCast (by linarith) (by linarith) 0
    norm_num

/-- The normal form of a double stands for that of its value. -/
theorem exists_normalizeDegrees (h : HasValue x v) :
    ∃ (q r : Float) (t w : ℚ), Scalar.remainder x (Scalar.ofInt 360) = .ok q ∧ HasValue q t ∧
      Scalar.remainder (v : ℝ) (Scalar.ofInt 360) = .ok (t : ℝ) ∧
      normalizeDegrees x = .ok r ∧ HasValue r w ∧ normal v = w := by
  obtain ⟨q, t, left, rest, below, exact⟩ := exists_remainder_turn h
  obtain ⟨r, w, corrected, value, normal⟩ := exists_corrected rest below
  refine ⟨q, r, t, w, left, rest, ?_, bind_eq_ok.mpr ⟨q, left, corrected⟩, value, ?_⟩
  · rw [remainder_turn, exact]
  · rw [← normal, ← normal_add_turns t (truncate (v / 360)), exact]
    congr 1
    ring

end Doubles

/-- The normal form of an angle is the only angle above -180 and up to 180 degrees that differs from
it by whole turns. It is its own normal form and that of all angles that differ by whole turns, and
the difference of two angles has the normal form zero just if they differ by whole turns. For a
finite double the remainder and the normal form stand for those of the number it stands for, and so
does what is normalized once more or whole turns away. -/
theorem normalizeDegrees_canonical :
    (∀ d : ℝ, ∃ r, normalizeDegrees d = .ok r ∧ (∀ s, IsNormal d s ↔ s = r) ∧
      normalizeDegrees r = .ok r ∧ ∀ turns : Int, normalizeDegrees (d + 360 * turns) = .ok r) ∧
    (∀ a b : ℝ, normalizeDegrees (a - b) = .ok 0 ↔ ∃ turns : Int, a - b = turns * 360) ∧
    ∀ x : Float, x.isFinite = true → ∃ (v : ℚ) (q r : Float) (t w : ℚ), HasValue x v ∧
      Scalar.remainder x (Scalar.ofInt 360) = .ok q ∧ HasValue q t ∧
      Scalar.remainder (v : ℝ) (Scalar.ofInt 360) = .ok (t : ℝ) ∧
      normalizeDegrees x = .ok r ∧ HasValue r w ∧ IsNormal v w ∧
      (∃ s, normalizeDegrees r = .ok s ∧ HasValue s w) ∧
      ∀ (y : Float) (turns : Int), HasValue y (v + 360 * turns) →
        ∃ s, normalizeDegrees y = .ok s ∧ HasValue s w := by
  refine ⟨?_, ?_, ?_⟩
  · intro d
    refine ⟨normal d, normalizeDegrees_eq d, fun s => isNormal_iff, ?_, ?_⟩
    · rw [normalizeDegrees_eq, normal_normal]
    · intro turns
      rw [normalizeDegrees_eq, mul_comm, normal_add_turns]
  · intro a b
    rw [normalizeDegrees_eq, Except.ok.injEq, normal_eq_zero_iff]
  · intro x finite
    obtain ⟨v, value⟩ := hasValue_of_isFinite finite
    obtain ⟨q, r, t, w, left, rest, exact, normalized, value', same⟩ := exists_normalizeDegrees value
    -- any double whose value has the same normal form is normalized to the same value
    have again {y : Float} {u : ℚ} (h : HasValue y u) (alike : normal u = normal v) :
        ∃ s, normalizeDegrees y = .ok s ∧ HasValue s w := by
      obtain ⟨-, s, -, w', -, -, -, found, value, same'⟩ := exists_normalizeDegrees h
      obtain rfl : w' = w := by
        have equal : (w' : ℝ) = w := by rw [← same', alike, same]
        exact_mod_cast equal
      exact ⟨s, found, value⟩
    refine ⟨v, q, r, t, w, value, left, rest, exact, normalized, value', ?_, ?_, ?_⟩
    · exact isNormal_iff.mpr same.symm
    · apply again value'
      rw [← same, normal_normal]
    · intro y turns h
      apply again h
      push_cast
      rw [mul_comm, normal_add_turns]

/-- Three half turns are a half turn, as one half turn is. -/
theorem normalizeDegrees_canonical_half_turns :
    (ofInt 540).isFinite = true ∧ HasValue (ofInt 180) (540 + 360 * (-1 : Int)) ∧
      (∃ r, normalizeDegrees (ofInt 540) = .ok r ∧ HasValue r 180) ∧
      ∃ s, normalizeDegrees (ofInt 180) = .ok s ∧ HasValue s 180 := by
  have finite : (ofInt 540).isFinite = true := by decide
  have half : HasValue (ofInt 180) (540 + 360 * (-1 : Int)) := by
    have value : HasValue (ofInt 180) 180 := hasValue_ofInt (n := 180) (by decide)
    norm_num
    exact value
  obtain ⟨v, q, r, t, w, value, -, -, -, normalized, value', normal, -, period⟩ :=
    normalizeDegrees_canonical.2.2 (ofInt 540) finite
  obtain rfl : v = 540 := value_unique value (hasValue_ofInt (n := 540) (by decide))
  obtain rfl : w = 180 := by
    have same : (w : ℝ) = 180 := by
      rw [isNormal_iff.mp normal]
      exact normal_eq_of (by norm_num) le_rfl 1 (by norm_num)
    exact_mod_cast same
  exact ⟨finite, half, ⟨r, normalized, value'⟩, period (ofInt 180) (-1) half⟩

end PathStudio.Exact
