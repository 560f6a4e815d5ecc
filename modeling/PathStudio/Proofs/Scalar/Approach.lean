import PathStudio.Proofs.Scalar.Hypotenuse

/-!
# Approaching a number

A number that goes part of the way toward another one, in the proportion of two lengths, moves in
the direction of the difference and oversteps it at most by the errors of rounding. So
it never leaves the range of a power of two that the targets keep well within: rounding does not
carry a number past a power of two, however often something is added.
-/

/-! ## Sums that stay below a power of two -/

namespace PathStudio.Binary

open Float.Model Float.Model.UnpackedFloat

variable {m : Nat} {e N : Int}

/-- A rounded number below a power of two is at most that power. -/
theorem exists_roundWithAccuracy_of_lt {negative : Bool} {a : Accuracy} (wide : Wide m e)
    (hN : -1022 ≤ N) (hN' : N ≤ 1022) (h : (m : ℚ) * 2 ^ e < 2 ^ N) :
    ∃ q, HasValue (.ofModel (Float.Model.pack
        (roundWithAccuracy Format.binary64 (signOf negative) m e a))) q ∧ |q| ≤ 2 ^ N := by
  have target := roundingExponent_le hN wide h.le
  have below := wide.le_roundingExponent
  obtain ⟨r, -, upper, value⟩ :=
    @hasValue_roundWithAccuracy negative m e a wide (by omega)
  refine ⟨_, value, ?_⟩
  rw [abs_value]
  generalize roundingExponent m e = t at *
  have unit : (0 : ℚ) < 2 ^ t := by positivity
  have whole : (2 : ℚ) ^ N = (2 ^ (N - t).toNat : Nat) * 2 ^ t := by
    rw [Nat.cast_pow, Nat.cast_ofNat, ← zpow_natCast, ← zpow_add₀ two_ne_zero]
    congr 1
    omega
  have shifted : ((m / 2 ^ (t - e).toNat : Nat) : ℚ) * 2 ^ t ≤ m * 2 ^ e := by
    have split : (2 : ℚ) ^ t = 2 ^ (t - e).toNat * 2 ^ e := by
      rw [← zpow_natCast, ← zpow_add₀ two_ne_zero]
      congr 1
      omega
    have cut : (m / 2 ^ (t - e).toNat * 2 ^ (t - e).toNat : Nat) ≤ m := Nat.div_mul_le_self ..
    have cut' : ((m / 2 ^ (t - e).toNat : Nat) : ℚ) * 2 ^ (t - e).toNat ≤ m := by exact_mod_cast cut
    rw [split, ← mul_assoc]
    gcongr
  have counted : m / 2 ^ (t - e).toNat < 2 ^ (N - t).toNat := by
    rw [whole] at h
    exact_mod_cast lt_of_mul_lt_mul_right (shifted.trans_lt h) unit.le
  have counted' : (r : ℚ) ≤ (2 ^ (N - t).toNat : Nat) := by exact_mod_cast upper.trans counted
  rw [whole]
  gcongr

/-- A number with an exponent of its own is rounded like one that is wide enough. -/
theorem exists_wide (positive : 0 < m) (e : Int) : ∃ m' e', Wide m' e' ∧
    (m' : ℚ) * 2 ^ e' = m * 2 ^ e ∧ ∀ s, UnpackedFloat.round Format.binary64 s m e =
      roundWithAccuracy Format.binary64 s m' e' .exact := by
  simp only [UnpackedFloat.round, decreaseExponent, targetExponent_eq, Nat.shiftLeft_eq]
  generalize hk : (e - roundingExponent m e).toNat = k
  refine ⟨m * 2 ^ k, e - k, ?_, ?_, fun _ => rfl⟩
  · by_cases least : roundingExponent m e = -1074
    · exact .inr (by omega)
    · left
      have enough : 52 ≤ m.log2 + k := by
        rw [roundingExponent] at hk least
        omega
      calc 2 ^ 52 ≤ 2 ^ (m.log2 + k) := Nat.pow_le_pow_right (by decide) enough
        _ = 2 ^ m.log2 * 2 ^ k := Nat.pow_add ..
        _ ≤ m * 2 ^ k := Nat.mul_le_mul_right _ (Nat.log2_self_le (Nat.ne_of_gt positive))
  · have split : e = e - (k : Int) + k := by omega
    conv_rhs => rw [split, zpow_add₀ two_ne_zero, zpow_natCast]
    push_cast
    ring

theorem normalize_of_ne_zero {k : Int} (h : k ≠ 0) (e : Int) (zero : Sign) :
    normalize Format.binary64 k e zero =
      UnpackedFloat.round Format.binary64 (signOf (decide (k < 0))) k.natAbs e := by
  rw [UnpackedFloat.normalize]
  obtain below | rfl | above := lt_trichotomy k 0
  · have magnitude : (-k).toNat = k.natAbs := by omega
    rw [Int.compare_eq_lt.mpr below, decide_eq_true below]
    dsimp only
    rw [magnitude]
    rfl
  · exact absurd rfl h
  · have magnitude : k.toNat = k.natAbs := by omega
    rw [Int.compare_eq_gt.mpr above, decide_eq_false (by omega)]
    dsimp only
    rw [magnitude]
    rfl

end PathStudio.Binary

namespace PathStudio.Double

open Binary Float.Model Float.Model.UnpackedFloat

variable {x y : Float} {u v : ℚ}

/-- Zero adds nothing. -/
theorem hasValue_add_of_zero (hx : HasValue x u) (hy : HasValue y 0) : HasValue (x + y) u := by
  obtain ⟨n₁, m₁, e₁, h₁, rfl⟩ := hx
  obtain ⟨n₂, m₂, e₂, h₂, zero⟩ := hy
  obtain rfl : m₂ = 0 := value_eq_zero_iff.mp zero.symm
  rw [add_eq, h₁, h₂]
  by_cases positive : 0 < m₁
  · simp only [unpacked, positive, dif_pos, Nat.lt_irrefl, dif_neg, not_false_iff, UnpackedFloat.add]
    exact hasValue_pack_finite positive (canonical_of_finite h₁)
  · obtain rfl := Nat.eq_zero_of_not_pos positive
    rw [Nat.cast_zero, zero_mul, mul_zero]
    exact hasValue_add_zero n₁ n₂ e₁ e₂

/-- A sum that is below a power of two is rounded to at most that power. -/
theorem exists_add_of_lt (hx : HasValue x u) (hy : HasValue y v) {N : Nat} (hN : N ≤ 1000)
    (h : |u + v| < 2 ^ N) : ∃ w, HasValue (x + y) w ∧ |w| ≤ 2 ^ N := by
  obtain ⟨n₁, m₁, e₁, h₁, rfl⟩ := hx
  obtain ⟨n₂, m₂, e₂, h₂, rfl⟩ := hy
  rw [add_eq, h₁, h₂]
  by_cases positive₁ : 0 < m₁
  · by_cases positive₂ : 0 < m₂
    · obtain ⟨k, sum, value⟩ := exists_add_eq n₁ n₂ positive₁ positive₂ e₁ e₂
      rw [← value] at h
      rw [sum]
      generalize min e₁ e₂ = e at h
      by_cases zero : k = 0
      · subst zero
        exact ⟨0, hasValue_pack_zero false, by rw [abs_zero]; positivity⟩
      · obtain ⟨m, f, wide, same, rounded⟩ := exists_wide (Int.natAbs_pos.mpr zero) e
        rw [normalize_of_ne_zero zero, rounded]
        obtain ⟨w, hw, bound⟩ := @exists_roundWithAccuracy_of_lt m f N (decide (k < 0)) .exact wide
          (by omega) (by omega) (by
            rw [same, zpow_natCast, Nat.cast_natAbs, Int.cast_abs]
            rwa [abs_mul, abs_of_pos (show (0 : ℚ) < 2 ^ e by positivity)] at h)
        exact ⟨w, hw, by rwa [zpow_natCast] at bound⟩
    · obtain rfl := Nat.eq_zero_of_not_pos positive₂
      simp only [unpacked, positive₁, dif_pos, Nat.lt_irrefl, dif_neg, not_false_iff,
        UnpackedFloat.add]
      refine ⟨_, hasValue_pack_finite positive₁ (canonical_of_finite h₁), ?_⟩
      simpa using h.le
  · obtain rfl := Nat.eq_zero_of_not_pos positive₁
    by_cases positive₂ : 0 < m₂
    · simp only [unpacked, positive₂, dif_pos, Nat.lt_irrefl, dif_neg, not_false_iff,
        UnpackedFloat.add]
      refine ⟨_, hasValue_pack_finite positive₂ (canonical_of_finite h₂), ?_⟩
      simpa using h.le
    · obtain rfl := Nat.eq_zero_of_not_pos positive₂
      exact ⟨0, hasValue_add_zero n₁ n₂ e₁ e₂, by rw [abs_zero]; positivity⟩

end PathStudio.Double

/-! ## Steps toward a number -/

namespace PathStudio.Double

open Binary Float.Model

variable {N : Nat} {x t d r : Float} {D R : ℚ}

/-- Part of a number, in the proportion of two lengths, is rounded to a number of the same sign that
is off by little. -/
theorem exists_part {a : ℚ} {n : Bool} (hx : HasValue x a) (sign : Signed n x) (hd : HasValue d D)
    (hr : HasValue r R) (forward : Signed false r) (short : R < D) (wide : |a| ≤ 2 * D)
    (bound : D ≤ 2 ^ N) (small : N ≤ 900) :
    ∃ s, HasValue (x / d * r) s ∧ 0 ≤ factor n * s ∧
      |s - a * (R / D)| ≤ 2 ^ (N + 2) * 2 ^ (-50 : Int) := by
  have nonneg : 0 ≤ R := by simpa using forward.factor_mul_nonneg hr
  have positive : 0 < D := nonneg.trans_lt short
  have quotient : |a / D| ≤ 2 ^ (1 : Int) := by
    rw [abs_div, abs_of_pos positive, div_le_iff₀ positive]
    norm_num
    exact wide
  obtain ⟨q, hq, error, -⟩ := exists_div hx hd positive.ne' (by decide) (by decide) quotient
  have unit : (2 : ℚ) * 2 ^ ((1 : Int) - 52) = 2 ^ (-50 : Int) := by norm_num
  rw [unit] at error
  have ample : |q| ≤ 4 := by
    have tiny : (2 : ℚ) ^ (-50 : Int) ≤ 1 := by norm_num
    have triangle := abs_sub_abs_le_abs_sub q (a / D)
    norm_num at quotient
    linarith
  have product : |q * R| ≤ 2 ^ ((N + 2 : Nat) : Int) := by
    rw [abs_mul, abs_of_nonneg nonneg, zpow_natCast, pow_add]
    calc |q| * R ≤ 4 * 2 ^ N := by gcongr; linarith
      _ = 2 ^ N * 2 ^ 2 := by ring
  obtain ⟨s, hs, error', -⟩ := exists_mul hq hr (by omega) (by omega) product
  refine ⟨s, hs, ?_, ?_⟩
  · have direction : Signed n (x / d) := by
      simpa using sign.div (signed_of_pos hd positive) (ofFloat_ne_notANumber hq)
    have along : Signed n (x / d * r) := by
      simpa using direction.mul forward (ofFloat_ne_notANumber hs)
    exact along.factor_mul_nonneg hs
  · have last : (2 : ℚ) ^ (((N + 2 : Nat) : Int) - 52) = 2 ^ N * 2 ^ (-50 : Int) := by
      rw [← zpow_natCast, ← zpow_add₀ two_ne_zero]
      congr 1
      push_cast
      ring
    rw [last] at error'
    have carried : |(q - a / D) * R| ≤ 2 ^ (-50 : Int) * 2 ^ N := by
      rw [abs_mul, abs_of_nonneg nonneg]
      gcongr
      linarith
    have some : (0 : ℚ) ≤ 2 ^ N * 2 ^ (-50 : Int) := by positivity
    calc |s - a * (R / D)| = |(s - q * R) + (q - a / D) * R| := by congr 1; ring
      _ ≤ |s - q * R| + |(q - a / D) * R| := abs_add_le _ _
      _ ≤ 2 ^ N * 2 ^ (-50 : Int) + 2 ^ (-50 : Int) * 2 ^ N := add_le_add error' carried
      _ ≤ 2 ^ (N + 2) * 2 ^ (-50 : Int) := by rw [pow_add]; linarith

/-- Going part of the way toward a target keeps a number within twice the range of the targets. -/
theorem Bounded.approach (hx : Bounded (N + 1) x) (ht : Bounded N t) (hd : HasValue d D)
    (hr : HasValue r R) (forward : Signed false r) (short : R < D)
    (wide : ∀ a, HasValue (t - x) a → |a| ≤ 2 * D) (bound : D ≤ 2 ^ (N + 6)) (small : N ≤ 800) :
    Bounded (N + 1) (x + (t - x) / d * r) := by
  obtain ⟨u, hu, bu⟩ := hx
  obtain ⟨v, hv, bv⟩ := ht
  have nonneg : 0 ≤ R := by simpa using forward.factor_mul_nonneg hr
  have positive : 0 < D := nonneg.trans_lt short
  have apart : |v + -u| ≤ 2 ^ (N + 2 : Nat) := by
    have triangle := abs_add_le v (-u)
    have some : (0 : ℚ) < 2 ^ N := by positivity
    rw [abs_neg] at triangle
    rw [pow_succ] at bu
    rw [pow_add]
    linarith
  obtain ⟨a, ha, error⟩ := exists_add hv (hasValue_neg hu) (N := (N + 2 : Nat)) (by omega) (by omega)
    (by rwa [zpow_natCast])
  rw [← sub_eq_add_neg_of_hasValue hv hu] at ha
  obtain ⟨s, hs, sign, error'⟩ := exists_part ha (signed_isNegative (ofFloat_ne_notANumber ha)) hd hr
    forward short (wide a ha) bound (by omega)
  have sign' := (signed_isNegative (ofFloat_ne_notANumber ha)).factor_mul_nonneg ha
  generalize isNegative (t - x) = n at sign sign'
  by_cases still : s = 0
  · subst still
    exact ⟨u, hasValue_add_of_zero hu hs, bu⟩
  -- What is added has the sign of the difference, and it is hardly more than the difference.
  have part : 0 ≤ R / D ∧ R / D ≤ 1 := ⟨by positivity, (div_le_one positive).mpr short.le⟩
  have some : (0 : ℚ) < 2 ^ N := by positivity
  have slack : (2 : ℚ) ^ (((N + 2 : Nat) : Int) - 52) + 2 ^ (N + 6 + 2) * 2 ^ (-50 : Int) < 2 ^ N := by
    have first : (2 : ℚ) ^ (((N + 2 : Nat) : Int) - 52) = 2 ^ N * 2 ^ (-50 : Int) := by
      rw [← zpow_natCast, ← zpow_add₀ two_ne_zero]
      congr 1
      push_cast
      ring
    rw [first, pow_add, pow_add]
    norm_num
    linarith
  generalize (2 : ℚ) ^ (((N + 2 : Nat) : Int) - 52) = first at error slack
  generalize (2 : ℚ) ^ (N + 6 + 2) * 2 ^ (-50 : Int) = second at error' slack
  obtain ⟨least, most⟩ := abs_le.mp bu
  obtain ⟨least', most'⟩ := abs_le.mp bv
  obtain ⟨low, high⟩ := abs_le.mp error
  obtain ⟨low', high'⟩ := abs_le.mp error'
  have less : |u + s| < 2 ^ (N + 1) := by
    rw [pow_succ] at least most ⊢
    rw [abs_lt]
    cases n with
    | false =>
      rw [factor_false, one_mul] at sign sign'
      have up : 0 < s := lt_of_le_of_ne sign (Ne.symm still)
      have reach : a * (R / D) ≤ a := mul_le_of_le_one_right sign' part.2
      constructor <;> linarith
    | true =>
      rw [factor_true, neg_one_mul] at sign sign'
      have down : s < 0 := lt_of_le_of_ne (by linarith) still
      have reach : -a * (R / D) ≤ -a := mul_le_of_le_one_right sign' part.2
      rw [neg_mul] at reach
      constructor <;> linarith
  obtain ⟨w, hw, within⟩ := exists_add_of_lt hu hs (by omega) less
  exact ⟨w, hw, within⟩

end PathStudio.Double
