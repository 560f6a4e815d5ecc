import PathStudio.Proofs.Scalar.Bits
import Mathlib.Algebra.Order.Field.Power
import Mathlib.Data.Rat.Cast.Order
import Mathlib.Tactic.FieldSimp
import Mathlib.Tactic.Linarith
import Mathlib.Tactic.Positivity
import Mathlib.Tactic.Ring

/-!
# Rounding of doubles

Sums, products and quotients of doubles as rational numbers. A result that stays
in range is finite and less than two units in the last place away from the exact
one. The bounds are weaker than what nearest rounding gives, and do not need it.
-/

namespace PathStudio.Binary

open Float.Model Float.Model.UnpackedFloat

/-- The sign of a number as a factor. -/
def factor (negative : Bool) : ℚ := if negative then -1 else 1

@[simp] theorem factor_true : factor true = -1 := rfl

@[simp] theorem factor_false : factor false = 1 := rfl

@[simp] theorem abs_factor (negative : Bool) : |factor negative| = 1 := by
  cases negative <;> simp

/-- A double is finite and has the given value. -/
def HasValue (x : Float) (q : ℚ) : Prop :=
  ∃ negative m e, ofFloat x = .finite negative m e ∧ q = factor negative * (m * 2 ^ e)

theorem factor_ne_zero (negative : Bool) : factor negative ≠ 0 := by
  cases negative <;> simp

theorem value_eq_zero_iff {negative : Bool} {m : Nat} {e : Int} :
    factor negative * ((m : ℚ) * 2 ^ e) = 0 ↔ m = 0 := by
  have : (2 : ℚ) ^ e ≠ 0 := by positivity
  simp [factor_ne_zero, this]

/-! ## Shifting and rounding a mantissa -/

/-- A number counted in a smaller unit. -/
theorem value_eq_shifted (m : Nat) {e unit : Int} (h : unit ≤ e) :
    (m : ℚ) * 2 ^ e = ((m * 2 ^ (e - unit).toNat : Nat) : ℚ) * 2 ^ unit := by
  have split : e = ((e - unit).toNat : Int) + unit := by omega
  conv_lhs => rw [split, zpow_add₀ two_ne_zero, zpow_natCast]
  push_cast
  ring

@[simp] theorem mantissa_shiftRight (em : ExtendedMantissa) (k : Nat) :
    (em >>> k).mantissa = em.mantissa / 2 ^ k := by
  show (Nat.repeat ExtendedMantissa.shiftRightOne k em).mantissa = _
  induction k with
  | zero => simp [Nat.repeat]
  | succ k ih =>
    rw [Nat.repeat, ExtendedMantissa.shiftRightOne, ih, Nat.div_div_eq_div_mul, Nat.pow_succ]

@[simp] theorem mantissa_ofMantissaAndAccuracy (m : Nat) (a : Accuracy) :
    (ExtendedMantissa.ofMantissaAndAccuracy m a).mantissa = m := by
  obtain _ | (_ | _ | _) := a <;> rfl

/-- Rounding goes to the mantissa or to the next one. -/
theorem roundedMantissa_bounds (em : ExtendedMantissa) :
    em.mantissa ≤ em.roundedMantissa ∧ em.roundedMantissa ≤ em.mantissa + 1 := by
  obtain ⟨m, _ | _, _ | _⟩ := em <;>
    simp only [ExtendedMantissa.roundedMantissa, ExtendedMantissa.accuracy,
      Accuracy.roundToNearestEven] <;> omega

/-- The exponent to which a number is rounded. -/
def roundingExponent (m : Nat) (e : Int) : Int := max ((m.log2 : Int) + e - 52) (-1074)

theorem targetExponent_eq (m : Nat) (e : Int) :
    Format.binary64.targetExponent (totalExponent m e) = roundingExponent m e := by
  have bits : (Format.binary64.mantissaBits : Int) = 53 := rfl
  have least : Format.binary64.minExponent = -1074 := by decide
  rw [Format.targetExponent, totalExponent, roundingExponent, bits, least]
  congr 1
  omega

theorem shiftToTargetExponent_eq (m : Nat) (e : Int) (a : Accuracy) :
    (shiftToTargetExponent Format.binary64 m e a).1.mantissa =
        m / 2 ^ (roundingExponent m e - e).toNat ∧
      (shiftToTargetExponent Format.binary64 m e a).2 =
        e + (roundingExponent m e - e).toNat := by
  rw [shiftToTargetExponent, shiftToExponent, targetExponent_eq]
  exact ⟨by rw [mantissa_shiftRight, mantissa_ofMantissaAndAccuracy], rfl⟩

/-- A mantissa that has enough bits, or an exponent that cannot be made smaller. -/
def Wide (m : Nat) (e : Int) : Prop := 2 ^ 52 ≤ m ∨ e ≤ -1074

theorem Wide.le_roundingExponent {m : Nat} {e : Int} (h : Wide m e) : e ≤ roundingExponent m e := by
  rw [roundingExponent]
  obtain full | small := h
  · have := (Nat.le_log2 (by omega : m ≠ 0)).mpr full
    omega
  · omega

theorem le_roundingExponent (m : Nat) (e : Int) : -1074 ≤ roundingExponent m e :=
  le_max_right _ _

theorem shifted_lt (m : Nat) (e : Int) : m / 2 ^ (roundingExponent m e - e).toNat < 2 ^ 53 := by
  rw [Nat.div_lt_iff_lt_mul (Nat.two_pow_pos _), ← Nat.pow_add]
  refine lt_of_lt_of_le Nat.lt_log2_self (Nat.pow_le_pow_right (by decide) ?_)
  rw [roundingExponent]
  omega

/-- A mantissa keeps all its bits unless it reaches the least exponent. -/
theorem Wide.full_of_shifted {m : Nat} {e : Int} (h : Wide m e) :
    2 ^ 52 ≤ m / 2 ^ (roundingExponent m e - e).toNat ∨ roundingExponent m e = -1074 := by
  by_cases least : roundingExponent m e = -1074
  · exact .inr least
  left
  have normal : roundingExponent m e = (m.log2 : Int) + e - 52 := by
    rw [roundingExponent] at least ⊢
    omega
  have bits := h.le_roundingExponent
  have nonzero : m ≠ 0 := by
    rintro rfl
    rw [Nat.log2_zero] at normal
    omega
  rw [Nat.le_div_iff_mul_le (Nat.two_pow_pos _), ← Nat.pow_add, normal]
  refine le_trans (Nat.pow_le_pow_right (by decide) ?_) (Nat.log2_self_le nonzero)
  omega

/-! ## Rounding a number -/

theorem hasValue_pack_zero (negative : Bool) :
    HasValue (.ofModel (Float.Model.pack (.zero (signOf negative)))) 0 :=
  ⟨negative, 0, -1074, ofFloat_pack_zero negative, by simp⟩

theorem hasValue_pack_finite {negative : Bool} {m : Nat} {e : Int} (hm : 0 < m)
    (h : Canonical m e) : HasValue (.ofModel (Float.Model.pack (.finite (signOf negative) m e hm)))
      (factor negative * (m * 2 ^ e)) :=
  ⟨negative, m, e, ofFloat_pack_finite hm h, rfl⟩

/-- A rounded number is the mantissa next to the exact one, at the exponent to which it is rounded.
A mantissa that rounding carries to one bit more is halved and has the next exponent. -/
theorem hasValue_roundWithAccuracy {negative : Bool} {m : Nat} {e : Int} {a : Accuracy}
    (wide : Wide m e) (range : roundingExponent m e ≤ 970) :
    ∃ r : Nat, m / 2 ^ (roundingExponent m e - e).toNat ≤ r ∧
      r ≤ m / 2 ^ (roundingExponent m e - e).toNat + 1 ∧
      HasValue (.ofModel (Float.Model.pack
        (roundWithAccuracy Format.binary64 (signOf negative) m e a)))
        (factor negative * (r * 2 ^ roundingExponent m e)) := by
  obtain ⟨mantissa, exponent⟩ := shiftToTargetExponent_eq m e a
  have bounds := roundedMantissa_bounds (shiftToTargetExponent Format.binary64 m e a).1
  rw [mantissa] at bounds
  have atTarget : (shiftToTargetExponent Format.binary64 m e a).2 = roundingExponent m e := by
    have := wide.le_roundingExponent
    rw [exponent]
    omega
  have least := le_roundingExponent m e
  have small := shifted_lt m e
  have full := wide.full_of_shifted
  rw [roundWithAccuracy]
  simp only [atTarget]
  generalize (shiftToTargetExponent Format.binary64 m e a).1.roundedMantissa = r at bounds ⊢
  generalize roundingExponent m e = t at *
  generalize m / 2 ^ (t - e).toNat = f at *
  refine ⟨r, bounds.1, bounds.2, ?_⟩
  obtain ⟨mantissa', exponent'⟩ := shiftToTargetExponent_eq r t .exact
  simp only [mantissa', exponent']
  obtain fits | carried : r < 2 ^ 53 ∨ r = 2 ^ 53 := by omega
  · have stays : roundingExponent r t ≤ t := by
      have bits : r.log2 ≤ 52 := by
        obtain rfl | positive := Nat.eq_zero_or_pos r
        · simp
        · have := (Nat.log2_lt (Nat.ne_of_gt positive)).mpr fits
          omega
      rw [roundingExponent]
      omega
    have none : (roundingExponent r t - t).toNat = 0 := by omega
    simp only [none, Nat.pow_zero, Nat.div_one, Int.natCast_zero, Int.add_zero]
    split
    next zero =>
      rw [zero, Nat.cast_zero, zero_mul, mul_zero]
      exact hasValue_pack_zero negative
    next nonzero =>
      refine hasValue_pack_finite (Nat.pos_of_ne_zero nonzero) ⟨fits, least, by omega, ?_⟩
      exact full.imp (fun h => h.trans bounds.1) id
  · have grows : roundingExponent r t = t + 1 := by
      rw [roundingExponent, carried, Nat.log2_two_pow]
      omega
    have one : (roundingExponent r t - t).toNat = 1 := by omega
    have half : r / 2 ^ 1 = 2 ^ 52 := by omega
    have value : (r : ℚ) * 2 ^ t = (2 ^ 52 : Nat) * 2 ^ (t + ((1 : Nat) : Int)) := by
      rw [carried, Nat.cast_one, zpow_add_one₀ two_ne_zero]
      push_cast
      ring
    simp only [one, half, value]
    exact hasValue_pack_finite (by decide) ⟨by decide, by omega, by omega, .inl le_rfl⟩

/-- An exact number below a power of two is rounded to an exponent 52 below. -/
theorem roundingExponent_le {m : Nat} {e N : Int} (hN : -1022 ≤ N) (wide : Wide m e)
    (h : (m : ℚ) * 2 ^ e ≤ 2 ^ N) : roundingExponent m e ≤ N - 52 := by
  obtain rfl | positive := Nat.eq_zero_or_pos m
  · have small : e ≤ -1074 := wide.resolve_left (by decide)
    rw [roundingExponent, Nat.log2_zero]
    omega
  · have bits : (2 : ℚ) ^ (m.log2 + e) ≤ 2 ^ N := by
      rw [zpow_add₀ two_ne_zero, zpow_natCast]
      refine le_trans (mul_le_mul_of_nonneg_right ?_ (by positivity)) h
      exact_mod_cast Nat.log2_self_le (Nat.ne_of_gt positive)
    have := (zpow_le_zpow_iff_right₀ one_lt_two).mp bits
    rw [roundingExponent]
    omega

/-- A mantissa at most one above the floor of a shifted one is less than one unit away from it. -/
theorem abs_shift_le {m r k : Nat} (lower : m / 2 ^ k ≤ r) (upper : r ≤ m / 2 ^ k + 1) (e : Int) :
    |(r : ℚ) * 2 ^ (e + k) - m * 2 ^ e| ≤ 2 ^ (e + k) := by
  have power := Nat.two_pow_pos k
  have below : m < (r + 1) * 2 ^ k :=
    (Nat.div_lt_iff_lt_mul power).mp (Nat.lt_succ_of_le lower)
  have above : r * 2 ^ k ≤ m + 2 ^ k := by
    have := Nat.div_mul_le_self m (2 ^ k)
    calc r * 2 ^ k ≤ (m / 2 ^ k + 1) * 2 ^ k := Nat.mul_le_mul_right _ upper
      _ = m / 2 ^ k * 2 ^ k + 2 ^ k := Nat.succ_mul _ _
      _ ≤ m + 2 ^ k := by omega
  have below' : (m : ℚ) ≤ (r + 1) * 2 ^ k := by exact_mod_cast below.le
  have above' : (r : ℚ) * 2 ^ k ≤ m + 2 ^ k := by exact_mod_cast above
  have scale : (0 : ℚ) < 2 ^ e := by positivity
  have shape : (r : ℚ) * 2 ^ (e + k) - m * 2 ^ e = (r * 2 ^ k - m) * 2 ^ e := by
    rw [zpow_add₀ two_ne_zero, zpow_natCast]
    ring
  rw [shape, abs_mul, abs_of_pos scale, zpow_add₀ two_ne_zero, zpow_natCast, mul_comm ((2 : ℚ) ^ e)]
  refine mul_le_mul_of_nonneg_right ?_ scale.le
  rw [abs_le]
  constructor <;> linarith

/-- A number that is rounded stays finite in range, and within a unit in the last place. -/
theorem exists_roundWithAccuracy {negative : Bool} {m : Nat} {e N : Int} {a : Accuracy}
    (wide : Wide m e) (hN : -1022 ≤ N) (hN' : N ≤ 1022) (h : (m : ℚ) * 2 ^ e ≤ 2 ^ N) :
    ∃ q, HasValue (.ofModel (Float.Model.pack
        (roundWithAccuracy Format.binary64 (signOf negative) m e a))) q ∧
      |q - factor negative * (m * 2 ^ e)| ≤ 2 ^ (N - 52) := by
  have target := roundingExponent_le hN wide h
  obtain ⟨r, lower, upper, value⟩ :=
    @hasValue_roundWithAccuracy negative m e a wide (by omega)
  refine ⟨_, value, ?_⟩
  have shifted : e + ((roundingExponent m e - e).toNat : Int) = roundingExponent m e := by
    have := wide.le_roundingExponent
    omega
  have error := abs_shift_le lower upper e
  rw [shifted] at error
  rw [← mul_sub, abs_mul, abs_factor, one_mul]
  exact error.trans (zpow_le_zpow_right₀ one_le_two target)

/-- A number with an exponent of its own is rounded like one that is wide enough. -/
theorem exists_round {negative : Bool} {m : Nat} {e N : Int} (hm : 0 < m) (hN : -1022 ≤ N)
    (hN' : N ≤ 1022) (h : (m : ℚ) * 2 ^ e ≤ 2 ^ N) :
    ∃ q, HasValue (.ofModel (Float.Model.pack
        (UnpackedFloat.round Format.binary64 (signOf negative) m e))) q ∧
      |q - factor negative * (m * 2 ^ e)| ≤ 2 ^ (N - 52) := by
  simp only [UnpackedFloat.round, decreaseExponent, targetExponent_eq, Nat.shiftLeft_eq]
  generalize hk : (e - roundingExponent m e).toNat = k
  have same : ((m * 2 ^ k : Nat) : ℚ) * 2 ^ (e - (k : Int)) = m * 2 ^ e := by
    have split : e = e - (k : Int) + k := by omega
    conv_rhs => rw [split, zpow_add₀ two_ne_zero, zpow_natCast]
    push_cast
    ring
  have wide : Wide (m * 2 ^ k) (e - k) := by
    by_cases least : roundingExponent m e = -1074
    · exact .inr (by omega)
    · left
      have enough : 52 ≤ m.log2 + k := by
        rw [roundingExponent] at hk least
        omega
      calc 2 ^ 52 ≤ 2 ^ (m.log2 + k) := Nat.pow_le_pow_right (by decide) enough
        _ = 2 ^ m.log2 * 2 ^ k := Nat.pow_add ..
        _ ≤ m * 2 ^ k := Nat.mul_le_mul_right _ (Nat.log2_self_le (Nat.ne_of_gt hm))
  rw [← same] at h ⊢
  exact exists_roundWithAccuracy wide hN hN' h

/-- A signed number with an exponent of its own is rounded likewise. -/
theorem exists_normalize {k : Int} {e N : Int} (hN : -1022 ≤ N) (hN' : N ≤ 1022)
    (h : |(k : ℚ) * 2 ^ e| ≤ 2 ^ N) :
    ∃ q, HasValue (.ofModel (Float.Model.pack
        (normalize Format.binary64 k e .positive))) q ∧ |q - k * 2 ^ e| ≤ 2 ^ (N - 52) := by
  have scale : (0 : ℚ) < 2 ^ e := by positivity
  rw [abs_mul, abs_of_pos scale] at h
  rw [UnpackedFloat.normalize]
  obtain below | rfl | above := lt_trichotomy k 0
  · have magnitude : ((-k).toNat : ℚ) = -k := by exact_mod_cast Int.toNat_of_nonneg (by omega)
    rw [Int.compare_eq_lt.mpr below]
    rw [abs_of_neg (by exact_mod_cast below), ← magnitude] at h
    obtain ⟨q, hq, error⟩ := @exists_round true _ _ _ (by omega) hN hN' h
    refine ⟨q, hq, ?_⟩
    rw [factor_true, magnitude] at error
    have : -1 * (-(k : ℚ) * 2 ^ e) = k * 2 ^ e := by ring
    rwa [this] at error
  · refine ⟨0, hasValue_pack_zero false, ?_⟩
    rw [Int.cast_zero, zero_mul, sub_zero, abs_zero]
    positivity
  · have magnitude : (k.toNat : ℚ) = k := by exact_mod_cast Int.toNat_of_nonneg above.le
    rw [Int.compare_eq_gt.mpr above]
    rw [abs_of_pos (by exact_mod_cast above), ← magnitude] at h
    obtain ⟨q, hq, error⟩ := @exists_round false _ _ _ (by omega) hN hN' h
    refine ⟨q, hq, ?_⟩
    rwa [factor_false, one_mul, magnitude] at error

/-! ## Operations -/

@[simp] theorem signOf_mul (a b : Bool) : signOf a * signOf b = signOf (a != b) := by
  cases a <;> cases b <;> rfl

@[simp] theorem signOf_div (a b : Bool) : signOf a / signOf b = signOf (a != b) := by
  cases a <;> cases b <;> rfl

@[simp] theorem factor_mul (a b : Bool) : factor a * factor b = factor (a != b) := by
  cases a <;> cases b <;> simp

/-- The product of two doubles, if it is in range. Zero gives zero exactly. -/
theorem exists_mul {x y : Float} {u v : ℚ} (hx : HasValue x u) (hy : HasValue y v) {N : Int}
    (hN : -1022 ≤ N) (hN' : N ≤ 1022) (h : |u * v| ≤ 2 ^ N) :
    ∃ w, HasValue (x * y) w ∧ |w - u * v| ≤ 2 ^ (N - 52) ∧ (u = 0 → w = 0) := by
  obtain ⟨n₁, m₁, e₁, h₁, rfl⟩ := hx
  obtain ⟨n₂, m₂, e₂, h₂, rfl⟩ := hy
  have value : factor n₁ * (m₁ * 2 ^ e₁) * (factor n₂ * (m₂ * 2 ^ e₂)) =
      factor (n₁ != n₂) * (((m₁ * m₂ : Nat) : ℚ) * 2 ^ (e₁ + e₂)) := by
    rw [← factor_mul, zpow_add₀ two_ne_zero]
    push_cast
    ring
  rw [mul_eq, h₁, h₂, value]
  rw [value] at h
  have zero : m₁ * m₂ = 0 → ∃ w, HasValue (.ofModel (Float.Model.pack (.zero (signOf (n₁ != n₂))))) w ∧
      |w - factor (n₁ != n₂) * (((m₁ * m₂ : Nat) : ℚ) * 2 ^ (e₁ + e₂))| ≤ 2 ^ (N - 52) ∧
      (factor n₁ * (m₁ * 2 ^ e₁) = 0 → w = 0) := by
    intro none
    refine ⟨0, hasValue_pack_zero _, ?_, fun _ => rfl⟩
    rw [none]
    simp only [Nat.cast_zero, zero_mul, mul_zero, sub_zero, abs_zero]
    positivity
  by_cases positive₁ : 0 < m₁
  · by_cases positive₂ : 0 < m₂
    · simp only [unpacked, positive₁, positive₂, dif_pos, UnpackedFloat.mul, signOf_mul]
      have wide : Wide (m₁ * m₂) (e₁ + e₂) := by
        have c₁ := canonical_of_finite h₁
        have c₂ := canonical_of_finite h₂
        obtain full₁ | rfl := c₁.full
        · exact .inl (full₁.trans (Nat.le_mul_of_pos_right _ positive₂))
        · obtain full₂ | rfl := c₂.full
          · exact .inl (full₂.trans (Nat.le_mul_of_pos_left _ positive₁))
          · exact .inr (by decide)
      rw [abs_mul, abs_factor, one_mul, abs_of_nonneg (by positivity)] at h
      obtain ⟨w, hw, error⟩ := exists_roundWithAccuracy wide hN hN' h
      exact ⟨w, hw, error, fun none => absurd (value_eq_zero_iff.mp none) (Nat.ne_of_gt positive₁)⟩
    · obtain rfl := Nat.eq_zero_of_not_pos positive₂
      simp only [unpacked, positive₁, dif_pos, Nat.lt_irrefl, dif_neg, not_false_iff,
        UnpackedFloat.mul, signOf_mul]
      exact zero (Nat.mul_zero _)
  · obtain rfl := Nat.eq_zero_of_not_pos positive₁
    by_cases positive₂ : 0 < m₂
    · simp only [unpacked, positive₂, dif_pos, Nat.lt_irrefl, dif_neg, not_false_iff,
        UnpackedFloat.mul, signOf_mul]
      exact zero (Nat.zero_mul _)
    · obtain rfl := Nat.eq_zero_of_not_pos positive₂
      simp only [unpacked, Nat.lt_irrefl, dif_neg, not_false_iff, UnpackedFloat.mul, signOf_mul]
      exact zero (Nat.zero_mul _)

theorem roundWithAccuracy_ne_notANumber (s : Sign) (m : Nat) (e : Int) (a : Accuracy) :
    roundWithAccuracy Format.binary64 s m e a ≠ .notANumber := by
  rw [roundWithAccuracy]
  dsimp only
  split <;> exact UnpackedFloat.noConfusion

/-- The product of two finite doubles is a number, although it may be out of range. -/
theorem ofFloat_mul_ne_notANumber {x y : Float} {u v : ℚ} (hx : HasValue x u) (hy : HasValue y v) :
    ofFloat (x * y) ≠ .notANumber := by
  obtain ⟨n₁, m₁, e₁, h₁, -⟩ := hx
  obtain ⟨n₂, m₂, e₂, h₂, -⟩ := hy
  rw [mul_eq, h₁, h₂]
  apply ofFloat_pack_ne_notANumber
  by_cases positive₁ : 0 < m₁ <;> by_cases positive₂ : 0 < m₂ <;>
    simp only [unpacked, positive₁, positive₂, dif_pos, dif_neg, not_false_iff, UnpackedFloat.mul]
  · exact roundWithAccuracy_ne_notANumber _ _ _ _
  all_goals exact UnpackedFloat.noConfusion

/-- The whole part of a quotient that division rounds, and its exponent. -/
theorem divCore_bounds {m₁ m₂ : Nat} (hm₁ : 0 < m₁) (hm₂ : 0 < m₂) (e₁ e₂ : Int) :
    Wide (divCore Format.binary64 m₁ e₁ m₂ e₂).1 (divCore Format.binary64 m₁ e₁ m₂ e₂).2.1 ∧
      ((divCore Format.binary64 m₁ e₁ m₂ e₂).1 : ℚ) *
          2 ^ (divCore Format.binary64 m₁ e₁ m₂ e₂).2.1 ≤ m₁ * 2 ^ e₁ / (m₂ * 2 ^ e₂) ∧
      (m₁ : ℚ) * 2 ^ e₁ / (m₂ * 2 ^ e₂) ≤ ((divCore Format.binary64 m₁ e₁ m₂ e₂).1 + 1) *
          2 ^ (divCore Format.binary64 m₁ e₁ m₂ e₂).2.1 := by
  simp only [divCore, Nat.shiftLeft_eq]
  have target : Format.binary64.targetExponent (totalExponent m₁ e₁ - totalExponent m₂ e₂) =
      max ((m₁.log2 : Int) + e₁ - (m₂.log2 + e₂) - 53) (-1074) := by
    have bits : (Format.binary64.mantissaBits : Int) = 53 := rfl
    have least : Format.binary64.minExponent = -1074 := by decide
    rw [Format.targetExponent, totalExponent, totalExponent, bits, least]
    congr 1
    omega
  rw [target]
  generalize ht : min (e₁ - e₂) (max ((m₁.log2 : Int) + e₁ - (m₂.log2 + e₂) - 53) (-1074)) = t
  have shift : e₁ = e₂ + t + ((e₁ - e₂ - t).toNat : Int) := by omega
  generalize hk : (e₁ - e₂ - t).toNat = k at *
  have divisor : (0 : ℚ) < m₂ := by exact_mod_cast hm₂
  have exact : (m₁ : ℚ) * 2 ^ e₁ / (m₂ * 2 ^ e₂) = ((m₁ * 2 ^ k : Nat) : ℚ) / m₂ * 2 ^ t := by
    have : (2 : ℚ) ^ e₂ ≠ 0 := by positivity
    rw [shift, zpow_add₀ two_ne_zero, zpow_add₀ two_ne_zero, zpow_natCast]
    push_cast
    field_simp
  have scale : (0 : ℚ) ≤ 2 ^ t := by positivity
  refine ⟨?_, ?_, ?_⟩
  · by_cases small : t ≤ -1074
    · exact .inr small
    · left
      rw [Nat.le_div_iff_mul_le hm₂]
      have enough : m₂.log2 + 53 ≤ m₁.log2 + k := by omega
      calc 2 ^ 52 * m₂ ≤ 2 ^ 52 * 2 ^ (m₂.log2 + 1) := Nat.mul_le_mul_left _ Nat.lt_log2_self.le
        _ = 2 ^ (m₂.log2 + 53) := by rw [← Nat.pow_add]; congr 1; omega
        _ ≤ 2 ^ (m₁.log2 + k) := Nat.pow_le_pow_right (by decide) enough
        _ = 2 ^ m₁.log2 * 2 ^ k := Nat.pow_add ..
        _ ≤ m₁ * 2 ^ k := Nat.mul_le_mul_right _ (Nat.log2_self_le (Nat.ne_of_gt hm₁))
  · rw [exact]
    refine mul_le_mul_of_nonneg_right ?_ scale
    rw [le_div_iff₀ divisor]
    exact_mod_cast Nat.div_mul_le_self _ _
  · rw [exact]
    refine mul_le_mul_of_nonneg_right ?_ scale
    rw [div_le_iff₀ divisor]
    have below := (Nat.lt_mul_div_succ (m₁ * 2 ^ k) hm₂).le
    rw [Nat.mul_comm m₂] at below
    exact_mod_cast below

/-- The quotient of two doubles, if it is in range. Zero gives zero exactly. -/
theorem exists_div {x y : Float} {u v : ℚ} (hx : HasValue x u) (hy : HasValue y v) (hv : v ≠ 0)
    {N : Int} (hN : -1022 ≤ N) (hN' : N ≤ 1022) (h : |u / v| ≤ 2 ^ N) :
    ∃ w, HasValue (x / y) w ∧ |w - u / v| ≤ 2 * 2 ^ (N - 52) ∧ (u = 0 → w = 0) := by
  obtain ⟨n₁, m₁, e₁, h₁, rfl⟩ := hx
  obtain ⟨n₂, m₂, e₂, h₂, rfl⟩ := hy
  have positive₂ : 0 < m₂ := Nat.pos_of_ne_zero fun none => hv (value_eq_zero_iff.mpr none)
  have value : factor n₁ * (m₁ * 2 ^ e₁) / (factor n₂ * (m₂ * 2 ^ e₂)) =
      factor (n₁ != n₂) * ((m₁ : ℚ) * 2 ^ e₁ / (m₂ * 2 ^ e₂)) := by
    rw [← factor_mul]
    cases n₂ <;> simp <;> ring
  rw [div_eq, h₁, h₂, value]
  rw [value] at h
  by_cases positive₁ : 0 < m₁
  · simp only [unpacked, positive₁, positive₂, dif_pos, UnpackedFloat.div, signOf_div]
    obtain ⟨wide, lower, upper⟩ := divCore_bounds positive₁ positive₂ e₁ e₂
    generalize divCore Format.binary64 m₁ e₁ m₂ e₂ = core at *
    obtain ⟨m, e, a⟩ := core
    rw [abs_mul, abs_factor, one_mul, abs_of_nonneg (by positivity)] at h
    obtain ⟨w, hw, error⟩ := @exists_roundWithAccuracy (n₁ != n₂) m e N a wide hN hN'
      (lower.trans h)
    have unit : (2 : ℚ) ^ e ≤ 2 ^ (N - 52) :=
      zpow_le_zpow_right₀ one_le_two
        (wide.le_roundingExponent.trans (roundingExponent_le hN wide (lower.trans h)))
    refine ⟨w, hw, ?_, fun none =>
      absurd (value_eq_zero_iff.mp none) (Nat.ne_of_gt positive₁)⟩
    have cut : |factor (n₁ != n₂) * (m * 2 ^ e) -
        factor (n₁ != n₂) * ((m₁ : ℚ) * 2 ^ e₁ / (m₂ * 2 ^ e₂))| ≤ 2 ^ (N - 52) := by
      rw [← mul_sub, abs_mul, abs_factor, one_mul, abs_le]
      simp only at lower upper
      constructor <;> linarith
    calc |w - factor (n₁ != n₂) * ((m₁ : ℚ) * 2 ^ e₁ / (m₂ * 2 ^ e₂))|
        ≤ |w - factor (n₁ != n₂) * (m * 2 ^ e)| + |factor (n₁ != n₂) * (m * 2 ^ e) -
            factor (n₁ != n₂) * ((m₁ : ℚ) * 2 ^ e₁ / (m₂ * 2 ^ e₂))| := abs_sub_le _ _ _
      _ ≤ 2 ^ (N - 52) + 2 ^ (N - 52) := add_le_add error cut
      _ = 2 * 2 ^ (N - 52) := (two_mul _).symm
  · obtain rfl := Nat.eq_zero_of_not_pos positive₁
    simp only [unpacked, positive₂, dif_pos, Nat.lt_irrefl, dif_neg, not_false_iff,
      UnpackedFloat.div, signOf_div]
    refine ⟨0, hasValue_pack_zero _, ?_, fun _ => rfl⟩
    simp only [Nat.cast_zero, zero_mul, zero_div, mul_zero, sub_zero, abs_zero]
    positivity

/-- The sum of two numbers other than zero is counted in the smaller of their units. -/
theorem exists_add_eq (n₁ n₂ : Bool) {m₁ m₂ : Nat} (hm₁ : 0 < m₁) (hm₂ : 0 < m₂) (e₁ e₂ : Int) :
    ∃ k : Int, UnpackedFloat.add Format.binary64 (unpacked (.finite n₁ m₁ e₁))
        (unpacked (.finite n₂ m₂ e₂)) = normalize Format.binary64 k (min e₁ e₂) .positive ∧
      (k : ℚ) * 2 ^ min e₁ e₂ = factor n₁ * (m₁ * 2 ^ e₁) + factor n₂ * (m₂ * 2 ^ e₂) := by
  have aligned (n : Bool) (m : Nat) {e : Int} (he : min e₁ e₂ ≤ e) :
      factor n * ((m : ℚ) * 2 ^ e) = ((signOf n).apply ((m * 2 ^ (e - min e₁ e₂).toNat : Nat)) : Int)
        * 2 ^ min e₁ e₂ := by
    rw [value_eq_shifted m he]
    cases n <;> simp [signOf, Sign.apply]
  refine ⟨(signOf n₁).apply ((m₁ * 2 ^ (e₁ - min e₁ e₂).toNat : Nat)) +
    (signOf n₂).apply ((m₂ * 2 ^ (e₂ - min e₁ e₂).toNat : Nat)), ?_, ?_⟩
  · simp only [unpacked, hm₁, hm₂, dif_pos, UnpackedFloat.add, decreaseExponent, Nat.shiftLeft_eq]
  · rw [aligned n₁ m₁ (min_le_left _ _), aligned n₂ m₂ (min_le_right _ _), ← add_mul, ← Int.cast_add]

/-- The sum of two zeros is a zero. -/
theorem hasValue_add_zero (n₁ n₂ : Bool) (e₁ e₂ : Int) :
    HasValue (.ofModel (Float.Model.pack (UnpackedFloat.add Format.binary64
      (unpacked (.finite n₁ 0 e₁)) (unpacked (.finite n₂ 0 e₂))))) 0 := by
  simp only [unpacked, Nat.lt_irrefl, dif_neg, not_false_iff, UnpackedFloat.add]
  split
  · exact hasValue_pack_zero n₁
  · exact hasValue_pack_zero false

/-- The sum of two doubles, if it is in range. -/
theorem exists_add {x y : Float} {u v : ℚ} (hx : HasValue x u) (hy : HasValue y v) {N : Int}
    (hN : -1022 ≤ N) (hN' : N ≤ 1022) (h : |u + v| ≤ 2 ^ N) :
    ∃ w, HasValue (x + y) w ∧ |w - (u + v)| ≤ 2 ^ (N - 52) := by
  obtain ⟨n₁, m₁, e₁, h₁, rfl⟩ := hx
  obtain ⟨n₂, m₂, e₂, h₂, rfl⟩ := hy
  have exact : ∀ {q}, |q - q| ≤ (2 : ℚ) ^ (N - 52) := by
    intro q
    rw [sub_self, abs_zero]
    positivity
  rw [add_eq, h₁, h₂]
  by_cases positive₁ : 0 < m₁
  · by_cases positive₂ : 0 < m₂
    · obtain ⟨k, sum, value⟩ := exists_add_eq n₁ n₂ positive₁ positive₂ e₁ e₂
      rw [← value] at h
      rw [sum, ← value]
      exact exists_normalize hN hN' h
    · obtain rfl := Nat.eq_zero_of_not_pos positive₂
      simp only [unpacked, positive₁, dif_pos, Nat.lt_irrefl, dif_neg, not_false_iff,
        UnpackedFloat.add, Nat.cast_zero, zero_mul, mul_zero, add_zero]
      exact ⟨_, hasValue_pack_finite positive₁ (canonical_of_finite h₁), exact⟩
  · obtain rfl := Nat.eq_zero_of_not_pos positive₁
    by_cases positive₂ : 0 < m₂
    · simp only [unpacked, positive₂, dif_pos, Nat.lt_irrefl, dif_neg, not_false_iff,
        UnpackedFloat.add, Nat.cast_zero, zero_mul, mul_zero, zero_add]
      exact ⟨_, hasValue_pack_finite positive₂ (canonical_of_finite h₂), exact⟩
    · obtain rfl := Nat.eq_zero_of_not_pos positive₂
      rw [Nat.cast_zero, zero_mul, zero_mul, mul_zero, mul_zero, add_zero]
      exact ⟨0, hasValue_add_zero n₁ n₂ e₁ e₂, exact⟩

end PathStudio.Binary
