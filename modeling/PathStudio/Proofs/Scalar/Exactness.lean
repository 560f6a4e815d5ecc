import PathStudio.Proofs.Scalar.Order

/-!
# Exact operations on doubles

A number with 53 bits at an exponent in range is rounded to itself. That is so for the sum of two
doubles that are no smaller than the sum is, and for the remainder of every truncating division.
-/

namespace PathStudio.Binary

open Float.Model Float.Model.UnpackedFloat

/-! ## Rounding to the same number -/

section Rounding

variable {negative : Bool} {m : Nat} {e : Int}

theorem log2_le (small : m < 2 ^ 53) : m.log2 ≤ 52 := by
  obtain rfl | positive := Nat.eq_zero_or_pos m
  · rw [Nat.log2_zero]
    decide
  · exact Nat.le_of_lt_succ ((Nat.log2_lt (Nat.ne_of_gt positive)).mpr small)

theorem roundingExponent_le_self (small : m < 2 ^ 53) (least : -1074 ≤ e) :
    roundingExponent m e ≤ e := by
  have bits := log2_le small
  rw [roundingExponent]
  omega

/-- A mantissa with few bits gets all of them at the exponent to which it is rounded. -/
theorem canonical_aligned (positive : 0 < m) (small : m < 2 ^ 53) (least : -1074 ≤ e)
    (most : e ≤ 971) :
    Canonical (m * 2 ^ (e - roundingExponent m e).toNat) (roundingExponent m e) := by
  have bits := log2_le small
  have below := roundingExponent_le_self small least
  have nonzero : m ≠ 0 := Nat.ne_of_gt positive
  refine ⟨?_, le_roundingExponent m e, below.trans most, ?_⟩
  · have room : m.log2 + 1 + (e - roundingExponent m e).toNat ≤ 53 := by
      rw [roundingExponent]
      omega
    calc m * 2 ^ (e - roundingExponent m e).toNat
        < 2 ^ (m.log2 + 1) * 2 ^ (e - roundingExponent m e).toNat :=
          Nat.mul_lt_mul_of_pos_right Nat.lt_log2_self (Nat.two_pow_pos _)
      _ ≤ 2 ^ 53 := by
          rw [← Nat.pow_add]
          exact Nat.pow_le_pow_right (by decide) room
  · by_cases last : roundingExponent m e = -1074
    · exact .inr last
    left
    have full : 52 ≤ m.log2 + (e - roundingExponent m e).toNat := by
      rw [roundingExponent] at last ⊢
      omega
    calc 2 ^ 52 ≤ 2 ^ (m.log2 + (e - roundingExponent m e).toNat) :=
          Nat.pow_le_pow_right (by decide) full
      _ = 2 ^ m.log2 * 2 ^ (e - roundingExponent m e).toNat := Nat.pow_add ..
      _ ≤ m * 2 ^ (e - roundingExponent m e).toNat :=
          Nat.mul_le_mul_right _ (Nat.log2_self_le nonzero)

/-- Nothing is shifted out of a mantissa with few bits. -/
theorem shiftToTargetExponent_exact (below : roundingExponent m e ≤ e) :
    shiftToTargetExponent Format.binary64 m e .exact = (⟨m, false, false⟩, e) := by
  have none : (roundingExponent m e - e).toNat = 0 := by omega
  rw [shiftToTargetExponent, shiftToExponent, targetExponent_eq]
  simp only [none, Int.natCast_zero, Int.add_zero]
  rfl

/-- What a double can hold is rounded to itself. -/
theorem roundWithAccuracy_exact (hm : 0 < m) (h : Canonical m e) (s : Sign) :
    roundWithAccuracy Format.binary64 s m e .exact = .finite s m e hm := by
  have below := roundingExponent_le_self h.mantissa_lt h.least
  have same : (⟨m, false, false⟩ : ExtendedMantissa).roundedMantissa = m := rfl
  rw [roundWithAccuracy]
  simp only [shiftToTargetExponent_exact below, same]
  exact dif_neg (Nat.ne_of_gt hm)

theorem hasValue_round (positive : 0 < m) (small : m < 2 ^ 53) (least : -1074 ≤ e) (most : e ≤ 971) :
    HasValue (.ofModel (Float.Model.pack
      (UnpackedFloat.round Format.binary64 (signOf negative) m e))) (factor negative * (m * 2 ^ e)) := by
  have below := roundingExponent_le_self small least
  have canonical := canonical_aligned positive small least most
  have some : 0 < m * 2 ^ (e - roundingExponent m e).toNat :=
    Nat.mul_pos positive (Nat.two_pow_pos _)
  have exponent : e - ((e - roundingExponent m e).toNat : Int) = roundingExponent m e := by omega
  simp only [UnpackedFloat.round, decreaseExponent, targetExponent_eq, Nat.shiftLeft_eq, exponent]
  rw [roundWithAccuracy_exact some canonical, value_eq_shifted m below]
  exact hasValue_pack_finite some canonical

theorem hasValue_normalize {k : Int} (small : |k| < 2 ^ 53) (least : -1074 ≤ e) (most : e ≤ 971) :
    HasValue (.ofModel (Float.Model.pack (normalize Format.binary64 k e .positive))) (k * 2 ^ e) := by
  rw [UnpackedFloat.normalize]
  obtain below | rfl | above := lt_trichotomy k 0
  · have magnitude : ((-k).toNat : ℚ) = -k := by exact_mod_cast Int.toNat_of_nonneg (by omega)
    have value : (k : ℚ) * 2 ^ e = factor true * ((-k).toNat * 2 ^ e) := by
      rw [factor_true, magnitude]
      ring
    rw [abs_of_neg below] at small
    rw [Int.compare_eq_lt.mpr below, value]
    exact @hasValue_round true _ _ (by omega) (by omega) least most
  · rw [Int.cast_zero, zero_mul]
    exact hasValue_pack_zero false
  · have magnitude : (k.toNat : ℚ) = k := by exact_mod_cast Int.toNat_of_nonneg above.le
    have value : (k : ℚ) * 2 ^ e = factor false * (k.toNat * 2 ^ e) := by
      rw [factor_false, one_mul, magnitude]
    rw [abs_of_pos above] at small
    rw [Int.compare_eq_gt.mpr above, value]
    exact @hasValue_round false _ _ (by omega) (by omega) least most

/-- A mantissa and an exponent that a double can hold are put together as they are. -/
theorem ofFloat_pack (hm : 0 < m) (h : Canonical m e) :
    ofFloat (Binary.pack negative m e) = .finite negative m e := by
  have := h.mantissa_lt
  have := h.least
  have := h.most
  have power : powerOfTwo 52 = 2 ^ 52 := rfl
  have power' : powerOfTwo 63 = 2 ^ 63 := rfl
  have sign : decide ((if negative then 1 else 0) = 1) = negative := by cases negative <;> rfl
  -- without all its bits the mantissa stands alone, at the least exponent
  by_cases normal : 2 ^ 52 ≤ m
  · have bits : (if negative then (e + 1075).toNat * 2 ^ 52 + (m - 2 ^ 52) + 2 ^ 63 else
        (e + 1075).toNat * 2 ^ 52 + (m - 2 ^ 52)) =
        (if negative then 1 else 0) * 2 ^ 63 + (e + 1075).toNat * 2 ^ 52 + (m - 2 ^ 52) := by
      cases negative with
      | false => simp
      | true =>
        rw [if_pos rfl, if_pos rfl]
        omega
    have fit : (if negative then 1 else 0) * 2 ^ 63 + (e + 1075).toNat * 2 ^ 52 + (m - 2 ^ 52) <
        2 ^ 64 := by split <;> omega
    have biased : (e + 1075).toNat ≠ 0 := by omega
    have whole : m - 2 ^ 52 + 2 ^ 52 = m := Nat.sub_add_cancel normal
    have unbiased : ((e + 1075).toNat : Int) - 1075 = e := by omega
    simp only [Binary.pack, power, power', if_neg (not_lt.mpr normal), if_neg (not_lt.mpr h.most), bits]
    refine ofFloat_ofBits hm ?_
    rw [UInt64.toNat_ofNat_of_lt' fit,
      fields_eq (by split <;> omega) (by omega) (by omega) rfl, if_neg biased, sign, whole, unbiased]
  · obtain rfl : e = -1074 := h.full.resolve_left normal
    have bits : (if negative then m + 2 ^ 63 else m) =
        (if negative then 1 else 0) * 2 ^ 63 + 0 * 2 ^ 52 + m := by
      cases negative with
      | false => simp
      | true =>
        rw [if_pos rfl, if_pos rfl]
        omega
    have fit : (if negative then 1 else 0) * 2 ^ 63 + 0 * 2 ^ 52 + m < 2 ^ 64 := by split <;> omega
    simp only [Binary.pack, power, power', if_pos (not_le.mp normal), bits]
    refine ofFloat_ofBits hm ?_
    rw [UInt64.toNat_ofNat_of_lt' fit,
      fields_eq (by split <;> omega) (by decide) (not_le.mp normal) rfl, if_pos rfl, sign]

theorem ofFloat_round (positive : 0 < m) (small : m < 2 ^ 53) (least : -1074 ≤ e) (most : e ≤ 971) :
    ofFloat (Binary.round negative m e) =
      .finite negative (m * 2 ^ (e - roundingExponent m e).toNat) (roundingExponent m e) := by
  have below := roundingExponent_le_self small least
  have canonical := canonical_aligned positive small least most
  have some : 0 < m * 2 ^ (e - roundingExponent m e).toNat :=
    Nat.mul_pos positive (Nat.two_pow_pos _)
  have rounded : Binary.round negative m e =
      Binary.pack negative (m * 2 ^ (e - roundingExponent m e).toNat) (roundingExponent m e) := by
    have target : max ((m.log2 : Int) + e - 52) (-1074) = roundingExponent m e := rfl
    rw [Binary.round, if_neg (Nat.ne_of_gt positive)]
    simp only [target, if_pos below]
    exact if_neg (Nat.ne_of_lt canonical.mantissa_lt)
  rw [rounded, ofFloat_pack some canonical]

theorem hasValue_binaryRound (small : m < 2 ^ 53) (least : -1074 ≤ e) (most : e ≤ 971) :
    HasValue (Binary.round negative m e) (factor negative * (m * 2 ^ e)) := by
  obtain rfl | positive := Nat.eq_zero_or_pos m
  · refine ⟨negative, 0, -1074, ?_, by simp⟩
    show ofFloat (Binary.pack negative 0 0) = _
    cases negative <;> decide
  · refine ⟨negative, _, _, ofFloat_round positive small least most, ?_⟩
    rw [value_eq_shifted m (roundingExponent_le_self small least)]

end Rounding

/-! ## Sums -/

section Sums

variable {n₁ n₂ : Bool} {m₁ m₂ : Nat} {e₁ e₂ : Int}

theorem abs_value (n : Bool) (m : Nat) (e : Int) : |factor n * ((m : ℚ) * 2 ^ e)| = m * 2 ^ e := by
  rw [abs_mul, abs_factor, one_mul, abs_of_nonneg (by positivity)]

theorem value_lt {m : Nat} (small : m < 2 ^ 53) (e : Int) : (m : ℚ) * 2 ^ e < 2 ^ 53 * 2 ^ e := by
  have below : (m : ℚ) < 2 ^ 53 := by exact_mod_cast small
  gcongr

/-- A sum that is no larger than either of its terms has at most as many bits as they have. -/
theorem hasValue_pack_add (h₁ : Canonical m₁ e₁) (h₂ : Canonical m₂ e₂)
    (small₁ : |factor n₁ * ((m₁ : ℚ) * 2 ^ e₁) + factor n₂ * (m₂ * 2 ^ e₂)| ≤ m₁ * 2 ^ e₁)
    (small₂ : |factor n₁ * ((m₁ : ℚ) * 2 ^ e₁) + factor n₂ * (m₂ * 2 ^ e₂)| ≤ m₂ * 2 ^ e₂) :
    HasValue (.ofModel (Float.Model.pack (UnpackedFloat.add Format.binary64
        (unpacked (.finite n₁ m₁ e₁)) (unpacked (.finite n₂ m₂ e₂)))))
      (factor n₁ * (m₁ * 2 ^ e₁) + factor n₂ * (m₂ * 2 ^ e₂)) := by
  obtain rfl | positive₁ := Nat.eq_zero_or_pos m₁
  · rw [Nat.cast_zero, zero_mul, mul_zero, zero_add] at small₁ ⊢
    obtain rfl : m₂ = 0 := value_eq_zero_iff.mp (abs_nonpos_iff.mp small₁)
    rw [Nat.cast_zero, zero_mul, mul_zero]
    exact hasValue_add_zero n₁ n₂ e₁ e₂
  obtain rfl | positive₂ := Nat.eq_zero_or_pos m₂
  · rw [Nat.cast_zero, zero_mul, mul_zero, add_zero] at small₂ ⊢
    obtain rfl : m₁ = 0 := value_eq_zero_iff.mp (abs_nonpos_iff.mp small₂)
    rw [Nat.cast_zero, zero_mul, mul_zero]
    exact hasValue_add_zero n₁ n₂ e₁ e₂
  obtain ⟨k, sum, value⟩ := exists_add_eq n₁ n₂ positive₁ positive₂ e₁ e₂
  -- the term with the smaller unit has 53 bits of it, and the sum is no larger
  have bound : |(k : ℚ)| * 2 ^ min e₁ e₂ < 2 ^ 53 * 2 ^ min e₁ e₂ := by
    have unit : (0 : ℚ) < 2 ^ min e₁ e₂ := by positivity
    rw [← abs_of_pos unit, ← abs_mul, abs_of_pos unit, value]
    obtain h | h := min_choice e₁ e₂
    · rw [h]
      exact small₁.trans_lt (value_lt h₁.mantissa_lt e₁)
    · rw [h]
      exact small₂.trans_lt (value_lt h₂.mantissa_lt e₂)
  have bits : |k| < 2 ^ 53 := by
    have := lt_of_mul_lt_mul_right bound (by positivity)
    exact_mod_cast this
  have least := h₁.least
  have least' := h₂.least
  have most := h₁.most
  rw [sum, ← value]
  exact hasValue_normalize bits (by omega) (by omega)

theorem sub_unpacked (n₁ n₂ : Bool) (m₁ m₂ : Nat) (e₁ e₂ : Int) :
    UnpackedFloat.sub Format.binary64 (unpacked (.finite n₁ m₁ e₁)) (unpacked (.finite n₂ m₂ e₂)) =
      UnpackedFloat.add Format.binary64 (unpacked (.finite n₁ m₁ e₁))
        (unpacked (.finite (!n₂) m₂ e₂)) := by
  have flipped (n : Bool) : -signOf n = signOf (!n) := by cases n <;> rfl
  have negated (n : Bool) (k : Int) : (signOf (!n)).apply k = -(signOf n).apply k := by
    cases n with
    | false => rfl
    | true => exact (Int.neg_neg k).symm
  by_cases h₁ : 0 < m₁ <;> by_cases h₂ : 0 < m₂ <;>
    simp only [unpacked, h₁, h₂, dif_pos, dif_neg, not_false_iff, UnpackedFloat.sub,
      UnpackedFloat.add, flipped, negated, Int.sub_eq_add_neg]

variable {x y : Float} {u v : ℚ}

theorem hasValue_neg (hx : HasValue x u) : HasValue (-x) (-u) := by
  obtain ⟨negative, m, e, hx, rfl⟩ := hx
  have negated : -x = .ofModel (Float.Model.pack (unpacked (ofFloat x)).neg) := by
    rw [← unpack_eq]
    rfl
  have sign : -signOf negative = signOf (!negative) := by cases negative <;> rfl
  have value : -(factor negative * ((m : ℚ) * 2 ^ e)) = factor (!negative) * (m * 2 ^ e) := by
    cases negative <;> simp
  rw [negated, hx, value]
  by_cases positive : 0 < m
  · rw [unpacked, dif_pos positive, UnpackedFloat.neg, sign]
    exact hasValue_pack_finite positive (canonical_of_finite hx)
  · obtain rfl := Nat.eq_zero_of_not_pos positive
    rw [unpacked, dif_neg positive, UnpackedFloat.neg, sign, Nat.cast_zero, zero_mul, mul_zero]
    exact hasValue_pack_zero _

theorem hasValue_add (hx : HasValue x u) (hy : HasValue y v) (small₁ : |u + v| ≤ |u|)
    (small₂ : |u + v| ≤ |v|) : HasValue (x + y) (u + v) := by
  obtain ⟨n₁, m₁, e₁, h₁, rfl⟩ := hx
  obtain ⟨n₂, m₂, e₂, h₂, rfl⟩ := hy
  rw [abs_value] at small₁ small₂
  rw [add_eq, h₁, h₂]
  exact hasValue_pack_add (canonical_of_finite h₁) (canonical_of_finite h₂) small₁ small₂

theorem hasValue_sub (hx : HasValue x u) (hy : HasValue y v) (small₁ : |u - v| ≤ |u|)
    (small₂ : |u - v| ≤ |v|) : HasValue (x - y) (u - v) := by
  obtain ⟨n₁, m₁, e₁, h₁, rfl⟩ := hx
  obtain ⟨n₂, m₂, e₂, h₂, rfl⟩ := hy
  have negated : factor n₁ * ((m₁ : ℚ) * 2 ^ e₁) - factor n₂ * (m₂ * 2 ^ e₂) =
      factor n₁ * (m₁ * 2 ^ e₁) + factor (!n₂) * (m₂ * 2 ^ e₂) := by
    cases n₂ with
    | false => simp [sub_eq_add_neg]
    | true => simp
  rw [abs_value, negated] at small₁ small₂
  rw [sub_eq, h₁, h₂, sub_unpacked, negated]
  exact hasValue_pack_add (canonical_of_finite h₁) (canonical_of_finite h₂) small₁ small₂

end Sums

/-! ## Remainders -/

/-- In the smaller of two units the remainder of two mantissas has at most as many bits as they. -/
theorem mod_shifted_lt {m₁ m₂ : Nat} (small₁ : m₁ < 2 ^ 53) (positive : 0 < m₂) (small₂ : m₂ < 2 ^ 53)
    (e₁ e₂ : Int) :
    m₁ * 2 ^ (e₁ - min e₁ e₂).toNat % (m₂ * 2 ^ (e₂ - min e₁ e₂).toNat) < 2 ^ 53 := by
  obtain h | h := min_choice e₁ e₂
  · rw [h, Int.sub_self, Int.toNat_zero, Nat.pow_zero, Nat.mul_one]
    exact (Nat.mod_le _ _).trans_lt small₁
  · rw [h, Int.sub_self, Int.toNat_zero, Nat.pow_zero, Nat.mul_one]
    exact (Nat.mod_lt _ positive).trans small₂

@[simp] theorem factor_mul_self (n : Bool) : factor n * factor n = 1 := by
  cases n <;> norm_num

/-- Without the whole multiples of a divisor a number is the remainder of the magnitudes. -/
theorem exists_whole (n₁ n₂ : Bool) (a b : Nat) (unit : ℚ) : ∃ k : Int,
    factor n₁ * (a * unit) - k * (factor n₂ * (b * unit)) = factor n₁ * ((a % b : Nat) * unit) := by
  have whole : (a : ℚ) = (a / b : Nat) * b + (a % b : Nat) := by
    exact_mod_cast (Nat.div_add_mod' a b).symm
  have turns : (((if n₁ != n₂ then -1 else 1) * (a / b : Nat) : Int) : ℚ) =
      factor n₁ * factor n₂ * (a / b : Nat) := by
    rw [factor_mul, factor]
    split <;> push_cast <;> rfl
  refine ⟨(if n₁ != n₂ then -1 else 1) * (a / b : Nat), ?_⟩
  rw [turns]
  linear_combination (factor n₁ * unit) * whole -
    (factor n₁ * (a / b : Nat) * b * unit) * factor_mul_self n₂

/-- The remainder of a truncating division is exact: it is below the divisor, has the sign of the
dividend and differs from it by a multiple of the divisor. -/
theorem exists_remainder {x y : Float} {u v : ℚ} (hx : HasValue x u) (hy : HasValue y v)
    (some : v ≠ 0) :
    ∃ (q : Float) (k : Int), Double.remainder x y = .ok q ∧ HasValue q (u - k * v) ∧
      |u - k * v| < |v| ∧ 0 ≤ u * (u - k * v) := by
  obtain ⟨n₁, m₁, e₁, h₁, rfl⟩ := hx
  obtain ⟨n₂, m₂, e₂, h₂, rfl⟩ := hy
  have c₁ := canonical_of_finite h₁
  have c₂ := canonical_of_finite h₂
  have least := c₁.least
  have least' := c₂.least
  have most := c₁.most
  have nonzero : m₂ ≠ 0 := fun none => some (value_eq_zero_iff.mpr none)
  have positive : 0 < m₂ := Nat.pos_of_ne_zero nonzero
  have power (n : Nat) : powerOfTwo n = 2 ^ n := rfl
  -- dividend and divisor are counted in the smaller of their units
  have divisor : 0 < m₂ * 2 ^ (e₂ - min e₁ e₂).toNat := Nat.mul_pos positive (Nat.two_pow_pos _)
  have small := mod_shifted_lt c₁.mantissa_lt positive c₂.mantissa_lt e₁ e₂
  rw [value_eq_shifted m₁ (min_le_left e₁ e₂), value_eq_shifted m₂ (min_le_right e₁ e₂),
    Double.remainder, h₁, h₂]
  simp only [if_neg nonzero, power]
  generalize m₁ * 2 ^ (e₁ - min e₁ e₂).toNat = a at *
  generalize m₂ * 2 ^ (e₂ - min e₁ e₂).toNat = b at *
  obtain ⟨k, rest⟩ := exists_whole n₁ n₂ a b (2 ^ min e₁ e₂)
  have below : ((a % b : Nat) : ℚ) < b := by exact_mod_cast Nat.mod_lt a divisor
  refine ⟨_, k, rfl, ?_, ?_, ?_⟩
  · rw [rest]
    exact hasValue_binaryRound small (by omega) (by omega)
  · rw [rest, abs_value, abs_value]
    gcongr
  · rw [rest, mul_mul_mul_comm, factor_mul_self, one_mul]
    positivity

end PathStudio.Binary
