import PathStudio.Proofs.Scalar.Exactness
import PathStudio.Proofs.Scalar.NotANumber

/-!
# Signs of doubles

A double that is a number has a sign, also where it is zero or infinite. Sums of numbers
with one sign keep it, and the signs of products and quotients are those of their operands
taken together, whether they overflow or vanish. What has no minus sign and is at most a
finite number is finite.
-/

namespace PathStudio.Double

open Binary Float.Model Float.Model.UnpackedFloat

/-- A number, possibly infinite, with the given sign bit. -/
def Signed (negative : Bool) (x : Float) : Prop :=
  ofFloat x ≠ .notANumber ∧ isNegative x = negative

/-! ## Results of arithmetic -/

/-- A result of arithmetic that is a number with the given sign bit. -/
def Carries (negative : Bool) : UnpackedFloat → Prop
  | .notANumber => False
  | .infinity s | .zero s | .finite s _ _ _ => s = signOf negative

variable {n : Bool}

theorem carries_roundWithAccuracy (n : Bool) (m : Nat) (e : Int) (a : Accuracy) :
    Carries n (roundWithAccuracy Format.binary64 (signOf n) m e a) := by
  rw [roundWithAccuracy]
  dsimp only
  split <;> rfl

/-- Numbers that are added keep their sign. -/
theorem carries_normalize (n : Bool) {m k : Nat} (positive : 0 < m) (e : Int) :
    Carries n (normalize Format.binary64 ((signOf n).apply m + (signOf n).apply k) e .positive) := by
  rw [UnpackedFloat.normalize]
  cases n with
  | false =>
    have above : (0 : Int) < (signOf false).apply m + (signOf false).apply k := by
      show (0 : Int) < m + k
      omega
    rw [Int.compare_eq_gt.mpr above]
    exact carries_roundWithAccuracy false ..
  | true =>
    have below : (signOf true).apply m + (signOf true).apply k < (0 : Int) := by
      show -(m : Int) + -(k : Int) < 0
      omega
    rw [Int.compare_eq_lt.mpr below]
    exact carries_roundWithAccuracy true ..

/-- The first bit of a number is its sign. -/
theorem le_toNat_pack_iff {u : UnpackedFloat} (h : Carries n u) :
    2 ^ 63 ≤ (UnpackedFloat.pack Format.binary64 u).toNat ↔ n = true := by
  have infinite :
      2 ^ 63 ≤ (UnpackedFloat.pack Format.binary64 (.infinity (signOf n))).toNat ↔ n = true := by
    cases n <;> decide
  have components (e : BitVec 11) (m : BitVec 52) :
      2 ^ 63 ≤ (packComponents Format.binary64 (signOf n) e m).toNat ↔ n = true := by
    have exponent := e.isLt
    have mantissa := m.isLt
    rw [toNat_packComponents]
    cases n with
    | false =>
      have zero : (signOf false).toBitVec.toNat = 0 := rfl
      rw [zero]
      exact iff_of_false (by omega) Bool.false_ne_true
    | true =>
      have one : (signOf true).toBitVec.toNat = 1 := rfl
      rw [one]
      exact iff_of_true (by omega) rfl
  cases u with
  | notANumber => cases h
  | infinity s =>
    cases h
    exact infinite
  | zero s =>
    cases h
    cases n <;> decide
  | finite s m e hm =>
    cases h
    by_cases overflow : 2 ^ 11 ≤ (e + 1023 + 52).toNat + 1
    · rw [pack_overflow overflow]
      exact infinite
    · by_cases normal : m.log2 + 1 = 53
      · rw [pack_normal overflow normal]
        exact components _ _
      · rw [pack_subnormal overflow normal]
        exact components _ _

theorem isNegative_eq {x : Float} (h : ofFloat x ≠ .notANumber) :
    isNegative x = decide (powerOfTwo 63 ≤ x.toBits.toNat) := by
  rw [isNegative]
  rw [ofFloat_eq] at h ⊢
  rw [fields] at h ⊢
  split_ifs at h ⊢ <;> first | rfl | exact absurd rfl h

theorem signed_pack {u : UnpackedFloat} (h : Carries n u) :
    Signed n (.ofModel (Float.Model.pack u)) := by
  have number : ofFloat (.ofModel (Float.Model.pack u)) ≠ .notANumber := by
    apply ofFloat_pack_ne_notANumber
    rintro rfl
    exact h
  refine ⟨number, ?_⟩
  rw [isNegative_eq number, Bool.eq_iff_iff, decide_eq_true_iff, toNat_toBits_pack]
  exact le_toNat_pack_iff h

/-! ## Operands -/

section Operands

variable {k : Bool} {x y : Float} {u v : ℚ}

theorem ofFloat_ne_notANumber (hx : HasValue x v) : ofFloat x ≠ .notANumber := by
  obtain ⟨negative, m, e, finite, -⟩ := hx
  rw [finite]
  exact Binary.noConfusion

theorem signed_isNegative (h : ofFloat x ≠ .notANumber) : Signed (isNegative x) x := ⟨h, rfl⟩

theorem Signed.carries (h : Signed n x) : Carries n (unpacked (ofFloat x)) := by
  obtain ⟨number, sign⟩ := h
  rw [isNegative] at sign
  cases hx : ofFloat x with
  | notANumber => exact absurd hx number
  | infinite negative =>
    rw [hx] at sign
    obtain rfl : negative = n := sign
    rfl
  | finite negative m e =>
    rw [hx] at sign
    obtain rfl : negative = n := sign
    rw [unpacked]
    split <;> rfl

/-- A number on one side of zero has the sign of that side. -/
theorem Signed.factor_mul_nonneg (h : Signed n x) (hx : HasValue x v) : 0 ≤ factor n * v := by
  obtain ⟨-, sign⟩ := h
  obtain ⟨negative, m, e, finite, rfl⟩ := hx
  rw [isNegative, finite] at sign
  obtain rfl : negative = n := sign
  have same : factor negative * factor negative = 1 := factor_mul_self negative
  rw [← mul_assoc, same, one_mul]
  positivity

theorem signed_of_pos (hx : HasValue x v) (positive : 0 < v) : Signed false x := by
  refine ⟨ofFloat_ne_notANumber hx, ?_⟩
  obtain ⟨negative, m, e, finite, rfl⟩ := hx
  rw [isNegative, finite]
  cases negative with
  | false => rfl
  | true =>
    have natural : (0 : ℚ) ≤ m * 2 ^ e := by positivity
    rw [factor_true, neg_one_mul] at positive
    linarith

/-- What has no minus sign and is at most a finite number is finite. -/
theorem Signed.exists_of_le (h : Signed false x) (hy : HasValue y v) (most : x ≤ y) :
    ∃ u, HasValue x u ∧ 0 ≤ u ∧ u ≤ v := by
  have sign := h.2
  rw [isNegative] at sign
  cases hx : ofFloat x with
  | notANumber => exact absurd hx h.1
  | infinite negative =>
    rw [hx] at sign
    cases sign
    obtain ⟨_, m, e, finite, -⟩ := hy
    rw [le_iff, hx, finite] at most
    have beyond (negative : Bool) :
        (unpacked (.infinite false)).le (unpacked (.finite negative m e)) = false := by
      simp only [unpacked]
      split <;> rfl
    rw [beyond] at most
    cases most
  | finite negative m e =>
    have value : HasValue x (factor negative * (m * 2 ^ e)) := ⟨negative, m, e, hx, rfl⟩
    have natural := h.factor_mul_nonneg value
    rw [factor_false, one_mul] at natural
    exact ⟨_, value, natural, (le_iff_of_hasValue value hy).mp most⟩

theorem le_of_lt (h : x < y) : x ≤ y := by
  have compared := decide_lt_eq x y
  rw [decide_eq_true h, UnpackedFloat.lt, eq_comm, beq_iff_eq] at compared
  rw [le_iff, UnpackedFloat.le, compared]
  rfl

theorem lt_of_not_le (hx : ofFloat x ≠ .notANumber) (hy : ofFloat y ≠ .notANumber)
    (h : ¬ x ≤ y) : y < x := by
  by_contra not
  exact h (le_of_not_lt hy hx not)

theorem Signed.exists_of_lt (h : Signed false x) (hy : HasValue y v) (below : x < y) :
    ∃ u, HasValue x u ∧ 0 ≤ u ∧ u < v := by
  obtain ⟨u, hu, nonneg, -⟩ := h.exists_of_le hy (le_of_lt below)
  exact ⟨u, hu, nonneg, (lt_iff_of_hasValue hu hy).mp below⟩

/-! ## Signs of results -/

theorem Signed.add (hx : Signed n x) (hy : Signed n y) : Signed n (x + y) := by
  rw [add_eq]
  apply signed_pack
  have carries := hx.carries
  have carries' := hy.carries
  generalize unpacked (ofFloat x) = a at carries
  generalize unpacked (ofFloat y) = b at carries'
  cases a with
  | notANumber => cases carries
  | infinity t =>
    cases carries
    cases b with
    | notANumber => cases carries'
    | infinity t | zero t | finite t => cases carries'; cases n <;> rfl
  | zero t =>
    cases carries
    cases b with
    | notANumber => cases carries'
    | infinity t | zero t | finite t => cases carries'; cases n <;> rfl
  | finite t m e hm =>
    cases carries
    cases b with
    | notANumber => cases carries'
    | infinity t | zero t => cases carries'; rfl
    | finite t m' e' hm' =>
      cases carries'
      exact carries_normalize n (Nat.shiftLeft_eq .. ▸ Nat.mul_pos hm (Nat.two_pow_pos _)) _

/-- The signs of factors are taken together. -/
theorem Signed.mul (hx : Signed n x) (hy : Signed k y) (number : ofFloat (x * y) ≠ .notANumber) :
    Signed (n != k) (x * y) := by
  have carries := hx.carries
  have carries' := hy.carries
  rw [mul_eq] at number ⊢
  apply signed_pack
  generalize unpacked (ofFloat x) = a at carries number
  generalize unpacked (ofFloat y) = b at carries' number
  cases a with
  | notANumber => cases carries
  | infinity t =>
    cases carries
    cases b with
    | notANumber => cases carries'
    | zero t => exact absurd ofFloat_pack_notANumber number
    | infinity t | finite t => cases carries'; exact signOf_mul n k
  | zero t =>
    cases carries
    cases b with
    | notANumber => cases carries'
    | infinity t => exact absurd ofFloat_pack_notANumber number
    | zero t | finite t => cases carries'; exact signOf_mul n k
  | finite t m e hm =>
    cases carries
    cases b with
    | notANumber => cases carries'
    | infinity t | zero t => cases carries'; exact signOf_mul n k
    | finite t m' e' hm' =>
      cases carries'
      rw [UnpackedFloat.mul, signOf_mul]
      exact carries_roundWithAccuracy ..

theorem Signed.div (hx : Signed n x) (hy : Signed k y) (number : ofFloat (x / y) ≠ .notANumber) :
    Signed (n != k) (x / y) := by
  have carries := hx.carries
  have carries' := hy.carries
  rw [div_eq] at number ⊢
  apply signed_pack
  generalize unpacked (ofFloat x) = a at carries number
  generalize unpacked (ofFloat y) = b at carries' number
  cases a with
  | notANumber => cases carries
  | infinity t =>
    cases carries
    cases b with
    | notANumber => cases carries'
    | infinity t => exact absurd ofFloat_pack_notANumber number
    | zero t | finite t => cases carries'; exact signOf_div n k
  | zero t =>
    cases carries
    cases b with
    | notANumber => cases carries'
    | zero t => exact absurd ofFloat_pack_notANumber number
    | infinity t | finite t => cases carries'; exact signOf_div n k
  | finite t m e hm =>
    cases carries
    cases b with
    | notANumber => cases carries'
    | infinity t | zero t => cases carries'; exact signOf_div n k
    | finite t m' e' hm' =>
      cases carries'
      rw [UnpackedFloat.div, signOf_div]
      exact carries_roundWithAccuracy ..

/-! ## Factors that are neither zero nor infinite -/

theorem exists_unpacked_of_pos (hy : HasValue y v) (positive : 0 < v) :
    ∃ m e hm, unpacked (ofFloat y) = .finite .positive m e hm := by
  have carries := (signed_of_pos hy positive).carries
  obtain ⟨negative, m, e, finite, rfl⟩ := hy
  have nonzero : m ≠ 0 := fun none => positive.ne' (value_eq_zero_iff.mpr none)
  rw [finite, unpacked, dif_pos (Nat.pos_of_ne_zero nonzero)] at carries ⊢
  exact ⟨m, e, _, congrArg (UnpackedFloat.finite · m e _) carries⟩

/-- An infinity times a finite number other than zero is an infinity. -/
theorem Signed.mul_of_pos (hx : Signed false x) (hy : HasValue y v) (positive : 0 < v) :
    Signed false (x * y) := by
  refine hx.mul (signed_of_pos hy positive) ?_
  obtain ⟨m, e, hm, finite⟩ := exists_unpacked_of_pos hy positive
  have carries := hx.carries
  rw [mul_eq, finite]
  apply ofFloat_pack_ne_notANumber
  generalize unpacked (ofFloat x) = a at carries
  cases a with
  | notANumber => cases carries
  | infinity t | zero t => exact UnpackedFloat.noConfusion
  | finite t => exact roundWithAccuracy_ne_notANumber _ _ _ _

theorem Signed.div_of_pos (hx : Signed false x) (hy : HasValue y v) (positive : 0 < v) :
    Signed false (x / y) := by
  refine hx.div (signed_of_pos hy positive) ?_
  obtain ⟨m, e, hm, finite⟩ := exists_unpacked_of_pos hy positive
  have carries := hx.carries
  rw [div_eq, finite]
  apply ofFloat_pack_ne_notANumber
  generalize unpacked (ofFloat x) = a at carries
  cases a with
  | notANumber => cases carries
  | infinity t | zero t => exact UnpackedFloat.noConfusion
  | finite t => exact roundWithAccuracy_ne_notANumber _ _ _ _

end Operands

end PathStudio.Double
