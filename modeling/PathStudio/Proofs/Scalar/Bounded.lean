import PathStudio.Proofs.Scalar.Signs
import PathStudio.Proofs.Scalar.Direction

/-!
# Bounded numbers

A double that is finite and not too large has sums, products, quotients and lengths of the
same kind. The bounds are powers of two and generous: what matters is that nothing comes
near the largest double.
-/

namespace PathStudio.Double

open Binary Float.Model

variable {M N : Nat} {x y : Float} {u v : ℚ}

/-- A double is finite and in magnitude at most a power of two. -/
def Bounded (N : Nat) (x : Float) : Prop := ∃ v, HasValue x v ∧ |v| ≤ 2 ^ N

/-- A double is finite and in magnitude at least a power of a half. -/
def Apart (k : Nat) (x : Float) : Prop := ∃ v, HasValue x v ∧ 1 ≤ |v| * 2 ^ k

/-! ## Deciding bounds -/

theorem abs_value_eq_div (negative : Bool) (m : Nat) (e : Int) :
    |factor negative * ((m : ℚ) * 2 ^ e)| =
      (m * powerOfTwo e.toNat : Nat) / (powerOfTwo (-e).toNat : Nat) := by
  rw [abs_value, two_zpow_eq]
  push_cast
  ring

theorem bounded_iff {negative : Bool} {m : Nat} {e : Int} (h : ofFloat x = .finite negative m e) :
    Bounded N x ↔ m * powerOfTwo e.toNat ≤ powerOfTwo N * powerOfTwo (-e).toNat := by
  have value : HasValue x (factor negative * (m * 2 ^ e)) := ⟨negative, m, e, h, rfl⟩
  have scale : (0 : ℚ) < (powerOfTwo (-e).toNat : Nat) := by exact_mod_cast Nat.two_pow_pos _
  have power : (2 : ℚ) ^ N = (powerOfTwo N : Nat) := (Nat.cast_pow 2 N).symm
  have bound : Bounded N x ↔ |factor negative * ((m : ℚ) * 2 ^ e)| ≤ 2 ^ N := by
    constructor
    · rintro ⟨v, hv, small⟩
      exact value_unique value hv ▸ small
    · exact fun small => ⟨_, value, small⟩
  rw [bound, abs_value_eq_div, div_le_iff₀ scale, power]
  exact_mod_cast Iff.rfl

theorem apart_iff {k : Nat} {negative : Bool} {m : Nat} {e : Int}
    (h : ofFloat x = .finite negative m e) :
    Apart k x ↔ powerOfTwo (-e).toNat ≤ m * powerOfTwo e.toNat * powerOfTwo k := by
  have value : HasValue x (factor negative * (m * 2 ^ e)) := ⟨negative, m, e, h, rfl⟩
  have scale : (0 : ℚ) < (powerOfTwo (-e).toNat : Nat) := by exact_mod_cast Nat.two_pow_pos _
  have power : (2 : ℚ) ^ k = (powerOfTwo k : Nat) := (Nat.cast_pow 2 k).symm
  have bound : Apart k x ↔ 1 ≤ |factor negative * ((m : ℚ) * 2 ^ e)| * 2 ^ k := by
    constructor
    · rintro ⟨v, hv, large⟩
      exact value_unique value hv ▸ large
    · exact fun large => ⟨_, value, large⟩
  rw [bound, abs_value_eq_div, div_mul_eq_mul_div, le_div_iff₀ scale, one_mul, power]
  exact_mod_cast Iff.rfl

instance (N : Nat) (x : Float) : Decidable (Bounded N x) :=
  match hx : ofFloat x with
  | .notANumber => isFalse fun ⟨_, ⟨_, _, _, found, _⟩, _⟩ => nomatch hx.symm.trans found
  | .infinite _ => isFalse fun ⟨_, ⟨_, _, _, found, _⟩, _⟩ => nomatch hx.symm.trans found
  | .finite _ _ _ => decidable_of_iff' _ (bounded_iff hx)

instance (k : Nat) (x : Float) : Decidable (Apart k x) :=
  match hx : ofFloat x with
  | .notANumber => isFalse fun ⟨_, ⟨_, _, _, found, _⟩, _⟩ => nomatch hx.symm.trans found
  | .infinite _ => isFalse fun ⟨_, ⟨_, _, _, found, _⟩, _⟩ => nomatch hx.symm.trans found
  | .finite _ _ _ => decidable_of_iff' _ (apart_iff hx)

/-! ## Arithmetic -/

theorem Bounded.mono (h : Bounded M x) (le : M ≤ N) : Bounded N x := by
  obtain ⟨v, hv, bound⟩ := h
  exact ⟨v, hv, bound.trans (pow_le_pow_right₀ one_le_two le)⟩

theorem Bounded.exists_hasValue (h : Bounded N x) : ∃ v, HasValue x v := by
  obtain ⟨v, hv, -⟩ := h
  exact ⟨v, hv⟩

theorem Bounded.isInf_eq_false (h : Bounded N x) : x.isInf = false := by
  obtain ⟨v, hv⟩ := h.exists_hasValue
  exact Double.isInf_eq_false hv

theorem Bounded.ne_notANumber (h : Bounded N x) : ofFloat x ≠ .notANumber := by
  obtain ⟨v, hv⟩ := h.exists_hasValue
  exact ofFloat_ne_notANumber hv

/-- The last place of a number is far below the number itself. -/
theorem two_zpow_sub_le (N : Nat) : (2 : ℚ) ^ ((N : Int) - 52) ≤ 2 ^ N := by
  rw [← zpow_natCast]
  exact zpow_le_zpow_right₀ one_le_two (by omega)

theorem bounded_of_near {w exact : ℚ} (hw : HasValue x w) (near : |w - exact| ≤ 2 ^ N)
    (bound : |exact| ≤ 2 ^ N) : Bounded (N + 1) x := by
  refine ⟨w, hw, ?_⟩
  rw [abs_le] at near bound ⊢
  rw [pow_succ]
  constructor <;> linarith

theorem Bounded.neg (h : Bounded N x) : Bounded N (-x) := by
  obtain ⟨v, hv, bound⟩ := h
  exact ⟨-v, hasValue_neg hv, (abs_neg v).symm ▸ bound⟩

theorem Bounded.add (hx : Bounded M x) (hy : Bounded N y) (small : max M N ≤ 1000) :
    Bounded (max M N + 2) (x + y) := by
  obtain ⟨u, hu, bu⟩ := hx.mono (le_max_left M N)
  obtain ⟨v, hv, bv⟩ := hy.mono (le_max_right M N)
  have sum : |u + v| ≤ 2 ^ (max M N + 1) := by
    rw [pow_succ]
    linarith [abs_add_le u v]
  obtain ⟨w, hw, error⟩ := exists_add hu hv (N := (max M N + 1 : Nat)) (by omega) (by omega)
    (by rwa [zpow_natCast])
  exact bounded_of_near hw (error.trans (two_zpow_sub_le _)) sum

theorem unpacked_ofFloat_neg {negative : Bool} {m : Nat} {e : Int}
    (h : ofFloat y = .finite negative m e) :
    unpacked (ofFloat (-y)) = unpacked (.finite (!negative) m e) := by
  have negated : -y = .ofModel (Float.Model.pack (unpacked (ofFloat y)).neg) := by
    rw [← unpack_eq]
    rfl
  have sign : -signOf negative = signOf (!negative) := by cases negative <;> rfl
  rw [negated, h]
  by_cases positive : 0 < m
  · rw [unpacked, dif_pos positive, UnpackedFloat.neg, sign,
      ofFloat_pack_finite positive (canonical_of_finite h)]
  · obtain rfl := Nat.eq_zero_of_not_pos positive
    rw [unpacked, dif_neg positive, UnpackedFloat.neg, sign, ofFloat_pack_zero]
    rfl

/-- A difference is a sum. -/
theorem sub_eq_add_neg_of_hasValue (hx : HasValue x u) (hy : HasValue y v) : x - y = x + -y := by
  obtain ⟨n₁, m₁, e₁, h₁, -⟩ := hx
  obtain ⟨n₂, m₂, e₂, h₂, -⟩ := hy
  rw [sub_eq, add_eq, unpacked_ofFloat_neg h₂, h₁, h₂, sub_unpacked]

theorem Bounded.sub (hx : Bounded M x) (hy : Bounded N y) (small : max M N ≤ 1000) :
    Bounded (max M N + 2) (x - y) := by
  obtain ⟨u, hu⟩ := hx.exists_hasValue
  obtain ⟨v, hv⟩ := hy.exists_hasValue
  rw [sub_eq_add_neg_of_hasValue hu hv]
  exact hx.add hy.neg small

theorem Bounded.mul (hx : Bounded M x) (hy : Bounded N y) (small : M + N ≤ 1000) :
    Bounded (M + N + 1) (x * y) := by
  obtain ⟨u, hu, bu⟩ := hx
  obtain ⟨v, hv, bv⟩ := hy
  have product : |u * v| ≤ 2 ^ (M + N) := by
    rw [abs_mul, pow_add]
    gcongr
  obtain ⟨w, hw, error, -⟩ := exists_mul hu hv (N := (M + N : Nat)) (by omega) (by omega)
    (by rwa [zpow_natCast])
  exact bounded_of_near hw (error.trans (two_zpow_sub_le _)) product

theorem Bounded.div {k : Nat} (hx : Bounded N x) (hy : Apart k y) (small : N + k ≤ 1000) :
    Bounded (N + k + 1) (x / y) := by
  obtain ⟨u, hu, bu⟩ := hx
  obtain ⟨v, hv, away⟩ := hy
  have nonzero : v ≠ 0 := by
    rintro rfl
    norm_num at away
  have quotient : |u / v| ≤ 2 ^ (N + k) := by
    rw [abs_div, div_le_iff₀ (abs_pos.mpr nonzero), pow_add]
    calc |u| ≤ 2 ^ N * 1 := by linarith
      _ ≤ 2 ^ N * (|v| * 2 ^ k) := by gcongr
      _ = 2 ^ N * 2 ^ k * |v| := by ring
  obtain ⟨w, hw, error, -⟩ := exists_div hu hv nonzero (N := (N + k : Nat)) (by omega) (by omega)
    (by rwa [zpow_natCast])
  refine bounded_of_near hw (error.trans ?_) quotient
  have unit : (2 : ℚ) ^ (((N + k : Nat) : Int) - 52 + 1) ≤ 2 ^ (N + k) := by
    rw [← zpow_natCast]
    exact zpow_le_zpow_right₀ one_le_two (by omega)
  rwa [zpow_add_one₀ two_ne_zero, mul_comm] at unit

theorem bounded_ofInt {n : Int} (few : n.natAbs ≤ 2 ^ N) (small : N ≤ 52) : Bounded N (ofInt n) := by
  have exact : n.natAbs < 2 ^ 53 :=
    few.trans_lt (Nat.pow_lt_pow_right (by decide) (Nat.lt_succ_of_le small))
  refine ⟨_, hasValue_binaryRound exact (by decide) (by decide), ?_⟩
  rw [abs_value, zpow_zero, mul_one]
  exact_mod_cast few

theorem bounded_zero (N : Nat) : Bounded N (ofInt 0) :=
  (bounded_ofInt (by decide) (by decide) : Bounded 0 (ofInt 0)).mono (Nat.zero_le N)

theorem bounded_tenths {k : Nat} (few : k < 10) : Bounded 0 (ofDecimal false k (-1)) := by
  obtain ⟨w, hw, near⟩ := exists_tenths (k := k) (by omega)
  have most : (k : ℚ) ≤ 9 := by exact_mod_cast Nat.le_of_lt_succ few
  have least : (0 : ℚ) ≤ k := k.cast_nonneg
  refine ⟨w, hw, ?_⟩
  rw [abs_le] at near ⊢
  constructor <;> linarith

theorem hasValue_abs (h : HasValue x v) : HasValue x.abs |v| := by
  obtain ⟨negative, m, e, hx, rfl⟩ := h
  have magnitude : x.abs = .ofModel (Float.Model.pack (unpacked (ofFloat x)).abs) := by
    rw [← unpack_eq]
    rfl
  rw [magnitude, hx, abs_value, ← one_mul ((m : ℚ) * 2 ^ e), ← factor_false]
  by_cases positive : 0 < m
  · rw [unpacked, dif_pos positive, UnpackedFloat.abs]
    have packed : HasValue (.ofModel (Float.Model.pack (.finite (signOf false) m e positive)))
        (factor false * (m * 2 ^ e)) := hasValue_pack_finite positive (canonical_of_finite hx)
    exact packed
  · obtain rfl := Nat.eq_zero_of_not_pos positive
    rw [unpacked, dif_neg positive, UnpackedFloat.abs, Nat.cast_zero, zero_mul, mul_zero]
    exact hasValue_pack_zero false

theorem Bounded.abs (h : Bounded N x) : Bounded N x.abs := by
  obtain ⟨v, hv, bound⟩ := h
  exact ⟨|v|, hasValue_abs hv, by rwa [abs_abs]⟩

/-- Between two finite doubles are only finite ones. -/
theorem exists_hasValue_of_le_of_le {a b : Float} (ha : HasValue a u) (hb : HasValue b v)
    (lower : a ≤ x) (upper : x ≤ b) : ∃ w, HasValue x w ∧ u ≤ w ∧ w ≤ v := by
  cases hx : ofFloat x with
  | notANumber =>
    rw [le_iff, hx] at upper
    cases upper
  | infinite negative =>
    obtain ⟨n₁, m₁, e₁, h₁, -⟩ := ha
    obtain ⟨n₂, m₂, e₂, h₂, -⟩ := hb
    rw [le_iff, hx, h₁] at lower
    rw [le_iff, hx, h₂] at upper
    cases negative with
    | false =>
      have beyond : (unpacked (.infinite false)).le (unpacked (.finite n₂ m₂ e₂)) = false := by
        simp only [unpacked]
        split <;> rfl
      rw [beyond] at upper
      cases upper
    | true =>
      have beyond : (unpacked (.finite n₁ m₁ e₁)).le (unpacked (.infinite true)) = false := by
        simp only [unpacked]
        split <;> rfl
      rw [beyond] at lower
      cases lower
  | finite negative m e =>
    have value : HasValue x (factor negative * (m * 2 ^ e)) := ⟨negative, m, e, hx, rfl⟩
    exact ⟨_, value, (le_iff_of_hasValue ha value).mp lower, (le_iff_of_hasValue value hb).mp upper⟩

/-! ## What is not refused -/

/-- The whole part of a bounded number is bounded. -/
theorem Bounded.exists_floor (h : Bounded N x) : ∃ k, floor x = .ok k ∧ k.natAbs ≤ 2 ^ N := by
  obtain ⟨v, hv, bound⟩ := h
  obtain ⟨lower, upper⟩ := abs_le.mp bound
  have least : -(2 ^ N : Nat) ≤ ⌊v⌋ := Int.le_floor.mpr (by push_cast; exact lower)
  have most : ⌊v⌋ ≤ (2 ^ N : Nat) := by
    have whole := (Int.floor_le v).trans upper
    exact_mod_cast whole
  exact ⟨_, floor_eq hv, by omega⟩

theorem Bounded.exists_ceil (h : Bounded N x) : ∃ k, ceil x = .ok k ∧ k.natAbs ≤ 2 ^ N := by
  obtain ⟨k, hk, bound⟩ := h.neg.exists_floor
  exact ⟨-k, congrArg (Except.map (- ·)) hk, by omega⟩

theorem Bounded.isFinite (h : Bounded N x) : x.isFinite = true := by
  obtain ⟨k, hk, -⟩ := h.exists_floor
  exact exists_floor_iff.mp ⟨k, hk⟩

theorem Bounded.square (h : Bounded N x) (small : N + N ≤ 1000) : square x = .ok (x * x) := by
  rw [Double.square, (h.mul h small).isInf_eq_false]
  rfl

end PathStudio.Double
