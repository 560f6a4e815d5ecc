import PathStudio.Proofs.Scalar.Rounding

/-!
# The order of doubles

Finite doubles are compared as their values are. A double holds its mantissa with all bits unless its
exponent is the least one, so that the larger exponent has the larger value, and at one exponent the
larger mantissa.
-/

namespace PathStudio.Double

open Binary Float.Model Float.Model.UnpackedFloat

/-- Doubles are compared as floating-point arithmetic compares them. -/
theorem decide_lt_eq (x y : Float) :
    decide (x < y) = (unpacked (ofFloat x)).lt (unpacked (ofFloat y)) := by
  have compared : x < y ↔ x.toModel.unpack.lt y.toModel.unpack = true := by
    show decide (x.toModel < y.toModel) = true ↔ _
    exact decide_eq_true_iff
  rw [← unpack_eq, ← unpack_eq, Bool.eq_iff_iff, decide_eq_true_iff]
  exact compared

theorem le_iff (x y : Float) : x ≤ y ↔ (unpacked (ofFloat x)).le (unpacked (ofFloat y)) = true := by
  have compared : x ≤ y ↔ x.toModel.unpack.le y.toModel.unpack = true := by
    show decide (x.toModel ≤ y.toModel) = true ↔ _
    exact decide_eq_true_iff
  rw [← unpack_eq, ← unpack_eq]
  exact compared

section Magnitudes

variable {m n : Nat} {e k : Int}

/-- A mantissa with all bits is above every other one at a smaller exponent. -/
theorem value_lt_of_lt (small : m < 2 ^ 53) (full : 2 ^ 52 ≤ n) (lower : e < k) :
    (m : ℚ) * 2 ^ e < n * 2 ^ k := by
  have below : (m : ℚ) < 2 ^ 53 := by exact_mod_cast small
  have above : (2 : ℚ) ^ 52 ≤ n := by exact_mod_cast full
  have power : (2 : ℚ) ^ (e + 1) ≤ 2 ^ k := zpow_le_zpow_right₀ one_le_two lower
  calc (m : ℚ) * 2 ^ e < 2 ^ 53 * 2 ^ e := by gcongr
    _ = 2 ^ 52 * 2 ^ (e + 1) := by
        rw [zpow_add_one₀ two_ne_zero]
        ring
    _ ≤ n * 2 ^ k := by gcongr

theorem compare_magnitudes (h : Canonical m e) (h' : Canonical n k) :
    (compare e k).then (compare m n) = compare ((m : ℚ) * 2 ^ e) (n * 2 ^ k) := by
  have least := h.least
  have least' := h'.least
  obtain lower | rfl | higher := lt_trichotomy e k
  · have full : 2 ^ 52 ≤ n := h'.full.resolve_right (by omega)
    rw [Int.compare_eq_lt.mpr lower, compare_lt_iff_lt.mpr (value_lt_of_lt h.mantissa_lt full lower)]
    rfl
  · have unit : (0 : ℚ) < 2 ^ e := by positivity
    rw [Std.compare_self, Ordering.eq_then]
    obtain less | rfl | more := lt_trichotomy m n
    · have value : (m : ℚ) * 2 ^ e < n * 2 ^ e := by gcongr
      rw [compare_lt_iff_lt.mpr less, compare_lt_iff_lt.mpr value]
    · rw [Std.compare_self, Std.compare_self]
    · have value : (n : ℚ) * 2 ^ e < m * 2 ^ e := by gcongr
      rw [compare_gt_iff_gt.mpr more, compare_gt_iff_gt.mpr value]
  · have full : 2 ^ 52 ≤ m := h.full.resolve_right (by omega)
    rw [Int.compare_eq_gt.mpr higher,
      compare_gt_iff_gt.mpr (value_lt_of_lt h'.mantissa_lt full higher)]
    rfl

end Magnitudes

section Signs

variable {a b : ℚ}

theorem compare_neg_neg (a b : ℚ) : compare (-a) (-b) = (compare a b).swap := by
  obtain less | rfl | more := lt_trichotomy a b
  · rw [compare_lt_iff_lt.mpr less, compare_gt_iff_gt.mpr (neg_lt_neg less)]
    rfl
  · rw [Std.compare_self, Std.compare_self]
    rfl
  · rw [compare_gt_iff_gt.mpr more, compare_lt_iff_lt.mpr (neg_lt_neg more)]
    rfl

theorem compare_factor_zero (s : Bool) (positive : 0 < a) :
    compare (factor s * a) 0 = if s then .lt else .gt := by
  cases s with
  | false =>
    rw [factor_false, one_mul]
    exact compare_gt_iff_gt.mpr positive
  | true =>
    rw [factor_true, neg_one_mul]
    exact compare_lt_iff_lt.mpr (neg_lt_zero.mpr positive)

theorem compare_zero_factor (t : Bool) (positive : 0 < b) :
    compare 0 (factor t * b) = if t then .gt else .lt := by
  cases t with
  | false =>
    rw [factor_false, one_mul]
    exact compare_lt_iff_lt.mpr positive
  | true =>
    rw [factor_true, neg_one_mul]
    exact compare_gt_iff_gt.mpr (neg_lt_zero.mpr positive)

/-- Numbers with different signs are compared by them, and others by their magnitudes. -/
theorem compare_factor_factor (s t : Bool) (positive : 0 < a) (positive' : 0 < b) :
    compare (factor s * a) (factor t * b) =
      if s = t then if s then (compare a b).swap else compare a b else if s then .lt else .gt := by
  cases s <;> cases t
  · rw [factor_false, one_mul, one_mul]
    rfl
  · rw [factor_false, factor_true, one_mul, neg_one_mul]
    exact compare_gt_iff_gt.mpr ((neg_lt_zero.mpr positive').trans positive)
  · rw [factor_false, factor_true, one_mul, neg_one_mul]
    exact compare_lt_iff_lt.mpr ((neg_lt_zero.mpr positive).trans positive')
  · rw [factor_true, neg_one_mul, neg_one_mul]
    exact compare_neg_neg a b

end Signs

/-- Floating-point arithmetic compares finite numbers as their values are compared. -/
theorem compare_unpacked {s t : Bool} {m n : Nat} {e k : Int} (h : Canonical m e)
    (h' : Canonical n k) :
    (unpacked (.finite s m e)).compare (unpacked (.finite t n k)) =
      some (compare (factor s * ((m : ℚ) * 2 ^ e)) (factor t * (n * 2 ^ k))) := by
  obtain rfl | some := Nat.eq_zero_or_pos m
  · rw [Nat.cast_zero, zero_mul, mul_zero]
    obtain rfl | some' := Nat.eq_zero_or_pos n
    · rw [Nat.cast_zero, zero_mul, mul_zero, Std.compare_self]
      rfl
    · have whole : unpacked (.finite t n k) = .finite (signOf t) n k some' := dif_pos some'
      rw [whole, compare_zero_factor t (by positivity)]
      cases t <;> rfl
  · have whole : unpacked (.finite s m e) = .finite (signOf s) m e some := dif_pos some
    obtain rfl | some' := Nat.eq_zero_or_pos n
    · rw [whole, Nat.cast_zero, zero_mul, mul_zero, compare_factor_zero s (by positivity)]
      cases s <;> rfl
    · have whole' : unpacked (.finite t n k) = .finite (signOf t) n k some' := dif_pos some'
      rw [whole, whole', compare_factor_factor s t (by positivity) (by positivity),
        ← compare_magnitudes h h']
      cases s <;> cases t <;> rfl

section Values

variable {x y : Float} {u v : ℚ}

/-- A double has one value. -/
theorem value_unique (h : HasValue x u) (h' : HasValue x v) : u = v := by
  obtain ⟨s, m, e, hx, rfl⟩ := h
  obtain ⟨t, n, k, hx', rfl⟩ := h'
  rw [hx] at hx'
  cases hx'
  rfl

theorem compare_of_hasValue (hx : HasValue x u) (hy : HasValue y v) :
    (unpacked (ofFloat x)).compare (unpacked (ofFloat y)) = some (compare u v) := by
  obtain ⟨s, m, e, hx, rfl⟩ := hx
  obtain ⟨t, n, k, hy, rfl⟩ := hy
  rw [hx, hy, compare_unpacked (canonical_of_finite hx) (canonical_of_finite hy)]

theorem lt_iff_of_hasValue (hx : HasValue x u) (hy : HasValue y v) : x < y ↔ u < v := by
  rw [← decide_eq_true_iff (p := x < y), decide_lt_eq, UnpackedFloat.lt, compare_of_hasValue hx hy,
    beq_iff_eq, Option.some.injEq, compare_lt_iff_lt]

theorem le_iff_of_hasValue (hx : HasValue x u) (hy : HasValue y v) : x ≤ y ↔ u ≤ v := by
  rw [le_iff, UnpackedFloat.le, compare_of_hasValue hx hy, Option.any_some,
    ← Ordering.ne_gt_iff_isLE]
  exact compare_le_iff_le

end Values

end PathStudio.Double
