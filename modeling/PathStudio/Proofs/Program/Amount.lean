import PathStudio.Proofs.Scalar.Real
import PathStudio.Proofs.Program.Spelling

/-!
# Amounts in exact arithmetic

Over the real numbers an amount is printed as the nearest multiple of a unit of
its last place. The multiple is read back as it is, and printed again it has the
same digits; only a zero has lost its sign.
-/

namespace PathStudio.Program

open Exact

variable {v : ℝ} {places : Nat}

theorem unitsHalfUp_eq_units : Scalar.unitsHalfUp v (places : Int) = .units (unitCount v places) := by
  show Magnitude.units ⌊|v| * 10 ^ (places : Int) + 1 / 2⌋₊ = _
  rw [zpow_natCast, unitCount]

/-- The zero of amounts is that of the scalars. -/
theorem lt_zero_eq : Scalar.lt v (@OfNat.ofNat ℝ 0 (Scalar.instOfNat 0)) = decide (v < 0) := by
  have zero : @OfNat.ofNat ℝ 0 (Scalar.instOfNat 0) = (0 : ℝ) := Int.cast_zero
  rw [zero]
  rfl

/-- What an amount is printed as depends on its sign and on the count of its units. -/
theorem amount_eq_ok_iff (places : Nat) (small : places ≤ 6) {text : List Char} : amount v places = .ok text ↔
    Decimal.amount? (decide (v < 0)) (unitCount v places) places = some text := by
  rw [amount_of_units small unitsHalfUp_eq_units lt_zero_eq]
  cases Decimal.amount? (decide (v < 0)) (unitCount v places) places <;> simp

/-- What an amount is printed as, where its sign and the count of its units are known. -/
theorem amount_of_count {places count : Nat} {negative : Bool} {text : List Char} (small : places ≤ 6)
    (sign : decide (v < 0) = negative) (units : unitCount v places = count)
    (shown : Decimal.amount? negative count places = some text) : amount v places = .ok text := by
  rw [amount_eq_ok_iff places small, sign, units]
  exact shown

/-- An amount is read back as the number that it is printed as. -/
theorem numeral?_amount (places : Nat) (some : places ≠ 0) (small : places ≤ 6) {text : List Char}
    (h : amount v places = .ok text) : numeral? text = .some (rounded v places) := by
  obtain ⟨none, -⟩ | ⟨count, units, spelled⟩ := spells_amount places some small h
  · exact Magnitude.noConfusion (unitsHalfUp_eq_units.symm.trans none)
  obtain rfl := Magnitude.units.inj (unitsHalfUp_eq_units.symm.trans units)
  rw [spelled.numeral?, lt_zero_eq]
  show Option.some (factor (decide (v < 0)) * (unitCount v places * 10 ^ (-(places : Int)))) = _
  rw [rounded, zpow_neg, zpow_natCast, div_eq_mul_inv]

theorem abs_factor (negative : Bool) : |factor negative| = 1 := by
  rw [factor]
  split <;> simp

@[simp] theorem abs_rounded : |rounded v places| = unitCount v places / 10 ^ places := by
  have magnitude : (0 : ℝ) ≤ unitCount v places / 10 ^ places := by positivity
  rw [rounded, abs_mul, abs_factor, one_mul, abs_of_nonneg magnitude]

theorem rounded_of_nonneg (nonnegative : 0 ≤ v) :
    rounded v places = unitCount v places / 10 ^ places := by
  rw [rounded, decide_eq_false (not_lt.mpr nonnegative), factor, if_neg (by decide), one_mul]

/-- Rounding again keeps the count of units. -/
@[simp] theorem unitCount_rounded : unitCount (rounded v places) places = unitCount v places := by
  have scaled : |rounded v places| * 10 ^ places + 1 / 2 = unitCount v places + 1 / 2 := by
    rw [abs_rounded, div_mul_cancel₀ _ (by positivity)]
  rw [unitCount, scaled, Nat.floor_eq_iff (by positivity)]
  constructor <;> linarith

/-- Only what is rounded to zero loses its sign. -/
theorem rounded_neg_iff : rounded v places < 0 ↔ v < 0 ∧ unitCount v places ≠ 0 := by
  have power : (0 : ℝ) < 10 ^ places := by positivity
  rw [rounded, factor]
  by_cases below : v < 0
  · have positive : (0 : ℝ) < unitCount v places ↔ unitCount v places ≠ 0 := by
      rw [Nat.cast_pos, Nat.pos_iff_ne_zero]
    rw [decide_eq_true below, if_pos rfl, neg_one_mul, neg_lt_zero, div_pos_iff_of_pos_right power,
      positive]
    simp [below]
  · have magnitude : (0 : ℝ) ≤ unitCount v places / 10 ^ places := by positivity
    rw [decide_eq_false below, if_neg (by decide), one_mul]
    simp [below, not_lt.mpr magnitude]

/-- An amount that is not rounded to zero is printed again as it was. -/
theorem amount_rounded (places : Nat) (small : places ≤ 6) {text : List Char}
    (h : amount v places = .ok text) (kept : v < 0 → unitCount v places ≠ 0) : amount (rounded v places) places = .ok text := by
  have sign : decide (rounded v places < 0) = decide (v < 0) := by
    rw [decide_eq_decide, rounded_neg_iff]
    exact ⟨And.left, fun below => ⟨below, kept below⟩⟩
  rw [amount_eq_ok_iff places small] at h ⊢
  rw [sign, unitCount_rounded]
  exact h

/-- An amount that is rounded to zero is printed again as a zero without a sign. -/
theorem amount_rounded_zero (places : Nat) (small : places ≤ 6) {text : List Char}
    (zero : unitCount v places = 0) (h : Decimal.amount? false 0 places = some text) :
    amount (rounded v places) places = .ok text := by
  have sign : decide (rounded v places < 0) = false :=
    decide_eq_false fun below => (rounded_neg_iff.mp below).2 zero
  rw [amount_eq_ok_iff places small, sign, unitCount_rounded, zero]
  exact h

/-- An amount can be printed unless it has too many digits. -/
theorem exists_amount_iff (places : Nat) (small : places ≤ 6) :
    (∃ text, amount v places = .ok text) ↔ unitCount v places < powerOfTen Decimal.digitLimit := by
  simp only [amount_eq_ok_iff places small, Decimal.amount?]
  split
  next long => simp [not_lt.mpr long]
  next short => simp [not_le.mp short]

@[simp] theorem factor_mul_abs (v : ℝ) : factor (decide (v < 0)) * |v| = v := by
  rw [factor]
  by_cases below : v < 0
  · rw [decide_eq_true below, if_pos rfl, abs_of_neg below, neg_one_mul, neg_neg]
  · rw [decide_eq_false below, if_neg (by decide), abs_of_nonneg (not_lt.mp below), one_mul]

/-- An amount is printed as a number at most half a unit of the last place away. -/
theorem abs_rounded_sub_le (v : ℝ) (places : Nat) : |rounded v places - v| ≤ 1 / 2 / 10 ^ places := by
  have power : (0 : ℝ) < 10 ^ places := by positivity
  have split : rounded v places - v =
      factor (decide (v < 0)) * ((unitCount v places - |v| * 10 ^ places) / 10 ^ places) := by
    rw [rounded, sub_div, mul_div_cancel_right₀ _ power.ne', mul_sub, factor_mul_abs]
  have lower := Nat.floor_le (a := |v| * 10 ^ places + 1 / 2) (by positivity)
  have upper := Nat.lt_floor_add_one (|v| * 10 ^ places + 1 / 2)
  rw [← unitCount] at lower upper
  rw [split, abs_mul, abs_factor, one_mul, abs_div, abs_of_pos power]
  refine div_le_div_of_nonneg_right (abs_le.mpr ⟨?_, ?_⟩) power.le <;> linarith

/-- Whole degrees are read back as they are. -/
theorem numeral?_integerText {k : Int} {D : ℝ} (h : numeral? (Text.integerText k) = .some D) :
    D = k := by
  have read : D = factor (decide (k < 0)) * ((k.natAbs : ℝ) * 10 ^ (-(0 : Nat) : Int)) :=
    Option.some.inj (h.symm.trans (spells_integerText k).numeral?)
  rw [read, factor]
  obtain below | above := lt_or_ge k 0
  · have magnitude : ((k.natAbs : Int) : ℝ) = ((-k : Int) : ℝ) :=
      congrArg _ (Int.ofNat_natAbs_of_nonpos below.le)
    rw [Int.cast_natCast] at magnitude
    simp [below, magnitude]
  · have magnitude : ((k.natAbs : Int) : ℝ) = (k : ℝ) := congrArg _ (Int.natAbs_of_nonneg above)
    rw [Int.cast_natCast] at magnitude
    simp [not_lt.mpr above, magnitude]

end PathStudio.Program
