import PathStudio.Proofs.Outcome
import PathStudio.Proofs.Program.Spelling
import PathStudio.Proofs.Scalar.Double

/-!
# Amounts in fixed-point notation

A finite double is printed as the multiple of a unit of its last place that is nearest to its exact
value, a half going away from zero. The text is never in scientific notation and is one number of a
program. Only a multiple with more than 28 digits is refused.
-/

namespace PathStudio

/-! ## Nearest multiples -/

/-- The nearest integer, a half going away from zero. -/
def roundAway (q : ℚ) : Int := if q < 0 then -⌊|q| + 1 / 2⌋ else ⌊|q| + 1 / 2⌋

/-- A multiple of a unit than which none is nearer to a number; one that is as near is not farther from
zero. -/
structure IsNearestMultiple (unit x q : ℚ) : Prop where
  multiple : ∃ k : Int, x = k * unit
  nearest : ∀ k : Int, |x - q| ≤ |k * unit - q|
  away : ∀ k : Int, |k * unit - q| = |x - q| → |k * unit| ≤ |x|

section Rounding

variable (q : ℚ)

theorem abs_roundAway : |roundAway q| = ⌊|q| + 1 / 2⌋ := by
  have magnitude : 0 ≤ ⌊|q| + 1 / 2⌋ := Int.floor_nonneg.mpr (by positivity)
  rw [roundAway]
  split
  · rw [abs_neg, abs_of_nonneg magnitude]
  · exact abs_of_nonneg magnitude

theorem natAbs_roundAway : (roundAway q).natAbs = ⌊|q| + 1 / 2⌋₊ := by
  rw [← Int.floor_toNat, ← abs_roundAway, Int.abs_eq_natAbs, Int.toNat_natCast]

/-- Rounding keeps the sign. -/
theorem factor_mul_natAbs_roundAway :
    Binary.factor (decide (q < 0)) * ((roundAway q).natAbs : ℚ) = roundAway q := by
  have magnitude : 0 ≤ ⌊|q| + 1 / 2⌋ := Int.floor_nonneg.mpr (by positivity)
  have size : ((roundAway q).natAbs : ℚ) = (⌊|q| + 1 / 2⌋ : ℚ) := by
    rw [← abs_roundAway, Int.abs_eq_natAbs, Int.cast_natCast]
  rw [size, roundAway]
  by_cases below : q < 0
  · rw [decide_eq_true below, if_pos below, Binary.factor_true, neg_one_mul, Int.cast_neg]
  · rw [decide_eq_false below, if_neg below, Binary.factor_false, one_mul]

theorem abs_roundAway_sub_le : |(roundAway q : ℚ) - q| ≤ 1 / 2 := by
  have lower := Int.floor_le (|q| + 1 / 2)
  have upper := Int.lt_floor_add_one (|q| + 1 / 2)
  rw [roundAway, abs_le]
  by_cases below : q < 0
  · rw [if_pos below, Int.cast_neg]
    rw [abs_of_neg below] at lower upper ⊢
    constructor <;> linarith
  · rw [if_neg below]
    rw [abs_of_nonneg (not_lt.mp below)] at lower upper ⊢
    constructor <;> linarith

/-- No integer is nearer. -/
theorem abs_roundAway_sub_le_abs_sub (k : Int) : |(roundAway q : ℚ) - q| ≤ |(k : ℚ) - q| := by
  obtain rfl | other := eq_or_ne (roundAway q) k
  · rfl
  have apart : (1 : ℚ) ≤ |(roundAway q : ℚ) - k| := by
    exact_mod_cast Int.one_le_abs (sub_ne_zero.mpr other)
  have near := abs_roundAway_sub_le q
  have triangle := abs_sub_le (roundAway q : ℚ) q k
  rw [abs_sub_comm q] at triangle
  linarith

/-- An integer that is within a half is not farther from zero. -/
theorem abs_le_abs_roundAway {k : Int} (near : |(k : ℚ) - q| ≤ 1 / 2) : |k| ≤ |roundAway q| := by
  have triangle := abs_sub_abs_le_abs_sub (k : ℚ) q
  rw [abs_roundAway, Int.le_floor, Int.cast_abs]
  linarith

variable {q}

/-- In units the nearest multiple is the nearest integer. -/
theorem isNearestMultiple_roundAway {unit : ℚ} (positive : 0 < unit) :
    IsNearestMultiple unit (roundAway (q / unit) * unit) q := by
  have scaled (k : Int) : |(k : ℚ) * unit - q| = |(k : ℚ) - q / unit| * unit := by
    have factored : (k : ℚ) * unit - q = (k - q / unit) * unit := by
      rw [sub_mul, div_mul_cancel₀ _ positive.ne']
    rw [factored, abs_mul, abs_of_pos positive]
  refine ⟨⟨_, rfl⟩, fun k => ?_, fun k tie => ?_⟩
  · rw [scaled, scaled]
    exact mul_le_mul_of_nonneg_right (abs_roundAway_sub_le_abs_sub _ k) positive.le
  · rw [scaled, scaled] at tie
    have same := mul_right_cancel₀ positive.ne' tie
    have bounded := abs_le_abs_roundAway (q / unit) (same.le.trans (abs_roundAway_sub_le _))
    rw [abs_mul, abs_mul]
    exact mul_le_mul_of_nonneg_right (by exact_mod_cast bounded) (abs_nonneg unit)

end Rounding

/-- The decimal units of a finite double are counted by its value in units, rounded away from zero. -/
theorem Double.unitsHalfUp_eq_natAbs {x : Float} {v : ℚ} (h : Binary.HasValue x v) (places : Nat) :
    unitsHalfUp x places = .units (roundAway (v * 10 ^ places)).natAbs := by
  obtain ⟨num, den, positive, units, scaled⟩ := exists_unitsHalfUp h places
  have power : |v| * 10 ^ places = |v * 10 ^ places| := by
    rw [abs_mul, abs_of_pos (by positivity : (0 : ℚ) < 10 ^ places)]
  rw [units, roundQuotient_awayFromZero num positive, ← scaled, power, natAbs_roundAway]

namespace Program

open Text Scalar Binary

/-! ## Fixed-point notation -/

/-- A text in fixed-point notation: an optional minus sign, at least one digit, a point and exactly as
many digits as there are places. Before the point there is no superfluous zero. -/
structure FixedPoint (places : Nat) where
  negative : Bool
  whole : List Char
  fraction : List Char
  whole_ne_nil : whole ≠ []
  digits : ∀ c ∈ whole ++ fraction, c ∈ latinDigits
  length_fraction : fraction.length = places
  canonical : ∀ rest, whole = '0' :: rest → rest = []

namespace FixedPoint

variable {places : Nat} (f : FixedPoint places)

def text : List Char := (if f.negative then ['-'] else []) ++ f.whole ++ '.' :: f.fraction

/-- The number that a text in fixed-point notation stands for. -/
def value : ℚ := factor f.negative * (digitsValue (f.whole ++ f.fraction) / 10 ^ places)

/-- What a reader of programs makes of the text. -/
def written : WrittenNumber := ⟨f.negative, digitsValue (f.whole ++ f.fraction), places⟩

/-- The digits and the sign of a rounded count stand for the rounded multiple. -/
theorem value_eq {q : ℚ} (written : f.written =
    ⟨decide (q < 0), (roundAway (q * 10 ^ places)).natAbs, places⟩) :
    f.value = roundAway (q / (1 / 10 ^ places)) * (1 / 10 ^ places) := by
  have power : (0 : ℚ) < 10 ^ places := by positivity
  have sign : decide (q < 0) = decide (q * 10 ^ places < 0) :=
    decide_eq_decide.mpr (by simp [mul_neg_iff, power, power.not_gt])
  obtain ⟨negative, mantissa, -⟩ := (WrittenNumber.mk.injEq ..).mp written
  rw [value, negative, mantissa, sign, mul_div_assoc', factor_mul_natAbs_roundAway, div_div_eq_mul_div,
    div_one, mul_one_div]

theorem spells_text (some : places ≠ 0) : Spells f.text f.written := by
  refine ⟨f.whole, f.fraction, f.whole_ne_nil, fun c hc => f.digits c (List.mem_append_left _ hc),
    fun c hc => f.digits c (List.mem_append_right _ hc), f.length_fraction, rfl, ?_⟩
  rw [text, written, if_neg some]

/-- The reader of numbers takes the whole text. -/
theorem readNumber_text (some : places ≠ 0) : readNumber f.text = .some (f.written, []) := by
  have read := (f.spells_text some).readNumber_append endsHere_nil
  rwa [List.append_nil] at read

end FixedPoint

/-! ## Printing -/

section Count

variable (negative : Bool) (count : Nat)

/-- Just a count with more than 28 digits is refused. -/
theorem amount?_eq_none_iff (places : Int) :
    Decimal.amount? negative count places = none ↔ 28 < digitCount count := by
  have limit : powerOfTen Decimal.digitLimit ≤ count ↔ 28 < digitCount count :=
    lt_digitCount_iff.symm
  rw [← limit, Decimal.amount?]
  split
  next long => exact iff_of_true rfl long
  next short => exact iff_of_false (Option.some_ne_none _) short

/-- With few places a count that is not refused is printed in fixed-point notation. -/
theorem exists_fixedPoint {places : Nat} (some : places ≠ 0) (few : places ≤ 6)
    (short : ¬ 28 < digitCount count) : ∃ f : FixedPoint places,
      Decimal.amount? negative count places = .some f.text ∧
        f.written = ⟨negative, count, places⟩ := by
  have within : ¬ powerOfTen Decimal.digitLimit ≤ count := fun long =>
    short (lt_digitCount_iff.mpr long)
  have near : (0 : Int) ≤ places ∧ -6 ≤ ((digitsOf count).length : Int) - 1 - (places : Int) := by
    have digit := List.length_pos_iff.mpr (digitsOf_ne_nil count)
    omega
  obtain ⟨whole, fraction, printed, hne, hw, hf, hlength, hvalue, canonical⟩ :=
    exists_withPoint count some
  have digits : ∀ c ∈ whole ++ fraction, c ∈ latinDigits :=
    List.forall_mem_append.mpr ⟨hw, hf⟩
  refine ⟨⟨negative, whole, fraction, hne, digits, hlength, canonical⟩, ?_, ?_⟩
  · rw [Decimal.amount?, if_neg within]
    simp only [if_pos near, Int.toNat_natCast, printed, FixedPoint.text]
    cases negative <;> rfl
  · rw [FixedPoint.written, hvalue]

end Count

variable (trig : Double.Trigonometry) {v : Float} {q : ℚ}

/-- The exact value decides what a finite double is printed as. -/
theorem amount_eq_of_hasValue (h : HasValue v q) {places : Nat} (few : places ≤ 6) :
    letI := trig.scalar
    amount v places =
      (Decimal.amount? (decide (q < 0)) (roundAway (q * 10 ^ places)).natAbs places).elim
        (.error .unprintable) .ok := by
  have units := Double.unitsHalfUp_eq_natAbs h places
  exact @amount_of_units Float _ _ _ _ _ trig.scalar v places few _ units _ (Double.lt_zero_eq h)

/-- With one to six places a finite double is refused just if its exact value in units of the last
place, rounded to the nearest integer with a half going away from zero, has more than 28 digits.
Otherwise it is printed in fixed-point notation, the text stands for the multiple of the unit that is
nearest to the exact value with ties away from zero, and the reader of numbers takes all of it. -/
theorem amount_of_isFinite (finite : v.isFinite = true) {places : Nat} (least : 1 ≤ places)
    (most : places ≤ 6) :
    letI := trig.scalar
    ∃ q : ℚ, HasValue v q ∧
      (amount v places = .error .unprintable ↔
        28 < digitCount (roundAway (q * 10 ^ places)).natAbs) ∧
      (¬ 28 < digitCount (roundAway (q * 10 ^ places)).natAbs →
        ∃ f : FixedPoint places, amount v places = .ok f.text ∧
          IsNearestMultiple (1 / 10 ^ places) f.value q ∧
          readNumber f.text = some (f.written, [])) := by
  have some : places ≠ 0 := Nat.ne_of_gt least
  obtain ⟨q, h⟩ := Double.hasValue_of_isFinite finite
  refine ⟨q, h, ?_, fun short => ?_⟩
  · rw [amount_eq_of_hasValue trig h most, ← amount?_eq_none_iff (decide (q < 0)) _ places]
    cases Decimal.amount? (decide (q < 0)) (roundAway (q * 10 ^ places)).natAbs places <;> simp
  · obtain ⟨f, shown, written⟩ := exists_fixedPoint (decide (q < 0)) _ some most short
    refine ⟨f, ?_, ?_, f.readNumber_text some⟩
    · rw [amount_eq_of_hasValue trig h most, shown]
      rfl
    · rw [f.value_eq written]
      exact isNearestMultiple_roundAway (by positivity)

/-- A tie goes away from zero, also below it. -/
theorem amount_of_isFinite_tie : (-6.25 : Float).isFinite = true ∧
    ∃ (q : ℚ) (f : FixedPoint 1), HasValue (-6.25) q ∧
      amount (-6.25 : Float) (1 : Nat) = .ok f.text ∧ f.text = "-6.3".toList ∧
      IsNearestMultiple (1 / 10 ^ 1) f.value q ∧ readNumber f.text = some (f.written, []) := by
  have finite : (-6.25 : Float).isFinite = true := by decide
  have shown : amount (-6.25 : Float) (1 : Nat) = .ok "-6.3".toList :=
    eq_ok_of_toOption (by decide +kernel)
  obtain ⟨q, value, refused, printed⟩ := amount_of_isFinite .platform finite le_rfl (by decide)
  have short : ¬ 28 < digitCount (roundAway (q * 10 ^ 1)).natAbs := fun long => by
    cases shown.symm.trans (refused.mpr long)
  obtain ⟨f, text, nearest, read⟩ := printed short
  exact ⟨finite, q, f, value, text, Except.ok.inj (text.symm.trans shown), nearest, read⟩

end Program

end PathStudio
