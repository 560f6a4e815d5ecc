import PathStudio.Proofs.Scalar.Exactness
import PathStudio.Geometry.Point
import PathStudio.Proofs.Text.Digits
import Mathlib.Data.Rat.Floor

/-!
# Doubles as approximate numbers

What the operations of the scalars answer on doubles that have a value: whole
parts and decimal units are those of the value, small integers are exact, and
tenths are near the exact ones.
-/

namespace PathStudio.Double

open Binary Float.Model Float.Model.UnpackedFloat

theorem hasValue_of_isFinite {x : Float} (h : x.isFinite = true) : ∃ q, HasValue x q := by
  rw [isFinite_eq] at h
  cases hx : ofFloat x with
  | notANumber =>
    rw [hx] at h
    cases h
  | infinite negative =>
    rw [hx] at h
    cases h
  | finite negative m e => exact ⟨_, negative, m, e, hx, rfl⟩

/-- A power of two as a quotient of naturals. -/
theorem two_zpow_eq (e : Int) :
    (2 : ℚ) ^ e = (powerOfTwo e.toNat : Nat) / (powerOfTwo (-e).toNat : Nat) := by
  have natural (n : Nat) : ((powerOfTwo n : Nat) : ℚ) = 2 ^ n := Nat.cast_pow 2 n
  have nonzero : (2 : ℚ) ^ (-e).toNat ≠ 0 := by positivity
  rw [natural, natural, eq_div_iff nonzero, ← zpow_natCast, ← zpow_natCast, ← zpow_add₀ two_ne_zero]
  congr 1
  omega

/-- The whole part of a double is that of its value. -/
theorem floor_eq {x : Float} {v : ℚ} (h : HasValue x v) : floor x = .ok ⌊v⌋ := by
  obtain ⟨negative, m, e, hx, rfl⟩ := h
  have value : factor negative * ((m : ℚ) * 2 ^ e) =
      (((if negative then -(m : Int) else m) * (powerOfTwo e.toNat : Nat) : Int) : ℚ) /
        (powerOfTwo (-e).toNat : Nat) := by
    rw [two_zpow_eq e]
    cases negative <;> push_cast <;> simp <;> ring
  rw [floor, hx, value, Rat.floor_intCast_div_natCast]
  simp only [floorOf]
  split
  next whole =>
    have one : (-e).toNat = 0 := by omega
    rw [one, powerOfTwo_zero, Nat.cast_one, Int.ediv_one]
  next part =>
    have one : e.toNat = 0 := by omega
    rw [one, powerOfTwo_zero, Nat.cast_one, Int.mul_one,
      Int.fdiv_eq_ediv_of_nonneg _ (by positivity)]

/-- The infinities have no whole part. -/
theorem floor_eq_infiniteInteger {x : Float} : floor x = .error .infiniteInteger ↔ x.isInf = true := by
  rw [floor, isInf_eq]
  cases ofFloat x with
  | notANumber => decide
  | infinite negative => exact iff_of_true rfl rfl
  | finite negative m e =>
    refine iff_of_false (fun h => by cases h) ?_
    rw [unpacked]
    split <;> exact Bool.false_ne_true

/-- Just the finite doubles have a whole part. -/
theorem exists_floor_iff {x : Float} : (∃ k, floor x = .ok k) ↔ x.isFinite = true := by
  rw [floor, isFinite_eq]
  cases ofFloat x with
  | notANumber | infinite => exact iff_of_false (by rintro ⟨k, ⟨⟩⟩) Bool.false_ne_true
  | finite negative m e =>
    refine iff_of_true ⟨_, rfl⟩ ?_
    rw [unpacked]
    split <;> rfl

/-- A quotient is rounded down if its rest is small and up if its rest is large. -/
theorem roundQuotient_cases (tie : Tie) (num den : Nat) :
    roundQuotient tie num den = num / den ∧ 2 * (num % den) ≤ den ∨
      roundQuotient tie num den = num / den + 1 ∧ den ≤ 2 * (num % den) := by
  simp only [roundQuotient]
  by_cases small : 2 * (num % den) < den
  · exact .inl ⟨if_pos small, small.le⟩
  by_cases large : den < 2 * (num % den)
  · exact .inr ⟨by rw [if_neg small, if_pos large], large.le⟩
  rw [if_neg small, if_neg large]
  cases tie with
  | awayFromZero => exact .inr ⟨rfl, not_lt.mp small⟩
  | toEven =>
    by_cases even : num / den % 2 = 0
    · exact .inl ⟨if_pos even, not_lt.mp large⟩
    · exact .inr ⟨if_neg even, not_lt.mp small⟩

/-- The integer nearest to a quotient is at most a half away from it. -/
theorem abs_roundQuotient_sub_le (tie : Tie) (num : Nat) {den : Nat} (hden : 0 < den) :
    |(roundQuotient tie num den : ℚ) - num / den| ≤ 1 / 2 := by
  have positive : (0 : ℚ) < den := by exact_mod_cast hden
  have split : num / den * den + num % den = num := Nat.div_add_mod' num den
  have near : 2 * (roundQuotient tie num den * den) ≤ 2 * num + den ∧
      2 * num ≤ 2 * (roundQuotient tie num den * den) + den := by
    obtain ⟨rounded, rest⟩ | ⟨rounded, rest⟩ := roundQuotient_cases tie num den
    · rw [rounded]
      omega
    · have below := Nat.mod_lt num hden
      rw [rounded, Nat.add_one_mul (num / den) den]
      omega
  obtain ⟨upper, lower⟩ := near
  have upper' : 2 * ((roundQuotient tie num den : ℚ) * den) ≤ 2 * num + den := by
    exact_mod_cast upper
  have lower' : 2 * (num : ℚ) ≤ 2 * ((roundQuotient tie num den : ℚ) * den) + den := by
    exact_mod_cast lower
  have shape : (roundQuotient tie num den : ℚ) - num / den =
      (roundQuotient tie num den * den - num) / den := by
    field_simp
  rw [shape, abs_div, abs_of_pos positive, div_le_iff₀ positive, abs_le]
  constructor <;> linarith

/-- The decimal units of a finite double are counted by a quotient that is their exact number. -/
theorem exists_unitsHalfUp {x : Float} {v : ℚ} (h : HasValue x v) (places : Nat) :
    ∃ num den : Nat, 0 < den ∧ unitsHalfUp x places = .units (roundQuotient .awayFromZero num den) ∧
      |v| * 10 ^ places = num / den := by
  obtain ⟨negative, m, e, hx, rfl⟩ := h
  rw [unitsHalfUp, hx]
  dsimp only
  rw [Decimal.units]
  split
  next zero => exact ⟨0, 1, Nat.one_pos, rfl, by simp [zero]⟩
  next nonzero =>
    refine ⟨_, _, ?_, rfl, ?_⟩
    · exact Nat.mul_pos (Nat.two_pow_pos _) (Nat.pow_pos (by decide))
    · have none : (-(places : Int)).toNat = 0 := by omega
      have tens : ((powerOfTen places : Nat) : ℚ) = 10 ^ places := Nat.cast_pow 10 places
      rw [abs_mul, abs_factor, one_mul, abs_of_nonneg (by positivity), two_zpow_eq, none,
        powerOfTen_zero, Int.toNat_natCast, Nat.mul_one, Nat.cast_mul, Nat.cast_mul, tens]
      ring

/-- A finite double has a count of decimal units, the nearest to its value. -/
theorem unitsHalfUp_eq {x : Float} {v : ℚ} (h : HasValue x v) (places : Nat) :
    ∃ count : Nat, unitsHalfUp x places = .units count ∧ |(count : ℚ) - |v| * 10 ^ places| ≤ 1 / 2 := by
  obtain ⟨num, den, positive, units, scaled⟩ := exists_unitsHalfUp h places
  refine ⟨_, units, ?_⟩
  rw [scaled]
  exact abs_roundQuotient_sub_le .awayFromZero num positive

/-- A quotient whose half goes away from zero is the whole part of the quotient and a half. -/
theorem roundQuotient_awayFromZero (num : Nat) {den : Nat} (hden : 0 < den) :
    roundQuotient .awayFromZero num den = ⌊(num : ℚ) / den + 1 / 2⌋₊ := by
  have positive : (0 : ℚ) < den := by exact_mod_cast hden
  have half : (num : ℚ) / den + 1 / 2 = ((2 * num + den : Nat) : ℚ) / ((2 * den : Nat) : ℚ) := by
    push_cast
    field_simp
  have parts : den * (num / den) + num % den = num := Nat.div_add_mod num den
  have whole : num / den * (2 * den) = 2 * (den * (num / den)) := by ring
  have next : (num / den + 1) * (2 * den) = 2 * (den * (num / den)) + 2 * den := by ring
  have beyond : (num / den + 1 + 1) * (2 * den) = 2 * (den * (num / den)) + 4 * den := by ring
  rw [half, Nat.floor_div_eq_div]
  symm
  by_cases small : 2 * (num % den) < den
  · rw [roundQuotient, if_pos small]
    exact Nat.div_eq_of_lt_le (by omega) (by omega)
  · have up : roundQuotient .awayFromZero num den = num / den + 1 := by
      simp only [roundQuotient, if_neg small, ite_self]
    have below : num % den < den := Nat.mod_lt num hden
    rw [up]
    exact Nat.div_eq_of_lt_le (by omega) (by omega)

/-- Small integers are exact. -/
theorem hasValue_ofInt {n : Nat} (hn : n < 2 ^ 53) : HasValue (ofInt n) n := by
  have natural : decide ((n : Int) < 0) = false := by simp
  have value : (n : ℚ) = factor false * (n * 2 ^ (0 : Int)) := by simp
  rw [ofInt, natural, Int.natAbs_natCast, value]
  exact hasValue_binaryRound hn (by decide) (by decide)

section Large

variable {n k : Nat}

/-- The mantissa that an integer of more than 53 bits is rounded to. -/
def leadingBits (n k : Nat) : Nat := Binary.roundQuotient .toEven n (powerOfTwo (k + 1))

theorem abs_leadingBits_sub_le (n k : Nat) :
    |(leadingBits n k : ℚ) - n / 2 ^ (k + 1)| ≤ 1 / 2 := by
  have near := abs_roundQuotient_sub_le .toEven n (Nat.two_pow_pos (k + 1))
  push_cast at near
  exact near

/-- The mantissa has 53 bits, or is the power of two above them. -/
theorem leadingBits_bounds (lower : 2 ^ (53 + k) ≤ n) (upper : n < 2 ^ (53 + k + 1)) :
    2 ^ 52 ≤ leadingBits n k ∧ leadingBits n k ≤ 2 ^ 53 := by
  have near := abs_le.mp (abs_leadingBits_sub_le n k)
  have unit : (0 : ℚ) < 2 ^ (k + 1) := by positivity
  have quotient : (2 : ℚ) ^ 52 ≤ n / 2 ^ (k + 1) ∧ (n : ℚ) / 2 ^ (k + 1) < 2 ^ 53 := by
    have least : 52 + (k + 1) = 53 + k := by omega
    have most : 53 + (k + 1) = 53 + k + 1 := by omega
    rw [le_div_iff₀ unit, div_lt_iff₀ unit, ← pow_add, ← pow_add, least, most]
    constructor
    · exact_mod_cast lower
    · exact_mod_cast upper
  constructor
  · have : (2 : ℚ) ^ 52 < leadingBits n k + 1 := by linarith
    exact Nat.lt_succ_iff.mp (by exact_mod_cast this)
  · have : (leadingBits n k : ℚ) < 2 ^ 53 + 1 := by linarith
    exact Nat.lt_succ_iff.mp (by exact_mod_cast this)

/-- An integer of more than 53 bits is rounded to a multiple of a power of two. -/
theorem hasValue_ofInt_large (lower : 2 ^ (53 + k) ≤ n) (upper : n < 2 ^ (53 + k + 1)) (few : k ≤ 10) :
    HasValue (ofInt n) (leadingBits n k * 2 ^ (k + 1)) := by
  obtain ⟨least, most⟩ := leadingBits_bounds lower upper
  have positive : n ≠ 0 := by
    rintro rfl
    exact absurd (Nat.two_pow_pos (53 + k)) (Nat.not_lt.mpr lower)
  have bits : n.log2 = 53 + k := (Nat.log2_eq_iff positive).mpr ⟨lower, upper⟩
  have target : max ((n.log2 : Int) + 0 - 52) (-1074) = (k : Int) + 1 := by omega
  have shift : ((k : Int) + 1 - 0).toNat = k + 1 := by omega
  have rounded : ofInt n = if leadingBits n k = powerOfTwo 53 then
      Binary.pack false (powerOfTwo 52) ((k : Int) + 1 + 1) else
      Binary.pack false (leadingBits n k) ((k : Int) + 1) := by
    have natural : decide ((n : Int) < 0) = false := by simp
    have coarse : ¬ (k : Int) + 1 ≤ 0 := by omega
    rw [ofInt, natural, Int.natAbs_natCast, Binary.round, if_neg positive]
    simp only [target, if_neg coarse, shift, leadingBits]
    rfl
  rw [rounded]
  split
  next full =>
    have held : Canonical (powerOfTwo 52) ((k : Int) + 1 + 1) :=
      ⟨by decide, by omega, by omega, .inl le_rfl⟩
    refine ⟨false, _, _, ofFloat_pack (by decide) held, ?_⟩
    have whole : ((powerOfTwo 52 : Nat) : ℚ) = 2 ^ 52 := Nat.cast_pow 2 52
    have double : ((powerOfTwo 53 : Nat) : ℚ) = 2 ^ 53 := Nat.cast_pow 2 53
    have exponent : ((k : Int) + 1 + 1) = ((k + 2 : Nat) : Int) := by omega
    rw [factor_false, full, whole, double, exponent, zpow_natCast]
    ring
  next some =>
    have power53 : powerOfTwo 53 = 2 ^ 53 := rfl
    have held : Canonical (leadingBits n k) ((k : Int) + 1) :=
      ⟨by omega, by omega, by omega, .inl least⟩
    refine ⟨false, _, _, ofFloat_pack (by omega) held, ?_⟩
    have exponent : ((k : Int) + 1) = ((k + 1 : Nat) : Int) := by omega
    rw [factor_false, exponent, zpow_natCast, one_mul]

end Large

/-- A large integer is rounded to one with 53 bits. -/
theorem exists_ofInt_large {n : Nat} (large : 2 ^ 53 ≤ n) (hn : n < 2 ^ 64) :
    ∃ w, HasValue (ofInt n) w ∧ |w - n| ≤ n / 2 ^ 53 := by
  have positive : n ≠ 0 := by omega
  have bits : n.log2 < 64 := (Nat.log2_lt positive).mpr hn
  obtain ⟨k, hk⟩ : ∃ k, n.log2 = 53 + k :=
    Nat.exists_eq_add_of_le ((Nat.le_log2 positive).mpr large)
  have lower : 2 ^ (53 + k) ≤ n := hk ▸ Nat.log2_self_le positive
  have upper : n < 2 ^ (53 + k + 1) := hk ▸ Nat.lt_log2_self
  refine ⟨_, hasValue_ofInt_large lower upper (by omega), ?_⟩
  have unit : (0 : ℚ) < 2 ^ (k + 1) := by positivity
  have shape : (leadingBits n k : ℚ) * 2 ^ (k + 1) - n =
      (leadingBits n k - n / 2 ^ (k + 1)) * 2 ^ (k + 1) := by
    field_simp
  have fine : (2 : ℚ) ^ (53 + k) ≤ n := by exact_mod_cast lower
  rw [shape, abs_mul, abs_of_pos unit, le_div_iff₀ (by positivity)]
  calc |(leadingBits n k : ℚ) - n / 2 ^ (k + 1)| * 2 ^ (k + 1) * 2 ^ 53
      ≤ 1 / 2 * 2 ^ (k + 1) * 2 ^ 53 := by
        have half := abs_leadingBits_sub_le n k
        gcongr
    _ = 2 ^ (53 + k) := by ring
    _ ≤ n := fine

/-- An integer is rounded to one that is near it. -/
theorem exists_ofInt {n : Nat} (hn : n < 2 ^ 64) : ∃ w, HasValue (ofInt n) w ∧ |w - n| ≤ n / 2 ^ 53 := by
  obtain small | large := Nat.lt_or_ge n (2 ^ 53)
  · refine ⟨n, hasValue_ofInt small, ?_⟩
    rw [sub_self, abs_zero]
    positivity
  · exact exists_ofInt_large large hn

/-- Whether a finite double is below zero is told by its value. -/
theorem lt_zero_eq {x : Float} {v : ℚ} (h : HasValue x v) :
    Scalar.lt x (ofInt 0) = decide (v < 0) := by
  have zero : HasValue (ofInt 0) 0 := by exact_mod_cast hasValue_ofInt (n := 0) (by decide)
  exact decide_eq_decide.mpr (lt_iff_of_hasValue h zero)

/-- A double whose value is not negative is not below zero, whatever its sign bit is. -/
theorem not_lt_zero {x : Float} {v : ℚ} (h : HasValue x v) (hv : 0 ≤ v) :
    Scalar.lt x (ofInt 0) = false := by
  rw [lt_zero_eq h]
  exact decide_eq_false (not_lt.mpr hv)

/-- A small natural is near its own double as the reader of decimals takes it. -/
theorem exists_toFloat {k : Nat} (hk : k ≤ 1000) :
    ∃ w, HasValue k.toUInt64.toFloat w ∧ |w - k| ≤ 2 ^ (10 - 52 : Int) := by
  have same : k.toUInt64.toFloat = .ofModel (Float.Model.pack
      (normalize Format.binary64 (k.toUInt64.toNat : Int) 0 .positive)) := rfl
  have natural : k.toUInt64.toNat = k := Nat.mod_eq_of_lt (by omega)
  have bound : (k : ℚ) ≤ 1000 := by exact_mod_cast hk
  obtain ⟨w, hw, error⟩ := exists_normalize (k := k) (e := 0) (N := 10) (by decide) (by decide) (by
    rw [zpow_zero, mul_one, Int.cast_natCast, abs_of_nonneg (Nat.cast_nonneg k)]
    exact bound.trans (by norm_num))
  rw [same, natural]
  exact ⟨w, hw, by simpa using error⟩

/-- A decimal with few digits is rounded as it is written. -/
theorem ofDecimal_eq_ofScientific {k : Nat} (positive : 0 < k) (hk : k ≤ 1000) {e : Int}
    (he : e.natAbs ≤ 22) : ofDecimal false k e = Float.ofScientific k (decide (e < 0)) e.natAbs := by
  have digits : Text.digitCount k ≤ 4 := Text.digitCount_le (by omega)
  have few : ¬ 310 < (Text.digitCount k : Int) + e := by omega
  have many : ¬ (Text.digitCount k : Int) + e < -330 := by omega
  simp only [ofDecimal, if_neg (Nat.ne_of_gt positive), if_neg few, if_neg many]
  rfl

/-- A small natural number of tenths is near its decimal. -/
theorem exists_tenths {k : Nat} (hk : k ≤ 1000) :
    ∃ w, HasValue (ofDecimal false k (-1)) w ∧ |w - k / 10| ≤ 1 / 10 ^ 9 := by
  obtain rfl | positive := Nat.eq_zero_or_pos k
  · exact ⟨0, ⟨false, 0, -1074, by decide, by simp⟩, by norm_num⟩
  have quotient : ofDecimal false k (-1) =
      k.toUInt64.toFloat / Float.exactlyRepresentablePowersOfTen[1] := by
    have fast : k < 2 ^ 53 ∧ (-1 : Int).natAbs ≤ 22 := ⟨by omega, by decide⟩
    rw [ofDecimal_eq_ofScientific positive hk (by decide), Float.ofScientific, dif_pos fast]
    rfl
  have ten : HasValue Float.exactlyRepresentablePowersOfTen[1] 10 :=
    ⟨false, 0x14000000000000, -49, by decide, by norm_num⟩
  have bound : (k : ℚ) ≤ 1000 := by exact_mod_cast hk
  have natural : (0 : ℚ) ≤ k := Nat.cast_nonneg k
  obtain ⟨u, hu, near⟩ := exists_toFloat hk
  norm_num at near
  rw [abs_le] at near
  obtain ⟨w, hw, error, -⟩ := exists_div hu ten (by norm_num) (N := 7) (by decide) (by decide) (by
    norm_num
    rw [abs_le]
    constructor <;> linarith)
  refine ⟨w, quotient ▸ hw, ?_⟩
  norm_num at error ⊢
  rw [abs_le] at error ⊢
  constructor <;> linarith

/-- The units of a number are those of a number. -/
theorem unitsHalfUp_ne_notANumber {x : Float} {places : Int} (h : ofFloat x ≠ .notANumber) :
    unitsHalfUp x places ≠ .notANumber := by
  rw [unitsHalfUp]
  cases hx : ofFloat x with
  | notANumber => exact absurd hx h
  | infinite negative => exact Magnitude.noConfusion
  | finite negative m e => exact Magnitude.noConfusion

end PathStudio.Double

namespace PathStudio

/-- The coordinates of a pose are finite. -/
def FinitePosition (p : Pose Float) : Prop := p.x.isFinite = true ∧ p.y.isFinite = true

instance (p : Pose Float) : Decidable (FinitePosition p) :=
  inferInstanceAs (Decidable (p.x.isFinite = true ∧ p.y.isFinite = true))

end PathStudio
