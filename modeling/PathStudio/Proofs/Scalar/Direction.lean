import PathStudio.Proofs.Scalar.Double

/-!
# Lengths and directions of doubles

The length of a vector with finite ends is a number, although it may be out of
range. Of the trigonometric functions only the documented bounds are used: the
direction of a vector is between minus a half turn and a half turn, so that it has
a few whole degrees.
-/

namespace PathStudio.Binary

open Float.Model Float.Model.UnpackedFloat

/-! ## Numbers stay numbers -/

theorem round_ne_notANumber (s : Sign) (m : Nat) (e : Int) :
    UnpackedFloat.round Format.binary64 s m e ≠ .notANumber :=
  roundWithAccuracy_ne_notANumber _ _ _ _

theorem normalize_ne_notANumber (k : Int) (e : Int) (zero : Sign) :
    normalize Format.binary64 k e zero ≠ .notANumber := by
  rw [UnpackedFloat.normalize]
  split
  · exact round_ne_notANumber _ _ _
  · exact UnpackedFloat.noConfusion
  · exact round_ne_notANumber _ _ _

/-- The difference of two finite doubles is a number, although it may be out of range. -/
theorem ofFloat_sub_ne_notANumber {x y : Float} {u v : ℚ} (hx : HasValue x u) (hy : HasValue y v) :
    ofFloat (x - y) ≠ .notANumber := by
  obtain ⟨n₁, m₁, e₁, h₁, -⟩ := hx
  obtain ⟨n₂, m₂, e₂, h₂, -⟩ := hy
  rw [sub_eq, h₁, h₂]
  apply ofFloat_pack_ne_notANumber
  by_cases positive₁ : 0 < m₁ <;> by_cases positive₂ : 0 < m₂ <;>
    simp only [unpacked, positive₁, positive₂, dif_pos, dif_neg, not_false_iff, UnpackedFloat.sub]
  · exact normalize_ne_notANumber _ _ _
  · exact UnpackedFloat.noConfusion
  · exact UnpackedFloat.noConfusion
  · split <;> exact UnpackedFloat.noConfusion

/-- A bit pattern up to that of an infinity is that of a number. -/
theorem fields_ne_notANumber {bits : Nat} (h : bits % 2 ^ 63 ≤ 2047 * 2 ^ 52) :
    fields bits ≠ .notANumber := by
  have power : powerOfTwo 52 = 2 ^ 52 := rfl
  rw [fields]
  split
  next special =>
    have zero : bits % powerOfTwo 52 = 0 := by
      rw [power] at special ⊢
      omega
    rw [if_pos zero]
    exact Binary.noConfusion
  next => split <;> exact Binary.noConfusion

theorem ofFloat_ofBits_ne_notANumber {bits : UInt64} (h : fields bits.toNat ≠ .notANumber) :
    ofFloat (Float.ofBits bits) ≠ .notANumber := by
  have built : Float.ofBits bits = .ofModel (Float.Model.pack
      (UnpackedFloat.unpack Format.binary64 bits.toBitVec)) := rfl
  rw [built, unpack_bits]
  apply ofFloat_pack_ne_notANumber
  cases hb : fields bits.toNat with
  | notANumber => exact absurd hb h
  | infinite negative => exact UnpackedFloat.noConfusion
  | finite negative m e =>
    rw [unpacked]
    split <;> exact UnpackedFloat.noConfusion

theorem ofFloat_pack_ne {m : Nat} (hm : m ≤ 2 ^ 53) (negative : Bool) (e : Int) :
    ofFloat (pack negative m e) ≠ .notANumber := by
  have power : powerOfTwo 52 = 2 ^ 52 := rfl
  have power' : powerOfTwo 63 = 2 ^ 63 := rfl
  rw [pack]
  apply ofFloat_ofBits_ne_notANumber
  apply fields_ne_notANumber
  rw [UInt64.toNat_ofNat', power, power']
  have magnitude : (if m < 2 ^ 52 then m else if 971 < e then 2047 * 2 ^ 52
      else (e + 1075).toNat * 2 ^ 52 + (m - 2 ^ 52)) ≤ 2047 * 2 ^ 52 := by
    split
    · omega
    · split <;> omega
  cases negative <;> simp only [Bool.false_eq_true, if_false, if_true] <;> omega

/-- A mantissa at the exponent to which it is rounded. -/
theorem scaled_le (m : Nat) (e : Int) :
    (if roundingExponent m e ≤ e then m * powerOfTwo (e - roundingExponent m e).toNat
      else roundQuotient .toEven m (powerOfTwo (roundingExponent m e - e).toNat)) ≤ 2 ^ 53 := by
  have power (n : Nat) : powerOfTwo n = 2 ^ n := rfl
  split
  next exact =>
    have bits : m.log2 + 1 + (e - roundingExponent m e).toNat ≤ 53 := by
      rw [roundingExponent] at exact ⊢
      omega
    calc m * powerOfTwo (e - roundingExponent m e).toNat
        ≤ 2 ^ (m.log2 + 1) * 2 ^ (e - roundingExponent m e).toNat :=
          Nat.mul_le_mul_right _ Nat.lt_log2_self.le
      _ ≤ 2 ^ 53 := by
          rw [← Nat.pow_add]
          exact Nat.pow_le_pow_right (by decide) bits
  next wide =>
    have whole := shifted_lt m e
    rw [power]
    obtain ⟨rounded, -⟩ | ⟨rounded, -⟩ :=
      Double.roundQuotient_cases .toEven m (2 ^ (roundingExponent m e - e).toNat)
    · rw [rounded]
      exact whole.le
    · rw [rounded]
      exact whole

/-- A rounded number is a number. -/
theorem ofFloat_round_ne_notANumber (negative : Bool) (m : Nat) (e : Int) :
    ofFloat (Binary.round negative m e) ≠ .notANumber := by
  have packed (scaled : Nat) (h : scaled ≤ 2 ^ 53) (target : Int) :
      ofFloat (if scaled = powerOfTwo 53 then pack negative (powerOfTwo 52) (target + 1)
        else pack negative scaled target) ≠ .notANumber := by
    have half : powerOfTwo 52 ≤ 2 ^ 53 := Nat.pow_le_pow_right (by decide) (by decide)
    split
    · exact ofFloat_pack_ne half _ _
    · exact ofFloat_pack_ne h _ _
  rw [Binary.round]
  split
  · exact ofFloat_pack_ne (Nat.zero_le _) _ _
  · exact packed _ (scaled_le m e) _

end PathStudio.Binary

namespace PathStudio.Double

open Binary Float.Model Float.Model.UnpackedFloat

/-- The length of a vector whose components are numbers is a number. -/
theorem ofFloat_hypot_ne_notANumber {x y : Float} (hx : ofFloat x ≠ .notANumber)
    (hy : ofFloat y ≠ .notANumber) : ofFloat (hypot x y) ≠ .notANumber := by
  have infinite : ofFloat (1.0 / 0.0) ≠ .notANumber := by decide
  rw [hypot]
  cases h₁ : ofFloat x with
  | notANumber => exact absurd h₁ hx
  | infinite negative => exact infinite
  | finite n₁ m₁ e₁ =>
    cases h₂ : ofFloat y with
    | notANumber => exact absurd h₂ hy
    | infinite negative => exact infinite
    | finite n₂ m₂ e₂ => exact ofFloat_round_ne_notANumber _ _ _

theorem isNaN_eq_false {x : Float} (h : ofFloat x ≠ .notANumber) : x.isNaN = false := by
  rw [isNaN_eq]
  cases hx : ofFloat x with
  | notANumber => exact absurd hx h
  | infinite negative => rfl
  | finite negative m e =>
    rw [unpacked]
    split <;> rfl

/-! ## Directions -/

theorem hasValue_pi : HasValue pi (7074237752028440 * 2 ^ (-51 : Int)) :=
  ⟨false, 0x1921FB54442D18, -51, by decide, by norm_num⟩

theorem exists_hasValue_of_between {x : Float} (lower : -pi ≤ x) (upper : x ≤ pi) :
    ∃ v, HasValue x v ∧ |v| ≤ 22 / 7 := by
  have half := hasValue_pi
  have above : ofFloat pi = .finite false 0x1921FB54442D18 (-51) := by decide
  have below : ofFloat (-pi) = .finite true 0x1921FB54442D18 (-51) := by decide
  cases hx : ofFloat x with
  | notANumber =>
    rw [le_iff, hx, above] at upper
    exact absurd upper (by decide)
  | infinite negative =>
    rw [le_iff, hx] at lower upper
    rw [below] at lower
    rw [above] at upper
    cases negative with
    | false => exact absurd upper (by decide)
    | true => exact absurd lower (by decide)
  | finite negative m e =>
    have value : HasValue x (factor negative * (m * 2 ^ e)) := ⟨negative, m, e, hx, rfl⟩
    have least := (le_iff_of_hasValue (hasValue_neg half) value).mp lower
    have most := (le_iff_of_hasValue value half).mp upper
    refine ⟨_, value, abs_le.mpr ⟨?_, ?_⟩⟩
    · norm_num at least
      linarith
    · norm_num at most
      linarith

/-- What is documented of the trigonometric functions: the direction of a vector whose components
are numbers is between minus a half turn and a half turn. -/
structure Trigonometry.Lawful (trig : Trigonometry) : Prop where
  atan2_bounds : ∀ y x : Float, y.isNaN = false → x.isNaN = false →
    -pi ≤ trig.atan2 y x ∧ trig.atan2 y x ≤ pi

/-- A direction within a half turn has at most 181 whole degrees to either side. -/
theorem exists_floor_degrees {a : Float} (lower : -pi ≤ a) (upper : a ≤ pi) :
    ∃ k : Int, floor (a * ofInt 180 / pi + ofDecimal false 5 (-1)) = .ok k ∧ k.natAbs ≤ 181 := by
  obtain ⟨v, hv, bound⟩ := exists_hasValue_of_between lower upper
  have half := hasValue_pi
  obtain ⟨w₁, hw₁, near₁, -⟩ := exists_mul hv (hasValue_ofInt (n := 180) (by decide)) (N := 10)
    (by decide) (by decide) (by
      norm_num
      linarith)
  norm_num at near₁ half
  rw [abs_le] at bound near₁
  obtain ⟨w₂, hw₂, near₂, -⟩ := exists_div hw₁ half (by norm_num) (N := 8) (by decide) (by decide) (by
    norm_num
    rw [abs_le]
    constructor <;> linarith)
  norm_num at near₂
  rw [abs_le] at near₂
  obtain ⟨h, hh, nearHalf⟩ := exists_tenths (k := 5) (by decide)
  norm_num at nearHalf
  rw [abs_le] at nearHalf
  obtain ⟨w₃, hw₃, near₃⟩ := exists_add hw₂ hh (N := 8) (by decide) (by decide) (by
    norm_num
    rw [abs_le]
    constructor <;> linarith)
  norm_num at near₃
  rw [abs_le] at near₃
  refine ⟨⌊w₃⌋, floor_eq hw₃, ?_⟩
  have low : -181 ≤ ⌊w₃⌋ := Int.le_floor.mpr (by norm_num; linarith)
  have high : ⌊w₃⌋ < 181 := Int.floor_lt.mpr (by norm_num; linarith)
  omega

theorem isInf_eq_false {x : Float} {v : ℚ} (h : HasValue x v) : x.isInf = false := by
  obtain ⟨negative, m, e, hx, -⟩ := h
  rw [isInf_eq, hx, unpacked]
  split <;> rfl

/-- A small natural number is near its decimal. -/
theorem exists_ofDecimal {k : Nat} (hk : k ≤ 1000) :
    ∃ w, HasValue (ofDecimal false k 0) w ∧ |w - k| ≤ 1 / 10 ^ 9 := by
  obtain rfl | positive := Nat.eq_zero_or_pos k
  · exact ⟨0, ⟨false, 0, -1074, by decide, by simp⟩, by norm_num⟩
  have product : ofDecimal false k 0 =
      k.toUInt64.toFloat * Float.exactlyRepresentablePowersOfTen[0] := by
    have fast : k < 2 ^ 53 ∧ (0 : Int).natAbs ≤ 22 := ⟨by omega, by decide⟩
    rw [ofDecimal_eq_ofScientific positive hk (by decide), Float.ofScientific, dif_pos fast]
    rfl
  have one : HasValue Float.exactlyRepresentablePowersOfTen[0] 1 :=
    ⟨false, 0x10000000000000, -52, by decide, by norm_num⟩
  have bound : (k : ℚ) ≤ 1000 := by exact_mod_cast hk
  have natural : (0 : ℚ) ≤ k := Nat.cast_nonneg k
  obtain ⟨u, hu, near⟩ := exists_toFloat hk
  norm_num at near
  rw [abs_le] at near
  obtain ⟨w, hw, error, -⟩ := exists_mul hu one (N := 10) (by decide) (by decide) (by
    rw [mul_one, abs_le]
    norm_num
    constructor <;> linarith)
  refine ⟨w, product ▸ hw, ?_⟩
  norm_num at error ⊢
  rw [abs_le] at error ⊢
  constructor <;> linarith

/-- A few whole degrees are finite radians. -/
theorem isInf_radians (negative : Bool) {k : Nat} (hk : k ≤ 181) :
    (ofDecimal negative k 0 * pi / ofInt 180).isInf = false := by
  obtain ⟨u, hu, near⟩ := exists_ofDecimal (k := k) (by omega)
  have bound : (k : ℚ) ≤ 181 := by exact_mod_cast hk
  have natural : (0 : ℚ) ≤ k := Nat.cast_nonneg k
  norm_num at near
  rw [abs_le] at near
  obtain ⟨w, hw, small⟩ : ∃ w, HasValue (ofDecimal negative k 0) w ∧ |w| ≤ 182 := by
    cases negative with
    | false => exact ⟨u, hu, abs_le.mpr ⟨by linarith, by linarith⟩⟩
    | true => exact ⟨-u, hasValue_neg hu, abs_le.mpr ⟨by linarith, by linarith⟩⟩
  obtain ⟨p, hp, near₁, -⟩ := exists_mul hw hasValue_pi (N := 10) (by decide) (by decide) (by
    norm_num
    linarith)
  norm_num at near₁
  rw [abs_le] at small near₁
  obtain ⟨q, hq, -⟩ := exists_div hp (hasValue_ofInt (n := 180) (by decide)) (by norm_num) (N := 10)
    (by decide) (by decide) (by
      norm_num
      rw [abs_le]
      constructor <;> linarith)
  exact isInf_eq_false hq

end PathStudio.Double
