import PathStudio.Scalar.Double
import Mathlib

/-!
# The bits of doubles

A double taken apart by its bit pattern is the same sign, mantissa and exponent
that floating-point arithmetic works with.
-/

namespace PathStudio.Binary

open Float.Model Float.Model.UnpackedFloat

/-- The sign of floating-point arithmetic for a sign bit. -/
def signOf (negative : Bool) : Sign := if negative then .negative else .positive

/-- A mantissa and an exponent as a double holds them: with all bits, or at the least exponent. -/
structure Canonical (mantissa : Nat) (exponent : Int) : Prop where
  mantissa_lt : mantissa < 2 ^ 53
  least : -1074 ≤ exponent
  most : exponent ≤ 971
  full : 2 ^ 52 ≤ mantissa ∨ exponent = -1074

theorem toNat_packComponents (s : Sign) (exponent : BitVec 11) (mantissa : BitVec 52) :
    (packComponents Format.binary64 s exponent mantissa).toNat =
      s.toBitVec.toNat * 2 ^ 63 + exponent.toNat * 2 ^ 52 + mantissa.toNat := by
  have he := exponent.isLt
  have hm := mantissa.isLt
  rw [packComponents, BitVec.toNat_append, BitVec.toNat_append, ← Nat.shiftLeft_add_eq_or_of_lt hm,
    ← Nat.shiftLeft_add_eq_or_of_lt he, Nat.shiftLeft_eq, Nat.shiftLeft_eq]
  omega

theorem toNat_toBits_pack (u : UnpackedFloat) :
    (Float.ofModel (Float.Model.pack u)).toBits.toNat = (UnpackedFloat.pack Format.binary64 u).toNat :=
  rfl

/-- A bit pattern taken apart. -/
def fields (bits : Nat) : Binary :=
  let negative := decide (powerOfTwo 63 ≤ bits)
  let biased : Nat := bits / powerOfTwo 52 % 2048
  let fraction : Nat := bits % powerOfTwo 52
  if biased = 2047 then
    if fraction = 0 then .infinite negative else .notANumber
  else if biased = 0 then .finite negative fraction (-1074)
  else .finite negative (fraction + powerOfTwo 52) ((biased : Int) - 1075)

theorem ofFloat_eq (x : Float) : ofFloat x = fields x.toBits.toNat := rfl

/-- A bit pattern given by fields that are not those of a special value. -/
theorem fields_eq {bits sign biased fraction : Nat} (hs : sign < 2) (hb : biased < 2047)
    (hf : fraction < 2 ^ 52) (h : bits = sign * 2 ^ 63 + biased * 2 ^ 52 + fraction) :
    fields bits = if biased = 0 then .finite (decide (sign = 1)) fraction (-1074)
      else .finite (decide (sign = 1)) (fraction + 2 ^ 52) ((biased : Int) - 1075) := by
  have negative : decide (powerOfTwo 63 ≤ bits) = decide (sign = 1) := by
    rw [powerOfTwo, h, decide_eq_decide]
    show 2 ^ 63 ≤ _ ↔ _
    omega
  have exponent : bits / powerOfTwo 52 % 2048 = biased := by
    rw [powerOfTwo, h]
    show _ / 2 ^ 52 % 2048 = _
    omega
  have rest : bits % powerOfTwo 52 = fraction := by
    rw [powerOfTwo, h]
    show _ % 2 ^ 52 = _
    omega
  have special : biased ≠ 2047 := by omega
  simp only [fields, negative, exponent, rest, special, if_false]
  rfl

section Packing

variable {s : Sign} {m : Nat} {e : Int} {hm : 0 < m}

theorem pack_overflow (overflow : 2 ^ 11 ≤ (e + 1023 + 52).toNat + 1) :
    UnpackedFloat.pack Format.binary64 (.finite s m e hm) =
      UnpackedFloat.pack Format.binary64 (.infinity s) := if_pos overflow

theorem pack_normal (range : ¬ 2 ^ 11 ≤ (e + 1023 + 52).toNat + 1) (normal : m.log2 + 1 = 53) :
    UnpackedFloat.pack Format.binary64 (.finite s m e hm) =
      packComponents Format.binary64 s (BitVec.ofNat _ (e + 1023 + 52).toNat) (BitVec.ofNat _ m) :=
  (if_neg range).trans (if_pos normal)

theorem pack_subnormal (range : ¬ 2 ^ 11 ≤ (e + 1023 + 52).toNat + 1) (subnormal : ¬ m.log2 + 1 = 53) :
    UnpackedFloat.pack Format.binary64 (.finite s m e hm) =
      packComponents Format.binary64 s 0#_ (BitVec.ofNat _ m) :=
  (if_neg range).trans (if_neg subnormal)

end Packing

/-- Arithmetic packs a finite number into its fields. -/
theorem toNat_pack_finite {negative : Bool} {m : Nat} {e : Int} (hm : 0 < m) (h : Canonical m e) :
    (UnpackedFloat.pack Format.binary64 (.finite (signOf negative) m e hm)).toNat =
      (if negative then 1 else 0) * 2 ^ 63
        + (if 2 ^ 52 ≤ m then (e + 1075).toNat else 0) * 2 ^ 52 + m % 2 ^ 52 := by
  have := h.mantissa_lt
  have := h.least
  have := h.most
  have sign : (signOf negative).toBitVec.toNat = if negative then 1 else 0 := by
    cases negative <;> rfl
  have range : ¬ 2 ^ 11 ≤ (e + 1023 + 52).toNat + 1 := by omega
  by_cases normal : 2 ^ 52 ≤ m
  · have log : m.log2 + 1 = 53 := by
      rw [(Nat.log2_eq_iff (Nat.ne_of_gt hm)).mpr ⟨normal, h.mantissa_lt⟩]
    rw [pack_normal range log, toNat_packComponents, sign, BitVec.toNat_ofNat, BitVec.toNat_ofNat, if_pos normal,
      Nat.mod_eq_of_lt (by omega : (e + 1023 + 52).toNat < 2 ^ 11)]
    congr 3
    omega
  · have log : ¬ m.log2 + 1 = 53 := by
      have := (Nat.log2_lt (Nat.ne_of_gt hm)).mpr (Nat.lt_of_not_le normal)
      omega
    rw [pack_subnormal range log, toNat_packComponents, sign, BitVec.toNat_ofNat, if_neg normal]
    rfl

/-- What arithmetic packs, taken apart again. -/
theorem ofFloat_pack_finite {negative : Bool} {m : Nat} {e : Int} (hm : 0 < m) (h : Canonical m e) :
    ofFloat (.ofModel (Float.Model.pack (.finite (signOf negative) m e hm))) =
      .finite negative m e := by
  have := h.mantissa_lt
  have := h.least
  have := h.most
  have bits := (toNat_toBits_pack _).trans (@toNat_pack_finite negative m e hm h)
  have sign : decide ((if negative then 1 else 0) = 1) = negative := by cases negative <;> rfl
  rw [ofFloat_eq, fields_eq (by split <;> omega) (by split <;> omega) (by omega) bits, sign]
  obtain normal | rfl := h.full
  · have : (e + 1075).toNat ≠ 0 := by omega
    rw [if_pos normal, if_neg this]
    congr 1 <;> omega
  · by_cases normal : 2 ^ 52 ≤ m
    · rw [if_pos normal, if_neg (by decide)]
      congr 1
      omega
    · rw [if_neg normal, if_pos rfl]
      congr 1
      omega

theorem ofFloat_pack_zero (negative : Bool) :
    ofFloat (.ofModel (Float.Model.pack (.zero (signOf negative)))) = .finite negative 0 (-1074) := by
  cases negative <;> decide

/-- The fields that arithmetic unpacks. -/
theorem unpack_fields (bits : UInt64) :
    (@unpackSign Format.binary64 bits.toBitVec).toNat = bits.toNat / 2 ^ 63 ∧
      (@unpackExponent Format.binary64 bits.toBitVec).toNat = bits.toNat / 2 ^ 52 % 2048 ∧
      (@unpackMantissa Format.binary64 bits.toBitVec).toNat = bits.toNat % 2 ^ 52 := by
  have bound : bits.toNat < 2 ^ 64 := bits.toNat_lt
  have same : bits.toBitVec.toNat = bits.toNat := rfl
  refine ⟨?_, ?_, ?_⟩
  · simp only [unpackSign, BitVec.toNat_cast, BitVec.extractLsb_toNat, same,
      Nat.shiftRight_eq_div_pow]
    norm_num
    omega
  · simp only [unpackExponent, BitVec.toNat_cast, BitVec.extractLsb_toNat, same,
      Nat.shiftRight_eq_div_pow]
  · simp only [unpackMantissa, BitVec.toNat_cast, BitVec.extractLsb_toNat, same,
      Nat.shiftRight_eq_div_pow]
    norm_num

/-- A number taken apart, as floating-point arithmetic has it. -/
def unpacked : Binary → UnpackedFloat
  | .notANumber => .notANumber
  | .infinite negative => .infinity (signOf negative)
  | .finite negative m e =>
    if h : 0 < m then .finite (signOf negative) m e h else .zero (signOf negative)

theorem ofBitVec_unpackSign (bits : UInt64) :
    Sign.ofBitVec (@unpackSign Format.binary64 bits.toBitVec) =
      signOf (decide (powerOfTwo 63 ≤ bits.toNat)) := by
  obtain ⟨signBits, -⟩ := unpack_fields bits
  have bound : bits.toNat < 2 ^ 64 := bits.toNat_lt
  by_cases hneg : 2 ^ 63 ≤ bits.toNat
  · have : @unpackSign Format.binary64 bits.toBitVec ≠ 0#1 := by
      rw [ne_eq, ← BitVec.toNat_inj, signBits]
      show ¬ _ = 0
      omega
    rw [Sign.ofBitVec, if_neg this, decide_eq_true (by exact hneg), signOf, if_pos rfl]
  · have : @unpackSign Format.binary64 bits.toBitVec = 0#1 := by
      rw [← BitVec.toNat_inj, signBits]
      show _ = 0
      omega
    rw [Sign.ofBitVec, if_pos this, decide_eq_false (by exact hneg), signOf, if_neg (by decide)]

/-- Above the least exponent the mantissa has one more bit than its field. -/
theorem toNat_append_unpackMantissa (bits : UInt64) :
    (1#1 ++ @unpackMantissa Format.binary64 bits.toBitVec).toNat =
      bits.toNat % powerOfTwo 52 + powerOfTwo 52 := by
  obtain ⟨-, -, mantissaBits⟩ := unpack_fields bits
  have small := (@unpackMantissa Format.binary64 bits.toBitVec).isLt
  rw [BitVec.toNat_append, ← Nat.shiftLeft_add_eq_or_of_lt small, mantissaBits, Nat.shiftLeft_eq]
  show 1 * 2 ^ 52 + bits.toNat % 2 ^ 52 = bits.toNat % 2 ^ 52 + 2 ^ 52
  omega

/-- The two ways to take a bit pattern apart agree. -/
theorem unpack_bits (bits : UInt64) :
    UnpackedFloat.unpack Format.binary64 bits.toBitVec = unpacked (fields bits.toNat) := by
  obtain ⟨-, exponentBits, mantissaBits⟩ := unpack_fields bits
  have sign := ofBitVec_unpackSign bits
  have whole := toNat_append_unpackMantissa bits
  have infinite : @unpackExponent Format.binary64 bits.toBitVec = -1#_ ↔
      bits.toNat / powerOfTwo 52 % 2048 = 2047 := by
    rw [← BitVec.toNat_inj, exponentBits]
    rfl
  have least : @unpackExponent Format.binary64 bits.toBitVec = 0#_ ↔
      bits.toNat / powerOfTwo 52 % 2048 = 0 := by
    rw [← BitVec.toNat_inj, exponentBits]
    rfl
  have empty : @unpackMantissa Format.binary64 bits.toBitVec = 0#_ ↔
      bits.toNat % powerOfTwo 52 = 0 := by
    rw [← BitVec.toNat_inj, mantissaBits]
    rfl
  have bias : (Format.binary64.exponentBias : Int) + (52 : Nat) = 1075 := rfl
  rw [UnpackedFloat.unpack, fields]
  simp only [sign, infinite, least, empty, whole, bias]
  split
  next special => split <;> rfl
  next =>
    split
    next zero =>
      by_cases hf : bits.toNat % powerOfTwo 52 = 0
      · simp [hf, unpacked]
      · have positive : 0 < bits.toNat % powerOfTwo 52 := Nat.pos_of_ne_zero hf
        have exponent : (@unpackExponent Format.binary64 bits.toBitVec).toNat = 0 :=
          exponentBits.trans zero
        have fraction : (@unpackMantissa Format.binary64 bits.toBitVec).toNat =
            bits.toNat % powerOfTwo 52 := mantissaBits
        simp [hf, unpacked, positive, exponent, fraction]
    next nonzero =>
      have positive : 0 < bits.toNat % powerOfTwo 52 + powerOfTwo 52 :=
        Nat.add_pos_right _ (by decide)
      have exponent : (@unpackExponent Format.binary64 bits.toBitVec).toNat =
          bits.toNat / powerOfTwo 52 % 2048 := exponentBits
      simp [unpacked, positive, exponent]

/-- The two ways to take a double apart agree. -/
theorem unpack_eq (x : Float) : x.toModel.unpack = unpacked (ofFloat x) := unpack_bits x.toBits

theorem isFinite_eq (x : Float) : x.isFinite = (unpacked (ofFloat x)).isFinite := by
  rw [← unpack_eq]
  rfl

theorem isInf_eq (x : Float) : x.isInf = (unpacked (ofFloat x)).isInf := by
  rw [← unpack_eq]
  rfl

theorem isNaN_eq (x : Float) : x.isNaN = (unpacked (ofFloat x)).isNaN := by
  rw [← unpack_eq]
  rfl

/-! Arithmetic works on the numbers that doubles are taken apart into. -/

theorem add_eq (x y : Float) : x + y = .ofModel (Float.Model.pack
    (UnpackedFloat.add Format.binary64 (unpacked (ofFloat x)) (unpacked (ofFloat y)))) := by
  rw [← unpack_eq, ← unpack_eq]
  rfl

theorem sub_eq (x y : Float) : x - y = .ofModel (Float.Model.pack
    (UnpackedFloat.sub Format.binary64 (unpacked (ofFloat x)) (unpacked (ofFloat y)))) := by
  rw [← unpack_eq, ← unpack_eq]
  rfl

theorem mul_eq (x y : Float) : x * y = .ofModel (Float.Model.pack
    (UnpackedFloat.mul Format.binary64 (unpacked (ofFloat x)) (unpacked (ofFloat y)))) := by
  rw [← unpack_eq, ← unpack_eq]
  rfl

theorem div_eq (x y : Float) : x / y = .ofModel (Float.Model.pack
    (UnpackedFloat.div Format.binary64 (unpacked (ofFloat x)) (unpacked (ofFloat y)))) := by
  rw [← unpack_eq, ← unpack_eq]
  rfl

/-- The mantissa and the exponent of a finite number are as a double holds them. -/
theorem canonical_of_fields {bits : Nat} {negative : Bool} {m : Nat} {e : Int}
    (h : fields bits = .finite negative m e) : Canonical m e := by
  have fraction : bits % powerOfTwo 52 < 2 ^ 52 := Nat.mod_lt _ (by decide)
  have biased : bits / powerOfTwo 52 % 2048 < 2048 := Nat.mod_lt _ (by decide)
  have power : powerOfTwo 52 = 2 ^ 52 := rfl
  rw [fields] at h
  split at h
  next => split at h <;> cases h
  next =>
    split at h
    next =>
      cases h
      exact ⟨by omega, by omega, by omega, .inr rfl⟩
    next =>
      cases h
      exact ⟨by omega, by omega, by omega, .inl (by omega)⟩

theorem canonical_of_finite {x : Float} {negative : Bool} {m : Nat} {e : Int}
    (h : ofFloat x = .finite negative m e) : Canonical m e :=
  canonical_of_fields h

/-- The double of a finite bit pattern has this bit pattern. -/
theorem ofFloat_ofBits {bits : UInt64} {negative : Bool} {m : Nat} {e : Int} (hm : 0 < m)
    (h : fields bits.toNat = .finite negative m e) :
    ofFloat (Float.ofBits bits) = .finite negative m e := by
  have built : Float.ofBits bits = .ofModel (Float.Model.pack
      (UnpackedFloat.unpack Format.binary64 bits.toBitVec)) := rfl
  rw [built, unpack_bits, h, unpacked, dif_pos hm, ofFloat_pack_finite hm (canonical_of_fields h)]

/-- Packing makes no number into what is not one; what is out of range becomes infinite. -/
theorem ofFloat_pack_ne_notANumber {u : UnpackedFloat} (h : u ≠ .notANumber) :
    ofFloat (.ofModel (Float.Model.pack u)) ≠ .notANumber := by
  have special : ∀ s, ofFloat (.ofModel (Float.Model.pack (.infinity s))) ≠ .notANumber := by
    rintro (_ | _) <;> decide
  have fields_ne {s : Sign} {exponent : BitVec 11} {mantissa : BitVec 52}
      (small : exponent.toNat < 2047) :
      fields (packComponents Format.binary64 s exponent mantissa).toNat ≠ .notANumber := by
    have sign : s.toBitVec.toNat < 2 := s.toBitVec.isLt
    rw [fields_eq sign small mantissa.isLt (toNat_packComponents s exponent mantissa)]
    split <;> exact Binary.noConfusion
  cases u with
  | notANumber => exact absurd rfl h
  | infinity s => exact special s
  | zero s => cases s <;> decide
  | finite s m e hm =>
    have bits : ofFloat (.ofModel (Float.Model.pack (.finite s m e hm))) =
        fields (UnpackedFloat.pack Format.binary64 (.finite s m e hm)).toNat := rfl
    by_cases overflow : 2 ^ 11 ≤ (e + 1023 + 52).toNat + 1
    · rw [bits, pack_overflow overflow]
      exact special s
    · rw [bits]
      by_cases normal : m.log2 + 1 = 53
      · rw [pack_normal overflow normal]
        apply fields_ne
        rw [BitVec.toNat_ofNat, Nat.mod_eq_of_lt (by omega : (e + 1023 + 52).toNat < 2 ^ 11)]
        omega
      · rw [pack_subnormal overflow normal]
        exact fields_ne (by decide)

end PathStudio.Binary
