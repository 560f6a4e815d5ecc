import PathStudio.Proofs.Scalar.Double
import PathStudio.Proofs.Outcome
import PathStudio.Program.Field.Read

/-!
# Percentages and slots

The percentage of the moves that are done, rounded to one decimal, still tells
how many they are, on paths of up to a thousand moves: the steps between the
percentages are then at least as wide as a unit of the last decimal.
-/

namespace PathStudio.Program.Field

open Scalar

section Slots

variable {ν : Type} [Add ν] [Sub ν] [Mul ν] [Div ν] [Neg ν] [Scalar ν]

/-- How much of a path is done after some of its moves, in percent. -/
def percentage (done total : Nat) : ν := if total = 0 then 0 else ofInt done / ofInt total * 100

/-- The written percentages of a path with so many moves point back at the moves. -/
def SlotsFit (ν : Type) [Add ν] [Sub ν] [Mul ν] [Div ν] [Neg ν] [Scalar ν] (total : Nat) : Prop :=
  ∀ done ≤ total, ∃ count, unitsHalfUp (percentage done total : ν) 1 = .units count ∧
    lt (percentage done total : ν) 0 = false ∧ slot (ν := ν) ⟨false, count, 1⟩ total = .ok done

/-- The written percentages of a path with so many moves point, among another number of moves, at
places in the same order. -/
def SlotsKeepOrder (ν : Type) [Add ν] [Sub ν] [Mul ν] [Div ν] [Neg ν] [Scalar ν]
    (total total' : Nat) : Prop :=
  ∃ place : Nat → Nat,
    (∀ done ≤ total, ∃ count, unitsHalfUp (percentage done total : ν) 1 = .units count ∧
      lt (percentage done total : ν) 0 = false ∧
        slot (ν := ν) ⟨false, count, 1⟩ total' = .ok (place done)) ∧
    (∀ done ≤ total, place done ≤ total') ∧
    ∀ done done', done ≤ done' → done' ≤ total → place done ≤ place done'

end Slots

/-- A count of tenths of a percent that is the nearest one, as far as integers can tell, is less than
half a move away from the moves that are done. -/
theorem nearest_move {done total count : Nat} (ht : total ≤ 1000)
    (upper : 2 * (count * total) ≤ 2000 * done + total)
    (lower : 2000 * done ≤ 2 * (count * total) + total) :
    10 * (count * total) ≤ 10000 * done + 4995 ∧ 10000 * done ≤ 10 * (count * total) + 4995 := by
  obtain short | rfl : total ≤ 999 ∨ total = 1000 := by omega
  · omega
  · omega

section Double

open Binary Double

theorem hasValue_hundred : HasValue (Double.ofInt 100) 100 := by
  exact_mod_cast hasValue_ofInt (n := 100) (by decide)

/-- A percentage is near the exact one, and zero if nothing is done. -/
theorem hasValue_percentage {done total : Nat} (hd : done ≤ total) (ht : total ≤ 1000) :
    ∃ p, HasValue (percentage done total) p ∧ 0 ≤ p ∧ p ≤ 100 + 1 / 10 ^ 6 ∧
      |p * total - 100 * done| ≤ 1 / 10 ^ 6 := by
  obtain rfl | positive := Nat.eq_zero_or_pos total
  · obtain rfl := Nat.le_zero.mp hd
    exact ⟨0, hasValue_ofInt (n := 0) (by decide), le_rfl, by norm_num, by norm_num⟩
  have small : (total : ℚ) ≤ 1000 := by exact_mod_cast ht
  have divisor : (0 : ℚ) < total := by exact_mod_cast positive
  have least : (0 : ℚ) ≤ (done : ℚ) / total := by positivity
  have most : (done : ℚ) / total ≤ 1 := by
    rw [div_le_one divisor]
    exact_mod_cast hd
  obtain ⟨q, hq, nearQ, zeroQ⟩ := exists_div (hasValue_ofInt (n := done) (by omega))
    (hasValue_ofInt (n := total) (by omega)) divisor.ne' (N := 1) (by decide) (by decide)
    (abs_le.mpr ⟨by norm_num; linarith, by norm_num; linarith⟩)
  norm_num at nearQ
  rw [abs_le] at nearQ
  obtain ⟨p, hp, nearP, zeroP⟩ := exists_mul hq hasValue_hundred (N := 7) (by decide) (by decide)
    (abs_le.mpr ⟨by norm_num; linarith, by norm_num; linarith⟩)
  norm_num at nearP
  rw [abs_le] at nearP
  have same : (percentage done total : Float) =
      Double.ofInt done / Double.ofInt total * Double.ofInt 100 := if_neg positive.ne'
  have close : |p - done / total * 100| ≤ 1 / 10 ^ 9 := by
    norm_num
    rw [abs_le]
    constructor <;> linarith
  refine ⟨p, same ▸ hp, ?_, ?_, ?_⟩
  · obtain rfl | some := Nat.eq_zero_or_pos done
    · rw [zeroP (zeroQ (by simp))]
    · have step : 1 / 1000 ≤ (done : ℚ) / total := by
        have one : (1 : ℚ) ≤ done := by exact_mod_cast some
        rw [div_le_div_iff₀ (by norm_num) divisor, one_mul]
        linarith
      linarith
  · linarith
  · have shape : p * total - 100 * done = (p - done / total * 100) * total := by
      field_simp
    rw [shape, abs_mul, abs_of_pos divisor]
    calc |p - done / total * 100| * total ≤ 1 / 10 ^ 9 * 1000 :=
          mul_le_mul close small divisor.le (by norm_num)
      _ = 1 / 10 ^ 6 := by norm_num

/-- The power of two above a number of moves is at most twice as large. -/
theorem exists_powerOfTwo_above {total : Nat} (ht : total < 2 ^ 63) :
    ∃ N : Nat, (total : ℚ) + 1 ≤ 2 ^ N ∧ (2 : ℚ) ^ N ≤ 2 * (total + 1) ∧ N ≤ 64 := by
  refine ⟨(total + 1).log2 + 1, ?_, ?_, ?_⟩
  · exact_mod_cast (Nat.lt_log2_self (n := total + 1)).le
  · have below : (2 : ℚ) ^ (total + 1).log2 ≤ total + 1 := by
      exact_mod_cast Nat.log2_self_le (n := total + 1) (by omega)
    rw [pow_succ, mul_comm]
    linarith
  · have bits := (Nat.log2_lt (n := total + 1) (k := 64) (by omega)).mpr (by omega)
    omega

/-- The double that a written percentage stands for, as a share of the path. -/
theorem exists_share {count : Nat} (hc : count ≤ 1000) :
    ∃ u, HasValue (Double.ofDecimal false count (-1) / Double.ofInt 100) u ∧
      |u - count / 1000| ≤ 1 / 10 ^ 10 := by
  have small : (count : ℚ) ≤ 1000 := by exact_mod_cast hc
  have natural : (0 : ℚ) ≤ count := Nat.cast_nonneg count
  obtain ⟨t, hval, nearT⟩ := exists_tenths hc
  norm_num at nearT
  rw [abs_le] at nearT
  obtain ⟨u, hu, nearU, -⟩ := exists_div hval hasValue_hundred (by norm_num) (N := 1) (by decide)
    (by decide) (abs_le.mpr ⟨by norm_num; linarith, by norm_num; linarith⟩)
  norm_num at nearU
  rw [abs_le] at nearU
  refine ⟨u, hu, ?_⟩
  norm_num
  rw [abs_le]
  constructor <;> linarith

/-- The errors of a share and of a number of moves hardly show in their product. -/
theorem abs_share_mul_sub_le {count total : Nat} (hc : count ≤ 1000) {u w : ℚ}
    (close : |u - count / 1000| ≤ 1 / 10 ^ 10) (away : |w - total| ≤ total / 2 ^ 53) :
    |u * w - count * total / 1000| ≤ (total + 1) / 10 ^ 9 := by
  have natural : (0 : ℚ) ≤ total := Nat.cast_nonneg total
  have shape : u * w - count * total / 1000 =
      (u - count / 1000) * w + count / 1000 * (w - total) := by ring
  have size : |w| ≤ 2 * total := by
    rw [abs_le] at away ⊢
    norm_num at away
    constructor <;> linarith
  have share : |(count : ℚ) / 1000| ≤ 1 := by
    rw [abs_of_nonneg (by positivity), div_le_one (by norm_num)]
    exact_mod_cast hc
  calc |u * w - count * total / 1000|
      ≤ |u - count / 1000| * |w| + |(count : ℚ) / 1000| * |w - total| := by
        rw [shape, ← abs_mul, ← abs_mul]
        exact abs_add_le _ _
    _ ≤ 1 / 10 ^ 10 * (2 * total) + 1 * (total / 2 ^ 53) := by gcongr
    _ ≤ (total + 1) / 10 ^ 9 := by
        norm_num
        linarith

/-- The double that a written percentage stands for, scaled to any number of moves, is near the exact
one. -/
theorem hasValue_scaled {count total : Nat} (hc : count ≤ 1000) (ht : total < 2 ^ 63) :
    ∃ r, HasValue (Double.ofDecimal false count (-1) / Double.ofInt 100 * Double.ofInt total
      + Double.ofDecimal false 5 (-1)) r ∧
        |r - (count * total / 1000 + 1 / 2)| ≤ (total + 1) / 10 ^ 8 := by
  have natural : (0 : ℚ) ≤ count * total / 1000 := by positivity
  have product : (count : ℚ) * total / 1000 ≤ total := by
    have small : (count : ℚ) ≤ 1000 := by exact_mod_cast hc
    rw [div_le_iff₀ (by norm_num), mul_comm (total : ℚ)]
    exact mul_le_mul_of_nonneg_right small (Nat.cast_nonneg total)
  obtain ⟨N, least, most, bits⟩ := exists_powerOfTwo_above ht
  -- The errors of the two last operations, measured by the power of two above the moves.
  have fine {M : Int} {K : Nat} (h : M - 52 = N - K) : (2 : ℚ) ^ (M - 52) = 2 ^ N / 2 ^ K := by
    rw [h, zpow_sub₀ two_ne_zero, zpow_natCast, zpow_natCast]
  have double : (2 : ℚ) ^ ((N : Int) + 1) = 2 * 2 ^ N := by
    rw [zpow_add_one₀ two_ne_zero, zpow_natCast, mul_comm]
  have fourfold : (2 : ℚ) ^ ((N : Int) + 2) = 4 * 2 ^ N := by
    rw [zpow_add₀ two_ne_zero, zpow_natCast]
    norm_num
    ring
  obtain ⟨u, hu, close⟩ := exists_share hc
  obtain ⟨w, hw, away⟩ := exists_ofInt (n := total) (by omega)
  have scaled := abs_share_mul_sub_le hc close away
  norm_num at scaled
  rw [abs_le] at scaled
  obtain ⟨v, hv, nearV, -⟩ := exists_mul hu hw (N := N + 1) (by omega) (by omega) (by
    rw [double, abs_le]
    constructor <;> linarith)
  rw [fine (K := 51) (by omega)] at nearV
  norm_num at nearV
  rw [abs_le] at nearV
  obtain ⟨half, hhalf, nearHalf⟩ := exists_tenths (k := 5) (by decide)
  norm_num at nearHalf
  rw [abs_le] at nearHalf
  obtain ⟨r, hr, nearR⟩ := exists_add hv hhalf (N := N + 2) (by omega) (by omega) (by
    rw [fourfold, abs_le]
    constructor <;> linarith)
  rw [fine (K := 50) (by omega)] at nearR
  norm_num at nearR
  rw [abs_le] at nearR
  refine ⟨r, hr, ?_⟩
  norm_num
  rw [abs_le]
  constructor <;> linarith

/-- Where a written percentage points at among any number of moves. -/
theorem exists_slot {count total : Nat} (hc : count ≤ 1000) (ht : total < 2 ^ 63) :
    ∃ r : ℚ, |r - (count * total / 1000 + 1 / 2)| ≤ (total + 1) / 10 ^ 8 ∧
      slot (ν := Float) ⟨false, count, 1⟩ total = .ok (min ⌊r⌋ (total : Int)).toNat := by
  obtain ⟨r, hr, near⟩ := hasValue_scaled hc ht
  refine ⟨r, near, ?_⟩
  calc slot (ν := Float) ⟨false, count, 1⟩ total
      = Scalar.floor (Double.ofDecimal false count (-1) / Double.ofInt 100 * Double.ofInt total
          + Double.ofDecimal false 5 (-1)) >>= fun k => .ok (min k total).toNat := rfl
    _ = .ok (min ⌊r⌋ (total : Int)).toNat := by rw [show Scalar.floor _ = _ from floor_eq hr, ok_bind]

/-- A percentage is written as the nearest count of tenths, as far as integers can tell. -/
theorem exists_writtenTenths {done total : Nat} (hd : done ≤ total) (ht : total ≤ 1000) :
    ∃ count, Scalar.unitsHalfUp (percentage done total : Float) 1 = .units count ∧
      lt (percentage done total : Float) 0 = false ∧ count ≤ 1000 ∧
        2 * (count * total) ≤ 2000 * done + total ∧ 2000 * done ≤ 2 * (count * total) + total := by
  obtain ⟨p, hp, positive, most, nearP⟩ := hasValue_percentage hd ht
  obtain ⟨count, units, nearCount⟩ := unitsHalfUp_eq hp 1
  rw [abs_of_nonneg positive, pow_one, abs_le] at nearCount
  rw [abs_le] at nearP
  have natural : (0 : ℚ) ≤ total := Nat.cast_nonneg total
  have small : (total : ℚ) ≤ 1000 := by exact_mod_cast ht
  refine ⟨count, units, not_lt_zero hp positive, ?_, ?_, ?_⟩
  · have : (count : ℚ) < 1001 := by
      norm_num at most
      linarith
    exact Nat.lt_succ_iff.mp (by exact_mod_cast this)
  -- The errors of the doubles are too small to matter next to integers.
  · have : (2 * (count * total) : ℚ) < 2000 * done + total + 1 := by
      have := mul_le_mul_of_nonneg_right nearCount.2 natural
      norm_num at nearP
      linarith
    exact Nat.lt_succ_iff.mp (by exact_mod_cast this)
  · have : (2000 * done : ℚ) < 2 * (count * total) + total + 1 := by
      have := mul_le_mul_of_nonneg_right nearCount.1 natural
      norm_num at nearP
      linarith
    exact Nat.lt_succ_iff.mp (by exact_mod_cast this)

/-- On doubles a percentage with one decimal finds its move back. -/
theorem slotsFit_double {total : Nat} (ht : total ≤ 1000) : SlotsFit Float total := by
  intro done hd
  obtain ⟨count, units, positive, hc, upper, lower⟩ := exists_writtenTenths hd ht
  obtain ⟨above, below⟩ := nearest_move ht upper lower
  obtain ⟨r, near, found⟩ := exists_slot hc (by omega : total < 2 ^ 63)
  rw [abs_le] at near
  have small : (total : ℚ) ≤ 1000 := by exact_mod_cast ht
  have whole : ⌊r⌋ = (done : Int) := by
    have above' : (10 * (count * total) : ℚ) ≤ 10000 * done + 4995 := by exact_mod_cast above
    have below' : (10000 * done : ℚ) ≤ 10 * (count * total) + 4995 := by exact_mod_cast below
    norm_num at near
    rw [Int.floor_eq_iff]
    push_cast
    constructor <;> linarith
  have chosen : (min (done : Int) total).toNat = done := by omega
  rw [whole, chosen] at found
  exact ⟨count, units, positive, found⟩

/-- Larger percentages do not point at earlier moves, however many moves there are. -/
theorem slot_mono {count count' total : Nat} (h : count ≤ count') {r r' : ℚ}
    (near : |r - (count * total / 1000 + 1 / 2)| ≤ (total + 1) / 10 ^ 8)
    (near' : |r' - (count' * total / 1000 + 1 / 2)| ≤ (total + 1) / 10 ^ 8)
    (same : count = count' → r = r') :
    (min ⌊r⌋ (total : Int)).toNat ≤ (min ⌊r'⌋ (total : Int)).toNat := by
  obtain rfl | less := Nat.eq_or_lt_of_le h
  · rw [same rfl]
  obtain rfl | some := Nat.eq_zero_or_pos total
  · omega
  have one : (1 : ℚ) ≤ total := by exact_mod_cast some
  have apart : (count : ℚ) + 1 ≤ count' := by exact_mod_cast less
  have step : (count : ℚ) * total + total ≤ count' * total := by
    have := mul_le_mul_of_nonneg_right apart (by linarith : (0 : ℚ) ≤ total)
    linarith
  rw [abs_le] at near near'
  have ordered : r ≤ r' := by
    norm_num at near near'
    linarith
  have floors := Int.floor_le_floor ordered
  omega

/-- The percentages of a path point, among any other number of moves, at places in the same
order. -/
theorem slotsKeepOrder_double {total total' : Nat} (ht : total ≤ 1000) (ht' : total' < 2 ^ 63) :
    SlotsKeepOrder Float total total' := by
  choose! count units positive small upper lower using
    fun done (hd : done ≤ total) => exists_writtenTenths hd ht
  choose! r near found using
    fun count (hc : count ≤ 1000) => @exists_slot count total' hc ht'
  refine ⟨fun done => (min ⌊r (count done)⌋ (total' : Int)).toNat, fun done hd =>
    ⟨count done, units done hd, positive done hd, found _ (small done hd)⟩, fun done _ =>
    Int.toNat_le.mpr (min_le_right _ _), ?_⟩
  intro done done' less hd'
  have hd : done ≤ total := less.trans hd'
  have counts : count done ≤ count done' := by
    obtain rfl | less := Nat.eq_or_lt_of_le less
    · exact le_rfl
    have some : 0 < total := by omega
    have above := upper done hd
    have below := lower done' hd'
    have ordered : count done * total ≤ count done' * total := by omega
    exact Nat.le_of_mul_le_mul_right ordered some
  exact slot_mono counts (near _ (small done hd)) (near _ (small done' hd')) fun same => by rw [same]

end Double

end PathStudio.Program.Field
