import PathStudio.Proofs.Scalar.Bounded

/-!
# Lengths of vectors

The length of a vector is computed from the integer square root of a widened sum of
squares and rounded once. It is finite for components in range, at most a small multiple
of their sum and at least half of either.
-/

namespace PathStudio.Binary

/-! ## Square roots -/

theorem squareRoot_eq_sqrt (n : Nat) : squareRoot n = n.sqrt := by
  apply Nat.eq_sqrt.mpr
  fun_induction squareRoot n with
  | case1 n small => interval_cases n <;> decide
  | case2 n large half fits ih =>
    have double : half + 1 + 1 = 2 * (squareRoot (n / 4) + 1) := by omega
    refine ⟨fits, ?_⟩
    calc n < 4 * (n / 4 + 1) := by omega
      _ ≤ 4 * ((squareRoot (n / 4) + 1) * (squareRoot (n / 4) + 1)) := Nat.mul_le_mul_left 4 ih.2
      _ = (half + 1 + 1) * (half + 1 + 1) := by rw [double]; ring
  | case3 n large half fits ih =>
    refine ⟨?_, Nat.lt_of_not_le fits⟩
    calc half * half = 4 * (squareRoot (n / 4) * squareRoot (n / 4)) := by ring
      _ ≤ 4 * (n / 4) := Nat.mul_le_mul_left 4 ih.1
      _ ≤ n := Nat.mul_div_le n 4

/-! ## Rounding once -/

section Rounding

variable {negative : Bool} {m : Nat} {e N : Int}

theorem log2_add_le (positive : 0 < m) (h : (m : ℚ) * 2 ^ e ≤ 2 ^ N) : (m.log2 : Int) + e ≤ N := by
  have bits : (2 : ℚ) ^ ((m.log2 : Int) + e) ≤ 2 ^ N := by
    rw [zpow_add₀ two_ne_zero, zpow_natCast]
    refine le_trans (mul_le_mul_of_nonneg_right ?_ (by positivity)) h
    exact_mod_cast Nat.log2_self_le (Nat.ne_of_gt positive)
  exact (zpow_le_zpow_iff_right₀ one_lt_two).mp bits

/-- The mantissa nearest to a number at the exponent to which it is rounded. -/
def nearestMantissa (m : Nat) (e : Int) : Nat :=
  if roundingExponent m e ≤ e then m * powerOfTwo (e - roundingExponent m e).toNat
  else roundQuotient .toEven m (powerOfTwo (roundingExponent m e - e).toNat)

theorem nearestMantissa_le (m : Nat) (e : Int) : nearestMantissa m e ≤ 2 ^ 53 := scaled_le m e

theorem le_nearestMantissa (positive : 0 < m) (normal : roundingExponent m e = m.log2 + e - 52) :
    2 ^ 52 ≤ nearestMantissa m e := by
  have power (n : Nat) : powerOfTwo n = 2 ^ n := rfl
  have lead := Nat.log2_self_le (Nat.ne_of_gt positive)
  rw [nearestMantissa, normal, power, power]
  split
  next exact =>
    calc 2 ^ 52 = 2 ^ m.log2 * 2 ^ (e - (m.log2 + e - 52)).toNat := by
          rw [← Nat.pow_add]
          congr 1
          omega
      _ ≤ m * 2 ^ (e - (m.log2 + e - 52)).toNat := Nat.mul_le_mul_right _ lead
  next wide =>
    have whole : 2 ^ 52 ≤ m / 2 ^ (m.log2 + e - 52 - e).toNat := by
      rw [Nat.le_div_iff_mul_le (Nat.two_pow_pos _), ← Nat.pow_add]
      exact le_trans (Nat.pow_le_pow_right (by decide) (by omega)) lead
    obtain ⟨rounded, -⟩ | ⟨rounded, -⟩ :=
      Double.roundQuotient_cases .toEven m (2 ^ (m.log2 + e - 52 - e).toNat)
    · rw [rounded]
      exact whole
    · rw [rounded]
      exact whole.trans (Nat.le_succ _)

/-- The nearest mantissa is at most a half away from the exact one. -/
theorem abs_nearestMantissa_sub_le (m : Nat) (e : Int) :
    |(nearestMantissa m e : ℚ) * 2 ^ roundingExponent m e - m * 2 ^ e| ≤
      1 / 2 * 2 ^ roundingExponent m e := by
  have power (n : Nat) : powerOfTwo n = 2 ^ n := rfl
  rw [nearestMantissa, power, power]
  generalize roundingExponent m e = t
  have unit : (0 : ℚ) < 2 ^ t := by positivity
  split
  next exact =>
    rw [← value_eq_shifted m exact, sub_self, abs_zero]
    positivity
  next wide =>
    have shifted : (m : ℚ) * 2 ^ e = m / (2 ^ (t - e).toNat : Nat) * 2 ^ t := by
      have split : (2 : ℚ) ^ t = 2 ^ e * 2 ^ (t - e).toNat := by
        rw [← zpow_natCast, ← zpow_add₀ two_ne_zero]
        congr 1
        omega
      have nonzero : (2 : ℚ) ^ (t - e).toNat ≠ 0 := by positivity
      rw [split]
      push_cast
      field_simp
    have near := Double.abs_roundQuotient_sub_le .toEven m (Nat.two_pow_pos (t - e).toNat)
    rw [shifted, ← sub_mul, abs_mul, abs_of_pos unit]
    exact mul_le_mul_of_nonneg_right near unit.le

/-- A mantissa that is rounded up to 54 bits is halved and has the next exponent. -/
theorem hasValue_packed {mantissa : Nat} (small : mantissa ≤ 2 ^ 53) (least : -1074 ≤ e)
    (most : e ≤ 970) (full : 2 ^ 52 ≤ mantissa ∨ e = -1074) :
    HasValue (if mantissa = powerOfTwo 53 then pack negative (powerOfTwo 52) (e + 1)
      else pack negative mantissa e) (factor negative * (mantissa * 2 ^ e)) := by
  have power (n : Nat) : powerOfTwo n = 2 ^ n := rfl
  rw [power, power]
  split
  next carried =>
    have half : (mantissa : ℚ) * 2 ^ e = (2 ^ 52 : Nat) * 2 ^ (e + 1) := by
      rw [carried, zpow_add_one₀ two_ne_zero]
      push_cast
      ring
    rw [half]
    exact ⟨negative, _, _, ofFloat_pack (by decide) ⟨by decide, by omega, by omega, .inl le_rfl⟩, rfl⟩
  next other =>
    obtain rfl | positive := Nat.eq_zero_or_pos mantissa
    · obtain rfl : e = -1074 := full.resolve_left (by decide)
      exact ⟨negative, 0, -1074, by cases negative <;> decide, rfl⟩
    · exact ⟨negative, _, _, ofFloat_pack positive ⟨by omega, least, by omega, full⟩, rfl⟩

/-- A rounded number is at most half a unit in the last place away from the exact one. -/
theorem exists_binaryRound (negative : Bool) (positive : 0 < m) (hN : N ≤ 1022)
    (h : (m : ℚ) * 2 ^ e ≤ 2 ^ N) :
    ∃ w, HasValue (Binary.round negative m e) (factor negative * w) ∧
      |w - m * 2 ^ e| ≤ 1 / 2 * 2 ^ roundingExponent m e := by
  have rounded : Binary.round negative m e =
      if nearestMantissa m e = powerOfTwo 53 then
        pack negative (powerOfTwo 52) (roundingExponent m e + 1)
      else pack negative (nearestMantissa m e) (roundingExponent m e) := by
    rw [Binary.round, if_neg (Nat.ne_of_gt positive)]
    rfl
  have bits := log2_add_le positive h
  have most : roundingExponent m e ≤ 970 := by
    rw [roundingExponent]
    omega
  have full : 2 ^ 52 ≤ nearestMantissa m e ∨ roundingExponent m e = -1074 := by
    by_cases least : roundingExponent m e = -1074
    · exact .inr least
    · refine .inl (le_nearestMantissa positive ?_)
      rw [roundingExponent] at least ⊢
      omega
  refine ⟨nearestMantissa m e * 2 ^ roundingExponent m e, ?_, abs_nearestMantissa_sub_le m e⟩
  rw [rounded]
  exact hasValue_packed (nearestMantissa_le m e) (le_roundingExponent m e) most full

end Rounding

/-! ## Lengths -/

/-- The root of a sum of squares is between the larger term and the sum of both. -/
theorem root_bounds (a b k : Nat) :
    a * 2 ^ k ≤ squareRoot ((a * a + b * b) * powerOfTwo (2 * k)) ∧
      b * 2 ^ k ≤ squareRoot ((a * a + b * b) * powerOfTwo (2 * k)) ∧
      squareRoot ((a * a + b * b) * powerOfTwo (2 * k)) ≤ (a + b) * 2 ^ k := by
  have power : powerOfTwo (2 * k) = 2 ^ k * 2 ^ k := by
    rw [← Nat.pow_add, ← two_mul]
    rfl
  rw [squareRoot_eq_sqrt, power]
  refine ⟨?_, ?_, ?_⟩
  · rw [Nat.le_sqrt]
    calc a * 2 ^ k * (a * 2 ^ k) = a * a * (2 ^ k * 2 ^ k) := by ring
      _ ≤ (a * a + b * b) * (2 ^ k * 2 ^ k) := Nat.mul_le_mul_right _ (Nat.le_add_right _ _)
  · rw [Nat.le_sqrt]
    calc b * 2 ^ k * (b * 2 ^ k) = b * b * (2 ^ k * 2 ^ k) := by ring
      _ ≤ (a * a + b * b) * (2 ^ k * 2 ^ k) := Nat.mul_le_mul_right _ (Nat.le_add_left _ _)
  · rw [← Nat.lt_succ_iff, Nat.sqrt_lt]
    calc (a * a + b * b) * (2 ^ k * 2 ^ k)
        ≤ (a * a + b * b) * (2 ^ k * 2 ^ k) + 2 * (a * b) * (2 ^ k * 2 ^ k) := Nat.le_add_right _ _
      _ = (a + b) * 2 ^ k * ((a + b) * 2 ^ k) := by ring
      _ < ((a + b) * 2 ^ k + 1) * ((a + b) * 2 ^ k + 1) :=
          Nat.mul_self_lt_mul_self (Nat.lt_succ_self _)

/-- The unit to which a number is rounded is no larger than the number, unless it is below all
doubles. -/
theorem two_zpow_roundingExponent_le {m : Nat} {e : Int} (positive : 0 < m)
    (normal : (2 : ℚ) ^ (-1074 : Int) ≤ m * 2 ^ e) : (2 : ℚ) ^ roundingExponent m e ≤ m * 2 ^ e := by
  have lead : (2 : ℚ) ^ m.log2 ≤ m := by exact_mod_cast Nat.log2_self_le (Nat.ne_of_gt positive)
  obtain full | least : roundingExponent m e = m.log2 + e - 52 ∨ roundingExponent m e = -1074 := by
    rw [roundingExponent]
    omega
  · rw [full]
    calc (2 : ℚ) ^ ((m.log2 : Int) + e - 52) ≤ 2 ^ ((m.log2 : Int) + e) :=
          zpow_le_zpow_right₀ one_le_two (by omega)
      _ = 2 ^ m.log2 * 2 ^ e := by rw [zpow_add₀ two_ne_zero, zpow_natCast]
      _ ≤ m * 2 ^ e := by gcongr
  · rw [least]
    exact normal

/-- The widened root stands for a number between the larger term and twice the sum of both, unless
both are zero. -/
theorem exists_roundSquareRoot {a b : Nat} {e N : Int} (some : 0 < a + b) (least : -1074 ≤ e)
    (hN : N ≤ 1020) (bound : ((a : ℚ) + b) * 2 ^ e ≤ 2 ^ N) :
    ∃ w, HasValue (roundSquareRoot (a * a + b * b) e) w ∧ (a : ℚ) * 2 ^ e ≤ 2 * w ∧
      (b : ℚ) * 2 ^ e ≤ 2 * w ∧ w ≤ 4 * 2 ^ N := by
  rw [roundSquareRoot]
  generalize 64 - min 64 ((a * a + b * b).log2 / 2) = k
  obtain ⟨first, second, both⟩ := root_bounds a b k
  generalize squareRoot ((a * a + b * b) * powerOfTwo (2 * k)) = root at *
  generalize sticky : (if root * root = (a * a + b * b) * powerOfTwo (2 * k) then 0 else 1) = bit
  have few : bit ≤ 1 := by
    subst sticky
    split <;> omega
  -- the rounded number is `m` in units of half a place of the widened root
  generalize whole : 2 * root + bit = m
  have power := Nat.two_pow_pos k
  have unit : (2 : ℚ) ^ e = 2 * 2 ^ k * 2 ^ (e - k - 1) := by
    rw [← zpow_natCast, ← zpow_one_add₀ two_ne_zero, ← zpow_add₀ two_ne_zero]
    congr 1
    omega
  have scale : (0 : ℚ) < 2 ^ (e - k - 1) := by positivity
  have above {c : Nat} (h : c * 2 ^ k ≤ root) : (c : ℚ) * 2 ^ e ≤ m * 2 ^ (e - k - 1) := by
    have counted : 2 * (c * 2 ^ k) ≤ m := by omega
    have counted' : 2 * ((c : ℚ) * 2 ^ k) ≤ m := by exact_mod_cast counted
    rw [unit]
    nlinarith
  have below : (m : ℚ) * 2 ^ (e - k - 1) ≤ 2 * (((a : ℚ) + b) * 2 ^ e) := by
    have one : 1 ≤ (a + b) * 2 ^ k := Nat.mul_pos some power
    have counted : m ≤ 4 * ((a + b) * 2 ^ k) := by omega
    have counted' : (m : ℚ) ≤ 4 * (((a : ℚ) + b) * 2 ^ k) := by exact_mod_cast counted
    rw [unit]
    nlinarith
  have positive : 0 < m := by
    have : 0 < root := by
      obtain ha | hb : 0 < a ∨ 0 < b := by omega
      · exact (Nat.mul_pos ha power).trans_le first
      · exact (Nat.mul_pos hb power).trans_le second
    omega
  have normal : (2 : ℚ) ^ (-1074 : Int) ≤ m * 2 ^ (e - k - 1) := by
    have smallest : (2 : ℚ) ^ (-1074 : Int) ≤ 2 ^ e := zpow_le_zpow_right₀ one_le_two least
    refine smallest.trans ?_
    have apart {c : Nat} (hc : 0 < c) : (2 : ℚ) ^ e ≤ c * 2 ^ e := by
      have : (1 : ℚ) ≤ c := by exact_mod_cast hc
      have : (0 : ℚ) < 2 ^ e := by positivity
      nlinarith
    obtain ha | hb : 0 < a ∨ 0 < b := by omega
    · exact (apart ha).trans (above first)
    · exact (apart hb).trans (above second)
  have most : (m : ℚ) * 2 ^ (e - k - 1) ≤ 2 ^ (N + 1) := by
    rw [zpow_add_one₀ two_ne_zero]
    linarith
  obtain ⟨w, hw, error⟩ := exists_binaryRound false positive (by omega) most
  have last := two_zpow_roundingExponent_le positive normal
  rw [factor_false, one_mul] at hw
  rw [abs_le] at error
  rw [zpow_add_one₀ two_ne_zero] at most
  refine ⟨w, hw, ?_, ?_, ?_⟩
  · linarith [above first]
  · linarith [above second]
  · linarith

end PathStudio.Binary

namespace PathStudio.Double

open Binary

variable {N : Nat} {x y : Float} {u v : ℚ}

/-- The length of a vector is at least half of either component, and in range if both are. -/
theorem exists_hypot (hx : HasValue x u) (hy : HasValue y v) (bu : |u| ≤ 2 ^ N) (bv : |v| ≤ 2 ^ N)
    (small : N ≤ 1000) :
    ∃ w, HasValue (hypot x y) w ∧ |u| ≤ 2 * w ∧ |v| ≤ 2 * w ∧ w ≤ 2 ^ (N + 3) := by
  obtain ⟨n₁, m₁, e₁, h₁, rfl⟩ := hx
  obtain ⟨n₂, m₂, e₂, h₂, rfl⟩ := hy
  have power (n : Nat) : powerOfTwo n = 2 ^ n := rfl
  have least : -1074 ≤ min e₁ e₂ :=
    le_min (canonical_of_finite h₁).least (canonical_of_finite h₂).least
  rw [abs_value, value_eq_shifted m₁ (min_le_left e₁ e₂)] at bu
  rw [abs_value, value_eq_shifted m₂ (min_le_right e₁ e₂)] at bv
  rw [abs_value, abs_value, value_eq_shifted m₁ (min_le_left e₁ e₂),
    value_eq_shifted m₂ (min_le_right e₁ e₂), hypot, h₁, h₂]
  simp only [power]
  generalize m₁ * 2 ^ (e₁ - min e₁ e₂).toNat = a at *
  generalize m₂ * 2 ^ (e₂ - min e₁ e₂).toNat = b at *
  generalize min e₁ e₂ = e at *
  obtain none | some := Nat.eq_zero_or_pos (a + b)
  · obtain ⟨rfl, rfl⟩ := Nat.add_eq_zero_iff.mp none
    refine ⟨0, ?_, by simp, by simp, by positivity⟩
    have zero : roundSquareRoot (0 * 0 + 0 * 0) e = pack false 0 0 := by
      simp [roundSquareRoot, squareRoot_eq_sqrt, Binary.round]
    rw [zero]
    exact ⟨false, 0, -1074, by decide, by simp⟩
  · obtain ⟨w, hw, first, second, most⟩ := exists_roundSquareRoot (N := (N + 1 : Nat)) some least
      (by omega) (by
        rw [zpow_natCast, pow_succ]
        linarith)
    rw [zpow_natCast] at most
    refine ⟨w, hw, first, second, most.trans (le_of_eq ?_)⟩
    ring

theorem Bounded.hypot (hx : Bounded N x) (hy : Bounded N y) (small : N ≤ 1000) :
    Bounded (N + 3) (hypot x y) := by
  obtain ⟨u, hu, bu⟩ := hx
  obtain ⟨v, hv, bv⟩ := hy
  obtain ⟨w, hw, first, -, most⟩ := exists_hypot hu hv bu bv small
  refine ⟨w, hw, ?_⟩
  rwa [abs_of_nonneg (by linarith [abs_nonneg u])]

end PathStudio.Double
