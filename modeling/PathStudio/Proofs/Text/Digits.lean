import PathStudio.Text.Digit
import Mathlib

/-!
# Digits and their values

The digits of a number read back as the number, also with zeros in front of
them, and are Latin digits.
-/

namespace PathStudio.Text

/-- The digits that numbers are written with. -/
def latinDigits : List Char := ['0', '1', '2', '3', '4', '5', '6', '7', '8', '9']

theorem ofNat_mem_latinDigits {d : Nat} (h : d < 10) : Char.ofNat (48 + d) ∈ latinDigits := by
  revert d
  decide

theorem digitValue?_ofNat {d : Nat} (h : d < 10) : digitValue? (Char.ofNat (48 + d)) = some d := by
  revert d
  decide

theorem isDigit_of_mem_latinDigits {c : Char} (h : c ∈ latinDigits) : isDigit c = true := by
  exact List.all_eq_true.mp (by decide : latinDigits.all isDigit = true) c h

theorem digitsOf_ne_nil (n : Nat) : digitsOf n ≠ [] := by
  rw [digitsOf]
  split <;> simp

theorem digitsOf_subset (n : Nat) : ∀ c ∈ digitsOf n, c ∈ latinDigits := by
  induction n using Nat.strongRecOn with
  | ind n ih =>
    rw [digitsOf]
    split
    next small =>
      intro c hc
      rw [List.mem_singleton.mp hc]
      exact ofNat_mem_latinDigits small
    next large =>
      intro c hc
      obtain hc | hc := List.mem_append.mp hc
      · exact ih (n / 10) (by omega) c hc
      · rw [List.mem_singleton.mp hc]
        exact ofNat_mem_latinDigits (by omega)

/-- A number below a power of ten has at most that many digits. -/
theorem digitCount_le {n d : Nat} (h : n < 10 ^ (d + 1)) : digitCount n ≤ d + 1 := by
  rw [digitCount]
  induction d generalizing n with
  | zero => simp [digitsOf, show n < 10 by simpa using h]
  | succ d ih =>
    rw [digitsOf]
    split
    · simp
    · have fewer := ih (n := n / 10) (by omega)
      simp only [List.length_append, List.length_singleton]
      omega

theorem integerText_of_lt {n : Nat} (h : n < 10) : integerText n = [Char.ofNat (48 + n)] := by
  rw [integerText, if_neg (by omega), Int.natAbs_natCast, digitsOf, if_pos h]

/-- The digits of a number begin with a zero only if it is zero. -/
theorem eq_zero_of_digitsOf {n : Nat} {rest : List Char} (h : digitsOf n = '0' :: rest) : n = 0 := by
  induction n using Nat.strongRecOn generalizing rest with
  | ind n ih =>
    rw [digitsOf] at h
    split at h
    next small =>
      have digit : Char.ofNat (48 + n) = '0' := (List.cons.inj h).1
      have same := digitValue?_ofNat small
      rw [digit] at same
      exact (Option.some.inj same).symm
    next large =>
      obtain ⟨first, more, front⟩ := List.exists_cons_of_ne_nil (digitsOf_ne_nil (n / 10))
      rw [front, List.cons_append] at h
      obtain rfl := (List.cons.inj h).1
      have none := ih (n / 10) (by omega) front
      omega

@[simp] theorem digitsValue_concat (s : List Char) (c : Char) :
    digitsValue (s ++ [c]) = 10 * digitsValue s + (digitValue? c).getD 0 := by
  simp [digitsValue]

@[simp] theorem digitsValue_digitsOf (n : Nat) : digitsValue (digitsOf n) = n := by
  induction n using Nat.strongRecOn with
  | ind n ih =>
    rw [digitsOf]
    split
    next small => simp [digitsValue, digitValue?_ofNat small]
    next large =>
      rw [digitsValue_concat, ih (n / 10) (by omega), digitValue?_ofNat (by omega)]
      simp only [Option.getD_some]
      omega

@[simp] theorem digitsValue_zeros (n : Nat) (s : List Char) :
    digitsValue (List.replicate n '0' ++ s) = digitsValue s := by
  have zero : (digitValue? '0').getD 0 = 0 := by decide
  induction n with
  | zero => rfl
  | succ n ih =>
    rw [← ih]
    simp [digitsValue, List.replicate_succ, zero]

theorem getD_digitValue?_lt (c : Char) : (digitValue? c).getD 0 < 10 := by
  unfold digitValue?
  dsimp only
  split
  · split
    next latin =>
      simp only [Bool.and_eq_true, decide_eq_true_eq] at latin
      simp only [Option.getD_some]
      omega
    next => decide
  · cases found : foreignZeros.find? fun first => first ≤ c.toNat && c.toNat < first + 10 with
    | none => exact (by decide : 0 < 10)
    | some first =>
      have among := List.find?_some found
      simp only [Bool.and_eq_true, decide_eq_true_eq] at among
      simp only [Option.map_some, Option.getD_some]
      omega

/-- As many characters as a text has, as many digits its value has at most. -/
theorem digitsValue_lt (s : List Char) : digitsValue s < 10 ^ s.length := by
  induction s using List.reverseRecOn with
  | nil => decide
  | append_singleton s c ih =>
    have last := getD_digitValue?_lt c
    rw [digitsValue_concat, List.length_append, List.length_singleton, Nat.pow_succ]
    omega

/-- A number has more digits than the power of ten below it has zeros. -/
theorem lt_digitCount_iff {n d : Nat} : d + 1 < digitCount n ↔ 10 ^ (d + 1) ≤ n := by
  constructor
  · intro many
    by_contra small
    exact absurd (digitCount_le (not_le.mp small)) (not_le.mpr many)
  · intro large
    have below := digitsValue_lt (digitsOf n)
    rw [digitsValue_digitsOf] at below
    exact (Nat.pow_lt_pow_iff_right (by decide)).mp (large.trans_lt below)

end PathStudio.Text
