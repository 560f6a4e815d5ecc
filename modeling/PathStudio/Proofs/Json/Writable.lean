import PathStudio.Proofs.Json.RoundTrip
import PathStudio.Proofs.Text.Digits
import Mathlib.Tactic.IntervalCases

/-!
# Values that have a text

An integer that is read back is not too long to be written. So a value whose
numbers are read back is written in one piece.
-/

namespace PathStudio.Json

open Text Decimal

/-- No word stands for an integer. -/
theorem not_int_of_readWord? {s rest : List Char} {value : Json}
    (h : readWord? s = some (value, rest)) (n : Int) : value ≠ .int n := by
  have plain : ∀ w ∈ words, w.2 ≠ .int n := by simp [words]
  obtain ⟨w, hw, found⟩ := List.exists_of_findSome?_eq_some h
  split at found
  · cases found
    exact plain w hw
  · cases found

theorem pow_le_integerBound {digits : Nat} (h : digits ≤ integerDigitLimit) :
    10 ^ digits ≤ integerBound := by
  have power (n : Nat) : powerOfTen n = 10 ^ n := rfl
  rw [integerBound, power]
  exact Nat.pow_le_pow_right (by decide) h

theorem isLong_of_lt {n : Int} (h : n.natAbs < 10 ^ 19) : isLong n = false :=
  decide_eq_false (Nat.not_le.mpr (h.trans_le (pow_le_integerBound (by decide))))

theorem readsBack_digit {n : Nat} (h : n < 10) : ReadsBack (.int n) := by
  rw [ReadsBack, write, writeAt, integerText_of_lt h]
  interval_cases n <;> rfl

theorem isLong_of_readUnsigned {negative : Bool} {length : Nat} {s rest : List Char} {n : Int}
    (h : readUnsigned negative length s = .ok (.int n, rest)) : isLong n = false := by
  unfold readUnsigned at h
  split at h
  · cases h
  next whole after _ =>
    dsimp only at h
    split at h
    · split at h
      · cases h
      next short =>
        have value : n.natAbs = digitsValue whole := by
          obtain ⟨value, -⟩ := Prod.mk.inj (Except.ok.inj h)
          have value := Json.int.inj value
          split at value <;> omega
        have fits : digitsValue whole < integerBound :=
          (digitsValue_lt whole).trans_le (pow_le_integerBound (by omega))
        rw [isLong, value]
        exact decide_eq_false (not_le.mpr fits)
    · cases h

/-- An integer that is read back is not too long. -/
theorem isLong_of_readsBack {n : Int} (h : ReadsBack (.int n)) : isLong n = false := by
  obtain ⟨fuel, rest, read, -⟩ := exists_of_readsBack h
  obtain ⟨atom, -⟩ := readAtom_of_readValue (by simp) read
  rw [readAtom, ← readWord?] at atom
  cases word : readWord? (skipGap (writeAt .oneLine 0 (.int n))) with
  | some found =>
    rw [word] at atom
    cases atom
    exact absurd rfl (not_int_of_readWord? word n)
  | none =>
    rw [word] at atom
    dsimp only at atom
    cases text : skipGap (writeAt .oneLine 0 (.int n)) with
    | nil =>
      rw [text] at atom
      cases atom
    | cons c tail =>
      rw [text] at atom
      obtain rfl | plain := eq_or_ne c '-'
      · exact isLong_of_readUnsigned ((readNumber_minus tail).symm.trans atom)
      · exact isLong_of_readUnsigned ((readNumber_of_ne plain tail).symm.trans atom)

mutual

theorem hasLong_eq_false (value : Json) (reads : ∀ a ∈ value.atoms, ReadsBack a) :
    value.hasLong = false := by
  match value with
  | .null | .bool _ | .real _ | .str _ => rfl
  | .int n => exact isLong_of_readsBack (reads _ (List.mem_singleton_self _))
  | .arr items => exact anyLong_eq_false items reads
  | .obj members => exact anyMemberLong_eq_false members reads

theorem anyLong_eq_false (items : List Json) (reads : ∀ a ∈ itemAtoms items, ReadsBack a) :
    anyLong items = false := by
  match items with
  | [] => rfl
  | value :: rest =>
    rw [itemAtoms, List.forall_mem_append] at reads
    rw [anyLong, hasLong_eq_false value reads.1, anyLong_eq_false rest reads.2]
    rfl

theorem anyMemberLong_eq_false (members : List (String × Json))
    (reads : ∀ a ∈ memberAtoms members, ReadsBack a) : anyMemberLong members = false := by
  match members with
  | [] => rfl
  | (key, value) :: rest =>
    rw [memberAtoms, List.forall_mem_cons, List.forall_mem_append] at reads
    rw [anyMemberLong, hasLong_eq_false value reads.2.1, anyMemberLong_eq_false rest reads.2.2]
    rfl

end

variable (layout : Layout)

mutual

theorem writtenBefore?_eq_none (depth : Nat) (value : Json) :
    value.hasLong = false → writtenBefore? layout depth value = none := by
  match value with
  | .null | .bool _ | .real _ | .str _ => exact fun _ => rfl
  | .int n =>
    intro h
    rw [hasLong] at h
    simp only [writtenBefore?, h, Bool.false_eq_true, if_false]
  | .arr items =>
    intro h
    rw [writtenBefore?, itemsBefore?_eq_none (depth + 1) items h, Option.map_none]
  | .obj members =>
    intro h
    rw [writtenBefore?, membersBefore?_eq_none (depth + 1) members h, Option.map_none]

theorem itemsBefore?_eq_none (depth : Nat) (items : List Json) (h : anyLong items = false) :
    itemsBefore? layout depth items = none := by
  match items with
  | [] => rfl
  | value :: rest =>
    obtain ⟨first, others⟩ := Bool.or_eq_false_iff.mp h
    rw [itemsBefore?, writtenBefore?_eq_none depth value first]
    dsimp only
    rw [itemsBefore?_eq_none depth rest others, Option.map_none]

theorem membersBefore?_eq_none (depth : Nat) (members : List (String × Json))
    (h : anyMemberLong members = false) : membersBefore? layout depth members = none := by
  match members with
  | [] => rfl
  | (key, value) :: rest =>
    obtain ⟨first, others⟩ := Bool.or_eq_false_iff.mp h
    rw [membersBefore?, writtenBefore?_eq_none depth value first]
    dsimp only
    rw [membersBefore?_eq_none depth rest others, Option.map_none]

end

/-- A value without an integer that is too long is written in one piece. -/
theorem pieces_of_hasLong {value : Json} (h : value.hasLong = false) :
    value.pieces layout = [.ok (value.write layout)] := by
  rw [pieces, writtenBefore?_eq_none layout 0 value h]

end PathStudio.Json
