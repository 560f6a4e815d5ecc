import PathStudio.Proofs.Text.Digits
import PathStudio.Proofs.Text.Scanning
import PathStudio.Program.Amount
import PathStudio.Program.Lexeme
import PathStudio.Decimal.Numeral
import Mathlib.Data.List.TakeDrop

/-!
# Spelled numbers

The numbers of programs as texts. `Spells text n` says that a text is a sign,
digits and, where the number has places, a point and that many digits more.
Amounts and whole degrees are printed so, the lexer of programs reads such a text
back wherever no digit follows it, and the reader of numerals agrees.
-/

namespace PathStudio.Program

open Text Scalar

/-- The characters that numbers are spelled with. -/
def numberCharacters : List Char := '-' :: '.' :: latinDigits

theorem not_blank_of_mem {c : Char} (h : c ∈ numberCharacters) : isBlank c = false :=
  forall_eq_false_of_any (by decide : numberCharacters.any isBlank = false) c h

/-- A text spells a number as programs write it. -/
def Spells (text : List Char) (n : WrittenNumber) : Prop :=
  ∃ whole fraction : List Char,
    whole ≠ [] ∧ (∀ c ∈ whole, c ∈ latinDigits) ∧ (∀ c ∈ fraction, c ∈ latinDigits) ∧
      fraction.length = n.places ∧ digitsValue (whole ++ fraction) = n.mantissa ∧
      text = (if n.negative then ['-'] else []) ++ whole ++
        (if n.places = 0 then [] else '.' :: fraction)

/-- A character that can stand right behind a number: it does not continue the number, and it is no
blank that a reader would skip. -/
structure EndsNumber (c : Char) : Prop where
  digit : isDigit c = false
  point : c ≠ '.'
  blank : isBlank c = false

theorem endsNumber_comma : EndsNumber ',' := ⟨by decide, by decide, by decide⟩

theorem endsNumber_parenthesis : EndsNumber ')' := ⟨by decide, by decide, by decide⟩

namespace Spells

variable {text : List Char} {n : WrittenNumber}

theorem subset (h : Spells text n) : ∀ c ∈ text, c ∈ numberCharacters := by
  obtain ⟨whole, fraction, -, hw, hf, -, -, rfl⟩ := h
  intro c hc
  obtain ⟨negative, mantissa, places⟩ := n
  simp only [List.mem_append] at hc
  obtain (hc | hc) | hc := hc
  · cases negative <;> simp_all [numberCharacters]
  · exact List.mem_cons_of_mem _ (List.mem_cons_of_mem _ (hw c hc))
  · split at hc
    · cases hc
    · obtain rfl | hc := List.mem_cons.mp hc
      · simp [numberCharacters]
      · exact List.mem_cons_of_mem _ (List.mem_cons_of_mem _ (hf c hc))

theorem ne_nil (h : Spells text n) : text ≠ [] := by
  obtain ⟨whole, fraction, hne, -, -, -, -, rfl⟩ := h
  simp [hne]

theorem plain (h : Spells text n) : text.any isLineEnd = false := by
  rw [List.any_eq_false]
  intro c hc
  simpa using forall_eq_false_of_any (by decide : numberCharacters.any isLineEnd = false) c
    (h.subset c hc)

theorem head_not_blank (h : Spells text n) (rest : List Char) :
    skipBlanks (text ++ rest) = text ++ rest := by
  obtain ⟨c, more, rfl⟩ := List.exists_cons_of_ne_nil h.ne_nil
  exact skipBlanks_cons (not_blank_of_mem (h.subset c (by simp))) _

end Spells

theorem span_isDigit {digits : List Char} (h : ∀ c ∈ digits, c ∈ latinDigits) (rest : List Char)
    (hr : ∀ c ∈ rest.head?, isDigit c = false) :
    (digits ++ rest).span isDigit = (digits, rest) := by
  have all : ∀ c ∈ digits, isDigit c = true := fun c hc => isDigit_of_mem_latinDigits (h c hc)
  rw [List.span_eq_takeWhile_dropWhile, List.takeWhile_append_of_pos all,
    List.dropWhile_append_of_pos all]
  cases rest with
  | nil => simp
  | cons c rest => simp [hr c rfl]

/-- A text that does not go on with a number: it begins neither with a digit nor with a point. -/
def EndsHere (rest : List Char) : Prop := ∀ c ∈ rest.head?, isDigit c = false ∧ c ≠ '.'

theorem endsHere_nil : EndsHere [] := by
  intro c hc
  cases hc

theorem EndsNumber.endsHere {c : Char} (h : EndsNumber c) (rest : List Char) :
    EndsHere (c :: rest) := by
  rintro _ ⟨⟩
  exact ⟨h.digit, h.point⟩

theorem readUnsigned_digits (negative : Bool) {whole fraction : List Char} (hne : whole ≠ [])
    (hw : ∀ c ∈ whole, c ∈ latinDigits) (hf : ∀ c ∈ fraction, c ∈ latinDigits) {places : Nat}
    (hp : fraction.length = places) {rest : List Char} (hr : EndsHere rest) :
    readUnsigned negative
        (whole ++ (if places = 0 then [] else '.' :: fraction) ++ rest) =
      some (⟨negative, digitsValue (whole ++ fraction), places⟩, rest) := by
  have nonempty : whole.isEmpty = false := by simpa using hne
  have noDigit : ∀ c ∈ rest.head?, isDigit c = false := fun c hc => (hr c hc).1
  split
  next none =>
    obtain rfl : fraction = [] := List.eq_nil_of_length_eq_zero (hp.trans none)
    rw [List.append_nil, readUnsigned, span_isDigit hw _ noDigit]
    simp only [nonempty, Bool.false_eq_true, if_false, none]
    split
    next _ more => exact absurd rfl (hr '.' rfl).2
    next => rfl
  next some =>
    have point : isDigit '.' = false := by decide
    rw [List.append_assoc, List.cons_append, readUnsigned, span_isDigit hw _ (by simpa using point)]
    simp only [nonempty, Bool.false_eq_true, if_false, span_isDigit hf rest noDigit, hp]

/-- A spelled number is read back where the text does not go on with it. -/
theorem Spells.readNumber_append {text : List Char} {n : WrittenNumber} (h : Spells text n)
    {rest : List Char} (hr : EndsHere rest) : readNumber (text ++ rest) = some (n, rest) := by
  obtain ⟨whole, fraction, hne, hw, hf, hp, hv, rfl⟩ := h
  obtain ⟨negative, mantissa, places⟩ := n
  have unsigned := fun sign => readUnsigned_digits sign hne hw hf hp hr
  simp only [hv] at unsigned
  cases negative with
  | true => simpa [Program.readNumber] using unsigned true
  | false =>
    obtain ⟨d, more, rfl⟩ := List.exists_cons_of_ne_nil hne
    have digit : d ≠ '-' := by
      rintro rfl
      exact absurd (hw '-' (by simp)) (by decide)
    simpa [Program.readNumber, digit] using unsigned false

/-- A spelled number is read back where neither a digit nor a point follows it. -/
theorem Spells.readNumber {text : List Char} {n : WrittenNumber} (h : Spells text n) {c : Char}
    (hc : EndsNumber c) (rest : List Char) : readNumber (text ++ c :: rest) = some (n, c :: rest) :=
  h.readNumber_append (hc.endsHere rest)

/-! ## The reader of numerals on spelled numbers -/

theorem trimNumber_of_subset {text : List Char} (h : ∀ c ∈ text, c ∈ numberCharacters) :
    Decimal.trimNumber text = text := by
  have plain : ∀ c ∈ text, isNumberBlank c = false := by
    intro c hc
    simp [isNumberBlank, not_blank_of_mem (h c hc)]
  have keep (s : List Char) (hs : ∀ c ∈ s, isNumberBlank c = false) :
      s.dropWhile isNumberBlank = s := by
    cases s with
    | nil => rfl
    | cons c s => simp [hs c (by simp)]
  rw [Decimal.trimNumber, keep text plain, keep text.reverse (by simpa using plain),
    List.reverse_reverse]

theorem dropGrouping?_of_subset {text : List Char} (h : ∀ c ∈ text, c ∈ numberCharacters)
    (before : Bool) : Decimal.dropGrouping? before text = some text := by
  induction text generalizing before with
  | nil => rfl
  | cons c text ih =>
    have other : c ≠ '_' := by
      rintro rfl
      exact absurd (h '_' (by simp)) (by decide)
    rw [Decimal.dropGrouping?.eq_def]
    simp [other, ih fun c hc => h c (List.mem_cons_of_mem _ hc)]

theorem readMagnitude?_digits {whole fraction : List Char} (hne : whole ≠ [])
    (hw : ∀ c ∈ whole, c ∈ latinDigits) (hf : ∀ c ∈ fraction, c ∈ latinDigits) {places : Nat}
    (hp : fraction.length = places) :
    Decimal.readMagnitude? (whole ++ (if places = 0 then [] else '.' :: fraction)) =
      some (digitsValue (whole ++ fraction), -(places : Int)) := by
  have nonempty : whole.isEmpty = false := by simpa using hne
  split
  next none =>
    obtain rfl : fraction = [] := List.eq_nil_of_length_eq_zero (hp.trans none)
    have wholeSpan : (whole ++ []).span isDigit = (whole, []) := span_isDigit hw [] (by simp)
    simp only [Decimal.readMagnitude?, Decimal.spanDigits, wholeSpan, nonempty, none]
    simp [Decimal.readExponent?]
  next some =>
    have point : isDigit '.' = false := by decide
    have wholeSpan := span_isDigit hw ('.' :: fraction) (by simpa using point)
    have fractionSpan := span_isDigit hf [] (by simp)
    rw [List.append_nil] at fractionSpan
    simp only [Decimal.readMagnitude?, Decimal.spanDigits, wholeSpan, fractionSpan, nonempty]
    simp [Decimal.readExponent?, hp]

/-- The reader of numerals gives a spelled number its sign, digits and places. -/
theorem Spells.readReal? {text : List Char} {n : WrittenNumber} (h : Spells text n) :
    Decimal.readReal? text = some (.decimal n.negative n.mantissa (-(n.places : Int))) := by
  have subset := h.subset
  obtain ⟨whole, fraction, hne, hw, hf, hp, hv, ht⟩ := h
  have sign : Decimal.readSign text =
      (n.negative, whole ++ (if n.places = 0 then [] else '.' :: fraction)) := by
    obtain ⟨d, more, rfl⟩ := List.exists_cons_of_ne_nil hne
    have minus : d ≠ '-' := by
      rintro rfl
      exact absurd (hw '-' (by simp)) (by decide)
    have plus : d ≠ '+' := by
      rintro rfl
      exact absurd (hw '+' (by simp)) (by decide)
    rw [ht]
    cases n.negative <;> simp [Decimal.readSign, minus, plus]
  simp [Decimal.readReal?, trimNumber_of_subset subset, dropGrouping?_of_subset subset, sign,
    readMagnitude?_digits hne hw hf hp, hv]

variable {ν : Type} [Add ν] [Sub ν] [Mul ν] [Div ν] [Neg ν] [Scalar ν]

/-- The scalar of a text that is a decimal numeral. -/
def numeral? (text : List Char) : Option ν :=
  match Decimal.readReal? text with
  | some (.decimal negative mantissa exponent) => some (ofDecimal negative mantissa exponent)
  | _ => none

theorem Spells.numeral? {text : List Char} {n : WrittenNumber} (h : Spells text n) :
    Program.numeral? text = some (n.value : ν) := by
  rw [Program.numeral?, h.readReal?]
  rfl

/-! ## What is printed -/

/-- The written number of an integer. -/
abbrev WrittenNumber.whole (k : Int) : WrittenNumber := ⟨decide (k < 0), k.natAbs, 0⟩

theorem spells_integerText (k : Int) : Spells (integerText k) (.whole k) := by
  refine ⟨digitsOf k.natAbs, [], digitsOf_ne_nil _, digitsOf_subset _, by simp, rfl, by simp, ?_⟩
  rw [integerText]
  split <;> simp [*]

/-- Digits with a point among them: at least one before it and as many as there are places behind it.
The first is a zero only if no other stands before the point. -/
theorem exists_withPoint (count : Nat) {places : Nat} (hp : places ≠ 0) :
    ∃ whole fraction : List Char,
      Decimal.withPoint (digitsOf count) places = whole ++ '.' :: fraction ∧ whole ≠ [] ∧
        (∀ c ∈ whole, c ∈ latinDigits) ∧ (∀ c ∈ fraction, c ∈ latinDigits) ∧
        fraction.length = places ∧ digitsValue (whole ++ fraction) = count ∧
        ∀ rest, whole = '0' :: rest → rest = [] := by
  have zeros : ∀ c ∈ List.replicate (places + 1 - (digitsOf count).length) '0' ++ digitsOf count,
      c ∈ latinDigits := by
    intro c hc
    obtain hc | hc := List.mem_append.mp hc
    · rw [List.eq_of_mem_replicate hc]
      decide
    · exact digitsOf_subset count c hc
  have total : (List.replicate (places + 1 - (digitsOf count).length) '0' ++ digitsOf count).length =
      places + 1 - (digitsOf count).length + (digitsOf count).length := by
    rw [List.length_append, List.length_replicate]
  rw [Decimal.withPoint, if_neg hp]
  dsimp only
  generalize hpadded : List.replicate (places + 1 - (digitsOf count).length) '0'
    ++ digitsOf count = padded at *
  have long : places < padded.length := by omega
  refine ⟨padded.take (padded.length - places), padded.drop (padded.length - places), rfl, ?_,
    fun c hc => zeros c (List.mem_of_mem_take hc), fun c hc => zeros c (List.mem_of_mem_drop hc),
    ?_, ?_, ?_⟩
  · rw [ne_eq, List.take_eq_nil_iff]
    rintro (h | rfl)
    · omega
    · simp at long
  · rw [List.length_drop]
    exact Nat.sub_sub_self (Nat.le_of_lt long)
  · rw [List.take_append_drop, ← hpadded, digitsValue_zeros, digitsValue_digitsOf]
  · intro rest leading
    obtain few | many := Nat.lt_or_ge places (digitsOf count).length
    · -- nothing has been filled up, so the zero is the first digit of the count
      have unfilled : padded = digitsOf count := by
        rw [← hpadded, Nat.sub_eq_zero_of_le few, List.replicate_zero, List.nil_append]
      have first : digitsOf count = '0' :: (rest ++ padded.drop (padded.length - places)) := by
        rw [← List.cons_append, ← leading, List.take_append_drop, unfilled]
      have zero : digitCount count ≤ 1 := digitCount_le (by rw [eq_zero_of_digitsOf first]; decide)
      rw [digitCount] at zero
      omega
    · -- filled up to one digit before the point
      have one := congrArg List.length leading
      rw [List.length_take, List.length_cons] at one
      exact List.eq_nil_of_length_eq_zero (by omega)

theorem spells_withPoint (negative : Bool) (count : Nat) {places : Nat} (hp : places ≠ 0) :
    Spells ((if negative then ['-'] else []) ++ Decimal.withPoint (digitsOf count) places)
      ⟨negative, count, places⟩ := by
  obtain ⟨whole, fraction, printed, hne, hw, hf, hlength, hvalue, -⟩ := exists_withPoint count hp
  refine ⟨whole, fraction, hne, hw, hf, hlength, hvalue, ?_⟩
  rw [printed, if_neg hp, List.append_assoc]

theorem amount_eq_ok {v : ν} {places : Int} (coarse : fewestPlaces ≤ places)
    (fine : places ≤ finestPlace) {count : Nat} (units : unitsHalfUp v places = .units count)
    {text : List Char} (printed : Decimal.amount? (lt v 0) count places = some text) :
    amount v places = .ok text := by
  have inRange : ¬ (places < fewestPlaces ∨ mostPlaces < places) := by
    simp only [fewestPlaces, mostPlaces, finestPlace] at *
    omega
  rw [amount, if_neg inRange]
  simp only [Int.min_eq_left fine, units, printed]

/-- Few places can be asked for, and an amount is written with all of them. -/
theorem few_places {places : Nat} (few : places ≤ 6) :
    ¬ ((places : Int) < fewestPlaces ∨ mostPlaces < (places : Int)) ∧
      min (places : Int) finestPlace = places := by
  simp only [fewestPlaces, mostPlaces, finestPlace]
  omega

/-- What an amount with few places is printed as depends on its sign and on the count of its units. -/
theorem amount_of_units {v : ν} {places : Nat} (few : places ≤ 6) {count : Nat}
    (units : unitsHalfUp v (places : Int) = .units count) {negative : Bool}
    (sign : lt v 0 = negative) :
    amount v places = (Decimal.amount? negative count places).elim (.error .unprintable) .ok := by
  obtain ⟨inRange, finest⟩ := few_places few
  rw [amount, if_neg inRange]
  simp only [finest, units, sign]
  cases Decimal.amount? negative count places <;> rfl

/-- The text of an amount spells its count of units, unless the scalar is not a number. -/
theorem spells_amount {v : ν} (places : Nat) (hp : places ≠ 0) (hsmall : places ≤ 6)
    {text : List Char} (h : amount v places = .ok text) :
    (unitsHalfUp v places = .notANumber ∧ text = "NaN".toList) ∨
      ∃ count, unitsHalfUp v places = .units count ∧ Spells text ⟨lt v 0, count, places⟩ := by
  obtain ⟨inRange, finest⟩ := few_places hsmall
  rw [amount, if_neg inRange] at h
  simp only [finest] at h
  cases hu : unitsHalfUp v (places : Int) with
  | notANumber =>
    rw [hu] at h
    cases h
    exact .inl ⟨rfl, rfl⟩
  | infinite =>
    rw [hu] at h
    cases h
  | units count =>
    right
    refine ⟨count, rfl, ?_⟩
    rw [hu] at h
    simp only [Decimal.amount?] at h
    split at h
    next printed heq =>
      cases h
      split at heq
      · cases heq
      · have near : (0 : Int) ≤ places ∧
            -6 ≤ ((digitsOf count).length : Int) - 1 - (places : Int) := by
          have := List.length_pos_iff.mpr (digitsOf_ne_nil count)
          omega
        rw [if_pos near, Option.some.injEq, Int.toNat_natCast] at heq
        rw [← heq]
        have spelled := spells_withPoint (lt v 0) count hp
        cases hs : lt v 0 <;> simpa [hs] using spelled
    next => cases h

end PathStudio.Program
