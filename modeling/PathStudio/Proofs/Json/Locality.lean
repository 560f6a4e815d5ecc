import PathStudio.Json.Parser
import PathStudio.Json.Printer
import PathStudio.Proofs.Outcome
import Mathlib.Data.List.TakeDrop

/-!
# Reading within a text

What is read at the front of a text is read there as well if more text follows.
For a number or a word the text that follows must not go on with it.
-/

namespace PathStudio.Json

open Text Decimal

variable {s rest more : List Char}

/-- The characters that may follow a number or a word. -/
def separators : List Char := [' ', '\t', '\n', '\r', ',', ']', '\x7d']

/-- A text that does not go on with a number or a word. -/
def Separate (more : List Char) : Prop := ∀ c ∈ more.head?, c ∈ separators

theorem Separate.of_cons {c : Char} (h : c ∈ separators) : Separate (c :: rest) := by
  rintro _ ⟨⟩
  exact h

/-- What is true of no separator is not true of what follows. -/
theorem Separate.head (h : Separate more) {p : Char → Bool}
    (hp : separators.all (fun c => !p c) = true) : ∀ c ∈ more.head?, p c = false :=
  fun c hc => (Bool.not_eq_true' _).mp (List.all_eq_true.mp hp c (h c hc))

/-! ## Gaps -/

theorem skipGap_append_of_gap {gap : List Char} (h : ∀ c ∈ gap, isGap c = true) (s : List Char) :
    skipGap (gap ++ s) = skipGap s := List.dropWhile_append_of_pos h

theorem skipGap_append_of_nil (h : skipGap s = []) (more : List Char) :
    skipGap (s ++ more) = skipGap more := by
  rw [skipGap, List.dropWhile_append, ← skipGap, h]
  rfl

theorem skipGap_append_of_cons {c : Char} (h : skipGap s = c :: rest) (more : List Char) :
    skipGap (s ++ more) = c :: rest ++ more := by
  rw [skipGap, List.dropWhile_append, ← skipGap, h]
  rfl

/-! ## Numbers and words -/

theorem span_append {p : Char → Bool} (h : ∀ c ∈ more.head?, p c = false) (s : List Char) :
    (s ++ more).span p = ((s.span p).1, (s.span p).2 ++ more) := by
  simp only [List.span_eq_takeWhile_dropWhile]
  induction s with
  | nil =>
    cases more with
    | nil => rfl
    | cons c rest =>
      have stop : ¬ p c = true := by simp [h c rfl]
      rw [List.nil_append, List.takeWhile_cons_of_neg stop, List.dropWhile_cons_of_neg stop]
      rfl
  | cons d tail ih =>
    obtain ⟨taken, dropped⟩ := Prod.mk.inj ih
    cases hd : p d with
    | true =>
      simp only [List.cons_append, List.takeWhile_cons_of_pos hd, List.dropWhile_cons_of_pos hd, taken,
        dropped]
    | false =>
      have stop : ¬ p d = true := by simp [hd]
      simp only [List.cons_append, List.takeWhile_cons_of_neg stop, List.dropWhile_cons_of_neg stop]

theorem Separate.isAsciiDigit (h : Separate more) :
    ∀ c ∈ more.head?, Json.isAsciiDigit c = false :=
  h.head (by decide)

theorem readWhole?_of_ne {c : Char} (h : c ≠ '0') (s : List Char) :
    readWhole? (c :: s) =
      if Json.isAsciiDigit c then some ((c :: s).span Json.isAsciiDigit) else none := by
  rw [readWhole?]
  rintro rfl
  exact h rfl

theorem readWhole?_append (h : Separate more) {whole : List Char}
    (read : readWhole? s = some (whole, rest)) :
    readWhole? (s ++ more) = some (whole, rest ++ more) := by
  cases s with
  | nil => cases read
  | cons c tail =>
    obtain rfl | nonzero := eq_or_ne c '0'
    · cases read
      rfl
    · rw [readWhole?_of_ne nonzero] at read
      split at read
      next digit =>
        rw [List.cons_append, readWhole?_of_ne nonzero, if_pos digit, ← List.cons_append,
          span_append h.isAsciiDigit, Option.some.inj read]
      next => cases read

theorem readFraction_of_ne {c : Char} (h : c ≠ '.') (s : List Char) :
    readFraction (c :: s) = ([], c :: s) := by
  rw [readFraction]
  rintro d t heq
  exact h (List.cons.inj heq).1

theorem readFraction_append (h : Separate more) (s : List Char) :
    readFraction (s ++ more) = ((readFraction s).1, (readFraction s).2 ++ more) := by
  have point : ∀ c ∈ more.head?, c ≠ '.' := fun c hc => by
    simpa using h.head (p := (· = '.')) (by decide) c hc
  match s with
  | [] =>
    cases more with
    | nil => rfl
    | cons c tail => exact readFraction_of_ne (point c rfl) tail
  | c :: tail =>
    obtain rfl | other := eq_or_ne c '.'
    · cases tail with
      | nil =>
        cases more with
        | nil => rfl
        | cons d tail =>
          have stop := h.isAsciiDigit d rfl
          simp [readFraction, stop]
      | cons d tail =>
        simp only [List.cons_append, readFraction]
        split
        · rw [← List.cons_append, span_append h.isAsciiDigit]
        · rfl
    · rw [List.cons_append, readFraction_of_ne other, readFraction_of_ne other]
      rfl

theorem readSign_append (h : Separate more) (s : List Char) :
    readSign (s ++ more) = ((readSign s).1, (readSign s).2 ++ more) := by
  cases s with
  | nil =>
    cases more with
    | nil => rfl
    | cons c tail =>
      have minus : c ≠ '-' := by simpa using h.head (p := (· = '-')) (by decide) c rfl
      have plus : c ≠ '+' := by simpa using h.head (p := (· = '+')) (by decide) c rfl
      simp [readSign, minus, plus]
  | cons c tail =>
    obtain rfl | minus := eq_or_ne c '-'
    · rfl
    · obtain rfl | plus := eq_or_ne c '+'
      · rfl
      · simp [readSign, minus, plus]

theorem readPower_append (h : Separate more) (s : List Char) :
    readPower (s ++ more) = ((readPower s).1, (readPower s).2 ++ more) := by
  have mark : ∀ c ∈ more.head?, (c = 'e' || c = 'E') = false := h.head (by decide)
  cases s with
  | nil =>
    cases more with
    | nil => rfl
    | cons c tail => simp [readPower, mark c rfl]
  | cons c tail =>
    simp only [List.cons_append, readPower]
    split
    · rw [readSign_append h, span_append h.isAsciiDigit]
      dsimp only
      split <;> rfl
    · rfl

/-- Reads a number after its sign, in a text of the given length. -/
def readUnsigned (negative : Bool) (length : Nat) (body : List Char) : Read Json :=
  match readWhole? body with
  | none => .error (.expectedValue length)
  | some (whole, rest) =>
    let (fraction, rest) := readFraction rest
    let (power, rest) := readPower rest
    if fraction.isEmpty && power.isNone then
      if integerDigitLimit < whole.length then .error (.longInteger whole.length)
      else
        let value : Int := digitsValue whole
        .ok (.int (if negative then -value else value), rest)
    else
      let exponent := power.getD 0 - fraction.length
      .ok (.real (Double.ofDecimal negative (digitsValue (whole ++ fraction)) exponent), rest)

@[simp] theorem readNumber_minus (s : List Char) :
    readNumber ('-' :: s) = readUnsigned true (s.length + 1) s := rfl

theorem readNumber_of_ne {c : Char} (h : c ≠ '-') (s : List Char) :
    readNumber (c :: s) = readUnsigned false (s.length + 1) (c :: s) := by
  unfold readNumber
  split
  next heq =>
    split at heq
    next minus => exact absurd (List.cons.inj minus).1 h
    next =>
      cases heq
      rfl

theorem readUnsigned_append (h : Separate more) {negative : Bool} {length : Nat} {value : Json}
    (read : readUnsigned negative length s = .ok (value, rest)) (length' : Nat) :
    readUnsigned negative length' (s ++ more) = .ok (value, rest ++ more) := by
  unfold readUnsigned at read ⊢
  cases whole : readWhole? s with
  | none =>
    rw [whole] at read
    cases read
  | some found =>
    rw [whole] at read
    rw [readWhole?_append h whole]
    dsimp only at read ⊢
    rw [readFraction_append h, readPower_append h]
    split at read
    · split at read
      · cases read
      next empty short =>
        cases read
        rw [if_pos empty, if_neg short]
    next full =>
      cases read
      rw [if_neg full]

theorem readNumber_append (h : Separate more) {value : Json} (read : readNumber s = .ok (value, rest)) :
    readNumber (s ++ more) = .ok (value, rest ++ more) := by
  cases s with
  | nil => cases read
  | cons c tail =>
    obtain rfl | other := eq_or_ne c '-'
    · rw [readNumber_minus] at read
      rw [List.cons_append, readNumber_minus]
      exact readUnsigned_append h read _
    · rw [readNumber_of_ne other] at read
      rw [List.cons_append, readNumber_of_ne other]
      exact readUnsigned_append h read _

/-- The word that a text begins with, by its value and the rest. -/
def readWord? (s : List Char) : Option (Json × List Char) :=
  words.findSome? fun w => if w.1.isPrefixOf s then some (w.2, s.drop w.1.length) else none

/-- A word that a text begins with has ended before what follows it. -/
theorem prefix_append_iff (h : Separate more) {w : List Char} (apart : ∀ c ∈ w, c ∉ separators) :
    w <+: s ++ more ↔ w <+: s := by
  refine ⟨fun begins => ?_, fun begins => begins.trans (List.prefix_append s more)⟩
  obtain inside | ⟨t, rfl⟩ := List.prefix_or_prefix_of_prefix begins (List.prefix_append s more)
  · exact inside
  · -- what is left of the word would go on in what follows
    have later : t <+: more := (List.prefix_append_right_inj s).mp begins
    cases t with
    | nil => simp
    | cons c t =>
      obtain ⟨u, rfl⟩ := later
      exact absurd (h c rfl) (apart c (by simp))

theorem readWord?_append (h : Separate more) (s : List Char) :
    readWord? (s ++ more) = (readWord? s).map fun r => (r.1, r.2 ++ more) := by
  have apart : ∀ w ∈ words, ∀ c ∈ w.1, c ∉ separators := by
    have all : (words.all fun w => w.1.all fun c => !separators.contains c) = true := by decide
    simpa only [List.all_eq_true, Bool.not_eq_true', List.contains_eq_mem, decide_eq_false_iff_not] using all
  rw [readWord?, readWord?]
  generalize words = known at apart ⊢
  induction known with
  | nil => rfl
  | cons w others ih =>
    obtain ⟨first, later⟩ := List.forall_mem_cons.mp apart
    have same := prefix_append_iff (s := s) h first
    simp only [List.findSome?_cons, List.isPrefixOf_iff_prefix, same] at ih ⊢
    by_cases begins : w.1 <+: s
    · rw [if_pos begins, if_pos begins, List.drop_append_of_le_length begins.length_le]
      rfl
    · rw [if_neg begins, if_neg begins]
      exact ih later

theorem readAtom_append (h : Separate more) {value : Json} (read : readAtom s = .ok (value, rest)) :
    readAtom (s ++ more) = .ok (value, rest ++ more) := by
  rw [readAtom, ← readWord?] at read ⊢
  rw [readWord?_append h]
  cases word : readWord? s with
  | some r =>
    rw [word] at read
    cases read
    rfl
  | none =>
    rw [word] at read
    exact readNumber_append h read

/-! ## Texts -/

theorem codeUnit?_append {unit : Nat} (h : codeUnit? s = some (unit, rest)) (more : List Char) :
    codeUnit? (s ++ more) = some (unit, rest ++ more) := by
  match s with
  | [] | [_] | [_, _] | [_, _, _] => cases h
  | a :: b :: c :: d :: tail =>
    simp only [codeUnit?, List.cons_append, Option.bind_eq_bind, Option.bind_eq_some_iff,
      Option.some.injEq, Prod.mk.injEq] at h ⊢
    obtain ⟨w, hw, x, hx, y, hy, z, hz, value, rfl⟩ := h
    exact ⟨w, hw, x, hx, y, hy, z, hz, value, rfl⟩

theorem length_of_codeUnit? {unit : Nat} (h : codeUnit? s = some (unit, rest)) :
    s.length = rest.length + 4 := by
  match s with
  | [] | [_] | [_, _] | [_, _, _] => cases h
  | a :: b :: c :: d :: tail =>
    simp only [codeUnit?, Option.bind_eq_bind, Option.bind_eq_some_iff, Option.some.injEq,
      Prod.mk.injEq] at h
    obtain ⟨w, hw, x, hx, y, hy, z, hz, value, rfl⟩ := h
    rfl

/-- A text in which an escape at the front, if there is one, is complete and followed by something. -/
def Complete (s : List Char) : Prop :=
  s ≠ ['\\'] ∧ ∀ tail, s = '\\' :: 'u' :: tail → 5 ≤ tail.length

theorem codeEscape_of_short (h : s.length < 5) :
    codeEscape s = .error (.badCodeEscape (s.length + 1)) := by
  rw [codeEscape]
  cases unit : codeUnit? s with
  | none => rfl
  | some found =>
    obtain ⟨n, rest⟩ := found
    have length := length_of_codeUnit? unit
    obtain rfl : rest = [] := List.eq_nil_of_length_eq_zero (by omega)
    rfl

section Steps

variable (opening fuel : Nat) (done : List Char)

@[simp] theorem readText_quote (s : List Char) :
    readText opening (fuel + 1) done ('"' :: s) = .ok (String.ofList done.reverse, s) := rfl

@[simp] theorem readText_backslash :
    readText opening (fuel + 1) done ['\\'] = .error (.openText opening) := rfl

theorem readText_code (s : List Char) :
    readText opening (fuel + 1) done ('\\' :: 'u' :: s) =
      match codeEscape s with
      | .error e => .error e
      | .ok (decoded, more) => readText opening fuel (decoded :: done) more :=
  if_pos rfl

theorem readText_letter {c : Char} (h : c ≠ 'u') (s : List Char) :
    readText opening (fuel + 1) done ('\\' :: c :: s) =
      match letterEscape? c with
      | some decoded => readText opening fuel (decoded :: done) s
      | none => .error (.badEscape (s.length + 2)) :=
  if_neg h

theorem readText_plain {c : Char} (quote : c ≠ '"') (backslash : c ≠ '\\') (s : List Char) :
    readText opening (fuel + 1) done (c :: s) =
      if c.toNat < 32 then .error (.controlCharacter (s.length + 1))
      else readText opening fuel (c :: done) s := by
  rw [readText]
  · exact quote
  · rintro rfl
    exact absurd rfl backslash
  · rintro d t rfl
    exact absurd rfl backslash

end Steps

/-- What is read to its end is complete. -/
theorem complete_of_readText {opening fuel : Nat} {done : List Char} {text : String}
    (h : readText opening fuel done s = .ok (text, rest)) : Complete s := by
  cases fuel with
  | zero => cases h
  | succ fuel =>
    constructor
    · rintro rfl
      rw [readText_backslash] at h
      cases h
    · rintro tail rfl
      by_contra short
      rw [readText_code, codeEscape_of_short (by omega)] at h
      cases h

section Escapes

variable {n : Nat}

theorem codeEscape_of_not_high (unit : codeUnit? s = some (n, rest)) (nonempty : rest ≠ [])
    (low : isHighSurrogate n = false) : codeEscape s = .ok (charOf n, rest) := by
  cases rest with
  | nil => exact absurd rfl nonempty
  | cons c tail => simp [codeEscape, unit, low]

theorem codeEscape_of_alone (unit : codeUnit? s = some (n, rest)) (nonempty : rest ≠ [])
    (high : isHighSurrogate n = true) (alone : ∀ tail, rest ≠ '\\' :: 'u' :: tail) :
    codeEscape s = .ok (charOf n, rest) := by
  cases rest with
  | nil => exact absurd rfl nonempty
  | cons c tail =>
    rw [codeEscape, unit]
    dsimp only
    rw [if_pos high]
    split
    next tail same => exact absurd same (alone tail)
    next => rfl

theorem codeEscape_of_next {tail : List Char} (unit : codeUnit? s = some (n, '\\' :: 'u' :: tail))
    (high : isHighSurrogate n = true) (long : 5 ≤ tail.length) :
    codeEscape s =
      match codeUnit? tail with
      | none => .error (.badCodeEscape (tail.length + 1))
      | some (low, afterPair) =>
        if isLowSurrogate low then .ok (joinSurrogates n low, afterPair)
        else .ok (charOf n, '\\' :: 'u' :: tail) := by
  have enough : ¬ tail.length < 5 := by omega
  rw [codeEscape, unit]
  exact (if_pos high).trans (if_neg enough)

/-- An escape of a high half that is followed by the front of another escape ends there. -/
theorem not_complete_of_short {tail : List Char} {c : Char}
    (unit : codeUnit? s = some (n, '\\' :: 'u' :: tail)) (high : isHighSurrogate n = true)
    (short : tail.length < 5) (h : codeEscape s = .ok (c, rest)) : ¬ Complete rest := by
  simp only [codeEscape, unit, high, if_true, if_pos short] at h
  cases h
  intro complete
  have := complete.2 tail rfl
  omega

end Escapes

theorem codeEscape_append {c : Char} (h : codeEscape s = .ok (c, rest)) (complete : Complete rest)
    (more : List Char) : codeEscape (s ++ more) = .ok (c, rest ++ more) := by
  cases unit : codeUnit? s with
  | none =>
    rw [codeEscape, unit] at h
    cases h
  | some found =>
    obtain ⟨n, after⟩ := found
    have unit' := codeUnit?_append unit more
    have nonempty : after ≠ [] := by
      rintro rfl
      rw [codeEscape, unit] at h
      cases h
    have nonempty' : after ++ more ≠ [] := fun none => nonempty (List.append_eq_nil_iff.mp none).1
    cases high : isHighSurrogate n with
    | false =>
      rw [codeEscape_of_not_high unit nonempty high] at h
      cases h
      exact codeEscape_of_not_high unit' nonempty' high
    | true =>
      by_cases alone : ∀ tail, after ≠ '\\' :: 'u' :: tail
      · rw [codeEscape_of_alone unit nonempty high alone] at h
        obtain ⟨rfl, rfl⟩ := Prod.mk.inj (Except.ok.inj h)
        refine codeEscape_of_alone unit' nonempty' high fun tail same => ?_
        match after with
        | [] => exact nonempty rfl
        | [d] =>
          obtain rfl := (List.cons.inj same).1
          exact complete.1 rfl
        | d :: e :: after =>
          obtain ⟨first, same⟩ := List.cons.inj same
          obtain ⟨second, -⟩ := List.cons.inj same
          exact alone after (by rw [first, second])
      · obtain ⟨tail, followed⟩ := not_forall.mp alone
        obtain rfl := not_not.mp followed
        by_cases short : tail.length < 5
        · exact absurd complete (not_complete_of_short unit high short h)
        · have long : 5 ≤ tail.length := by omega
          have long' : 5 ≤ (tail ++ more).length := by
            rw [List.length_append]
            omega
          have followed' : codeUnit? (s ++ more) = some (n, '\\' :: 'u' :: (tail ++ more)) := unit'
          rw [codeEscape_of_next unit high long] at h
          rw [codeEscape_of_next followed' high long']
          cases second : codeUnit? tail with
          | none =>
            rw [second] at h
            cases h
          | some found =>
            obtain ⟨low, afterPair⟩ := found
            rw [second] at h
            rw [codeUnit?_append second]
            dsimp only at h ⊢
            split at h
            next pair =>
              obtain ⟨rfl, rfl⟩ := Prod.mk.inj (Except.ok.inj h)
              rw [if_pos pair]
            next apart =>
              obtain ⟨rfl, rfl⟩ := Prod.mk.inj (Except.ok.inj h)
              rw [if_neg apart]
              rfl

theorem readText_append {opening fuel : Nat} {done : List Char} {text : String}
    (h : readText opening fuel done s = .ok (text, rest)) (more : List Char) (opening' : Nat)
    {fuel' : Nat} (enough : fuel ≤ fuel') :
    readText opening' fuel' done (s ++ more) = .ok (text, rest ++ more) := by
  induction fuel generalizing s done fuel' with
  | zero => cases h
  | succ fuel ih =>
    obtain ⟨fuel', rfl⟩ : ∃ k, fuel' = k + 1 := ⟨fuel' - 1, by omega⟩
    have enough : fuel ≤ fuel' := by omega
    match s with
    | [] => cases h
    | c :: tail =>
      obtain rfl | quote := eq_or_ne c '"'
      · rw [readText_quote] at h
        cases h
        exact readText_quote _ _ _ _
      obtain rfl | backslash := eq_or_ne c '\\'
      · match tail with
        | [] =>
          rw [readText_backslash] at h
          cases h
        | d :: tail =>
          obtain rfl | letter := eq_or_ne d 'u'
          · rw [readText_code] at h
            simp only [List.cons_append]
            rw [readText_code]
            cases escape : codeEscape tail with
            | error e =>
              rw [escape] at h
              cases h
            | ok decoded =>
              obtain ⟨decoded, after⟩ := decoded
              rw [escape] at h
              rw [codeEscape_append escape (complete_of_readText h)]
              exact ih h enough
          · rw [readText_letter _ _ _ letter] at h
            simp only [List.cons_append]
            rw [readText_letter _ _ _ letter]
            cases escape : letterEscape? d with
            | none =>
              rw [escape] at h
              cases h
            | some decoded =>
              rw [escape] at h
              exact ih h enough
      · rw [readText_plain _ _ _ quote backslash] at h
        rw [List.cons_append, readText_plain _ _ _ quote backslash]
        split at h
        · cases h
        next printable =>
          rw [if_neg printable]
          exact ih h enough

end PathStudio.Json
