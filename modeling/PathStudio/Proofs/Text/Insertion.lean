import PathStudio.Proofs.Text.Scanning
import Mathlib.Data.List.TakeDrop

/-!
# Lines put into a text

A line is put in between two lines of a text, and a reader that begins before
that place is compared on both texts. It reads the same in both and stops
before the place, or it reads nothing in either, or it goes on across the place.
It cannot be led on by the new line if the line shows, as its first character
that is not blank, one with which no part of a match begins: this is kept by
each way to put a reader together. A search then finds the same matches before
the place, whatever the line is.
-/

namespace PathStudio.Text

/-! ## Texts that end with a line -/

/-- A line feed ends the text. -/
def EndsLine (s : List Char) : Prop := s.getLast? = some '\n'

theorem EndsLine.ne_nil {s : List Char} (h : EndsLine s) : s ≠ [] := by
  rintro rfl
  cases h

/-- What is left behind some characters of the last line still ends the line. -/
theorem EndsLine.of_append {a s : List Char} (h : EndsLine (a ++ s)) (ha : '\n' ∉ a) : EndsLine s := by
  cases s with
  | nil =>
    rw [List.append_nil] at h
    exact absurd (List.mem_of_getLast? h) ha
  | cons c s => simpa [EndsLine, List.getLast?_append, List.getLast?_cons] using h

theorem EndsLine.of_cons {c : Char} {s : List Char} (h : EndsLine (c :: s)) (hc : c ≠ '\n') :
    EndsLine s :=
  EndsLine.of_append (a := [c]) h (by simpa using hc.symm)

theorem EndsLine.of_suffix {b s : List Char} (h : EndsLine s) (hb : b ≠ []) (suffix : b <:+ s) :
    EndsLine b := by
  obtain ⟨a, rfl⟩ := suffix
  cases b with
  | nil => exact absurd rfl hb
  | cons c b => simpa [EndsLine, List.getLast?_append, List.getLast?_cons] using h

theorem endsLine_unlines {ls : List (List Char)} (h : ls ≠ []) : EndsLine (unlines ls) := by
  rw [← List.dropLast_concat_getLast h, unlines_append, unlines_cons, unlines_nil, EndsLine]
  simp [List.getLast?_append]

/-- Characters that are not line feeds are taken from the front of a text whatever follows it. -/
theorem EndsLine.span_append {s : List Char} (h : EndsLine s) {p : Char → Bool}
    (hp : p '\n' = false) : ∃ taken left, EndsLine left ∧ ∀ x, (s ++ x).span p = (taken, left ++ x) := by
  simp only [List.span_eq_takeWhile_dropWhile]
  induction s with
  | nil => exact absurd rfl h.ne_nil
  | cons c s ih =>
    cases hc : p c with
    | false => exact ⟨[], c :: s, h, fun x => by simp [hc]⟩
    | true =>
      have other : c ≠ '\n' := by
        rintro rfl
        exact absurd (hp.symm.trans hc) (by decide)
      obtain ⟨taken, left, ends, same⟩ := ih (h.of_cons other)
      refine ⟨c :: taken, left, ends, fun x => ?_⟩
      obtain ⟨front, back⟩ := Prod.mk.inj (same x)
      simp [hc, front, back]

/-- A word without line feeds stands at the front of a text, or it does not whatever follows. -/
theorem EndsLine.after?_append {s : List Char} (h : EndsLine s) {word : List Char}
    (hw : '\n' ∉ word) : (∃ left, EndsLine left ∧
      ∀ x, after? word (s ++ x) = some (left ++ x)) ∨ ∀ x, after? word (s ++ x) = none := by
  induction word generalizing s with
  | nil => exact .inl ⟨s, h, fun _ => rfl⟩
  | cons w word ih =>
    obtain ⟨hc, hw⟩ := not_or.mp (mt List.mem_cons.mpr hw)
    cases s with
    | nil => exact absurd rfl h.ne_nil
    | cons c s =>
      by_cases same : w = c
      · subst same
        obtain ⟨left, ends, found⟩ | missing := ih (h.of_cons (Ne.symm hc)) hw
        · exact .inl ⟨left, ends, fun x => by simp [after?, found]⟩
        · exact .inr fun x => by simp [after?, missing]
      · exact .inr fun x => by simp [after?, same]

/-! ## A reader before the place of a line -/

section Reading

variable {α β : Type} {rest rest' : List Char}

/-- How a reader compares that begins before the place where the text goes on with `rest` or with
`rest'`. It reads the same and stops before the place, it reads nothing, or with `rest` it goes on
across the place. -/
inductive Parted (read : Reader α) (rest rest' s : List Char) : Prop
  | inside (a : α) (left : List Char) (ends : EndsLine left)
    (here : read (s ++ rest) = some (a, left ++ rest))
    (there : read (s ++ rest') = some (a, left ++ rest'))
  | nowhere (here : read (s ++ rest) = none) (there : read (s ++ rest') = none)
  | across (a : α) (left : List Char) (here : read (s ++ rest) = some (a, left))
    (short : left.length ≤ rest.length)

/-- A reader that a line put in does not lead on. -/
structure Local (read : Reader α) (rest rest' : List Char) : Prop where
  parted : ∀ s, EndsLine s → Parted read rest rest' s
  shrinks : ∀ s a left, read s = some (a, left) → left.length ≤ s.length

/-- A reader that does not leave its line. -/
structure Inline (read : Reader α) : Prop where
  stays : ∀ s, EndsLine s → (∃ a left, EndsLine left ∧ ∀ x, read (s ++ x) = some (a, left ++ x)) ∨
    ∀ x, read (s ++ x) = none
  shrinks : ∀ s a left, read s = some (a, left) → left.length ≤ s.length

/-- Readers that agree on both texts compare alike. -/
theorem Parted.congr {read first : Reader α} {s left : List Char} (h : Parted read rest rest' left)
    (here : first (s ++ rest) = read (left ++ rest))
    (there : first (s ++ rest') = read (left ++ rest')) : Parted first rest rest' s := by
  cases h with
  | inside a left' ends here' there' =>
    exact .inside a left' ends (here.trans here') (there.trans there')
  | nowhere here' there' => exact .nowhere (here.trans here') (there.trans there')
  | across a left' here' short => exact .across a left' (here.trans here') short

theorem local_pure (a : α) : Local (fun s => some (a, s)) rest rest' where
  parted s ends := .inside a s ends rfl rfl
  shrinks := by
    rintro s b left ⟨⟩
    exact Nat.le_refl _

theorem Local.map {read : Reader α} (h : Local read rest rest') (f : α → β) :
    Local (fun s => do let (a, s) ← read s; some (f a, s)) rest rest' where
  parted s ends := by
    cases h.parted s ends with
    | inside a left ends here there =>
      exact .inside (f a) left ends (by simp [here]) (by simp [there])
    | nowhere here there => exact .nowhere (by simp [here]) (by simp [there])
    | across a left here short => exact .across (f a) left (by simp [here]) short
  shrinks s b left h' := by
    obtain ⟨⟨a, _⟩, found, same⟩ := Option.bind_eq_some_iff.mp h'
    cases same
    exact h.shrinks s a left found

/-- What follows a word on its line, or else something in its place. -/
theorem Local.afterOr {read other : Reader α} (h : Local read rest rest')
    (ho : Local other rest rest') (word : List Char) (hw : '\n' ∉ word) :
    Local (fun s => match after? word s with
      | some s => read s
      | none => other s) rest rest' where
  parted s ends := by
    obtain ⟨left, ends', found⟩ | missing := ends.after?_append hw
    · exact (h.parted left ends').congr (by simp [found]) (by simp [found])
    · exact (ho.parted s ends).congr (by simp [missing]) (by simp [missing])
  shrinks s a left h' := by
    split at h'
    next s' found =>
      have split := eq_append_of_after? found
      have bound := h.shrinks s' a left h'
      rw [split, List.length_append]
      omega
    next => exact ho.shrinks s a left h'

theorem local_none : Local (fun _ => (none : Option (α × List Char))) rest rest' where
  parted _ _ := .nowhere rfl rfl
  shrinks := by
    rintro s a left ⟨⟩

/-- What follows a word on its line. -/
theorem Local.after {read : Reader α} (h : Local read rest rest') (word : List Char)
    (hw : '\n' ∉ word) : Local (fun s => do read (← after? word s)) rest rest' := by
  have same : (fun s => do read (← after? word s)) = fun s => match after? word s with
      | some s => read s
      | none => none := by
    funext s
    cases after? word s <;> rfl
  rw [same]
  exact h.afterOr local_none word hw

/-- What follows something that does not leave the line. -/
theorem Local.inline {first : Reader β} {read : β → Reader α} (hf : Inline first)
    (h : ∀ b, Local (read b) rest rest') :
    Local (fun s => do let (b, s) ← first s; read b s) rest rest' where
  parted s ends := by
    obtain ⟨b, left, ends, found⟩ | missing := hf.stays s ends
    · exact ((h b).parted left ends).congr (by simp [found]) (by simp [found])
    · exact .nowhere (by simp [missing]) (by simp [missing])
  shrinks s a left h' := by
    obtain ⟨⟨b, s'⟩, found, same⟩ := Option.bind_eq_some_iff.mp h'
    have first := hf.shrinks s b s' found
    have second := (h b).shrinks s' a left same
    omega

/-! ### Blanks before what is read -/

theorem length_skipBlanks_le (s : List Char) : (skipBlanks s).length ≤ s.length := by
  obtain ⟨blanks, -, split⟩ := eq_append_skipBlanks s
  have total := congrArg List.length split
  rw [List.length_append] at total
  omega

theorem skipBlanks_append_of_cons {s more : List Char} {c : Char} (h : skipBlanks s = c :: more)
    (x : List Char) : skipBlanks (s ++ x) = c :: more ++ x := by
  rw [skipBlanks, trimStart, List.dropWhile_append, ← trimStart, ← skipBlanks, h]
  rfl

theorem skipBlanks_append_of_nil {s : List Char} (h : skipBlanks s = []) (x : List Char) :
    skipBlanks (s ++ x) = skipBlanks x := by
  rw [skipBlanks, trimStart, List.dropWhile_append, ← trimStart, ← skipBlanks, h]
  rfl

/-- A text whose first character that is not blank is the given one. -/
def Shows (d : Char) (text : List Char) : Prop := ∃ more, skipBlanks text = d :: more

variable {d : Char}

/-- Blanks may lead across the place, but there the line that is put in bars the way. -/
theorem Local.parted_skipBlanks {read : Reader α} (h : Local read rest rest') (first : Shows d rest')
    (barred : ∀ s, read (d :: s) = none) {s : List Char} (ends : s = [] ∨ EndsLine s) :
    Parted (fun s => read (skipBlanks s)) rest rest' s := by
  obtain ⟨more, shown⟩ := first
  cases visible : skipBlanks s with
  | nil =>
    -- nothing but blanks up to the place: with the line put in, its first sign is next
    have passed := skipBlanks_append_of_nil visible
    cases here : read (skipBlanks rest) with
    | none => exact .nowhere (by simp [passed, here]) (by simp [passed, shown, barred])
    | some found =>
      obtain ⟨a, left⟩ := found
      refine .across a left (by simp [passed, here]) ?_
      exact Nat.le_trans (h.shrinks _ a left here) (length_skipBlanks_le rest)
  | cons c more =>
    have passed := skipBlanks_append_of_cons visible
    have ends : EndsLine (c :: more) := by
      obtain rfl | ends := ends
      · cases visible
      · exact ends.of_suffix (List.cons_ne_nil c more) (visible ▸ List.dropWhile_suffix isBlank)
    exact (h.parted (c :: more) ends).congr (by rw [passed]) (by rw [passed])

theorem Local.skip {read : Reader α} (h : Local read rest rest') (first : Shows d rest')
    (barred : ∀ s, read (d :: s) = none) : Local (fun s => read (skipBlanks s)) rest rest' where
  parted _ ends := h.parted_skipBlanks first barred (.inr ends)
  shrinks s a left found := Nat.le_trans (h.shrinks _ a left found) (length_skipBlanks_le s)

theorem Local.blanks {read : Reader α} (h : Local read rest rest') (first : Shows d rest')
    (barred : ∀ s, read (d :: s) = none) :
    Local (fun s => do read (← afterBlanks? s)) rest rest' where
  parted s ends := by
    cases s with
    | nil => exact absurd rfl ends.ne_nil
    | cons c s =>
      cases hc : isBlank c with
      | false => exact .nowhere (by simp [afterBlanks?, hc]) (by simp [afterBlanks?, hc])
      | true =>
        have ends : s = [] ∨ EndsLine s := by
          cases s with
          | nil => exact .inl rfl
          | cons d s => exact .inr (ends.of_suffix (List.cons_ne_nil d s) (List.suffix_cons c _))
        have step (x : List Char) : (do read (← afterBlanks? (c :: s ++ x))) =
            read (skipBlanks (s ++ x)) := by
          simp [afterBlanks?, hc]
        exact (h.parted_skipBlanks first barred ends).congr (step rest) (step rest')
  shrinks _ a left h' := by
    obtain ⟨s', found, same⟩ := Option.bind_eq_some_iff.mp h'
    obtain ⟨blanks, -, split⟩ := eq_append_of_afterBlanks? found
    have bound := h.shrinks s' a left same
    rw [split, List.length_append]
    omega

end Reading

/-! ## A search across the place -/

section Searching

variable {α : Type} {read : Reader α} {rest rest' : List Char}

/-- A reader reads the same in both texts and stops before the place, or reads nothing in either. -/
def ReadsAlike (read : Reader α) (rest rest' s : List Char) : Prop :=
  (∃ a left, read (s ++ rest) = some (a, left ++ rest) ∧ read (s ++ rest') = some (a, left ++ rest')) ∨
    (read (s ++ rest) = none ∧ read (s ++ rest') = none)

/-- If the reader reads alike wherever it begins before the place, both texts give the same matches
there. -/
theorem exists_searchAll_append {s : List Char}
    (h : ∀ b, b ≠ [] → b <:+ s → ReadsAlike read rest rest' b) :
    ∃ found, searchAll read (s ++ rest) = found ++ searchAll read rest ∧
      searchAll read (s ++ rest') = found ++ searchAll read rest' := by
  -- by induction on the text before the place, of which an earlier match may have taken some
  have step (taken : Nat) (short : taken ≤ s.length) : ∃ found,
      searchAllFrom read taken (s ++ rest) = found ++ searchAll read rest ∧
      searchAllFrom read taken (s ++ rest') = found ++ searchAll read rest' := by
    induction s generalizing taken with
    | nil =>
      obtain rfl : taken = 0 := by simpa using short
      exact ⟨[], rfl, rfl⟩
    | cons c s ih =>
      have later := ih fun b hb suffix => h b hb (suffix.trans (List.suffix_cons c s))
      cases taken with
      | succ taken => exact later taken (by simpa using short)
      | zero =>
        obtain ⟨a, left, here, there⟩ | ⟨here, there⟩ := h (c :: s) (List.cons_ne_nil c s) List.suffix_rfl
        · obtain ⟨found, same, same'⟩ := later (s.length - left.length) (Nat.sub_le _ _)
          refine ⟨a :: found, ?_, ?_⟩
          · rw [List.cons_append] at here ⊢
            rw [searchAllFrom, here]
            simp only [List.length_append, Nat.add_sub_add_right, same, List.cons_append]
          · rw [List.cons_append] at there ⊢
            rw [searchAllFrom, there]
            simp only [List.length_append, Nat.add_sub_add_right, same', List.cons_append]
        · obtain ⟨found, same, same'⟩ := later 0 (Nat.zero_le _)
          refine ⟨found, ?_, ?_⟩
          · rw [List.cons_append] at here ⊢
            rw [searchAllFrom, here, same]
          · rw [List.cons_append] at there ⊢
            rw [searchAllFrom, there, same']
  exact step 0 (Nat.zero_le _)

end Searching

end PathStudio.Text
