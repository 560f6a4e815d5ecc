import PathStudio.Text.Scan
import PathStudio.Text.Line

/-!
# Occurrences and matches

Where a word occurs in a text that is put together from pieces, and which
matches a search finds there. A character that a word does not have separates
the pieces for that word. A search over pieces passes over those in which no
match begins and takes the matches one by one.
-/

namespace PathStudio.Text

/-- What holds of no character of a text fails for each of them. -/
theorem forall_eq_false_of_any {p : Char → Bool} {s : List Char} (h : s.any p = false) :
    ∀ c ∈ s, p c = false := by
  intro c hc
  rw [List.any_eq_false] at h
  simpa using h c hc

section Occurrences

variable {word : List Char} {c : Char}

@[simp] theorem after?_singleton (c : Char) (s : List Char) : after? [c] (c :: s) = some s :=
  after?_append [c] s

theorem startsWith_iff_isPrefix {s : List Char} : startsWith word s = true ↔ word <+: s := by
  rw [startsWith, Option.isSome_iff_exists]
  constructor
  · rintro ⟨rest, h⟩
    exact ⟨rest, (eq_append_of_after? h).symm⟩
  · rintro ⟨rest, rfl⟩
    exact ⟨rest, after?_append word rest⟩

/-- Containing a word is having it as a run of neighbouring characters. -/
theorem contains_iff_isInfix {s : List Char} : contains word s = true ↔ word <:+: s := by
  induction s with
  | nil => simp [contains]
  | cons d s ih =>
    rw [contains, Bool.or_eq_true, startsWith_iff_isPrefix, ih, List.infix_cons_iff]

theorem contains_eq_false_iff {s : List Char} : contains word s = false ↔ ¬ word <:+: s := by
  rw [← Bool.not_eq_true, contains_iff_isInfix]

/-- Where a word does not occur, no longer word does. -/
theorem contains_append_eq_false {s : List Char} (h : contains word s = false) (more : List Char) :
    contains (word ++ more) s = false := by
  rw [contains_eq_false_iff] at h ⊢
  exact fun hs => h ((List.prefix_append word more).isInfix.trans hs)

theorem startsWith_append_cons (hc : c ∉ word) (a b : List Char) :
    startsWith word (a ++ c :: b) = startsWith word a := by
  induction a generalizing word with
  | nil =>
    cases word with
    | nil => rfl
    | cons w word =>
      have hw : w ≠ c := fun h => hc (by simp [h])
      simp [startsWith, after?, hw]
  | cons d a ih =>
    cases word with
    | nil => rfl
    | cons w word =>
      by_cases hw : w = d
      · simpa [startsWith, after?, hw] using ih (fun h => hc (List.mem_cons_of_mem _ h))
      · simp [startsWith, after?, hw]

/-- A character that is not in a word keeps the occurrences of the word to either side of it. -/
theorem contains_append_cons (hc : c ∉ word) (a b : List Char) :
    contains word (a ++ c :: b) = (contains word a || contains word b) := by
  induction a with
  | nil =>
    have head : startsWith word (c :: b) = word.isEmpty := by
      rw [← List.nil_append (c :: b), startsWith_append_cons hc]
      cases word <;> rfl
    simp only [List.nil_append, contains, head]
  | cons d a ih =>
    have head := startsWith_append_cons hc (d :: a) b
    rw [List.cons_append] at head
    rw [List.cons_append, contains, head, ih, contains, Bool.or_assoc]

/-- A text that lacks a character of a word does not contain the word. -/
theorem contains_eq_false_of_not_mem (hc : c ∈ word) {s : List Char} (hs : c ∉ s) :
    contains word s = false := by
  rw [contains_eq_false_iff]
  exact fun h => hs (h.subset hc)

/-- A word within lines, or what follows them, occurs in one of them or in what follows. -/
theorem contains_unlines_append (hw : '\n' ∉ word) (ls : List (List Char)) (s : List Char) :
    contains word (unlines ls ++ s) = (ls.any (contains word) || contains word s) := by
  induction ls with
  | nil => rfl
  | cons l ls ih =>
    rw [unlines_cons, List.append_assoc, List.cons_append, contains_append_cons hw, ih,
      List.any_cons, Bool.or_assoc]

end Occurrences

/-- Two texts that end where a character follows for the first time are the same. -/
theorem eq_of_append_cons_eq {c : Char} {a b x y : List Char} (ha : c ∉ a) (hb : c ∉ b)
    (h : a ++ c :: x = b ++ c :: y) : a = b := by
  induction a generalizing b with
  | nil =>
    cases b with
    | nil => rfl
    | cons d b => exact absurd (List.mem_cons.mpr (.inl (List.cons.inj h).1)) hb
  | cons d a ih =>
    cases b with
    | nil => exact absurd (List.mem_cons.mpr (.inl (List.cons.inj h).1.symm)) ha
    | cons e b =>
      obtain ⟨rfl, rest⟩ := List.cons.inj h
      rw [ih (fun m => ha (.tail _ m)) (fun m => hb (.tail _ m)) rest]

section Blanks

theorem skipBlanks_cons {c : Char} (hc : isBlank c = false) (s : List Char) :
    skipBlanks (c :: s) = c :: s := by
  simp [skipBlanks, trimStart, hc]

theorem skipBlanks_of_head {s : List Char} (h : ∀ c ∈ s.head?, isBlank c = false) :
    skipBlanks s = s := by
  cases s with
  | nil => rfl
  | cons c s => exact skipBlanks_cons (h c rfl) s

theorem afterBlanks?_cons {c : Char} (hc : isBlank c = true) (s : List Char) :
    afterBlanks? (c :: s) = some (skipBlanks s) := by
  simp [afterBlanks?, hc]

theorem skipBlanks_blank {c : Char} (hc : isBlank c = true) (s : List Char) :
    skipBlanks (c :: s) = skipBlanks s := by
  simp [skipBlanks, trimStart, hc]

theorem skipBlanks_append {blanks : List Char} (h : ∀ c ∈ blanks, isBlank c = true)
    (s : List Char) : skipBlanks (blanks ++ s) = skipBlanks s := by
  simp [skipBlanks, trimStart, List.dropWhile_append_of_pos h]

theorem eq_append_skipBlanks (s : List Char) :
    ∃ blanks, (∀ c ∈ blanks, isBlank c = true) ∧ s = blanks ++ skipBlanks s :=
  ⟨s.takeWhile isBlank, List.all_eq_true.mp List.all_takeWhile,
    (List.takeWhile_append_dropWhile).symm⟩

theorem eq_append_of_afterBlanks? {s rest : List Char} (h : afterBlanks? s = some rest) :
    ∃ blanks, (∀ c ∈ blanks, isBlank c = true) ∧ s = blanks ++ rest := by
  cases s with
  | nil => simp [afterBlanks?] at h
  | cons c s =>
    by_cases hc : isBlank c = true
    · simp [afterBlanks?, hc] at h
      obtain ⟨blanks, hb, hs⟩ := eq_append_skipBlanks s
      refine ⟨c :: blanks, by simpa [hc] using hb, ?_⟩
      rw [List.cons_append, ← h, ← hs]
    · simp [afterBlanks?, hc] at h

theorem trim_append {blanks : List Char} (h : ∀ c ∈ blanks, isBlank c = true) (s : List Char) :
    trim (blanks ++ s) = trim s := by
  rw [trim, show trimStart (blanks ++ s) = trimStart s from skipBlanks_append h s, trim]

/-- A text with no blank at either end is left as it is. -/
theorem trim_eq_self {s : List Char} (head : ∀ c ∈ s.head?, isBlank c = false)
    (last : ∀ c ∈ s.getLast?, isBlank c = false) : trim s = s := by
  have reversed : s.reverse.dropWhile isBlank = s.reverse :=
    skipBlanks_of_head (s := s.reverse) (by rwa [List.head?_reverse])
  rw [trim, show trimStart s = s from skipBlanks_of_head head, reversed, List.reverse_reverse]

theorem trim_of_ends {s : List Char} {a b : Char} (head : s.head? = some a)
    (last : s.getLast? = some b) (ha : isBlank a = false) (hb : isBlank b = false) : trim s = s := by
  apply trim_eq_self
  · rw [head]
    rintro c ⟨⟩
    exact ha
  · rw [last]
    rintro c ⟨⟩
    exact hb

theorem mem_skipBlanks {s : List Char} {c : Char} (hc : c ∈ s) (visible : isBlank c = false) :
    c ∈ skipBlanks s := by
  obtain ⟨blanks, hb, split⟩ := eq_append_skipBlanks s
  rw [split] at hc
  refine (List.mem_append.mp hc).resolve_left fun lost => ?_
  exact absurd ((hb c lost).symm.trans visible) (by decide)

/-- Trimming keeps what is not blank. -/
theorem trim_ne_nil {s : List Char} {c : Char} (hc : c ∈ s) (visible : isBlank c = false) :
    trim s ≠ [] := by
  have front := List.mem_reverse.mpr (mem_skipBlanks hc visible)
  exact List.ne_nil_of_mem (List.mem_reverse.mpr (mem_skipBlanks front visible))

end Blanks

section Lines

/-- A line feed closes a line that has no line end in it. -/
theorem linesFrom_append {line : List Char} (h : line.any isLineEnd = false) (begun : Bool)
    (done rest : List Char) :
    linesFrom begun done (line ++ '\n' :: rest) = (done.reverse ++ line) :: lines rest := by
  induction line generalizing begun done with
  | nil =>
    rw [List.nil_append, List.append_nil, linesFrom.eq_def]
    rfl
  | cons c line ih =>
    obtain ⟨plain, h⟩ := Bool.or_eq_false_iff.mp (List.any_cons.symm.trans h)
    have notReturn : c ≠ '\r' := by
      rintro rfl
      exact absurd plain (by decide)
    have step : linesFrom begun done (c :: line ++ '\n' :: rest) =
        linesFrom true (c :: done) (line ++ '\n' :: rest) := by
      rw [List.cons_append, linesFrom.eq_def]
      simp [plain, notReturn]
    rw [step, ih h]
    simp

theorem lines_append {line : List Char} (h : line.any isLineEnd = false) (rest : List Char) :
    lines (line ++ '\n' :: rest) = line :: lines rest :=
  linesFrom_append h false [] rest

theorem splitLines_ne_nil (s : List Char) : splitLines s ≠ [] := by
  rw [splitLines.eq_def]
  split
  · exact List.cons_ne_nil _ _
  · exact List.cons_ne_nil _ _
  · split <;> exact List.cons_ne_nil _ _

/-- A line feed parts the pieces before it from those behind it. -/
theorem splitLines_append_lineFeed (a rest : List Char) :
    splitLines (a ++ '\n' :: rest) = splitLines a ++ splitLines rest := by
  induction a with
  | nil => rfl
  | cons c a ih =>
    by_cases hc : c = '\n'
    · subst hc
      exact congrArg ([] :: ·) ih
    · rw [List.cons_append, splitLines.eq_3 _ _ hc, splitLines.eq_3 _ _ hc, ih]
      cases h : splitLines a with
      | nil => exact absurd h (splitLines_ne_nil a)
      | cons line more => rfl

theorem splitLines_of_not_mem {line : List Char} (h : '\n' ∉ line) : splitLines line = [line] := by
  induction line with
  | nil => rfl
  | cons c line ih =>
    obtain ⟨hc, h⟩ := not_or.mp (mt List.mem_cons.mpr h)
    rw [splitLines.eq_3 _ _ (fun e => hc e.symm), ih h]

/-- Joined lines are split again into the pieces of each, with an empty piece behind the last line
feed. -/
@[simp] theorem splitLines_unlines (ls : List (List Char)) :
    splitLines (unlines ls) = ls.flatMap splitLines ++ [[]] := by
  induction ls with
  | nil => rfl
  | cons l ls ih =>
    rw [unlines_cons, splitLines_append_lineFeed, ih, List.flatMap_cons, List.append_assoc]

/-- Lines without line feeds are pieces of their own. -/
theorem flatMap_splitLines {ls : List (List Char)} (h : ∀ l ∈ ls, '\n' ∉ l) :
    ls.flatMap splitLines = ls := by
  induction ls with
  | nil => rfl
  | cons l ls ih =>
    rw [List.flatMap_cons, splitLines_of_not_mem (h l (by simp)),
      ih fun l hl => h l (List.mem_cons_of_mem _ hl)]
    rfl

/-- Lines without line feeds are found again in their text. -/
theorem unlines_inj {ls ls' : List (List Char)} (h : ∀ l ∈ ls, '\n' ∉ l) (h' : ∀ l ∈ ls', '\n' ∉ l)
    (same : unlines ls = unlines ls') : ls = ls' := by
  have pieces := congrArg splitLines same
  rw [splitLines_unlines, splitLines_unlines, flatMap_splitLines h, flatMap_splitLines h'] at pieces
  exact List.append_cancel_right pieces

/-- Lines with a line feed between neighbours, of which the last is seen on its own. -/
@[simp] theorem joinLines_concat (ls : List (List Char)) (l : List Char) :
    joinLines (ls ++ [l]) = unlines ls ++ l := by
  induction ls with
  | nil => exact List.intercalate_singleton
  | cons first ls ih =>
    rw [List.cons_append, joinLines, List.intercalate_cons_of_ne_nil (by simp), ← joinLines, ih]
    simp

end Lines

section Searching

variable {α : Type} {read : Reader α}

/-- No match begins in the first of two pieces of a text. -/
def Skips (read : Reader α) (piece rest : List Char) : Prop :=
  ∀ a b, piece = a ++ b → b ≠ [] → read (b ++ rest) = none

theorem Skips.tail {c : Char} {piece rest : List Char} (h : Skips read (c :: piece) rest) :
    Skips read piece rest := by
  intro a b hab
  exact h (c :: a) b (by simp [hab])

theorem Skips.head {c : Char} {piece rest : List Char} (h : Skips read (c :: piece) rest) :
    read (c :: (piece ++ rest)) = none :=
  h [] (c :: piece) rfl (by simp)

/-- A search passes over a piece in which no match begins. -/
theorem searchAll_append_of_skips {piece rest : List Char} (h : Skips read piece rest) :
    searchAll read (piece ++ rest) = searchAll read rest := by
  induction piece with
  | nil => rfl
  | cons c piece ih =>
    rw [List.cons_append, searchAll, searchAllFrom, h.head]
    exact ih h.tail

@[simp] theorem searchAllFrom_append (taken rest : List Char) :
    searchAllFrom read taken.length (taken ++ rest) = searchAll read rest := by
  induction taken with
  | nil => rfl
  | cons c taken ih => exact ih

/-- A search takes the match at the front and goes on behind it. -/
theorem searchAll_append_of_read {c : Char} {found rest : List Char} {a : α}
    (h : read (c :: found ++ rest) = some (a, rest)) :
    searchAll read (c :: found ++ rest) = a :: searchAll read rest := by
  rw [List.cons_append] at h ⊢
  rw [searchAll, searchAllFrom, h]
  have length : (found ++ rest).length - rest.length = found.length := by simp
  simp only [length]
  rw [searchAllFrom_append]

theorem searchAll_eq_nil {s : List Char} (h : Skips read s []) : searchAll read s = [] := by
  have skipped := searchAll_append_of_skips h
  rwa [List.append_nil] at skipped

/-- The matches of a reader begin with a word. -/
def BeginsWith (word : List Char) (read : Reader α) : Prop := ∀ s, after? word s = none → read s = none

theorem BeginsWith.skips_of_not_mem {w : Char} {word : List Char} (h : BeginsWith (w :: word) read)
    {piece : List Char} (hp : w ∉ piece) (rest : List Char) : Skips read piece rest := by
  rintro a b rfl hb
  obtain ⟨c, b, rfl⟩ := List.exists_cons_of_ne_nil hb
  have other : w ≠ c := fun e => hp (by simp [e])
  exact h _ (by simp [after?, other])

/-- A match cannot begin in a piece without the word that ends in a character outside it. -/
theorem BeginsWith.skips_of_contains {word : List Char} (h : BeginsWith word read) {c : Char}
    (hc : c ∉ word) {piece : List Char} (hp : contains word piece = false) (rest : List Char) :
    Skips read (piece ++ [c]) rest := by
  intro a b hab hb
  obtain ⟨b, rfl⟩ : ∃ b', b = b' ++ [c] := by
    rw [← List.dropLast_concat_getLast hb, ← List.append_assoc] at hab
    have last := List.append_inj_right' hab rfl
    exact ⟨b.dropLast, by rw [last, List.dropLast_concat_getLast hb]⟩
  rw [← List.append_assoc] at hab
  have suffix : b <:+ piece := ⟨a, (List.append_inj_left' hab rfl).symm⟩
  apply h
  rw [← Option.isNone_iff_eq_none, ← Option.isSome_eq_false_iff, ← startsWith, List.append_assoc,
    List.singleton_append, startsWith_append_cons hc, ← Bool.not_eq_true, startsWith_iff_isPrefix]
  intro found
  exact contains_eq_false_iff.mp hp (found.isInfix.trans suffix.isInfix)

/-- A text has no more matches than characters. -/
theorem length_searchAll_le (read : Reader α) (s : List Char) : (searchAll read s).length ≤ s.length := by
  have bounded (taken : Nat) : (searchAllFrom read taken s).length ≤ s.length := by
    induction s generalizing taken with
    | nil => simp [searchAllFrom]
    | cons c s ih =>
      cases taken with
      | zero =>
        rw [searchAllFrom]
        split
        · exact Nat.succ_le_succ (ih _)
        · exact Nat.le_succ_of_le (ih 0)
      | succ taken =>
        rw [searchAllFrom]
        exact Nat.le_succ_of_le (ih taken)
  exact bounded 0

/-- Where the word does not occur that matches begin with, nothing is found. -/
theorem search_eq_none_of_contains {before : Option Char} {read : Option Char → Reader α}
    {word : List Char} (h : ∀ b, BeginsWith word (read b)) {s : List Char}
    (hs : contains word s = false) : search read before s = none := by
  induction s generalizing before with
  | nil => rfl
  | cons c s ih =>
    rw [contains, Bool.or_eq_false_iff, startsWith, Option.isSome_eq_false_iff,
      Option.isNone_iff_eq_none] at hs
    rw [search, h before _ hs.1]
    exact ih hs.2

/-- The match at the front of a text is the first. -/
theorem search_of_read {before : Option Char} {read : Option Char → Reader α} {s rest : List Char}
    {a : α} (hs : s ≠ []) (h : read before s = some (a, rest)) : search read before s = some a := by
  cases s with
  | nil => exact absurd rfl hs
  | cons c s => rw [search, h]

end Searching

end PathStudio.Text
