import PathStudio.Proofs.Program.Robot.Command

/-!
# The heading samples of a printed arc

Of the samples in the body of an arc only the first and the last count. They are
the ones at the ends of the arc, whatever the samples between them are: an inner
sample whose parameter is not a number is passed over.
-/

namespace PathStudio.Program.Robot

open Text Scalar

/-- The reader of one heading sample. -/
abbrev readSample : Reader (WrittenNumber × WrittenNumber) := readPairThen ".at".toList ')'

/-- A line of a heading sample, without its indent. -/
def IsSample (line : List Char) : Prop := ∃ t degrees, IsAmount t ∧ line = sampleText t degrees

@[simp] theorem searchAll_lineFeed (rest : List Char) :
    searchAll readSample ('\n' :: rest) = searchAll readSample rest := by
  have skips : Skips readSample ['\n'] rest :=
    (beginsWith_readPairThen ')').skips_of_not_mem (by decide) rest
  exact searchAll_append_of_skips skips

/-- No sample is found in the first line of an arc. -/
theorem searchAll_arcLine {length speed : List Char} (hl : IsAmount length) (hs : IsAmount speed)
    (rest : List Char) :
    searchAll readSample (arcLine length speed ++ '\n' :: rest) = searchAll readSample rest := by
  have inLength : contains ".at".toList length = false :=
    contains_eq_false_of_not_mem (c := 't') (by decide) (hl.not_mem (by decide))
  have inSpeed : contains ".at".toList speed = false :=
    contains_eq_false_of_not_mem (c := 't') (by decide) (hs.not_mem (by decide))
  have outside : contains ".at".toList (arcLine length speed) = false := by
    rw [arcLine_eq, contains_pairText (by decide), contains_append_cons (by decide), inLength,
      ← List.nil_append (' ' :: _), contains_append_cons (by decide), contains_append_cons (by decide),
      inSpeed]
    decide
  have skipped := searchAll_append_of_skips
    ((beginsWith_readPairThen ')').skips_of_contains (c := '\n') (by decide) outside rest)
  rw [← skipped, List.append_assoc, List.singleton_append]

/-- A line of a sample whose parameter is a number gives the sample. -/
theorem searchAll_sampleText {t : List Char} {n : WrittenNumber} (ht : Spells t n) (degrees : Int)
    (rest : List Char) :
    searchAll readSample (sampleText t degrees ++ '\n' :: rest) =
      (n, .whole degrees) :: searchAll readSample rest := by
  have read : readSample (sampleText t degrees ++ '\n' :: rest) =
      some ((n, .whole degrees), '\n' :: rest) := by
    rw [sampleText_eq, pairText_append]
    exact readPairThen_pairText ht (spells_integerText degrees) endsNumber_parenthesis _
  obtain ⟨c, more, hmore⟩ : ∃ c more, sampleText t degrees = c :: more := ⟨_, _, rfl⟩
  rw [hmore] at read ⊢
  rw [searchAll_append_of_read read, searchAll_lineFeed]

/-- A line of a sample whose parameter is not a number gives nothing. -/
theorem searchAll_sampleText_notANumber (degrees : Int) (rest : List Char) :
    searchAll readSample (sampleText "NaN".toList degrees ++ '\n' :: rest) =
      searchAll readSample rest := by
  have inDegrees : 't' ∉ integerText degrees := (isAmount_integerText degrees).not_mem (by decide)
  have behind : contains ".at".toList (pairText "at".toList "NaN".toList (integerText degrees)
      [')']) = false := by
    rw [contains_pairText (by decide), contains_eq_false_of_not_mem (c := 't') (by decide)
      (by simp [inDegrees] : 't' ∉ "NaN".toList ++ ',' :: ' ' :: (integerText degrees ++ [')']))]
    decide
  have skipped := searchAll_append_of_skips
    ((beginsWith_readPairThen ')').skips_of_contains (c := '\n') (by decide) behind rest)
  rw [List.append_assoc, List.singleton_append] at skipped
  have number : readSample (sampleText "NaN".toList degrees ++ '\n' :: rest) = none := rfl
  have point : Skips readSample ['.'] (pairText "at".toList "NaN".toList (integerText degrees) [')']
      ++ '\n' :: rest) := by
    rintro (_ | ⟨d, a⟩) b hab hb
    · obtain rfl := hab
      exact number
    · simp only [List.cons_append, List.cons.injEq, List.nil_eq, List.append_eq_nil_iff] at hab
      exact absurd hab.2.2 hb
  rw [← skipped]
  exact searchAll_append_of_skips point

/-- Lines of samples give some samples. -/
theorem exists_searchAll_unlines {inner : List (List Char)} (h : ∀ l ∈ inner, IsSample l)
    (rest : List Char) : ∃ found, searchAll readSample (unlines inner ++ rest) =
      found ++ searchAll readSample rest := by
  induction inner with
  | nil => exact ⟨[], rfl⟩
  | cons l inner ih =>
    obtain ⟨found, hfound⟩ := ih fun l hl => h l (List.mem_cons_of_mem _ hl)
    obtain ⟨t, degrees, rfl | ⟨n, ht⟩, rfl⟩ := h l (by simp)
    · refine ⟨found, ?_⟩
      rw [unlines_cons, List.append_assoc, List.cons_append, searchAll_sampleText_notANumber, hfound]
    · refine ⟨(n, .whole degrees) :: found, ?_⟩
      rw [unlines_cons, List.append_assoc, List.cons_append, searchAll_sampleText ht, hfound]
      rfl

variable {ν : Type} [Add ν] [Sub ν] [Mul ν] [Div ν] [Neg ν] [Scalar ν]

theorem arcHeadings_concat (first last : WrittenNumber) (inner : List WrittenNumber) :
    arcHeadings (first :: inner ++ [last]) = ((first.value, last.value) : ν × ν) := by
  cases inner with
  | nil => rfl
  | cons second inner => simp [arcHeadings]

theorem spells_start : Spells "0.0".toList ⟨false, 0, 1⟩ :=
  ⟨['0'], ['0'], by decide, by simp [latinDigits], by simp [latinDigits], rfl, by decide, rfl⟩

theorem spells_end : Spells "1.0".toList ⟨false, 10, 1⟩ :=
  ⟨['1'], ['0'], by decide, by simp [latinDigits], by simp [latinDigits], rfl, by decide, rfl⟩

/-- The lines of an arc behind the first one, without their indents. -/
def arcBody (inner : List (List Char)) (final : Int) : List (List Char) :=
  sampleText "0.0".toList 0 :: inner ++ [sampleText "1.0".toList final, ");".toList]

/-- An arc is entered along its first printed heading and left along its last one. -/
theorem arcHeadings_arcBody {length speed : List Char} (hl : IsAmount length) (hs : IsAmount speed)
    {inner : List (List Char)} (hi : ∀ l ∈ inner, IsSample l) (final : Int) :
    arcHeadings (arcSamples (arcLine length speed :: arcBody inner final)) =
      (((⟨false, 0, 0⟩ : WrittenNumber).value,
        (WrittenNumber.whole final).value) : ν × ν) := by
  have lines : arcLine length speed :: arcBody inner final =
      (arcLine length speed :: sampleText "0.0".toList 0 :: inner
        ++ [sampleText "1.0".toList final]) ++ [");".toList] := by
    simp [arcBody]
  have closing : searchAll readSample ");".toList = [] := by decide
  obtain ⟨found, hfound⟩ := exists_searchAll_unlines hi
    (sampleText "1.0".toList final ++ '\n' :: ");".toList)
  have samples : searchAll readSample (joinLines (arcLine length speed :: arcBody inner final)) =
      (⟨false, 0, 1⟩, ⟨false, 0, 0⟩) :: found
        ++ [(⟨false, 10, 1⟩, .whole final)] := by
    rw [lines, joinLines_concat]
    simp only [List.cons_append, unlines_cons, unlines_append, unlines_nil, List.append_assoc,
      List.nil_append]
    rw [searchAll_arcLine hl hs, searchAll_sampleText spells_start, hfound,
      searchAll_sampleText spells_end, closing]
    rfl
  rw [arcSamples, samples, List.map_append, List.map_cons]
  exact arcHeadings_concat ..

/-! ## Printed arcs -/

/-- The lines of an arc, as they are printed. -/
def printedArc (length speed : List Char) (inner : List (List Char)) (final : Int) : List (List Char) :=
  arcLine length speed :: (sampleLine "0.0".toList 0 :: inner ++ [sampleLine "1.0".toList final])
    ++ ["        );".toList]

/-- A line of a heading sample as it is printed. -/
def IsSampleLine (line : List Char) : Prop := ∃ t degrees, IsAmount t ∧ line = sampleLine t degrees

theorem IsSampleLine.trim {line : List Char} (h : IsSampleLine line) : IsSample (Text.trim line) := by
  obtain ⟨t, degrees, ht, rfl⟩ := h
  exact ⟨t, degrees, ht, trim_sampleLine ..⟩

theorem IsSampleLine.oneLine {line : List Char} (h : IsSampleLine line) : '\n' ∉ line := by
  obtain ⟨t, degrees, ht, rfl⟩ := h
  have inText : '\n' ∉ sampleText t degrees := 
    not_mem_pairText ht (isAmount_integerText degrees) (by decide) (by decide)
  rw [sampleLine_eq]
  exact fun h => (List.mem_append.mp h).elim (fun blank => absurd blank (by decide)) inText

theorem isSampleLine_of_mem {inner : List (List Char)} (hi : ∀ l ∈ inner, IsSampleLine l)
    (final : Int) :
    ∀ l ∈ sampleLine "0.0".toList 0 :: inner ++ [sampleLine "1.0".toList final], IsSampleLine l := by
  intro l hl
  simp only [List.cons_append, List.mem_cons, List.mem_append, List.not_mem_nil, or_false] at hl
  obtain rfl | hl | rfl := hl
  · exact ⟨_, _, .inr ⟨_, spells_start⟩, rfl⟩
  · exact hi l hl
  · exact ⟨_, _, .inr ⟨_, spells_end⟩, rfl⟩

theorem oneLine_printedArc {length speed : List Char} (hl : IsAmount length) (hs : IsAmount speed)
    {inner : List (List Char)} (hi : ∀ l ∈ inner, IsSampleLine l) (final : Int) :
    ∀ l ∈ printedArc length speed inner final, '\n' ∉ l := by
  intro l h
  obtain first | last := List.mem_append.mp h
  · obtain rfl | inside := List.mem_cons.mp first
    · exact not_mem_pairText hl hs (by decide) (by decide)
    · exact (isSampleLine_of_mem hi final l inside).oneLine
  · rw [List.mem_singleton.mp last]
    decide

theorem trim_closing : trim "        );".toList = ");".toList := by decide

end PathStudio.Program.Robot
