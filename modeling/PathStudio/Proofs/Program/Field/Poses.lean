import PathStudio.Proofs.Program.Spelling
import PathStudio.Proofs.Outcome
import PathStudio.Program.Field.Print
import PathStudio.Program.Field.Read

/-!
# The poses of a field-oriented program

A search for poses finds the poses that have been printed, in order, and nothing
else. A match has to begin with the word that introduces it, so no match begins
in a piece of text that lacks this word and ends with an opening parenthesis.
-/

namespace PathStudio.Program.Field

open Text Scalar

/-- The matches of a reader begin with `new`, blanks, the given word and a parenthesis. -/
def IntroducedBy {α : Type} (word : List Char) (read : Reader α) : Prop :=
  ∀ s x, read s = some x → ∃ blanks rest, (∀ c ∈ blanks, isBlank c = true) ∧
    s = 'n' :: 'e' :: 'w' :: blanks ++ word ++ '(' :: rest

section Introduced

variable {α : Type} {word : List Char} {read : Reader α}

theorem IntroducedBy.skips_of_not_mem (h : IntroducedBy word read) {piece : List Char}
    (hp : 'n' ∉ piece) (rest : List Char) : Skips read piece rest := by
  rintro a b rfl hb
  obtain ⟨c, b, rfl⟩ := List.exists_cons_of_ne_nil hb
  by_contra hne
  obtain ⟨x, hx⟩ := Option.ne_none_iff_exists'.mp hne
  obtain ⟨blanks, more, -, hs⟩ := h _ x hx
  simp only [List.cons_append, List.cons.injEq] at hs
  exact hp (by simp [hs.1])

/-- The word has to occur before the parenthesis that ends the piece, or else that parenthesis would
be the one behind the word. -/
theorem IntroducedBy.skips (h : IntroducedBy word read) (hw : '(' ∉ word) {piece : List Char}
    (hp : contains (word ++ ['(']) (piece ++ ['(']) = false) (rest : List Char) :
    Skips read (piece ++ ['(']) rest := by
  intro a b hab hb
  by_contra hne
  obtain ⟨x, hx⟩ := Option.ne_none_iff_exists'.mp hne
  obtain ⟨blanks, more, hblanks, hs⟩ := h _ x hx
  obtain ⟨b, rfl⟩ : ∃ b', b = b' ++ ['('] := by
    rw [← List.dropLast_concat_getLast hb, ← List.append_assoc] at hab
    have last := List.append_inj_right' hab rfl
    exact ⟨b.dropLast, by rw [last, List.dropLast_concat_getLast hb]⟩
  have noParenthesis : '(' ∉ 'n' :: 'e' :: 'w' :: blanks ++ word := by
    simp only [List.cons_append, List.mem_cons, List.mem_append, not_or]
    refine ⟨by decide, by decide, by decide, fun hc => ?_, hw⟩
    exact absurd (hblanks _ hc) (by decide)
  have found : word ++ ['('] <:+: b ++ ['('] := by
    rw [List.append_assoc, List.singleton_append, List.append_eq_append_iff] at hs
    obtain ⟨_ | ⟨c, more⟩, hx, hy⟩ | ⟨_ | ⟨c, more⟩, hx, hy⟩ := hs
    · rw [List.append_nil] at hx
      exact ⟨'n' :: 'e' :: 'w' :: blanks, [], by simp [← hx]⟩
    · rw [List.cons_append, List.cons.injEq] at hy
      exact absurd (by simp [hx, ← hy.1]) noParenthesis
    · rw [List.append_nil] at hx
      exact ⟨'n' :: 'e' :: 'w' :: blanks, [], by simp [hx]⟩
    · rw [List.cons_append, List.cons.injEq] at hy
      exact ⟨'n' :: 'e' :: 'w' :: blanks, more ++ ['('], by simp [hx, ← hy.1]⟩
  rw [contains_eq_false_iff, hab] at hp
  exact hp (found.trans (List.suffix_append a _).isInfix)

/-- Nothing is found where the word with its parenthesis does not occur. -/
theorem IntroducedBy.searchAll_eq_nil (h : IntroducedBy word read) {s : List Char}
    (hs : contains (word ++ ['(']) s = false) : searchAll read s = [] := by
  apply Text.searchAll_eq_nil
  intro a b hab _
  by_contra hne
  obtain ⟨x, hx⟩ := Option.ne_none_iff_exists'.mp hne
  obtain ⟨blanks, more, -, hb⟩ := h _ x hx
  rw [List.append_nil] at hb
  rw [contains_eq_false_iff, hab, hb] at hs
  exact hs ⟨a ++ 'n' :: 'e' :: 'w' :: blanks, more, by simp⟩

end Introduced

theorem introducedBy_readPose : IntroducedBy "Pose2d".toList readPose := by
  intro s x h
  simp only [readPose, Option.bind_eq_bind, Option.bind_eq_some_iff] at h
  obtain ⟨s₁, h₁, s₂, h₂, s₃, h₃, -⟩ := h
  obtain rfl := eq_append_of_after? h₁
  obtain ⟨blanks, hb, rfl⟩ := eq_append_of_afterBlanks? h₂
  obtain rfl := eq_append_of_after? h₃
  refine ⟨blanks, s₃, hb, ?_⟩
  simp

/-! ## One pose -/

section Pose

variable {ν : Type} [Add ν] [Sub ν] [Mul ν] [Div ν] [Neg ν] [Scalar ν]

/-- The part of the line of a pose that a match takes. -/
def poseMatch (x y degrees : List Char) : List Char :=
  "new".toList ++ ' ' :: ("Pose2d(".toList ++ (x ++ ',' :: ' ' :: (y ++ ',' :: ' ' ::
    ("Rotation2d.fromDegrees(".toList ++ (degrees ++ "))".toList)))))

theorem readHeading_space (s : List Char) : readHeading (' ' :: s) = none := rfl

@[simp] theorem findHeading_space (s : List Char) : findHeading (' ' :: s) = findHeading s := by
  rw [findHeading, readHeading_space]
  rfl

theorem findHeading_of_read {s rest : List Char} {n : WrittenNumber}
    (h : readHeading s = some (n, rest)) : findHeading s = some (n, rest) := by
  cases s with
  | nil => cases h
  | cons c s => rw [findHeading, h]

theorem readHeading_degrees {degrees : List Char} {n : WrittenNumber} (h : Spells degrees n)
    (rest : List Char) :
    readHeading ("Rotation2d.fromDegrees(".toList ++ (degrees ++ ("))".toList ++ rest))) =
      some (n, rest) := by
  have read : readNumber (degrees ++ ("))".toList ++ rest)) = some (n, "))".toList ++ rest) :=
    h.readNumber endsNumber_parenthesis _
  simp only [readHeading, after?_append, readClosed, read, Option.bind_eq_bind, Option.bind_some]

/-- A printed pose is read back, whatever follows it. -/
theorem readPose_poseMatch {x y degrees : List Char} {w : WrittenPose} (hx : Spells x w.x)
    (hy : Spells y w.y) (hd : Spells degrees w.degrees) (rest : List Char) :
    readPose (poseMatch x y degrees ++ rest) = some (w, rest) := by
  have readX := fun more => hx.readNumber endsNumber_comma more
  have readY := fun more => hy.readNumber endsNumber_comma more
  have skipY := fun more => hy.head_not_blank more
  have skipWord : ∀ more, skipBlanks ("Pose2d(".toList ++ more) = "Pose2d(".toList ++ more :=
    fun more => skipBlanks_of_head (by simp; decide)
  have blank : isBlank ' ' = true := by decide
  simp only [readPose, poseMatch, List.append_assoc, List.cons_append, after?_append,
    after?_singleton, Option.bind_eq_bind, Option.bind_some, afterBlanks?_cons blank, skipWord,
    readX, skipBlanks_blank blank, skipY, readY, findHeading_space,
    findHeading_of_read (readHeading_degrees hd rest)]

/-- The numbers of a printed pose, as texts, spell a written pose. -/
def PrintsAs (p : Pose ν) (w : WrittenPose) : Prop :=
  ∃ (x y : List Char) (heading : Int), centimetres p.x = .ok x ∧ centimetres p.y = .ok y ∧
    programHeading p.h = .ok heading ∧ Spells x w.x ∧ Spells y w.y ∧
      Spells (integerText heading) w.degrees

/-- The coordinates of a pose are numbers, although they may be too long to be printed. -/
def HasNumbers (p : Pose ν) : Prop :=
  unitsHalfUp (p.x * 100) 1 ≠ .notANumber ∧ unitsHalfUp (p.y * 100) 1 ≠ .notANumber

theorem spells_centimetres {v : ν} (hv : unitsHalfUp (v * 100) 1 ≠ .notANumber) {text : List Char}
    (h : centimetres v = .ok text) : ∃ n, Spells text n := by
  obtain ⟨none, -⟩ | ⟨count, -, spelled⟩ := spells_amount 1 (by decide) (by decide) h
  · exact absurd none hv
  · exact ⟨_, spelled⟩

theorem printsAs_of_poseLine {p : Pose ν} (hp : HasNumbers p) {line : List Char}
    (h : poseLine p = .ok line) : ∃ w, PrintsAs p w := by
  simp only [poseLine, bind_eq_ok] at h
  obtain ⟨x, hx, y, hy, heading, hh, -⟩ := h
  obtain ⟨nx, sx⟩ := spells_centimetres hp.1 hx
  obtain ⟨ny, sy⟩ := spells_centimetres hp.2 hy
  exact ⟨⟨nx, ny, _⟩, x, y, heading, hx, hy, hh, sx, sy, spells_integerText heading⟩

theorem poseLine_eq {p : Pose ν} {x y line : List Char} {heading : Int}
    (hx : centimetres p.x = .ok x) (hy : centimetres p.y = .ok y)
    (hh : programHeading p.h = .ok heading) (h : poseLine p = .ok line) :
    line = "    waypoints.add".toList ++ '(' :: (poseMatch x y (integerText heading)
      ++ ");".toList) := by
  simp only [poseLine, hx, hy, hh, ok_bind, return_eq_ok] at h
  rw [← h]
  simp [poseMatch]

/-- In a text that begins with the line of a pose, behind a piece without poses, the search finds
this pose first. -/
theorem searchAll_poseLine {p : Pose ν} {w : WrittenPose} (hp : PrintsAs p w) {line : List Char}
    (h : poseLine p = .ok line) (before : List Char)
    (hb : contains "Pose2d(".toList (before ++ "    waypoints.add(".toList) = false)
    (tail : List Char) :
    searchAll readPose (before ++ (line ++ '\n' :: tail)) = w :: searchAll readPose tail := by
  obtain ⟨x, y, heading, hx, hy, hh, sx, sy, sd⟩ := hp
  rw [poseLine_eq hx hy hh h]
  have lead : Skips readPose ((before ++ "    waypoints.add".toList) ++ ['('])
      (poseMatch x y (integerText heading) ++ (");".toList ++ '\n' :: tail)) := by
    refine introducedBy_readPose.skips (by decide) ?_ _
    rw [← hb]
    simp
  have trail : Skips readPose (");".toList ++ ['\n']) tail :=
    introducedBy_readPose.skips_of_not_mem (by simp) tail
  have found := readPose_poseMatch sx sy sd (");".toList ++ '\n' :: tail)
  calc searchAll readPose (before ++ ("    waypoints.add".toList ++ '(' ::
          (poseMatch x y (integerText heading) ++ ");".toList) ++ '\n' :: tail))
      = searchAll readPose (((before ++ "    waypoints.add".toList) ++ ['(']) ++
          (poseMatch x y (integerText heading) ++ (");".toList ++ '\n' :: tail))) := by
        simp only [List.append_assoc, List.cons_append, List.nil_append]
    _ = searchAll readPose
          (poseMatch x y (integerText heading) ++ (");".toList ++ '\n' :: tail)) :=
        searchAll_append_of_skips lead
    _ = w :: searchAll readPose (");".toList ++ '\n' :: tail) := searchAll_append_of_read found
    _ = w :: searchAll readPose ((");".toList ++ ['\n']) ++ tail) := by
        simp only [List.append_assoc, List.cons_append, List.nil_append]
    _ = w :: searchAll readPose tail := by rw [searchAll_append_of_skips trail]

theorem contains_poseLead : contains "Pose2d(".toList "    waypoints.add(".toList = false := by
  decide

theorem searchAll_poseLines {poses : List (Pose ν)} {ws : List WrittenPose}
    (hp : List.Forall₂ PrintsAs poses ws) {ls : List (List Char)}
    (h : poses.mapM poseLine = .ok ls) (tail : List Char) :
    searchAll readPose (unlines ls ++ tail) = ws ++ searchAll readPose tail := by
  induction hp generalizing ls with
  | nil =>
    cases h
    rfl
  | @cons p w poses ws hp _ ih =>
    obtain ⟨line, more, hline, hmore, rfl⟩ := mapM_cons_eq_ok.mp h
    have first := searchAll_poseLine hp hline [] contains_poseLead (unlines more ++ tail)
    rw [List.nil_append] at first
    rw [unlines_cons, List.append_assoc, List.cons_append, first, ih hmore, List.cons_append]

theorem contains_opening :
    contains "Pose2d(".toList (unlines opening ++ "    waypoints.add(".toList) = false := by
  decide

/-- The search finds the poses of a program in order, if no later part of it has the word. -/
theorem searchAll_readPose {start : Pose ν} {moves : List (Pose ν)} {w : WrittenPose}
    {ws : List WrittenPose} (hs : PrintsAs start w) (hm : List.Forall₂ PrintsAs moves ws)
    {line : List Char} (hline : poseLine start = .ok line) {ls : List (List Char)}
    (hls : moves.mapM poseLine = .ok ls) {rest : List (List Char)}
    (hrest : contains "Pose2d".toList (unlines rest) = false) :
    searchAll readPose (unlines (opening ++ line :: [] :: ls ++ rest)) = w :: ws := by
  have gap : Skips readPose ['\n'] (unlines ls ++ unlines rest) :=
    introducedBy_readPose.skips_of_not_mem (by simp) _
  have none : searchAll readPose (unlines rest) = [] :=
    introducedBy_readPose.searchAll_eq_nil (contains_append_eq_false hrest _)
  calc searchAll readPose (unlines (opening ++ line :: [] :: ls ++ rest))
      = searchAll readPose (unlines opening ++
          (line ++ '\n' :: (['\n'] ++ (unlines ls ++ unlines rest)))) := by simp
    _ = w :: searchAll readPose (['\n'] ++ (unlines ls ++ unlines rest)) :=
        searchAll_poseLine hs hline _ contains_opening _
    _ = w :: searchAll readPose (unlines ls ++ unlines rest) := by
        rw [searchAll_append_of_skips gap]
    _ = w :: ws := by rw [searchAll_poseLines hm hls, none, List.append_nil]

end Pose

end PathStudio.Program.Field
