import PathStudio.Proofs.Program.Field.Poses
import PathStudio.Proofs.Text.Insertion
import PathStudio.Scalar.Double
import Mathlib.Data.List.Infix

/-!
# Comment lines in field-oriented programs

Poses and markers are looked for in the text as it stands, also in its comments.
A comment line between two lines does not disturb what comes before it, since no
part of a pose or a marker goes on with a slash, except inside the body of a
marker; but a pose or a marker that begins in the comment is read like any other.
-/

namespace PathStudio.Program.Field

open Text

/-! ## Numbers stay on their line -/

theorem length_span_le {p : Char → Bool} (s : List Char) : (s.span p).2.length ≤ s.length := by
  rw [List.span_eq_takeWhile_dropWhile]
  exact (List.dropWhile_suffix p).length_le

theorem inline_readUnsigned (negative : Bool) : Inline (readUnsigned negative) where
  stays s ends := by
    have feed : isDigit '\n' = false := by decide
    obtain ⟨whole, left, ends', same⟩ := ends.span_append feed
    cases empty : whole.isEmpty with
    | true => exact .inr fun x => by simp only [readUnsigned, same, empty, if_true]
    | false =>
      cases left with
      | nil => exact absurd rfl ends'.ne_nil
      | cons c more =>
        by_cases point : c = '.'
        · subst point
          obtain ⟨fraction, left, ends, same'⟩ := (ends'.of_cons (by decide)).span_append feed
          refine .inl ⟨⟨negative, digitsValue (whole ++ fraction), fraction.length⟩, left, ends,
            fun x => ?_⟩
          simp only [readUnsigned, same, empty, List.cons_append, same']
          rfl
        · refine .inl ⟨⟨negative, digitsValue whole, 0⟩, c :: more, ends', fun x => ?_⟩
          simp only [readUnsigned, same, empty, List.cons_append, Bool.false_eq_true, if_false]
          split
          next first => exact absurd (List.cons.inj first).1 point
          next => rfl
  shrinks s a left h := by
    have first := length_span_le (p := isDigit) s
    rw [readUnsigned] at h
    split at h
    next whole rest taken =>
      rw [taken] at first
      split at h
      · cases h
      · split at h
        next more =>
          have second := length_span_le (p := isDigit) more
          have same : (more.span isDigit).2 = left := (Prod.mk.inj (Option.some.inj h)).2
          rw [← same]
          simp only [List.length_cons] at first
          omega
        next =>
          cases h
          exact first

theorem inline_readNumber : Inline readNumber where
  stays s ends := by
    cases s with
    | nil => exact absurd rfl ends.ne_nil
    | cons c more =>
      by_cases sign : c = '-'
      · subst sign
        exact (inline_readUnsigned true).stays more (ends.of_cons (by decide))
      · have unsigned (x : List Char) : readNumber (c :: more ++ x) =
            readUnsigned false (c :: more ++ x) := by
          rw [List.cons_append, readNumber]
          rintro rest first
          exact sign (List.cons.inj first).1
        simp only [unsigned]
        exact (inline_readUnsigned false).stays (c :: more) ends
  shrinks s a left h := by
    rw [readNumber.eq_def] at h
    split at h
    · exact Nat.le_succ_of_le ((inline_readUnsigned true).shrinks _ a left h)
    · exact (inline_readUnsigned false).shrinks s a left h

/-! ## Poses -/

section Readers

variable {rest rest' : List Char}

theorem local_readClosed : Local readClosed rest rest' := by
  have closing (n : WrittenNumber) := (local_pure n : Local _ rest rest').after "))".toList (by decide)
  exact .inline inline_readNumber closing

theorem local_readHeading (slash : Shows '/' rest') : Local readHeading rest rest' := by
  have plain := (local_readClosed : Local _ rest rest').after "Rotation2d(".toList (by decide)
  have spaced := plain.blanks slash fun _ => rfl
  exact local_readClosed.afterOr (spaced.after "new".toList (by decide)) _ (by decide)

theorem local_findHeading (slash : Shows '/' rest') : Local findHeading rest rest' where
  parted s ends := by
    induction s with
    | nil => exact absurd rfl ends.ne_nil
    | cons c s ih =>
      cases (local_readHeading slash).parted (c :: s) ends with
      | inside a left ends here there =>
        refine .inside a left ends ?_ ?_
        · exact findHeading_of_read here
        · exact findHeading_of_read there
      | across a left here short => exact .across a left (findHeading_of_read here) short
      | nowhere here there =>
        rw [List.cons_append] at here there
        by_cases feed : c = '\n'
        · refine .nowhere ?_ ?_
          · rw [List.cons_append, findHeading, here, if_pos feed]
          · rw [List.cons_append, findHeading, there, if_pos feed]
        · refine (ih (ends.of_cons feed)).congr ?_ ?_
          · rw [List.cons_append, findHeading, here, if_neg feed]
          · rw [List.cons_append, findHeading, there, if_neg feed]
  shrinks s a left found := by
    induction s with
    | nil => cases found
    | cons c s ih =>
      rw [findHeading] at found
      split at found
      next here =>
        cases found
        exact (local_readHeading slash : Local _ rest rest').shrinks _ a left here
      next =>
        split at found
        · cases found
        · exact Nat.le_succ_of_le (ih found)

theorem local_readPose (slash : Shows '/' rest') : Local readPose rest rest' := by
  have heading (x y : WrittenNumber) := (local_findHeading slash : Local _ rest rest').map
    fun degrees => (⟨x, y, degrees⟩ : WrittenPose)
  have second (x : WrittenNumber) := Local.inline inline_readNumber fun y =>
    (heading x y).after [','] (by decide)
  have first := Local.inline inline_readNumber fun x =>
    ((second x).skip slash fun _ => rfl).after [','] (by decide)
  have word := (first.after "Pose2d(".toList (by decide)).blanks slash fun _ => rfl
  exact word.after "new".toList (by decide)

/-! ## Markers -/

/-- Reads a marker up to the brace that opens its body, as its percentage. -/
def readMarkerHead : Reader WrittenNumber := fun s => do
  let s ← afterBlanks? (← after? "new".toList s)
  let s ← after? "PathMarker(".toList s
  let (percent, s) ← readNumber (skipBlanks s)
  let s ← after? [','] (skipBlanks s)
  let s ← after? "()".toList (skipBlanks s)
  let s ← after? "->".toList (skipBlanks s)
  let s ← after? ['\x7b'] (skipBlanks s)
  some (percent, s)

theorem readMarker_eq (s : List Char) : readMarker s = (do
    let (percent, s) ← readMarkerHead s
    let (body, s) ← readBody s
    some ((percent, body), s)) := by
  simp [readMarker, readMarkerHead, readNumberThen, Option.bind_assoc]

theorem local_readMarkerHead (slash : Shows '/' rest') : Local readMarkerHead rest rest' := by
  have brace (n : WrittenNumber) := ((local_pure n : Local _ rest rest').after ['\x7b']
    (by decide)).skip slash fun _ => rfl
  have arrow (n : WrittenNumber) := ((brace n).after "->".toList (by decide)).skip slash fun _ => rfl
  have unit (n : WrittenNumber) := ((arrow n).after "()".toList (by decide)).skip slash fun _ => rfl
  have comma (n : WrittenNumber) := ((unit n).after [','] (by decide)).skip slash fun _ => rfl
  have percent := (Local.inline inline_readNumber comma).skip slash fun _ => rfl
  have word := (percent.after "PathMarker(".toList (by decide)).blanks slash fun _ => rfl
  exact word.after "new".toList (by decide)

/-- What closes a marker, as a reader. -/
theorem local_afterMarker (slash : Shows '/' rest') :
    Local (fun s => do some ((), ← afterMarker? s)) rest rest' := by
  have last := ((local_pure () : Local _ rest rest').after [';'] (by decide)).skip slash fun _ => rfl
  have second := (last.after [')'] (by decide)).skip slash fun _ => rfl
  have first := (second.after [')'] (by decide)).skip slash fun _ => rfl
  have same (s : List Char) : (do some ((), ← afterMarker? s)) = (do
      let s ← after? [')'] (skipBlanks s)
      let s ← after? [')'] (skipBlanks s)
      let s ← after? [';'] (skipBlanks s)
      some ((), s)) := by
    simp [afterMarker?, Option.bind_assoc]
  rw [funext same]
  exact first

/-- The text after what closes a marker, if a character is the brace that begins it. -/
def afterBrace? (c : Char) (s : List Char) : Option (List Char) :=
  if c = '\x7d' then afterMarker? s else none

theorem readBody_of_closed {c : Char} {s more : List Char} (h : afterBrace? c s = some more) :
    readBody (c :: s) = some ([], more) := by
  rw [readBody, ← afterBrace?, h]

theorem readBody_of_open {c : Char} {s : List Char} (h : afterBrace? c s = none) :
    readBody (c :: s) = (readBody s).map fun (body, more) => (c :: body, more) := by
  rw [readBody, ← afterBrace?, h]

theorem length_readBody_le {s body left : List Char} (h : readBody s = some (body, left)) :
    left.length ≤ s.length := by
  induction s generalizing body with
  | nil => cases h
  | cons c s ih =>
    cases closes : afterBrace? c s with
    | some more =>
      rw [readBody_of_closed closes] at h
      cases h
      by_cases brace : c = '\x7d'
      · rw [afterBrace?, if_pos brace] at closes
        have closing : (do some ((), ← afterMarker? s)) = some ((), left) := by rw [closes]; rfl
        have slash : Shows '/' ['/'] := ⟨[], rfl⟩
        have reading : Local (fun s => do some ((), ← afterMarker? s)) [] ['/'] := local_afterMarker slash
        exact Nat.le_succ_of_le (reading.shrinks s () left closing)
      · rw [afterBrace?, if_neg brace] at closes
        cases closes
    | none =>
      rw [readBody_of_open closes] at h
      obtain ⟨⟨body', left'⟩, found, same⟩ := Option.map_eq_some_iff.mp h
      cases same
      exact Nat.le_succ_of_le (ih found)

theorem afterBrace?_cases (rest : List Char) (slash : Shows '/' rest') {c : Char} {s : List Char}
    (ends : EndsLine (c :: s)) :
    (∃ more, afterBrace? c (s ++ rest) = some (more ++ rest) ∧
      afterBrace? c (s ++ rest') = some (more ++ rest')) ∨
      (afterBrace? c (s ++ rest) = none ∧ afterBrace? c (s ++ rest') = none) ∨
        ∃ left, afterBrace? c (s ++ rest) = some left ∧ left.length ≤ rest.length := by
  have unit {o : Option (List Char)} {left : List Char}
      (h : (do some ((), ← o)) = some ((), left)) : o = some left := by
    cases o <;> cases h
    rfl
  have gone {o : Option (List Char)} (h : (do some ((), ← o)) = none) : o = none := by
    cases o <;> cases h
    rfl
  by_cases brace : c = '\x7d'
  · simp only [afterBrace?, if_pos brace]
    have line : EndsLine s := ends.of_cons (by rw [brace]; decide)
    cases (local_afterMarker slash).parted s line with
    | inside _ more _ here there => exact .inl ⟨more, unit here, unit there⟩
    | nowhere here there => exact .inr (.inl ⟨gone here, gone there⟩)
    | across _ left here short => exact .inr (.inr ⟨left, unit here, short⟩)
  · simp [afterBrace?, brace]

/-- A body that is closed before the place is the same in both texts. -/
theorem readBody_inside (slash : Shows '/' rest') {s body left : List Char} (ends : s = [] ∨ EndsLine s)
    (h : readBody (s ++ rest) = some (body, left)) (long : rest.length < left.length) :
    ∃ more, left = more ++ rest ∧ readBody (s ++ rest') = some (body, more ++ rest') := by
  induction s generalizing body with
  | nil =>
    have short := length_readBody_le h
    rw [List.nil_append] at short
    omega
  | cons c s ih =>
    have line : EndsLine (c :: s) := ends.resolve_left (List.cons_ne_nil c s)
    have later : s = [] ∨ EndsLine s := by
      cases s with
      | nil => exact .inl rfl
      | cons d s => exact .inr (line.of_suffix (List.cons_ne_nil d s) (List.suffix_cons c _))
    rw [List.cons_append] at h
    obtain ⟨more, here, there⟩ | ⟨here, there⟩ | ⟨beyond, here, short⟩ :=
      afterBrace?_cases rest slash line
    · rw [readBody_of_closed here] at h
      cases h
      exact ⟨more, rfl, readBody_of_closed there⟩
    · rw [readBody_of_open here] at h
      obtain ⟨⟨body', left'⟩, found, same⟩ := Option.map_eq_some_iff.mp h
      cases same
      obtain ⟨more, split, same⟩ := ih later found
      refine ⟨more, split, ?_⟩
      rw [List.cons_append, readBody_of_open there, same]
      rfl
    · rw [readBody_of_closed here] at h
      cases h
      omega

end Readers

/-! ## A comment line between two lines -/

/-- Whether a place is inside a pose: one begins before it and ends behind it. -/
def insidePose (before after : List Char) : Bool :=
  before.tails.any fun b => !b.isEmpty &&
    (readPose (b ++ after)).any fun found => found.2.length ≤ after.length

/-- Whether a place is inside a marker: one begins before it whose body is closed behind it or not at
all. -/
def insideMarker (before after : List Char) : Bool :=
  before.tails.any fun b => !b.isEmpty &&
    (readMarkerHead (b ++ after)).any fun opened =>
      (readBody opened.2).all fun closed => closed.2.length ≤ after.length

section Places

variable {before after after' : List Char}

theorem readsAlike_readPose (slash : Shows '/' after') (outside : insidePose before after = false)
    {b : List Char} (ends : EndsLine b) (suffix : b <:+ before) :
    ReadsAlike readPose after after' b := by
  cases (local_readPose slash).parted b ends with
  | inside a left _ here there => exact .inl ⟨a, left, here, there⟩
  | nowhere here there => exact .inr ⟨here, there⟩
  | across a left here short =>
    have inside := List.any_eq_false.mp outside b ((List.mem_tails _ _).mpr suffix)
    simp [ends.ne_nil, here, Nat.not_lt.mpr short] at inside

theorem readsAlike_readMarker (slash : Shows '/' after') (outside : insideMarker before after = false)
    {b : List Char} (ends : EndsLine b) (suffix : b <:+ before) :
    ReadsAlike readMarker after after' b := by
  have inside := List.any_eq_false.mp outside b ((List.mem_tails _ _).mpr suffix)
  rw [ReadsAlike, readMarker_eq, readMarker_eq]
  cases (local_readMarkerHead slash).parted b ends with
  | nowhere here there => exact .inr ⟨by rw [here]; rfl, by rw [there]; rfl⟩
  | across percent left here short =>
    have closed : (readBody left).all (fun closed => closed.2.length ≤ after.length) = true := by
      cases body : readBody left with
      | none => rfl
      | some found => exact decide_eq_true (Nat.le_trans (length_readBody_le body) short)
    simp [ends.ne_nil, here, closed] at inside
  | inside percent left line here there =>
    cases body : readBody (left ++ after) with
    | none => simp [ends.ne_nil, here, body] at inside
    | some found =>
      obtain ⟨text, closed⟩ := found
      have long : after.length < closed.length := by
        simpa [ends.ne_nil, here, body] using inside
      obtain ⟨more, rfl, same⟩ := readBody_inside slash (.inr line) body long
      refine .inl ⟨(percent, text), more, ?_, ?_⟩
      · simp [here, body]
      · simp [there, same]

end Places

theorem beginsWith_readPose : BeginsWith "new".toList readPose := by
  intro s absent
  rw [readPose, absent]
  rfl

theorem beginsWith_readMarker : BeginsWith "new".toList readMarker := by
  intro s absent
  rw [readMarker, absent]
  rfl

/-- Nothing begins in a comment without the word that poses and markers begin with. -/
theorem skips_comment {comment : List Char} (h : contains "new".toList comment = false)
    (after : List Char) : Skips readPose (comment ++ ['\n']) after ∧
      Skips readMarker (comment ++ ['\n']) after :=
  ⟨beginsWith_readPose.skips_of_contains (by decide) h after,
    beginsWith_readMarker.skips_of_contains (by decide) h after⟩

variable {ν : Type} [Add ν] [Sub ν] [Mul ν] [Div ν] [Neg ν] [Scalar ν]

/-- A program is read from its poses and its markers alone. -/
theorem read_congr {text text' : List Char} (poses : searchAll readPose text = searchAll readPose text')
    (markers : searchAll readMarker text = searchAll readMarker text') (prior : Session ν) :
    read text prior = read text' prior := by
  rw [read, read, poses, markers]

/-- A comment line between two lines, and neither inside a pose nor inside a marker, leaves the poses
and markers before it as they are and is looked through for more like any other line. If none begins
in it, it does not change how the program is read. -/
theorem read_comment {before : List (List Char)} {comment after : List Char}
    (slashes : startsWith "//".toList (trimStart comment) = true)
    (outsidePose : insidePose (unlines before) after = false)
    (outsideMarker : insideMarker (unlines before) after = false) :
    let text := unlines before ++ after
    let commented := unlines (before ++ [comment]) ++ after
    (∃ poses, searchAll readPose text = poses ++ searchAll readPose after ∧
      searchAll readPose commented = poses ++ searchAll readPose (comment ++ '\n' :: after)) ∧
    (∃ markers, searchAll readMarker text = markers ++ searchAll readMarker after ∧
      searchAll readMarker commented = markers ++ searchAll readMarker (comment ++ '\n' :: after)) ∧
    (Skips readPose (comment ++ ['\n']) after → Skips readMarker (comment ++ ['\n']) after →
      ∀ prior : Session ν, read commented prior = read text prior) := by
  intro text commented
  have shape : commented = unlines before ++ (comment ++ '\n' :: after) := by
    simp [commented]
  have slash : Shows '/' (comment ++ '\n' :: after) := by
    obtain ⟨more, split⟩ := startsWith_iff_isPrefix.mp slashes
    exact ⟨_, skipBlanks_append_of_cons split.symm ('\n' :: after)⟩
  have ends {b : List Char} (hb : b ≠ []) (suffix : b <:+ unlines before) : EndsLine b := by
    have some : before ≠ [] := by
      rintro rfl
      exact hb (List.suffix_nil.mp suffix)
    exact (endsLine_unlines some).of_suffix hb suffix
  obtain ⟨poses, posesHere, posesThere⟩ := exists_searchAll_append fun b hb suffix =>
    readsAlike_readPose slash outsidePose (ends hb suffix) suffix
  obtain ⟨markers, markersHere, markersThere⟩ := exists_searchAll_append fun b hb suffix =>
    readsAlike_readMarker slash outsideMarker (ends hb suffix) suffix
  rw [← shape] at posesThere markersThere
  refine ⟨⟨poses, posesHere, posesThere⟩, ⟨markers, markersHere, markersThere⟩, ?_⟩
  intro noPose noMarker prior
  have split : comment ++ '\n' :: after = comment ++ ['\n'] ++ after := by simp
  rw [split, searchAll_append_of_skips noPose] at posesThere
  rw [split, searchAll_append_of_skips noMarker] at markersThere
  exact read_congr (posesThere.trans posesHere.symm) (markersThere.trans markersHere.symm) prior

/-- The line of a pose at a distance along the first axis, in centimetres. -/
def poseAt (distance : String) : List Char :=
  "waypoints.add(new Pose2d(".toList ++ distance.toList ++ ", 0, Rotation2d.fromDegrees(0)));".toList

/-- A marker over three lines behind a pose. -/
def poseAndMarker : List Char :=
  unlines [poseAt "100", "markers.add(new PathMarker(100, () -> \x7b".toList, "lift();".toList,
    "\x7d));".toList]

theorem read_comment_poseAndMarker :
    let text := unlines [poseAt "0"] ++ poseAndMarker
    let commented := unlines [poseAt "0", "  // on (to, 1)".toList] ++ poseAndMarker
    startsWith "//".toList (trimStart "  // on (to, 1)".toList) = true ∧
      insidePose (unlines [poseAt "0"]) poseAndMarker = false ∧
      insideMarker (unlines [poseAt "0"]) poseAndMarker = false ∧
      read commented (Session.empty : Session Float) = read text Session.empty := by
  have slashes : startsWith "//".toList (trimStart "  // on (to, 1)".toList) = true := by decide
  have outsidePose : insidePose (unlines [poseAt "0"]) poseAndMarker = false := by decide +kernel
  have outsideMarker : insideMarker (unlines [poseAt "0"]) poseAndMarker = false := by decide
  obtain ⟨noPose, noMarker⟩ := skips_comment (show contains "new".toList "  // on (to, 1)".toList = false
    by decide) poseAndMarker
  exact ⟨slashes, outsidePose, outsideMarker,
    (read_comment slashes outsidePose outsideMarker).2.2 noPose noMarker Session.empty⟩

/-- A pose that has been commented out. -/
def poseOut : List Char := "// ".toList ++ poseAt "50"

/-- It is read all the same, as one more move. -/
theorem poseOut_is_read :
    startsWith "//".toList (trimStart poseOut) = true ∧
      insideMarker (unlines [poseAt "0"]) (poseAt "100") = false ∧
      (read (unlines [poseAt "0"] ++ poseAt "100") (Session.empty : Session Float)).map
        (·.waypoints.length) = .ok 1 ∧
      (read (unlines [poseAt "0", poseOut] ++ poseAt "100") (Session.empty : Session Float)).map
        (·.waypoints.length) = .ok 2 := by
  decide

end PathStudio.Program.Field
