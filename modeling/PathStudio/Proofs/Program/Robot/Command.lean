import PathStudio.Proofs.Program.Call
import PathStudio.Proofs.Program.Spelling
import PathStudio.Program.Robot.Print
import PathStudio.Program.Robot.Read

/-!
# The lines of a robot-oriented program

Each line that a program is printed with is understood as the command that it
was printed for, and as no other. A command word is looked for anywhere in a
line, so a line must be free of the words that are looked for before its own.
-/

namespace PathStudio.Program.Robot

open Text Scalar

/-! ## Readers of commands -/

section Readers

variable {word : List Char}

theorem beginsWith_readCommand : BeginsWith word (readCommand word) := by
  intro s h
  simp [readCommand, readOpening, h]

theorem beginsWith_readPairThen (sign : Char) : BeginsWith word (readPairThen word sign) := by
  intro s h
  simp [readPairThen, readOpening, h]

theorem beginsWith_readArc (before : Option Char) : BeginsWith "arc".toList (readArc before) := by
  intro s h
  rw [readArc]
  split
  · rfl
  · exact beginsWith_readPairThen ',' s h

theorem find?_readCommand_eq_none {line : List Char} (h : contains word line = false) :
    find? (readCommand word) line = none :=
  search_eq_none_of_contains (fun _ => beginsWith_readCommand) h

theorem find?_readPairThen_eq_none {line : List Char} (sign : Char)
    (h : contains word line = false) : find? (readPairThen word sign) line = none :=
  search_eq_none_of_contains (fun _ => beginsWith_readPairThen sign) h

variable {a b : List Char} {n m : WrittenNumber}

theorem readOpening_append (ha : Spells a n) (rest : List Char) :
    readOpening word (word ++ '(' :: (a ++ rest)) = some (a ++ rest) := by
  have parenthesis : isBlank '(' = false := by decide
  simp only [readOpening, after?_append, skipBlanks_cons parenthesis, after?_singleton,
    ha.head_not_blank, Option.bind_eq_bind, Option.bind_some]

theorem readNumberThen_append (ha : Spells a n) {sign : Char} (hs : EndsNumber sign)
    (rest : List Char) : readNumberThen sign (a ++ sign :: rest) = some (n, rest) := by
  simp only [readNumberThen, ha.readNumber hs, skipBlanks_cons hs.blank, after?_singleton,
    Option.bind_eq_bind, Option.bind_some]

theorem readCommand_append (ha : Spells a n) (rest : List Char) :
    readCommand word (word ++ '(' :: (a ++ ')' :: rest)) = some (n, rest) := by
  rw [readCommand, readOpening_append ha]
  exact readNumberThen_append ha endsNumber_parenthesis rest

end Readers

/-! ## Words with a pair in parentheses -/

/-- What an amount is printed as: a spelled number, or the word for what is not a number. -/
def IsAmount (text : List Char) : Prop := text = "NaN".toList ∨ ∃ n, Spells text n

theorem IsAmount.not_mem {text : List Char} (h : IsAmount text) {c : Char}
    (hc : c ∉ "NaN".toList ++ numberCharacters) : c ∉ text := by
  obtain rfl | ⟨n, hn⟩ := h
  · exact fun ht => hc (List.mem_append_left _ ht)
  · exact fun ht => hc (List.mem_append_right _ (hn.subset c ht))

theorem isAmount_integerText (k : Int) : IsAmount (integerText k) := .inr ⟨_, spells_integerText k⟩

/-- A word, a pair in parentheses, and what closes or continues it. -/
def pairText (word a b ending : List Char) : List Char :=
  word ++ '(' :: (a ++ ',' :: ' ' :: (b ++ ending))

section Pair

variable {word a b ending : List Char}

/-- A printed pair is read back where the sign that ends it is none of a number. -/
theorem readPairThen_pairText {n m : WrittenNumber} (ha : Spells a n) (hb : Spells b m) {sign : Char}
    (hs : EndsNumber sign) (rest : List Char) :
    readPairThen word sign (pairText word a b (sign :: rest)) = some ((n, m), rest) := by
  have space : isBlank ' ' = true := by decide
  have first : readNumberThen ',' (a ++ ',' :: ' ' :: (b ++ sign :: rest)) =
      some (n, ' ' :: (b ++ sign :: rest)) :=
    readNumberThen_append ha endsNumber_comma _
  have second := readNumberThen_append hb hs rest
  simp only [readPairThen, pairText, readOpening_append ha, first, skipBlanks_blank space,
    hb.head_not_blank, second, Option.bind_eq_bind, Option.bind_some]

theorem pairText_append (rest : List Char) :
    pairText word a b ending ++ rest = pairText word a b (ending ++ rest) := by
  simp [pairText]

theorem not_mem_pairText (ha : IsAmount a) (hb : IsAmount b) {c : Char} (hword : c ∉ word)
    (hc : c ∉ "(, ".toList ++ ("NaN".toList ++ numberCharacters) ++ ending) :
    c ∉ pairText word a b ending := by
  obtain ⟨hc, hending⟩ := not_or.mp (mt List.mem_append.mpr hc)
  obtain ⟨between, amount⟩ := not_or.mp (mt List.mem_append.mpr hc)
  have inA := ha.not_mem amount
  have inB := hb.not_mem amount
  simp only [String.reduceToList, List.mem_cons, List.not_mem_nil, or_false, not_or] at between
  simp [pairText, hword, hending, inA, inB, between]

/-- A word without an opening parenthesis occurs before it or behind it. -/
theorem contains_pairText {target : List Char} (h : '(' ∉ target) :
    contains target (pairText word a b ending) =
      (contains target word || contains target (a ++ ',' :: ' ' :: (b ++ ending))) :=
  contains_append_cons h _ _

theorem trim_pairText (head : ∀ c ∈ word.head?, isBlank c = false) {e : Char}
    (last : ending.getLast? = some e) (he : isBlank e = false) :
    trim (pairText word a b ending) = pairText word a b ending := by
  have ends : (pairText word a b ending).getLast? = some e := by
    simp [pairText, List.getLast?_append, List.getLast?_cons, last]
  cases word with
  | nil => exact trim_of_ends rfl ends (by decide) he
  | cons c word => exact trim_of_ends rfl ends (head c rfl) he

end Pair

/-! ## What is looked for, in turn -/

section Order

variable {line : List Char}

theorem ofLine_comment (h : startsWith "//".toList line = true) : Command.ofLine line = .nothing := by
  rw [Command.ofLine, if_pos h]

theorem ofLine_turn (comment : startsWith "//".toList line = false) {n : WrittenNumber}
    (turn : find? (readCommand "turnPID".toList) line = some n) : Command.ofLine line = .turn := by
  rw [Command.ofLine, if_neg (Bool.eq_false_iff.mp comment), if_pos (by rw [turn]; rfl)]

theorem ofLine_drive (comment : startsWith "//".toList line = false)
    (turn : find? (readCommand "turnPID".toList) line = none) {length degrees : WrittenNumber}
    (drive : find? (readPairThen "drivePID".toList ')') line = some (length, degrees)) :
    Command.ofLine line = .travel .drive length degrees := by
  rw [Command.ofLine, if_neg (Bool.eq_false_iff.mp comment), if_neg (by rw [turn]; decide), drive]

theorem ofLine_strafe (comment : startsWith "//".toList line = false)
    (turn : find? (readCommand "turnPID".toList) line = none)
    (drive : find? (readPairThen "drivePID".toList ')') line = none)
    {length degrees : WrittenNumber}
    (strafe : find? (readPairThen "strafePID".toList ')') line = some (length, degrees)) :
    Command.ofLine line = .travel .strafe length degrees := by
  rw [Command.ofLine, if_neg (Bool.eq_false_iff.mp comment), if_neg (by rw [turn]; decide), drive,
    strafe]

/-- A line has none of the words of turns, drives and strafes. -/
structure NoStraight (line : List Char) : Prop where
  comment : startsWith "//".toList line = false
  turn : find? (readCommand "turnPID".toList) line = none
  drive : find? (readPairThen "drivePID".toList ')') line = none
  strafe : find? (readPairThen "strafePID".toList ')') line = none

theorem ofLine_arc (h : NoStraight line) {length speed : WrittenNumber}
    (arc : search readArc none line = some (length, speed)) :
    Command.ofLine line = .arc length speed := by
  rw [Command.ofLine, if_neg (Bool.eq_false_iff.mp h.comment), if_neg (by rw [h.turn]; decide),
    h.drive, h.strafe, arc]

theorem ofLine_call (h : NoStraight line) (arc : search readArc none line = none)
    {name args : List Char} (call : readCall? line = some (name, args))
    (keyword : keywords.contains name = false) : Command.ofLine line = .call name (trim args) := by
  rw [Command.ofLine, if_neg (Bool.eq_false_iff.mp h.comment), if_neg (by rw [h.turn]; decide),
    h.drive, h.strafe, arc, call]
  exact if_neg (Bool.eq_false_iff.mp keyword)

theorem ofLine_nothing (h : NoStraight line) (arc : search readArc none line = none)
    (call : readCall? line = none) : Command.ofLine line = .nothing := by
  rw [Command.ofLine, if_neg (Bool.eq_false_iff.mp h.comment), if_neg (by rw [h.turn]; decide),
    h.drive, h.strafe, arc, call]

end Order

/-! ## Turns -/

theorem turnLine_eq (degrees : Int) (comment : List Char) :
    turnLine degrees comment =
      "turnPID".toList ++ '(' :: (integerText degrees ++ ')' :: ';' :: comment) := by
  have shape : turnLine degrees comment =
      "turnPID(".toList ++ integerText degrees ++ ");".toList ++ comment := rfl
  simp [shape]

theorem ofLine_turnLine (degrees : Int) (comment : List Char) :
    Command.ofLine (turnLine degrees comment) = .turn := by
  have found : find? (readCommand "turnPID".toList) (turnLine degrees comment) =
      some (.whole degrees) := by
    rw [turnLine_eq]
    exact search_of_read (by simp) (readCommand_append (spells_integerText degrees) _)
  have command : startsWith "//".toList (turnLine degrees comment) = false := by
    rw [turnLine_eq]
    rfl
  exact ofLine_turn command found

/-! ## Drives and strafes -/

section Travel

variable {length : List Char} {n : WrittenNumber}

theorem travelLine_eq (command length : List Char) (degrees : Int) :
    travelLine command length degrees =
      pairText command length (integerText degrees) [')', ';'] := by
  simp [travelLine, pairText]

theorem find?_readPairThen_pairText {word a b : List Char} {m : WrittenNumber} (ha : Spells a n)
    (hb : Spells b m) (rest : List Char) :
    find? (readPairThen word ')') (pairText word a b (')' :: rest)) = some (n, m) :=
  search_of_read (by simp [pairText]) (readPairThen_pairText ha hb endsNumber_parenthesis rest)

theorem ofLine_travelLine_drive (h : Spells length n) (degrees : Int) :
    Command.ofLine (travelLine "drivePID".toList length degrees) =
      .travel .drive n (.whole degrees) := by
  rw [travelLine_eq]
  have spelled := spells_integerText degrees
  have turn : contains "turnPID".toList (pairText "drivePID".toList length (integerText degrees)
      [')', ';']) = false :=
    contains_eq_false_of_not_mem (c := 'u') (by decide)
      (not_mem_pairText (.inr ⟨n, h⟩) (.inr ⟨_, spelled⟩) (by decide) (by decide))
  exact ofLine_drive rfl (find?_readCommand_eq_none turn) (find?_readPairThen_pairText h spelled _)

theorem ofLine_travelLine_strafe (h : Spells length n) (degrees : Int) :
    Command.ofLine (travelLine "strafePID".toList length degrees) =
      .travel .strafe n (.whole degrees) := by
  rw [travelLine_eq]
  have spelled := spells_integerText degrees
  have turn : contains "turnPID".toList (pairText "strafePID".toList length (integerText degrees)
      [')', ';']) = false :=
    contains_eq_false_of_not_mem (c := 'u') (by decide)
      (not_mem_pairText (.inr ⟨n, h⟩) (.inr ⟨_, spelled⟩) (by decide) (by decide))
  have drive : contains "drivePID".toList (pairText "strafePID".toList length (integerText degrees)
      [')', ';']) = false :=
    contains_eq_false_of_not_mem (c := 'v') (by decide)
      (not_mem_pairText (.inr ⟨n, h⟩) (.inr ⟨_, spelled⟩) (by decide) (by decide))
  exact ofLine_strafe rfl (find?_readCommand_eq_none turn) (find?_readPairThen_eq_none ')' drive)
    (find?_readPairThen_pairText h spelled _)

end Travel

/-! ## Arcs -/

theorem noStraight_of_not_mem {line : List Char} (comment : startsWith "//".toList line = false)
    (h : 'P' ∉ line) : NoStraight line where
  comment := comment
  turn := find?_readCommand_eq_none (contains_eq_false_of_not_mem (c := 'P') (by decide) h)
  drive := find?_readPairThen_eq_none ')' (contains_eq_false_of_not_mem (c := 'P') (by decide) h)
  strafe := find?_readPairThen_eq_none ')' (contains_eq_false_of_not_mem (c := 'P') (by decide) h)

/-- The first line of an arc. -/
def arcLine (length speed : List Char) : List Char :=
  "arc".toList ++ '(' :: (length ++ ',' :: ' ' :: (speed ++ ',' :: " t -> t".toList))

theorem arcLine_eq (length speed : List Char) :
    arcLine length speed = pairText "arc".toList length speed (',' :: " t -> t".toList) := rfl

/-- The line of a heading sample without its indent. -/
def sampleText (t : List Char) (degrees : Int) : List Char :=
  ".at".toList ++ '(' :: (t ++ ',' :: ' ' :: (integerText degrees ++ [')']))

theorem sampleText_eq (t : List Char) (degrees : Int) :
    sampleText t degrees = pairText ".at".toList t (integerText degrees) [')'] := rfl

section Arc

variable {length speed t : List Char}

theorem noStraight_arcLine (hl : IsAmount length) (hs : IsAmount speed) :
    NoStraight (arcLine length speed) :=
  noStraight_of_not_mem rfl (not_mem_pairText hl hs (by decide) (by decide))

theorem ofLine_arcLine {n m : WrittenNumber} (hl : Spells length n) (hs : Spells speed m) :
    Command.ofLine (arcLine length speed) = .arc n m := by
  have read : readArc none (arcLine length speed) = some ((n, m), " t -> t".toList) := by
    rw [readArc, if_neg (by simp), arcLine_eq]
    exact readPairThen_pairText hl hs endsNumber_comma _
  exact ofLine_arc (noStraight_arcLine (.inr ⟨n, hl⟩) (.inr ⟨m, hs⟩))
    (search_of_read (by simp [arcLine]) read)

/-- The numbers of an arc are not read if one of them is not a number. -/
theorem readArc_arcLine_notANumber (hl : IsAmount length)
    (lost : length = "NaN".toList ∨ speed = "NaN".toList) :
    readArc none (arcLine length speed) = none := by
  rw [readArc, if_neg (by simp), readPairThen]
  obtain rfl | ⟨n, hn⟩ := hl
  · rfl
  obtain rfl | rfl := lost
  · exact absurd (hn.subset 'N' (by simp)) (by decide)
  have space : isBlank ' ' = true := by decide
  have letter : isBlank 'N' = false := by decide
  have first := readNumberThen_append hn endsNumber_comma
    (' ' :: ("NaN".toList ++ ',' :: " t -> t".toList))
  have skipped (more : List Char) :
      skipBlanks (' ' :: ("NaN".toList ++ more)) = "NaN".toList ++ more := by
    rw [skipBlanks_blank space]
    exact skipBlanks_cons letter _
  have refused (more : List Char) : readNumberThen ',' ("NaN".toList ++ more) = none := rfl
  rw [arcLine, readOpening_append hn]
  simp only [Option.bind_eq_bind, Option.bind_some, first, skipped, refused, Option.bind_none]

/-- An arc is not read as an arc if one of its numbers is not a number. -/
theorem ofLine_arcLine_notANumber (hl : IsAmount length) (hs : IsAmount speed)
    (lost : length = "NaN".toList ∨ speed = "NaN".toList) :
    Command.ofLine (arcLine length speed) = .nothing := by
  have inLength : 'c' ∉ length ∧ ')' ∉ length := ⟨hl.not_mem (by decide), hl.not_mem (by decide)⟩
  have inSpeed : 'c' ∉ speed ∧ ')' ∉ speed := ⟨hs.not_mem (by decide), hs.not_mem (by decide)⟩
  -- behind its first character the line has the word of arcs nowhere
  have arc : search readArc none (arcLine length speed) = none := by
    have number := readArc_arcLine_notANumber hl lost
    have later : contains "arc".toList (pairText "rc".toList length speed
        (',' :: " t -> t".toList)) = false := by
      rw [contains_pairText (by decide), contains_eq_false_of_not_mem (c := 'c') (by decide)
        (by simp [inLength.1, inSpeed.1] :
          'c' ∉ length ++ ',' :: ' ' :: (speed ++ ',' :: " t -> t".toList))]
      decide
    have shape : arcLine length speed = 'a' :: pairText "rc".toList length speed
      (',' :: " t -> t".toList) := rfl
    rw [shape] at number ⊢
    rw [search, number]
    exact search_eq_none_of_contains beginsWith_readArc later
  have call : readCall? (arcLine length speed) = none := by
    rw [arcLine, readCall?_append (by decide),
      callArguments?_eq_none (by simp [inLength.2, inSpeed.2])]
    rfl
  exact ofLine_nothing (noStraight_arcLine hl hs) arc call

/-- Outside an arc the lines of heading samples mean nothing. -/
theorem ofLine_sampleText (ht : IsAmount t) (degrees : Int) :
    Command.ofLine (sampleText t degrees) = .nothing := by
  have straight : NoStraight (sampleText t degrees) :=
    noStraight_of_not_mem rfl
      (not_mem_pairText ht (isAmount_integerText degrees) (by decide) (by decide))
  have arc : search readArc none (sampleText t degrees) = none :=
    search_eq_none_of_contains beginsWith_readArc
      (contains_eq_false_of_not_mem (c := 'c') (by decide)
        (not_mem_pairText ht (isAmount_integerText degrees) (by decide) (by decide)))
  exact ofLine_nothing straight arc rfl

@[simp] theorem ofLine_closing : Command.ofLine ");".toList = .nothing := by
  have straight : NoStraight ");".toList := noStraight_of_not_mem (by decide) (by decide)
  exact ofLine_nothing straight (by decide) (by decide)

end Arc

/-! ## Calls -/

/-- A call that survives in a robot-oriented program: a name that is no command word, arguments on
one line without blanks around them, and no command in the line of the call. -/
structure Callable (name args : List Char) : Prop where
  identifier : isIdentifier name = true
  notKeyword : keywords.contains name = false
  trimmed : trim args = args
  oneLine : '\n' ∉ args
  noTurn : find? (readCommand "turnPID".toList) (callLine name args) = none
  noDrive : find? (readPairThen "drivePID".toList ')') (callLine name args) = none
  noStrafe : find? (readPairThen "strafePID".toList ')') (callLine name args) = none
  noArc : search readArc none (callLine name args) = none

/-- A line that begins with a name is no comment. -/
theorem startsWith_comment_callLine {name : List Char} (h : isIdentifier name = true)
    (args : List Char) : startsWith "//".toList (callLine name args) = false := by
  obtain ⟨c, rest, rfl, hc, -⟩ := exists_of_isIdentifier h
  have other : '/' ≠ c := by
    rintro rfl
    exact absurd hc (by decide)
  simp [callLine, startsWith, after?, other]

theorem ofLine_callLine {name args : List Char} (h : Callable name args) :
    Command.ofLine (callLine name args) = .call name args := by
  have comment := startsWith_comment_callLine h.identifier args
  have call := ofLine_call ⟨comment, h.noTurn, h.noDrive, h.noStrafe⟩ h.noArc
    (readCall?_callLine h.identifier args) h.notKeyword
  rw [call, h.trimmed]

/-- The line above a call that names it. -/
def commentLine (name : List Char) : List Char := '/' :: '/' :: (" Action: ".toList ++ name)

@[simp] theorem ofLine_commentLine (name : List Char) : Command.ofLine (commentLine name) = .nothing :=
  ofLine_comment rfl

/-! ## Trimmed lines -/

theorem trim_turnLine (degrees : Int) {comment : List Char}
    (h : ∀ c ∈ comment.getLast?, isBlank c = false) :
    trim (turnLine degrees comment) = turnLine degrees comment := by
  have last : (turnLine degrees comment).getLast? = some (comment.getLast?.getD ';') := by
    rw [turnLine_eq]
    simp [List.getLast?_append, List.getLast?_cons]
  have head : (turnLine degrees comment).head? = some 't' := by
    rw [turnLine_eq]
    rfl
  apply trim_of_ends head last (by decide)
  cases hc : comment.getLast? with
  | none => decide
  | some c => exact h c hc

theorem trim_travelLine {command : List Char} (h : ∀ c ∈ command.head?, isBlank c = false)
    (length : List Char) (degrees : Int) :
    trim (travelLine command length degrees) = travelLine command length degrees := by
  rw [travelLine_eq]
  exact trim_pairText h rfl (by decide)

@[simp] theorem trim_arcLine (length speed : List Char) :
    trim (arcLine length speed) = arcLine length speed := by
  rw [arcLine_eq]
  refine trim_pairText ?_ rfl (by decide)
  rintro c ⟨⟩
  decide

theorem sampleLine_eq (t : List Char) (degrees : Int) :
    sampleLine t degrees = List.replicate 16 ' ' ++ sampleText t degrees := by
  simp [sampleLine, sampleText]

@[simp] theorem trim_sampleLine (t : List Char) (degrees : Int) :
    trim (sampleLine t degrees) = sampleText t degrees := by
  have blanks : ∀ c ∈ List.replicate 16 ' ', isBlank c = true := List.all_eq_true.mp (by decide)
  rw [sampleLine_eq, trim_append blanks, sampleText_eq]
  refine trim_pairText ?_ rfl (by decide)
  rintro c ⟨⟩
  decide

theorem trim_commentLine {name : List Char} (h : isIdentifier name = true) :
    trim (commentLine name) = commentLine name := by
  apply trim_eq_self
  · rintro c ⟨⟩
    decide
  · intro c hc
    obtain ⟨d, rest, rfl, -⟩ := exists_of_isIdentifier h
    have last : c ∈ d :: rest := by
      rw [commentLine] at hc
      simp only [String.reduceToList, List.cons_append, List.nil_append, List.getLast?_cons_cons,
        Option.mem_def] at hc
      exact List.mem_of_getLast? hc
    exact not_isBlank_of_isWord (isWord_of_isIdentifier h c last)

end PathStudio.Program.Robot
