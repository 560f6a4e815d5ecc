import PathStudio.Proofs.Program.Robot.RoundTrip
import PathStudio.Proofs.Program.Robot.Spacing

/-!
# Bare calls

A line that calls a name becomes an action, and does nothing else. The words of
turns, drives and strafes are looked for anywhere in a line, though, and only
that of arcs must not continue a name: a call is taken for a turn, a drive or a
strafe if its name ends in the word and its arguments are those of the command.
-/

namespace PathStudio.Program.Robot

open Text

/-! ## Command words in a call -/

section Words

variable {α : Type} {word name args : List Char}

/-- A reader of commands with the given word, which a parenthesis follows. -/
def OpensWith (word : List Char) (read : Reader α) : Prop :=
  ∀ s, readOpening word s = none → read s = none

theorem opensWith_readCommand : OpensWith word (readCommand word) := by
  intro s h
  rw [readCommand, h]
  rfl

theorem opensWith_readPairThen (sign : Char) : OpensWith word (readPairThen word sign) := by
  intro s h
  rw [readPairThen, h]
  rfl

theorem OpensWith.beginsWith {read : Reader α} (h : OpensWith word read) : BeginsWith word read := by
  intro s absent
  apply h
  rw [readOpening, absent]
  rfl

/-- Between a word and the parenthesis there is no room for the rest of a longer name. -/
theorem readOpening_of_ne (parenthesis : '(' ∉ word) {q : List Char}
    (hq : ∀ c ∈ q, isWord c = true) (other : q ≠ word) (rest : List Char) :
    readOpening word (q ++ '(' :: rest) = none := by
  cases found : after? word (q ++ '(' :: rest) with
  | none => simp [readOpening, found]
  | some s =>
    have starts : word <+: q := by
      rw [← startsWith_iff_isPrefix, ← startsWith_append_cons parenthesis q rest, startsWith, found]
      rfl
    obtain ⟨more, rfl⟩ := starts
    cases more with
    | nil => exact absurd (List.append_nil word) other
    | cons c more =>
      have hc : isWord c = true := hq c (by simp)
      have visible : isBlank c = false := not_isBlank_of_isWord hc
      have apart : '(' ≠ c := by
        rintro rfl
        exact absurd hc (by decide)
      rw [List.append_assoc, after?_append, Option.some.injEq] at found
      rw [readOpening, List.append_assoc, after?_append, List.cons_append]
      simp [skipBlanks_cons visible, after?, apart]

/-- What a reader takes from a call if the word that it begins with stands at the end of the name. -/
def readAtEnd (word : List Char) (read : Reader α) (name args : List Char) : Option α :=
  if word <:+ name then (read (callLine word args)).map Prod.fst else none

/-- Where the arguments do not have the word, a command is found in a call at the end of the name
or not at all. -/
theorem find?_callLine {read : Reader α} (h : OpensWith word read) (nonempty : word ≠ [])
    (parenthesis : '(' ∉ word) (hname : ∀ c ∈ name, isWord c = true)
    (free : contains word ('(' :: (args ++ ");".toList)) = false) :
    find? read (callLine name args) = readAtEnd word read name args := by
  rw [find?]
  generalize (none : Option Char) = before
  -- by induction on the name from behind its first letter: only its end can be the word
  induction name generalizing before with
  | nil =>
    have empty : ¬ word <:+ [] := mt List.suffix_nil.mp nonempty
    rw [readAtEnd, if_neg empty]
    exact search_eq_none_of_contains (fun _ => h.beginsWith) free
  | cons c name ih =>
    have rest := ih (fun d hd => hname d (List.mem_cons_of_mem _ hd)) (some c)
    have split : callLine (c :: name) args = c :: callLine name args := rfl
    by_cases whole : word = c :: name
    · have tooLong : ¬ word <:+ name := fun suffix => by
        have := suffix.length_le
        rw [whole, List.length_cons] at this
        omega
      rw [readAtEnd, if_neg tooLong] at rest
      rw [readAtEnd, if_pos (whole ▸ List.suffix_rfl), whole, split, search]
      cases read (c :: callLine name args) with
      | none => exact rest
      | some found => rfl
    · have here : read (c :: callLine name args) = none :=
        h _ (readOpening_of_ne parenthesis hname (Ne.symm whole) _)
      have suffix : word <:+ c :: name ↔ word <:+ name := by
        rw [List.suffix_cons_iff, or_iff_right whole]
      rw [split, search, here, rest, readAtEnd, readAtEnd]
      simp only [suffix]

/-- The word of arcs is not looked for at the end of a longer name. -/
theorem search_readArc_callLine (hname : ∀ c ∈ name, isWord c = true) (other : name ≠ "arc".toList)
    (free : contains "arc".toList ('(' :: (args ++ ");".toList)) = false) :
    search readArc none (callLine name args) = none := by
  have inside {b : Char} (hb : isWord b = true) (q : List Char) (hq : ∀ c ∈ q, isWord c = true) :
      search readArc (some b) (callLine q args) = none := by
    induction q generalizing b with
    | nil => exact search_eq_none_of_contains beginsWith_readArc free
    | cons c q ih =>
      have guarded : readArc (some b) (callLine (c :: q) args) = none := by simp [readArc, hb]
      have shape : callLine (c :: q) args = c :: callLine q args := rfl
      rw [shape] at guarded ⊢
      rw [search, guarded]
      exact ih (hq c (by simp)) fun d hd => hq d (List.mem_cons_of_mem _ hd)
  cases name with
  | nil => exact search_eq_none_of_contains beginsWith_readArc free
  | cons c name =>
    have first : readArc none (callLine (c :: name) args) = none := by
      rw [readArc, if_neg (by simp)]
      exact opensWith_readPairThen ',' _ (readOpening_of_ne (by decide) hname other _)
    have shape : callLine (c :: name) args = c :: callLine name args := rfl
    rw [shape] at first ⊢
    rw [search, first]
    exact inside (hname c (by simp)) name fun d hd => hname d (List.mem_cons_of_mem _ hd)

end Words

/-- The command that a call is taken for because its name ends in the word of the command. -/
def mimicked? (name args : List Char) : Option Command :=
  if (readAtEnd "turnPID".toList (readCommand "turnPID".toList) name args).isSome then some .turn
  else
    match readAtEnd "drivePID".toList (readPairThen "drivePID".toList ')') name args with
    | some (length, degrees) => some (.travel .drive length degrees)
    | none =>
      match readAtEnd "strafePID".toList (readPairThen "strafePID".toList ')') name args with
      | some (length, degrees) => some (.travel .strafe length degrees)
      | none => none

theorem mimicked?_cases {name args : List Char} {command : Command}
    (h : mimicked? name args = some command) :
    command = .turn ∨ ∃ kind length degrees, command = .travel kind length degrees := by
  rw [mimicked?] at h
  split at h
  · exact .inl (Option.some.inj h).symm
  · split at h
    · exact .inr ⟨_, _, _, (Option.some.inj h).symm⟩
    · split at h
      · exact .inr ⟨_, _, _, (Option.some.inj h).symm⟩
      · cases h

/-- A name that ends in no command word is not taken for a command. -/
theorem mimicked?_eq_none {name : List Char} (h : ∀ word ∈ keywords, ¬ word <:+ name)
    (args : List Char) : mimicked? name args = none := by
  have turn : ¬ "turnPID".toList <:+ name := h _ (by decide)
  have drive : ¬ "drivePID".toList <:+ name := h _ (by decide)
  have strafe : ¬ "strafePID".toList <:+ name := h _ (by decide)
  rw [mimicked?, readAtEnd, if_neg turn, readAtEnd, if_neg drive, readAtEnd, if_neg strafe]
  rfl

/-- A call whose name is no command word and whose arguments have no such word in them. -/
structure IsBare (name args : List Char) : Prop where
  identifier : isIdentifier name = true
  notKeyword : name ∉ keywords
  free : ∀ word ∈ keywords, contains word args = false

section Understood

variable {name args : List Char}

theorem IsBare.free_behind (h : IsBare name args) {word : List Char} (keyword : word ∈ keywords) :
    contains word ('(' :: (args ++ ");".toList)) = false := by
  have letters : word ≠ [] ∧ '(' ∉ word ∧ ')' ∉ word ∧ contains word ";".toList = false := by
    revert word
    decide
  obtain ⟨nonempty, opening, closing, semicolon⟩ := letters
  have before : contains word [] = false := by simpa [contains] using nonempty
  have front := contains_append_cons opening [] (args ++ ");".toList)
  have back : contains word (args ++ ");".toList) = (contains word args || contains word ";".toList) :=
    contains_append_cons closing args ";".toList
  rw [List.nil_append] at front
  rw [front, before, back, h.free word keyword, semicolon]
  rfl

/-- A bare call is understood as the command that its end has, or as itself. -/
theorem IsBare.ofLine_callLine (h : IsBare name args) :
    Command.ofLine (callLine name args) = (mimicked? name args).getD (.call name (trim args)) := by
  have letters := isWord_of_isIdentifier h.identifier
  have turn := find?_callLine opensWith_readCommand (by decide) (by decide) letters
    (h.free_behind (show "turnPID".toList ∈ keywords by decide))
  have drive := find?_callLine (opensWith_readPairThen ')') (by decide) (by decide) letters
    (h.free_behind (show "drivePID".toList ∈ keywords by decide))
  have strafe := find?_callLine (opensWith_readPairThen ')') (by decide) (by decide) letters
    (h.free_behind (show "strafePID".toList ∈ keywords by decide))
  have notArc : name ≠ "arc".toList := fun e => h.notKeyword (e ▸ by decide)
  have arc := search_readArc_callLine letters notArc (h.free_behind (by decide))
  have other : keywords.contains name = false := by simpa using h.notKeyword
  rw [Command.ofLine, if_neg (by rw [startsWith_comment_callLine h.identifier]; decide), turn, drive,
    strafe, arc, readCall?_callLine h.identifier, mimicked?]
  cases readAtEnd "turnPID".toList (readCommand "turnPID".toList) name args with
  | some degrees => rfl
  | none =>
    cases readAtEnd "drivePID".toList (readPairThen "drivePID".toList ')') name args with
    | some found => rfl
    | none =>
      cases readAtEnd "strafePID".toList (readPairThen "strafePID".toList ')') name args with
      | some found => rfl
      | none => exact if_neg (Bool.eq_false_iff.mp other)

end Understood

/-! ## What a call does to the path -/

variable {ν : Type} [Add ν] [Sub ν] [Mul ν] [Div ν] [Neg ν] [Scalar ν]

/-- A call has been read, and nothing else: the path has one more action, which runs a marker of the
call. That is an earlier marker, or a new one at the cursor if none makes the same call. -/
structure AddsCall (t : Trail ν) (name args : List Char) (t' : Trail ν) : Prop where
  waypoints : ∃ w, t'.draft.waypoints = t.draft.waypoints ++ [w] ∧
    RunsMarker t'.draft.markers w (String.ofList name) (String.ofList args)
  markers : (t'.draft.markers = t.draft.markers ∧ t'.draft.nextMarkerId = t.draft.nextMarkerId) ∨
    ((∀ m ∈ t.draft.markers, m.name = String.ofList name → m.args ≠ String.ofList args) ∧
      t'.draft.markers = t.draft.markers ++ [⟨t.draft.nextMarkerId, t.cursor.x, t.cursor.y,
        String.ofList name, String.ofList args⟩] ∧
      t'.draft.nextMarkerId = t.draft.nextMarkerId + 1)
  cursor : t'.cursor = t.cursor
  pending : t'.pending = t.pending

namespace Trail

theorem addsCall_addCall (t : Trail ν) (name args : List Char) :
    AddsCall t name args (t.addCall name args) where
  waypoints := by
    have made := t.draft.markerFor_mem name args t.cursor
    exact ⟨_, t.waypoints_addCall name args, _, made, Draft.markerFor_name .., Draft.markerFor_args ..,
      rfl⟩
  markers := by
    have markers : (t.addCall name args).draft.markers =
        (t.draft.markerFor name args t.cursor).2.markers := rfl
    have next : (t.addCall name args).draft.nextMarkerId =
        (t.draft.markerFor name args t.cursor).2.nextMarkerId := rfl
    rw [markers, next]
    simp only [Draft.markerFor]
    split
    next m found => exact .inl ⟨rfl, rfl⟩
    next missing =>
      have unlike : ∀ m ∈ t.draft.markers,
          m.name = String.ofList name → m.args ≠ String.ofList args := by
        simpa using List.find?_eq_none.mp missing
      exact .inr ⟨unlike, rfl, rfl⟩
  cursor := rfl
  pending := rfl

theorem conclude_nil {t : Trail ν} (h : t.pending = none) (prior : Session ν) :
    t.conclude [] prior = .ok (t.draft.toSession prior.start prior) := by
  have finished : t.finish = .ok t := by rw [finish, h]
  change (do let t ← t.finish; return t.draft.toSession prior.start prior) = _
  rw [finished]
  rfl

/-- A call that is taken for a command adds no action. -/
theorem not_addsCall_run {t t' : Trail ν} {name args line : List Char} {command : Command}
    (mimicked : mimicked? name args = some command) (h : t.run line command = .ok t')
    (name' args' : List Char) : ¬ AddsCall t name' args' t' := by
  rintro ⟨⟨w, added, m, -, -, -, rfl⟩, -, -, -⟩
  obtain rfl | ⟨kind, length, degrees, rfl⟩ := mimicked?_cases mimicked
  · cases h
    exact absurd added (by simp)
  · obtain ⟨p, -, h⟩ := bind_eq_ok.mp h
    cases h
    have last := List.append_cancel_left added
    cases last

end Trail

/-- A line with a bare call outside an arc adds an action for a marker with the name and the trimmed
arguments and does nothing else, unless its name ends in the word of a turn, a drive or a strafe
behind which the arguments are read as those of that command. Then it is run as that command, and
there is no action for it. -/
theorem read_bare_call {text : List Char} {before after : List (List Char)} {line : List Char}
    (split : splitLines text = before ++ line :: after) (outside : arcOpenAfter before = false)
    {name args : List Char} (bare : IsBare name args) (call : trim line = callLine name args)
    {prior : Session ν} {t : Trail ν} (reached : (Trail.start prior).readLines before = .ok t) :
    (mimicked? name args = none → ∃ t', AddsCall t name (trim args) t' ∧
      read text prior = t'.conclude after prior) ∧
    ∀ command, mimicked? name args = some command →
      read text prior = (do (← t.run (trim line) command).conclude after prior) ∧
        ∀ t', t.run (trim line) command = .ok t' → ¬ AddsCall t name (trim args) t' := by
  have closed : t.pending = none := Trail.pending_readLines_eq_none rfl outside reached
  have visible : trim line ≠ [] := by
    rw [call]
    simp [callLine]
  have step : read text prior =
      (do (← t.run (trim line) (.ofLine (trim line))).conclude after prior) := by
    rw [Trail.read_eq_conclude, split, Trail.conclude_append reached, Trail.conclude,
      Trail.readLines_cons visible, Trail.readLine_eq_run closed]
    cases t.run (trim line) (.ofLine (trim line)) <;> rfl
  have understood : Command.ofLine (trim line) = (mimicked? name args).getD (.call name (trim args)) := by
    rw [call, bare.ofLine_callLine]
  rw [understood] at step
  constructor
  · intro own
    rw [own] at step
    exact ⟨t.addCall name (trim args), t.addsCall_addCall name (trim args), step⟩
  · intro command mimicked
    rw [mimicked] at step
    exact ⟨step, fun t' run => Trail.not_addsCall_run mimicked run name (trim args)⟩

/-- A program with a call inside another's arguments. -/
def nestedCall : List Char := "// up\n  lift(grab(2), high);\nturnPID(0);".toList

theorem read_bare_call_nestedCall :
    splitLines nestedCall =
        ["// up".toList] ++ "  lift(grab(2), high);".toList :: ["turnPID(0);".toList] ∧
      arcOpenAfter ["// up".toList] = false ∧ IsBare "lift".toList "grab(2), high".toList ∧
      trim "  lift(grab(2), high);".toList = callLine "lift".toList "grab(2), high".toList ∧
      (Trail.start (Session.empty : Session Float)).readLines ["// up".toList] =
        .ok (.start Session.empty) ∧
      ∃ t', AddsCall (.start (Session.empty : Session Float)) "lift".toList
          (trim "grab(2), high".toList) t' ∧
        read nestedCall Session.empty = t'.conclude ["turnPID(0);".toList] Session.empty := by
  have split : splitLines nestedCall =
      ["// up".toList] ++ "  lift(grab(2), high);".toList :: ["turnPID(0);".toList] := by decide
  have outside : arcOpenAfter ["// up".toList] = false := by decide
  have bare : IsBare "lift".toList "grab(2), high".toList := ⟨by decide, by decide, by decide⟩
  have call : trim "  lift(grab(2), high);".toList =
      callLine "lift".toList "grab(2), high".toList := by decide
  have reached : (Trail.start (Session.empty : Session Float)).readLines ["// up".toList] =
      .ok (.start Session.empty) := Trail.readLines_comment rfl (by decide) []
  exact ⟨split, outside, bare, call, reached,
    (read_bare_call split outside bare call reached).1 (mimicked?_eq_none (by decide) _)⟩

/-- A program with a call whose name ends in the word of turns. -/
def swallowedCall : List Char := "lift();\nmyturnPID(5);".toList

/-- The second call adds no action, although its name is none of the command words. -/
theorem read_swallowedCall_drops_call :
    splitLines swallowedCall = ["lift();".toList] ++ "myturnPID(5);".toList :: [] ∧
      arcOpenAfter ["lift();".toList] = false ∧ IsBare "myturnPID".toList "5".toList ∧
      trim "myturnPID(5);".toList = callLine "myturnPID".toList "5".toList ∧
      ∃ t : Trail Float, (Trail.start Session.empty).readLines ["lift();".toList] = .ok t ∧
        ¬ ∃ t', AddsCall t "myturnPID".toList "5".toList t' ∧
          read swallowedCall Session.empty = t'.conclude [] Session.empty := by
  have trimmed : trim "lift();".toList = callLine "lift".toList [] := by decide
  refine ⟨by decide, by decide, ⟨by decide, by decide, by decide⟩, by decide,
    (Trail.start Session.empty).addCall "lift".toList [], ?_, ?_⟩
  · have first : IsBare "lift".toList [] := ⟨by decide, by decide, by decide⟩
    have understood := first.ofLine_callLine
    rw [mimicked?_eq_none (by decide)] at understood
    rw [Trail.readLines_cons (by decide), Trail.readLine_eq_run rfl, trimmed, understood]
    rfl
  · rintro ⟨t', ⟨⟨w, added, -⟩, -, -, closed⟩, same⟩
    have count : (read swallowedCall (Session.empty : Session Float)).map (·.waypoints.length) =
        .ok 1 := by
      decide
    rw [same, Trail.conclude_nil closed] at count
    have two : t'.draft.waypoints.length = 2 := by
      rw [added, Trail.waypoints_addCall]
      rfl
    have one : t'.draft.waypoints.length = 1 := Except.ok.inj count
    exact absurd (two.symm.trans one) (by decide)

end PathStudio.Program.Robot
