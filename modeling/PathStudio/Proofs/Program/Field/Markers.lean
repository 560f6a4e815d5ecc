import PathStudio.Proofs.Program.Call
import PathStudio.Proofs.Program.Field.Poses

/-!
# The markers of a field-oriented program

A search for markers finds the printed markers in order, each with its percentage
and its body, and the body of a marker gives back the call that it was printed
for. The body ends at the first brace that two parentheses and a semicolon follow,
so calls may not have these.
-/

namespace PathStudio.Program.Field

open Text Scalar

/-! ## Calls in the body of a marker -/

/-- A call that survives in a field-oriented program: a name that does not look like telemetry,
and arguments on one line without a brace or blanks around them. -/
structure Callable (name args : List Char) : Prop where
  identifier : isIdentifier name = true
  notTelemetry : startsWith "telemetry".toList name = false
  trimmed : trim args = args
  oneLine : args.any isLineEnd = false
  noBrace : '\x7d' ∉ args
  noPoseInName : contains "Pose2d".toList name = false
  noPoseInArgs : contains "Pose2d".toList args = false

/-- A call that a search for markers finds again: arguments on one line without blanks around them,
and nothing in the line of the call that closes the marker. A name that looks like telemetry is taken
from the announcement, which has no arguments. -/
structure Findable (name args : List Char) : Prop where
  identifier : isIdentifier name = true
  trimmed : trim args = args
  oneLine : args.any isLineEnd = false
  telemetry : startsWith "telemetry".toList name = true → args = []
  stays : readBody (args ++ ");".toList) = none

/-- A text without braces closes no marker. -/
theorem readBody_eq_none {s : List Char} (h : '\x7d' ∉ s) : readBody s = none := by
  induction s with
  | nil => rfl
  | cons c s ih =>
    obtain ⟨other, h⟩ := not_or.mp (mt List.mem_cons.mpr h)
    rw [readBody, if_neg (Ne.symm other), ih h]
    rfl

theorem Callable.findable {name args : List Char} (h : Callable name args) : Findable name args where
  identifier := h.identifier
  trimmed := h.trimmed
  oneLine := h.oneLine
  telemetry hn := absurd (h.notTelemetry.symm.trans hn) (by decide)
  stays := readBody_eq_none (by simp [h.noBrace])

/-- The line that announces a marker. -/
def telemetryLine (percent name : List Char) : List Char :=
  "telemetry".toList ++ (".addData(\"Marker\", \"".toList ++ (percent ++ ("% - ".toList ++ (name
    ++ "\");".toList))))

/-- The indent of the lines in the body of a marker. -/
def indent : List Char := "        ".toList

theorem indent_eq : indent = "        ".toList := rfl

/-- The body of a printed marker, from one brace to the other. -/
def markerBody (percent name args : List Char) : List Char :=
  '\n' :: (unlines [indent ++ telemetryLine percent name,
    indent ++ "telemetry.update();".toList, indent ++ callLine name args] ++ "    ".toList)

section Body

variable {percent name args : List Char}

theorem isBlank_of_mem_indent : ∀ c ∈ indent, isBlank c = true :=
  List.all_eq_true.mp (by decide)

/-- Rewriting with the definition itself would evaluate its first word. -/
theorem telemetryLine_eq : telemetryLine percent name = "telemetry".toList
    ++ (".addData(\"Marker\", \"".toList ++ (percent ++ ("% - ".toList ++ (name
      ++ "\");".toList)))) := rfl

@[simp] theorem trim_telemetryLine : trim (telemetryLine percent name) = telemetryLine percent name := by
  have last : (telemetryLine percent name).getLast? = some ';' := by
    rw [telemetryLine_eq]
    simp [List.getLast?_append, List.getLast?_cons]
  have head : (telemetryLine percent name).head? = some 't' := rfl
  exact trim_of_ends head last (by decide) (by decide)

theorem startsWith_telemetryLine :
    startsWith "telemetry".toList (telemetryLine percent name) = true := by
  rw [startsWith_iff_isPrefix, telemetryLine_eq]
  exact List.prefix_append _ _

theorem plain_telemetryLine (hp : percent.any isLineEnd = false) (hn : isIdentifier name = true) :
    (indent ++ telemetryLine percent name).any isLineEnd = false := by
  simp only [telemetryLine_eq, List.any_append, hp, plain_of_isIdentifier hn]
  decide

theorem plain_callLine (h : Findable name args) :
    (indent ++ callLine name args).any isLineEnd = false := by
  simp only [callLine, List.any_append, List.any_cons, h.oneLine, plain_of_isIdentifier h.identifier]
  decide

theorem lines_markerBody (hp : percent.any isLineEnd = false) (h : Findable name args) :
    lines (markerBody percent name args) = [[], indent ++ telemetryLine percent name,
      indent ++ "telemetry.update();".toList, indent ++ callLine name args, "    ".toList] := by
  have update : (indent ++ "telemetry.update();".toList).any isLineEnd = false := by decide
  have first := @lines_append [] rfl
    (unlines [indent ++ telemetryLine percent name, indent ++ "telemetry.update();".toList,
      indent ++ callLine name args] ++ "    ".toList)
  rw [List.nil_append] at first
  rw [markerBody, first]
  simp only [unlines_cons, unlines_nil, List.append_assoc, List.cons_append, List.nil_append]
  simp only [← List.append_assoc indent]
  rw [lines_append (plain_telemetryLine hp h.identifier), lines_append update,
    lines_append (plain_callLine h)]
  rfl

/-- The call of a printed marker is the first line of its body that is not telemetry, if there is
one. -/
theorem bodyCall?_markerBody (hp : percent.any isLineEnd = false) (h : Findable name args) :
    bodyCall? (markerBody percent name args) =
      if startsWith "telemetry".toList name then none else some (name, args) := by
  have empty : startsWith "telemetry".toList (trim []) = false ∧ readCall? (trim []) = none := by
    decide
  have closing : startsWith "telemetry".toList (trim "    ".toList) = false ∧
      readCall? (trim "    ".toList) = none := by decide
  have update : startsWith "telemetry".toList (trim "telemetry.update();".toList) = true := by
    decide
  have call : startsWith "telemetry".toList (callLine name args) =
      startsWith "telemetry".toList name := by
    rw [callLine, startsWith_append_cons (by decide)]
  rw [bodyCall?, lines_markerBody hp h]
  cases looks : startsWith "telemetry".toList name with
  | false =>
    simp only [List.findSome?_cons, empty, update, trim_append isBlank_of_mem_indent,
      trim_telemetryLine, startsWith_telemetryLine, trim_callLine h.identifier, call, looks,
      readCall?_callLine h.identifier, h.trimmed, Bool.false_eq_true, if_false, if_true,
      Option.map_none, Option.map_some]
  | true =>
    simp only [List.findSome?_cons, List.findSome?_nil, empty, closing, update,
      trim_append isBlank_of_mem_indent, trim_telemetryLine, startsWith_telemetryLine,
      trim_callLine h.identifier, call, looks, Bool.false_eq_true, if_false, if_true,
      Option.map_none]

/-! ### The announced name -/

theorem afterPercent?_eq_none {s : List Char} (h : '%' ∉ s) : afterPercent? s = none := by
  induction s with
  | nil => rfl
  | cons c s ih =>
    obtain ⟨other, h⟩ := not_or.mp (mt List.mem_cons.mpr h)
    rw [afterPercent?, ih h]
    simp [Ne.symm other]

theorem afterPercent?_append (before : List Char) {name : List Char} (h : '%' ∉ name) :
    afterPercent? (before ++ ("% - ".toList ++ name)) = some (' ' :: name) := by
  induction before with
  | nil =>
    have none : afterPercent? (' ' :: '-' :: ' ' :: name) = none := afterPercent?_eq_none (by simp [h])
    show afterPercent? ('%' :: ' ' :: '-' :: ' ' :: name) = _
    rw [afterPercent?, none]
    rfl
  | cons c before ih => rw [List.cons_append, afterPercent?, ih]

theorem readAnnounced_append (hp : '"' ∉ percent) (hn : isIdentifier name = true) (rest : List Char) :
    readAnnounced ("\"Marker\"".toList ++ (", \"".toList ++ (percent ++ ("% - ".toList ++ (name
      ++ '"' :: rest))))) = some (name, rest) := by
  have word : ∀ c ∈ name, isWord c = true := isWord_of_isIdentifier hn
  have noQuote : '"' ∉ name := fun hc => absurd (word _ hc) (by decide)
  have noPercent : '%' ∉ name := fun hc => absurd (word _ hc) (by decide)
  have plain : ∀ c ∈ percent ++ ("% - ".toList ++ name), decide (c ≠ '"') = true := by
    intro c hc
    rw [decide_eq_true_eq]
    rintro rfl
    simp [hp, noQuote] at hc
  have announced : (percent ++ ("% - ".toList ++ (name ++ '"' :: rest))).span (· ≠ '"') =
      (percent ++ ("% - ".toList ++ name), '"' :: rest) := by
    have shape : percent ++ ("% - ".toList ++ (name ++ '"' :: rest)) =
        (percent ++ ("% - ".toList ++ name)) ++ '"' :: rest := by simp
    rw [shape, List.span_eq_takeWhile_dropWhile, List.takeWhile_append_of_pos plain,
      List.dropWhile_append_of_pos plain]
    simp
  have trimmed : trim (' ' :: name) = name := by
    have blank : ∀ c ∈ [' '], isBlank c = true := List.all_eq_true.mp (by decide)
    have ends : ∀ c ∈ name, isBlank c = false := fun c hc => not_isBlank_of_isWord (word c hc)
    rw [show ' ' :: name = [' '] ++ name from rfl, trim_append blank,
      trim_eq_self (fun c hc => ends c (List.mem_of_head? hc))
        (fun c hc => ends c (List.mem_of_getLast? hc))]
  have sign : ", \"".toList = [',', ' ', '"'] := by decide
  have comma (s : List Char) : skipBlanks (", \"".toList ++ s) = ',' :: ' ' :: '"' :: s := by
    rw [sign]
    exact skipBlanks_cons (by decide) _
  have quote (s : List Char) : skipBlanks (' ' :: '"' :: s) = '"' :: s := by
    rw [skipBlanks_blank (by decide), skipBlanks_cons (by decide)]
  simp only [readAnnounced, after?_append, comma, quote, after?_singleton, announced,
    afterPercent?_append percent noPercent, trimmed, Option.bind_eq_bind, Option.bind_some]

/-- Nothing is announced before the first quotation mark. -/
theorem search_readAnnounced_append {piece : List Char} (h : '"' ∉ piece) (before : Option Char)
    (s : List Char) : search (fun _ => readAnnounced) before (piece ++ s) =
      search (fun _ => readAnnounced) none s := by
  induction piece generalizing before with
  | nil => cases s <;> rfl
  | cons c piece ih =>
    obtain ⟨other, h⟩ := not_or.mp (mt List.mem_cons.mpr h)
    have fails : readAnnounced (c :: (piece ++ s)) = none := by
      simp [readAnnounced, after?, other]
    rw [List.cons_append, search, fails]
    exact ih h _

theorem search_readAnnounced_markerBody (hp : '"' ∉ percent) (hn : isIdentifier name = true) :
    search (fun _ => readAnnounced) none (markerBody percent name args) = some name := by
  have before : '"' ∉ '\n' :: (indent ++ "telemetry.addData(".toList) := by decide
  have shape : markerBody percent name args = ('\n' :: (indent ++ "telemetry.addData(".toList)) ++
      ("\"Marker\"".toList ++ (", \"".toList ++ (percent ++ ("% - ".toList ++ (name
        ++ '"' :: (");\n".toList ++ unlines [indent ++ "telemetry.update();".toList,
          indent ++ callLine name args] ++ "    ".toList)))))) := by
    simp [markerBody, telemetryLine_eq]
  rw [shape, search_readAnnounced_append before]
  exact search_of_read (by simp) (readAnnounced_append hp hn _)

/-- The body of a printed marker gives back its call. -/
theorem bodyAction?_markerBody (hp : percent.any isLineEnd = false) (hq : '"' ∉ percent)
    (h : Findable name args) : bodyAction? (markerBody percent name args) = some (name, args) := by
  rw [bodyAction?, bodyCall?_markerBody hp h]
  cases looks : startsWith "telemetry".toList name with
  | false => rfl
  | true =>
    rw [h.telemetry looks]
    simp only [if_true, search_readAnnounced_markerBody hq h.identifier, Option.map_some]

end Body

/-! ## One marker -/

section Marker

variable {percent body : List Char} {n : WrittenNumber}

/-- The part of a printed marker that a match takes. -/
def markerMatch (percent body : List Char) : List Char :=
  "new".toList ++ ' ' :: ("PathMarker(".toList ++ (percent ++ ',' :: ' ' :: ("()".toList
    ++ ' ' :: ("->".toList ++ ' ' :: '\x7b' :: (body ++ '\x7d' :: "));".toList)))))

theorem introducedBy_readMarker : IntroducedBy "PathMarker".toList readMarker := by
  intro s x h
  simp only [readMarker, Option.bind_eq_bind, Option.bind_eq_some_iff] at h
  obtain ⟨s₁, h₁, s₂, h₂, s₃, h₃, -⟩ := h
  obtain rfl := eq_append_of_after? h₁
  obtain ⟨blanks, hb, rfl⟩ := eq_append_of_afterBlanks? h₂
  obtain rfl := eq_append_of_after? h₃
  refine ⟨blanks, s₃, hb, ?_⟩
  simp

/-- The body of a marker without braces ends at the brace that closes the marker. -/
theorem readBody_append (h : '\x7d' ∉ body) (rest : List Char) :
    readBody (body ++ '\x7d' :: ("));".toList ++ rest)) = some (body, rest) := by
  induction body with
  | nil =>
    have close : afterMarker? ("));".toList ++ rest) = some rest := by
      have parenthesis : isBlank ')' = false := by decide
      have semicolon : isBlank ';' = false := by decide
      simp only [afterMarker?, String.reduceToList, List.cons_append, List.nil_append,
        skipBlanks_cons parenthesis, skipBlanks_cons semicolon, after?_singleton,
        Option.bind_eq_bind, Option.bind_some]
    rw [List.nil_append, readBody, if_pos rfl, close]
  | cons c body ih =>
    have other : c ≠ '\x7d' := fun hc => h (by simp [hc])
    rw [List.cons_append, readBody, if_neg other, ih fun hc => h (List.mem_cons_of_mem _ hc)]
    rfl

/-- What closes a marker ends with its only semicolon. -/
theorem exists_of_afterMarker? {s rest : List Char} (h : afterMarker? s = some rest) :
    ∃ closing, s = closing ++ ';' :: rest ∧ ';' ∉ closing ∧
      ∀ more, afterMarker? (closing ++ ';' :: more) = some more := by
  simp only [afterMarker?, Option.bind_eq_bind, Option.bind_eq_some_iff] at h
  obtain ⟨s₁, h₁, s₂, h₂, h₃⟩ := h
  obtain ⟨b₁, blank₁, split₁⟩ := eq_append_skipBlanks s
  obtain ⟨b₂, blank₂, split₂⟩ := eq_append_skipBlanks s₁
  obtain ⟨b₃, blank₃, split₃⟩ := eq_append_skipBlanks s₂
  rw [eq_append_of_after? h₁] at split₁
  rw [eq_append_of_after? h₂] at split₂
  rw [eq_append_of_after? h₃] at split₃
  have apart {b : List Char} (hb : ∀ c ∈ b, isBlank c = true) : ';' ∉ b :=
    fun hc => absurd (hb _ hc) (by decide)
  refine ⟨b₁ ++ ')' :: (b₂ ++ ')' :: b₃), ?_, ?_, fun more => ?_⟩
  · rw [split₁, split₂, split₃]
    simp
  · simp [apart blank₁, apart blank₂, apart blank₃]
  · have parenthesis : isBlank ')' = false := by decide
    have semicolon : isBlank ';' = false := by decide
    simp only [afterMarker?, List.append_assoc, List.cons_append, skipBlanks_append blank₁,
      skipBlanks_append blank₂, skipBlanks_append blank₃, skipBlanks_cons parenthesis,
      skipBlanks_cons semicolon, after?_singleton, Option.bind_eq_bind, Option.bind_some]

/-- What does not close a marker in a line that ends with a semicolon does not close it behind the
line. -/
theorem afterMarker?_append_eq_none {s : List Char} (h : afterMarker? (s ++ [';']) = none)
    (tail : List Char) : afterMarker? (s ++ ';' :: tail) = none := by
  by_contra closes
  obtain ⟨rest, hrest⟩ := Option.ne_none_iff_exists'.mp closes
  obtain ⟨closing, split, only, reads⟩ := exists_of_afterMarker? hrest
  obtain ⟨more, rfl, hmore⟩ | ⟨more, rfl, hmore⟩ := List.append_eq_append_iff.mp split
  · cases more with
    | nil =>
      rw [List.append_nil] at reads
      cases h.symm.trans (reads [])
    | cons c more =>
      obtain ⟨rfl, -⟩ := List.cons.inj hmore
      simp at only
  · cases more with
    | nil =>
      rw [List.append_nil] at h
      cases h.symm.trans (reads [])
    | cons c more =>
      obtain ⟨rfl, -⟩ := List.cons.inj hmore
      rw [List.append_assoc, List.cons_append] at h
      cases h.symm.trans (reads _)

/-- A body goes on behind a text without braces. -/
theorem readBody_append_of_not_mem {s : List Char} (h : '\x7d' ∉ s) (tail : List Char) :
    readBody (s ++ tail) = (readBody tail).map fun found => (s ++ found.1, found.2) := by
  induction s with
  | nil => simp
  | cons c s ih =>
    obtain ⟨other, h⟩ := not_or.mp (mt List.mem_cons.mpr h)
    rw [List.cons_append, readBody, if_neg (Ne.symm other), ih h, Option.map_map]
    rfl

/-- A body goes on behind a line that does not close it. -/
theorem readBody_append_of_stays {s : List Char} (h : readBody (s ++ [';']) = none)
    (tail : List Char) : readBody (s ++ ';' :: tail) =
      (readBody tail).map fun found => (s ++ ';' :: found.1, found.2) := by
  induction s with
  | nil => exact readBody_append_of_not_mem (s := [';']) (by simp) tail
  | cons c s ih =>
    rw [List.cons_append, readBody] at h ⊢
    by_cases brace : c = '\x7d'
    · rw [if_pos brace] at h ⊢
      split at h
      next => cases h
      next open_ =>
        rw [afterMarker?_append_eq_none open_, ih (Option.map_eq_none_iff.mp h), Option.map_map]
        rfl
    · rw [if_neg brace] at h ⊢
      rw [ih (Option.map_eq_none_iff.mp h), Option.map_map]
      rfl

/-- The body of a printed marker ends at the brace that closes the marker. -/
theorem readBody_markerBody {percent name args : List Char} (hp : ∀ c ∈ percent, c ∈ numberCharacters)
    (h : Findable name args) (rest : List Char) :
    readBody (markerBody percent name args ++ '\x7d' :: ("));".toList ++ rest)) =
      some (markerBody percent name args, rest) := by
  have inPercent : '\x7d' ∉ percent := fun hc => absurd (hp _ hc) (by decide)
  have inName : '\x7d' ∉ name := fun hc =>
    absurd (isWord_of_isIdentifier h.identifier _ hc) (by decide)
  have inIndent : '\x7d' ∉ indent := by decide
  have call : ");".toList = [')', ';'] := by decide
  have before : '\x7d' ∉ '\n' :: (unlines [indent ++ telemetryLine percent name,
      indent ++ "telemetry.update();".toList] ++ (indent ++ (name ++ ['(']))) := by
    simp [inIndent, telemetryLine_eq, inPercent, inName]
  have stays : readBody ((args ++ [')']) ++ [';']) = none := by
    rw [List.append_assoc]
    exact h.stays
  have shape : markerBody percent name args = ('\n' :: (unlines [indent ++ telemetryLine percent name,
      indent ++ "telemetry.update();".toList] ++ (indent ++ (name ++ ['('])))) ++
        ((args ++ [')']) ++ ';' :: ('\n' :: "    ".toList)) := by
    simp [markerBody, callLine]
  rw [shape, List.append_assoc, readBody_append_of_not_mem before, List.append_assoc,
    List.cons_append, readBody_append_of_stays stays, readBody_append (by decide) rest]
  rfl

/-- A printed marker is read back, whatever follows it. -/
theorem readMarker_markerMatch (hp : Spells percent n)
    (hb : ∀ rest, readBody (body ++ '\x7d' :: ("));".toList ++ rest)) = some (body, rest))
    (rest : List Char) :
    readMarker (markerMatch percent body ++ rest) = some ((n, body), rest) := by
  have blank : isBlank ' ' = true := by decide
  have skipWord : ∀ more, skipBlanks ("PathMarker(".toList ++ more) = "PathMarker(".toList ++ more :=
    fun more => skipBlanks_of_head (by simp; decide)
  have skipUnit : ∀ more, skipBlanks ("()".toList ++ more) = "()".toList ++ more :=
    fun more => skipBlanks_of_head (by simp; decide)
  have skipArrow : ∀ more, skipBlanks ("->".toList ++ more) = "->".toList ++ more :=
    fun more => skipBlanks_of_head (by simp; decide)
  have brace : isBlank '\x7b' = false := by decide
  have read := fun more => hp.readNumber endsNumber_comma more
  simp only [readMarker, markerMatch, readNumberThen, List.append_assoc, List.cons_append,
    after?_append, after?_singleton, Option.bind_eq_bind, Option.bind_some,
    afterBlanks?_cons blank, skipWord, hp.head_not_blank, read, skipBlanks_cons endsNumber_comma.blank,
    skipBlanks_blank blank, skipUnit, skipArrow, skipBlanks_cons brace, hb]

theorem contains_markerLead : contains "PathMarker(".toList "    markers.add(".toList = false := by
  decide

/-- In a text that begins with a printed marker, behind a piece without markers, the search finds
this marker first. -/
theorem searchAll_markerMatch (hp : Spells percent n)
    (hb : ∀ rest, readBody (body ++ '\x7d' :: ("));".toList ++ rest)) = some (body, rest))
    {before : List Char}
    (hbefore : contains "PathMarker(".toList (before ++ "    markers.add(".toList) = false)
    (tail : List Char) :
    searchAll readMarker (before ++ ("    markers.add".toList ++ '(' ::
      (markerMatch percent body ++ '\n' :: '\n' :: tail))) =
      (n, body) :: searchAll readMarker tail := by
  have lead : Skips readMarker ((before ++ "    markers.add".toList) ++ ['('])
      (markerMatch percent body ++ '\n' :: '\n' :: tail) := by
    apply introducedBy_readMarker.skips (by decide)
    simpa using hbefore
  have trail : Skips readMarker ['\n', '\n'] tail :=
    introducedBy_readMarker.skips_of_not_mem (by simp) tail
  have found := readMarker_markerMatch hp hb ('\n' :: '\n' :: tail)
  calc searchAll readMarker (before ++ ("    markers.add".toList ++ '(' ::
          (markerMatch percent body ++ '\n' :: '\n' :: tail)))
      = searchAll readMarker (((before ++ "    markers.add".toList) ++ ['(']) ++
          (markerMatch percent body ++ '\n' :: '\n' :: tail)) := by
        simp only [List.append_assoc, List.cons_append, List.nil_append]
    _ = searchAll readMarker (markerMatch percent body ++ '\n' :: '\n' :: tail) :=
        searchAll_append_of_skips lead
    _ = (n, body) :: searchAll readMarker (['\n', '\n'] ++ tail) := searchAll_append_of_read found
    _ = (n, body) :: searchAll readMarker tail := by rw [searchAll_append_of_skips trail]

end Marker

/-! ## All markers

The lines of poses have no marker and the lines of markers no pose, so neither search is led astray
by the part of the program that the other one reads.
-/

section Markers

variable {ν : Type} [Add ν] [Sub ν] [Mul ν] [Div ν] [Neg ν] [Scalar ν]

/-- A percentage and a marker are printed as a number and the body of a call. -/
def PrintsMarker (a : ν × Marker ν) (w : WrittenNumber × List Char) : Prop :=
  ∃ (percent : List Char) (count : Nat), amount a.1 1 = .ok percent ∧
    unitsHalfUp a.1 1 = .units count ∧ w.1 = ⟨lt a.1 0, count, 1⟩ ∧ Spells percent w.1 ∧
      w.2 = markerBody percent a.2.name.toList a.2.args.toList

/-- What a marker is printed as. -/
theorem printsMarker_of_markerLines {v : ν} (hv : unitsHalfUp v 1 ≠ .notANumber) {m : Marker ν}
    {ls : List (List Char)} (h : markerLines v m = .ok ls) : ∃ w, PrintsMarker (v, m) w := by
  obtain ⟨percent, hpercent, -⟩ := bind_eq_ok.mp h
  obtain ⟨none, -⟩ | ⟨count, units, spelled⟩ :=
    spells_amount 1 (by decide) (by decide) hpercent
  · exact absurd none hv
  · exact ⟨(_, _), percent, count, hpercent, units, rfl, spelled, rfl⟩

theorem markerLines_eq {v : ν} {m : Marker ν} {percent : List Char}
    (hpercent : amount v 1 = .ok percent) {ls : List (List Char)} (h : markerLines v m = .ok ls) :
    ls = ["    markers.add(new PathMarker(".toList ++ percent ++ ", () -> \x7b".toList,
      indent ++ telemetryLine percent m.name.toList, indent ++ "telemetry.update();".toList,
      indent ++ callLine m.name.toList m.args.toList, "    \x7d));".toList, []] := by
  rw [markerLines, hpercent, ok_bind, return_eq_ok] at h
  rw [← h]
  rw [indent_eq]
  simp [telemetryLine_eq, callLine]

theorem unlines_markerLines {v : ν} {m : Marker ν} {percent : List Char}
    (hpercent : amount v 1 = .ok percent) {ls : List (List Char)} (h : markerLines v m = .ok ls)
    (tail : List Char) :
    unlines ls ++ tail = "    markers.add".toList ++ '(' ::
      (markerMatch percent (markerBody percent m.name.toList m.args.toList)
        ++ '\n' :: '\n' :: tail) := by
  rw [markerLines_eq hpercent h]
  simp [markerMatch, markerBody]

theorem searchAll_markerLines {a : ν × Marker ν} {w : WrittenNumber × List Char}
    (hw : PrintsMarker a w) (hc : Findable a.2.name.toList a.2.args.toList)
    {ls : List (List Char)} (h : markerLines a.1 a.2 = .ok ls) (before : List Char)
    (hbefore : contains "PathMarker(".toList (before ++ "    markers.add(".toList) = false)
    (tail : List Char) :
    searchAll readMarker (before ++ (unlines ls ++ tail)) = w :: searchAll readMarker tail := by
  obtain ⟨n, body⟩ := w
  obtain ⟨percent, count, hpercent, -, -, spelled, hbody⟩ := hw
  obtain rfl : body = _ := hbody
  rw [unlines_markerLines hpercent h]
  exact searchAll_markerMatch spelled (readBody_markerBody spelled.subset hc) hbefore tail

theorem searchAll_markers {actions : List (ν × Marker ν)} {ws : List (WrittenNumber × List Char)}
    (hw : List.Forall₂ PrintsMarker actions ws)
    (hc : ∀ a ∈ actions, Findable a.2.name.toList a.2.args.toList) {blocks : List (List (List Char))}
    (h : actions.mapM (fun (percent, m) => markerLines percent m) = .ok blocks) (tail : List Char) :
    searchAll readMarker (unlines blocks.flatten ++ tail) = ws ++ searchAll readMarker tail := by
  induction hw generalizing blocks with
  | nil =>
    cases h
    rfl
  | @cons a w actions ws ha _ ih =>
    obtain ⟨block, more, hblock, hmore, rfl⟩ := mapM_cons_eq_ok.mp h
    have first := searchAll_markerLines ha (hc a (by simp)) hblock []
      contains_markerLead (unlines more.flatten ++ tail)
    rw [List.nil_append] at first
    rw [List.flatten_cons, unlines_append, List.append_assoc, first,
      ih (fun b hb => hc b (List.mem_cons_of_mem _ hb)) hmore, List.cons_append]

/-- The search finds the markers of the last part of a program in order, if no earlier part of it
has the word. -/
theorem searchAll_markerBlock {actions : List (ν × Marker ν)}
    {ws : List (WrittenNumber × List Char)} (hw : List.Forall₂ PrintsMarker actions ws)
    (hc : ∀ a ∈ actions, Findable a.2.name.toList a.2.args.toList) {ls : List (List Char)}
    (h : markerBlock actions = .ok ls) {before : List (List Char)}
    (hbefore : before.any (contains "PathMarker(".toList) = false) :
    searchAll readMarker (unlines (before ++ ls)) = ws := by
  cases hw with
  | nil =>
    cases h
    have word : "PathMarker".toList ++ ['('] = "PathMarker(".toList := by decide
    apply introducedBy_readMarker.searchAll_eq_nil
    rw [word, unlines_append, contains_unlines_append (by decide), hbefore]
    decide
  | @cons a w actions ws ha hrest =>
    rw [markerBlock, if_neg (by simp)] at h
    obtain ⟨blocks, hblocks, h⟩ := bind_eq_ok.mp h
    cases h
    obtain ⟨block, more, hblock, hmore, rfl⟩ := mapM_cons_eq_ok.mp hblocks
    let header := ["    List<PathMarker> markers = new ArrayList<>();".toList, []]
    let footer := ["    return markers;".toList, "\x7d".toList]
    have lead : contains "PathMarker(".toList
        (unlines (before ++ header) ++ "    markers.add(".toList) = false := by
      rw [contains_unlines_append (by decide), List.any_append, hbefore]
      decide
    have none : searchAll readMarker (unlines footer) = [] :=
      introducedBy_readMarker.searchAll_eq_nil (by decide)
    have first := searchAll_markerLines ha (hc a (by simp)) hblock _ lead
      (unlines more.flatten ++ unlines footer)
    have others := searchAll_markers hrest (fun b hb => hc b (List.mem_cons_of_mem _ hb)) hmore
      (unlines footer)
    rw [none, List.append_nil] at others
    rw [others] at first
    rw [← first]
    simp [header, footer]

theorem notMem_centimetres {v : ν} {text : List Char} (h : centimetres v = .ok text) : 'M' ∉ text := by
  obtain ⟨-, rfl⟩ | ⟨count, -, spelled⟩ := spells_amount 1 (by decide) (by decide) h
  · decide
  · exact fun hc => absurd (spelled.subset _ hc) (by decide)

theorem contains_poseLine {p : Pose ν} {line : List Char} (h : poseLine p = .ok line) :
    contains "PathMarker(".toList line = false := by
  obtain ⟨x, hx, rest⟩ := bind_eq_ok.mp h
  obtain ⟨y, hy, rest⟩ := bind_eq_ok.mp rest
  obtain ⟨heading, hh, -⟩ := bind_eq_ok.mp rest
  have inDegrees : 'M' ∉ integerText heading := fun hc =>
    absurd ((spells_integerText heading).subset _ hc) (by decide)
  rw [poseLine_eq hx hy hh h]
  apply contains_eq_false_of_not_mem (c := 'M') (by decide)
  simp [poseMatch, notMem_centimetres hx, notMem_centimetres hy, inDegrees]

theorem contains_poseLines {poses : List (Pose ν)} {ls : List (List Char)}
    (h : poses.mapM poseLine = .ok ls) : ls.any (contains "PathMarker(".toList) = false := by
  rw [List.any_eq_false]
  intro line hl
  obtain ⟨p, -, hp⟩ := forall_mem_of_mapM h line hl
  rw [contains_poseLine hp]
  exact Bool.false_ne_true

/-- In a printed program the search finds the printed markers, in order. -/
theorem searchAll_readMarker {l : Layout ν} {text : List Char} (h : print l = .ok text)
    (hc : ∀ a ∈ actionPercentages l, Findable a.2.name.toList a.2.args.toList)
    {ws : List (WrittenNumber × List Char)} (hw : List.Forall₂ PrintsMarker (actionPercentages l) ws) :
    searchAll readMarker text = ws := by
  obtain ⟨first, hfirst, h⟩ := bind_eq_ok.mp h
  obtain ⟨lines, hlines, h⟩ := bind_eq_ok.mp h
  obtain ⟨block, hblock, h⟩ := bind_eq_ok.mp h
  have mapped : (l.moves.map Move.pose).mapM poseLine = .ok lines := by
    rw [List.mapM_map]
    exact hlines
  have noMarker : (opening ++ first :: [] :: lines ++ middle).any (contains "PathMarker(".toList) =
      false := by
    rw [List.any_append, List.any_append, List.any_cons, List.any_cons, contains_poseLine hfirst,
      contains_poseLines mapped]
    decide
  rw [← return_eq_ok.mp h]
  exact searchAll_markerBlock hw hc hblock noMarker

/-- Around the name in the telemetry stand characters that the word does not have. -/
theorem contains_telemetryLine {percent name : List Char} (hp : ∀ c ∈ percent, c ∈ numberCharacters)
    (hn : contains "Pose2d".toList name = false) :
    contains "Pose2d".toList (indent ++ telemetryLine percent name) = false := by
  have noP : 'P' ∉ percent := fun h => absurd (hp _ h) (by decide)
  have lead : contains "Pose2d".toList (indent ++ ("telemetry".toList
      ++ (".addData(\"Marker\", \"".toList ++ (percent ++ "% -".toList)))) = false :=
    contains_eq_false_of_not_mem (c := 'P') (by decide) (by rw [indent_eq]; simp [noP])
  have shape : indent ++ telemetryLine percent name = (indent ++ ("telemetry".toList
      ++ (".addData(\"Marker\", \"".toList ++ (percent ++ "% -".toList))))
        ++ ' ' :: (name ++ '"' :: ");".toList) := by
    simp [telemetryLine_eq]
  rw [shape, contains_append_cons (by decide), contains_append_cons (by decide), lead, hn]
  decide

theorem contains_callLine {name args : List Char} (h : Callable name args) :
    contains "Pose2d".toList (indent ++ callLine name args) = false := by
  have shape : indent ++ callLine name args =
      "       ".toList ++ ' ' :: (name ++ '(' :: (args ++ ')' :: ";".toList)) := by
    rw [callLine, indent_eq]
    simp
  rw [shape, contains_append_cons (by decide), contains_append_cons (by decide),
    contains_append_cons (by decide), h.noPoseInName, h.noPoseInArgs]
  decide

theorem contains_markerLines {a : ν × Marker ν} {w : WrittenNumber × List Char}
    (hw : PrintsMarker a w) (hc : Callable a.2.name.toList a.2.args.toList)
    {ls : List (List Char)} (h : markerLines a.1 a.2 = .ok ls) :
    ls.any (contains "Pose2d".toList) = false := by
  obtain ⟨percent, count, hpercent, -, -, spelled, -⟩ := hw
  have noO : 'o' ∉ percent := fun h => absurd (spelled.subset _ h) (by decide)
  have opened : contains "Pose2d".toList
      ("    markers.add(new PathMarker(".toList ++ percent ++ ", () -> \x7b".toList) = false :=
    contains_eq_false_of_not_mem (c := 'o') (by decide) (by simp [noO])
  have telemetry := contains_telemetryLine spelled.subset hc.noPoseInName
  have call := contains_callLine hc
  rw [markerLines_eq hpercent h]
  simp only [List.any_cons, opened, telemetry, call]
  decide

theorem contains_blocks {actions : List (ν × Marker ν)} {ws : List (WrittenNumber × List Char)}
    (hw : List.Forall₂ PrintsMarker actions ws)
    (hc : ∀ a ∈ actions, Callable a.2.name.toList a.2.args.toList) {blocks : List (List (List Char))}
    (h : actions.mapM (fun (percent, m) => markerLines percent m) = .ok blocks) :
    blocks.flatten.any (contains "Pose2d".toList) = false := by
  induction hw generalizing blocks with
  | nil =>
    cases h
    rfl
  | cons ha _ ih =>
    obtain ⟨block, more, hblock, hmore, rfl⟩ := mapM_cons_eq_ok.mp h
    rw [List.flatten_cons, List.any_append, contains_markerLines ha (hc _ (by simp)) hblock,
      ih (fun b hb => hc b (List.mem_cons_of_mem _ hb)) hmore, Bool.or_self]

theorem contains_markerBlock {actions : List (ν × Marker ν)} {ws : List (WrittenNumber × List Char)}
    (hw : List.Forall₂ PrintsMarker actions ws)
    (hc : ∀ a ∈ actions, Callable a.2.name.toList a.2.args.toList) {ls : List (List Char)}
    (h : markerBlock actions = .ok ls) : ls.any (contains "Pose2d".toList) = false := by
  cases actions with
  | nil =>
    cases h
    decide
  | cons a actions =>
    rw [markerBlock, if_neg (by simp)] at h
    obtain ⟨blocks, hblocks, h⟩ := bind_eq_ok.mp h
    cases h
    rw [List.any_append, List.any_cons, List.any_cons, contains_blocks hw hc hblocks]
    decide

end Markers

end PathStudio.Program.Field
