import PathStudio.Proofs.Program.Robot.Trail
import PathStudio.Scalar.Double
import Mathlib.Logic.Relation

/-!
# The spacing of a robot-oriented program

Blank lines, blanks at the ends of lines and comment lines outside the arcs mean
nothing. Whether an arc is open behind some lines can be told from the lines
alone, and the reader agrees: this is the invariant that carries a comment line
past the lines before it.
-/

namespace PathStudio.Program.Robot

open Text

/-! ## Arcs as they stand in the lines -/

/-- Whether a line begins an arc that goes on over the lines that follow. -/
def opensArc (line : List Char) : Bool :=
  match Command.ofLine line with
  | .arc _ _ => !closesArc line
  | _ => false

/-- Whether an arc is open behind a line, where it is known whether one is before it. A blank line
changes nothing, and an open arc goes on to the first line that closes it. -/
def arcOpenBehind (isOpen : Bool) (line : List Char) : Bool :=
  if (trim line).isEmpty then isOpen
  else if isOpen then !closesArc (trim line)
  else opensArc (trim line)

/-- Whether an arc is open behind the first lines of a program. -/
def arcOpenAfter (lines : List (List Char)) : Bool := lines.foldl arcOpenBehind false

/-- One change of the spacing of a program: a line gets other blanks at its ends, a blank line is put
in anywhere, or a comment line is put in where no arc is open. -/
inductive Respaced : List (List Char) → List (List Char) → Prop
  | margins (before after : List (List Char)) {line line' : List Char} :
    trim line = trim line' → Respaced (before ++ line :: after) (before ++ line' :: after)
  | blank (before after : List (List Char)) {line : List Char} :
    trim line = [] → Respaced (before ++ after) (before ++ line :: after)
  | comment (before after : List (List Char)) {line : List Char} :
    startsWith "//".toList (trim line) = true → arcOpenAfter before = false →
      Respaced (before ++ after) (before ++ line :: after)

variable {ν : Type} [Add ν] [Sub ν] [Mul ν] [Div ν] [Neg ν] [Scalar ν]

namespace Trail

variable {t t' : Trail ν}

/-! ## The reader has an arc open where the lines have one -/

/-- Adding a line to an arc leaves it open unless the line closes it. -/
theorem isSome_pending_extendArc {a : OpenArc} {line : List Char}
    (h : t.extendArc a line = .ok t') : t'.pending.isSome = !closesArc line := by
  rw [extendArc] at h
  cases closes : closesArc line with
  | true =>
    rw [closes, if_pos rfl] at h
    obtain ⟨p, -, h⟩ := bind_eq_ok.mp h
    cases h
    rfl
  | false =>
    rw [closes, if_neg (by decide)] at h
    cases h
    rfl

theorem isSome_pending_run {line : List Char} (none : t.pending = none)
    (h : t.run line (.ofLine line) = .ok t') : t'.pending.isSome = opensArc line := by
  rw [opensArc]
  cases understood : Command.ofLine line with
  | turn | nothing =>
    rw [understood] at h
    cases h
    rw [none]
    rfl
  | travel kind length degrees =>
    rw [understood] at h
    obtain ⟨p, -, h⟩ := bind_eq_ok.mp h
    cases h
    exact congrArg Option.isSome none
  | arc length speed =>
    rw [understood] at h
    exact isSome_pending_extendArc h
  | call name args =>
    rw [understood] at h
    cases h
    exact congrArg Option.isSome none

theorem isSome_pending_readLine {line : List Char} (h : t.readLine line = .ok t') :
    t'.pending.isSome = if t.pending.isSome then !closesArc line else opensArc line := by
  rw [readLine] at h
  cases pending : t.pending with
  | none =>
    rw [pending] at h
    exact isSome_pending_run pending h
  | some a =>
    rw [pending] at h
    exact isSome_pending_extendArc h

theorem isSome_pending_readLines {lines : List (List Char)} (h : t.readLines lines = .ok t') :
    t'.pending.isSome = lines.foldl arcOpenBehind t.pending.isSome := by
  induction lines generalizing t with
  | nil =>
    cases h
    rfl
  | cons line lines ih =>
    rw [List.foldl_cons, arcOpenBehind]
    by_cases blank : trim line = []
    · rw [readLines_of_trim_eq_nil blank] at h
      rw [ih h, if_pos (List.isEmpty_iff.mpr blank)]
    · rw [readLines_cons blank] at h
      obtain ⟨next, first, rest⟩ := bind_eq_ok.mp h
      rw [ih rest, isSome_pending_readLine first, if_neg (mt List.isEmpty_iff.mp blank)]

/-- Behind lines with no arc open the reader has none open either. -/
theorem pending_readLines_eq_none (none : t.pending = none) {lines : List (List Char)}
    (outside : arcOpenAfter lines = false) (h : t.readLines lines = .ok t') :
    t'.pending = .none := by
  rw [← Option.isNone_iff_eq_none, ← Option.isSome_eq_false_iff, isSome_pending_readLines h, none]
  exact outside

/-! ## Spacing does not matter -/

/-- A comment line is passed over where no arc is open. -/
theorem readLines_comment (none : t.pending = none) {line : List Char}
    (h : startsWith "//".toList (trim line) = true) (ls : List (List Char)) :
    t.readLines (line :: ls) = t.readLines ls :=
  readLines_idle none (.inr (ofLine_comment h)) ls

/-- Lines that are read alike from wherever those before them lead to are read alike behind them. -/
theorem readLines_append_congr {before a b : List (List Char)}
    (h : ∀ t', t.readLines before = .ok t' → t'.readLines a = t'.readLines b) :
    t.readLines (before ++ a) = t.readLines (before ++ b) := by
  rw [readLines_append, readLines_append]
  cases run : t.readLines before with
  | error fault => rfl
  | ok t' => exact h t' run

/-- One change of the spacing is not seen by a reader that has no arc open. -/
theorem readLines_respaced (none : t.pending = none) {lines lines' : List (List Char)}
    (h : Respaced lines lines') : t.readLines lines = t.readLines lines' := by
  cases h with
  | margins before after same =>
    apply readLines_append_congr
    intro t' _
    simp [readLines, same]
  | blank before after empty =>
    apply readLines_append_congr
    intro t' _
    exact (readLines_of_trim_eq_nil empty after).symm
  | comment before after slashes outside =>
    apply readLines_append_congr
    intro t' run
    exact (readLines_comment (pending_readLines_eq_none none outside run) slashes after).symm

/-- Nor is any number of changes, made or taken back. -/
theorem readLines_of_eqvGen (none : t.pending = none) {lines lines' : List (List Char)}
    (h : Relation.EqvGen Respaced lines lines') : t.readLines lines = t.readLines lines' := by
  induction h with
  | rel _ _ step => exact readLines_respaced none step
  | refl _ => rfl
  | symm _ _ _ ih => exact ih.symm
  | trans _ _ _ _ _ ih ih' => exact ih.trans ih'

end Trail

/-- However the spacing of a program is changed, it is read as the same path or refused for the same
cause: blank lines may come and go anywhere, blanks at the ends of any line, and comment lines
wherever no arc is open. -/
theorem read_ignores_spacing {text text' : List Char}
    (h : Relation.EqvGen Respaced (splitLines text) (splitLines text')) (prior : Session ν) :
    read text prior = read text' prior := by
  have same := Trail.readLines_of_eqvGen (t := Trail.start prior) rfl h
  rw [Trail.read_eq_conclude, Trail.read_eq_conclude, Trail.conclude, Trail.conclude, same]

/-- An arc over two lines and a call. -/
def denseArc : List Char := "arc(1.0, 0.8, t\n);\nlift();".toList

/-- The same arc with carriage returns, a blank line before it is closed, and a comment behind it. -/
def spacedArc : List Char := "arc(1.0, 0.8, t\r\n \r\n    );\r\n// up\r\nlift();".toList

theorem read_ignores_spacing_denseArc :
    Relation.EqvGen Respaced (splitLines denseArc) (splitLines spacedArc) ∧
      read denseArc (Session.empty : Session Float) = read spacedArc Session.empty := by
  have dense : splitLines denseArc =
      ["arc(1.0, 0.8, t".toList, ");".toList, "lift();".toList] := by decide
  have spaced : splitLines spacedArc = ["arc(1.0, 0.8, t\r".toList, " \r".toList, "    );\r".toList,
      "// up\r".toList, "lift();".toList] := by decide
  have openingEnd : Respaced (splitLines denseArc)
      ["arc(1.0, 0.8, t\r".toList, ");".toList, "lift();".toList] := by
    rw [dense]
    exact .margins [] _ (by decide)
  have closingEnds : Respaced ["arc(1.0, 0.8, t\r".toList, ");".toList, "lift();".toList]
      ["arc(1.0, 0.8, t\r".toList, "    );\r".toList, "lift();".toList] :=
    .margins [_] _ (by decide)
  have gap : Respaced ["arc(1.0, 0.8, t\r".toList, "    );\r".toList, "lift();".toList]
      ["arc(1.0, 0.8, t\r".toList, " \r".toList, "    );\r".toList, "lift();".toList] :=
    .blank [_] _ (by decide)
  have remark : Respaced
      ["arc(1.0, 0.8, t\r".toList, " \r".toList, "    );\r".toList, "lift();".toList]
      (splitLines spacedArc) := by
    rw [spaced]
    exact .comment [_, _, _] _ (by decide) (by decide)
  have respaced : Relation.EqvGen Respaced (splitLines denseArc) (splitLines spacedArc) :=
    .trans _ _ _ (.rel _ _ openingEnd) <| .trans _ _ _ (.rel _ _ closingEnds) <|
      .trans _ _ _ (.rel _ _ gap) (.rel _ _ remark)
  exact ⟨respaced, read_ignores_spacing respaced Session.empty⟩

end PathStudio.Program.Robot
