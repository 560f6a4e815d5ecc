import PathStudio.Text.Character

/-!
# Scanning

A reader looks at the front of a text and answers with a value and the rest, or
with nothing. This module has the readers for fixed words and blanks, and the
two ways to look for a reader's first match further on: `search` for one match,
`searchAll` for all matches that do not overlap.
-/

namespace PathStudio.Text

/-- A reader of the front of a text. -/
abbrev Reader (α : Type) := List Char → Option (α × List Char)

/-- The text after a word that it starts with. -/
def after? : (word : List Char) → List Char → Option (List Char)
  | [], s => some s
  | _ :: _, [] => none
  | w :: word, c :: rest => if w = c then after? word rest else none

/-- Whether a text starts with a word. -/
def startsWith (word s : List Char) : Bool := (after? word s).isSome

/-- Whether a word occurs in a text. -/
def contains (word : List Char) : List Char → Bool
  | [] => word.isEmpty
  | c :: rest => startsWith word (c :: rest) || contains word rest

/-- The text after its leading blanks. -/
abbrev skipBlanks (s : List Char) : List Char := trimStart s

/-- The text after one blank or more. -/
def afterBlanks? : List Char → Option (List Char)
  | c :: rest => if isBlank c then some (skipBlanks rest) else none
  | [] => none

/-- The value of the first match of a reader that also sees the character before it. -/
def search {α : Type} (read : Option Char → Reader α) : Option Char → List Char → Option α
  | _, [] => none
  | before, c :: rest =>
    match read before (c :: rest) with
    | some (a, _) => some a
    | none => search read (some c) rest

/-- Matches from left to right. After a match the characters it took are passed over. -/
def searchAllFrom {α : Type} (read : Reader α) : (taken : Nat) → List Char → List α
  | _, [] => []
  | taken + 1, _ :: rest => searchAllFrom read taken rest
  | 0, c :: rest =>
    match read (c :: rest) with
    | some (a, remaining) => a :: searchAllFrom read (rest.length - remaining.length) rest
    | none => searchAllFrom read 0 rest

/-- All matches of a reader, none overlapping another, from left to right. -/
def searchAll {α : Type} (read : Reader α) (s : List Char) : List α := searchAllFrom read 0 s

@[simp] theorem after?_append (word rest : List Char) : after? word (word ++ rest) = some rest := by
  induction word with
  | nil => rfl
  | cons c word ih => simp [after?, ih]

theorem eq_append_of_after? {word s rest : List Char} (h : after? word s = some rest) :
    s = word ++ rest := by
  induction word generalizing s with
  | nil => simpa [after?] using h
  | cons w word ih =>
    cases s with
    | nil => simp [after?] at h
    | cons c s =>
      by_cases hc : w = c
      · simp [after?, hc] at h
        simp [hc, ih h]
      · simp [after?, hc] at h

end PathStudio.Text
