import PathStudio.Proofs.Text.Scanning
import PathStudio.Program.Lexeme
import Mathlib.Data.List.TakeDrop

/-!
# Calls

A line that calls a name with arguments between parentheses reads back as the
name and the arguments, whatever the arguments are.
-/

namespace PathStudio.Program

open Text

/-- Whether a text can be the name of a call: a letter or an underscore, then word characters. -/
def isIdentifier : List Char → Bool
  | [] => false
  | c :: rest => isNameStart c && rest.all isWord

/-- The line that calls a name. -/
def callLine (name args : List Char) : List Char := name ++ '(' :: (args ++ ");".toList)

/-- The blanks and the word characters have no character in common. -/
theorem not_isBlank_of_isWord {c : Char} (h : isWord c = true) : isBlank c = false := by
  by_contra hne
  rw [Bool.not_eq_false] at hne
  simp only [isBlank, Bool.or_eq_true, Bool.and_eq_true, decide_eq_true_eq, beq_iff_eq] at hne
  have cases : c.toNat ∈ [9, 10, 11, 12, 13, 28, 29, 30, 31, 32, 0x85, 0xA0, 0x1680, 0x2000, 0x2001,
      0x2002, 0x2003, 0x2004, 0x2005, 0x2006, 0x2007, 0x2008, 0x2009, 0x200A, 0x2028, 0x2029, 0x202F,
      0x205F, 0x3000] := by
    simp only [List.mem_cons, List.not_mem_nil, or_false]
    omega
  have plain : ∀ n ∈ [9, 10, 11, 12, 13, 28, 29, 30, 31, 32, 0x85, 0xA0, 0x1680, 0x2000, 0x2001,
      0x2002, 0x2003, 0x2004, 0x2005, 0x2006, 0x2007, 0x2008, 0x2009, 0x200A, 0x2028, 0x2029, 0x202F,
      0x205F, 0x3000],
      (if n < 128 then (65 ≤ n && n ≤ 90 || 97 ≤ n && n ≤ 122 || n == 95) || (48 ≤ n && n ≤ 57)
        else inSpans foreignWordSpans n) = false := by
    decide +kernel
  rw [isWord] at h
  exact absurd ((plain _ cases).symm.trans h) (by decide)

theorem isBlank_of_isLineEnd {c : Char} (h : isLineEnd c = true) : isBlank c = true := by
  simp only [isLineEnd, isBlank, Bool.or_eq_true, Bool.and_eq_true, decide_eq_true_eq, beq_iff_eq] at *
  omega

theorem isLineEnd_of_isWord {c : Char} (h : isWord c = true) : isLineEnd c = false := by
  by_contra hne
  rw [Bool.not_eq_false] at hne
  exact absurd ((not_isBlank_of_isWord h).symm.trans (isBlank_of_isLineEnd hne)) (by decide)

theorem not_isBlank_of_isNameStart {c : Char} (h : isNameStart c = true) : isBlank c = false :=
  not_isBlank_of_isWord (isWord_of_isNameStart c h)

theorem callArguments?_append (args : List Char) :
    callArguments? (args ++ ");".toList) = some args := by
  induction args with
  | nil => decide
  | cons c args ih => rw [List.cons_append, callArguments?, ih]

/-- Without a closing parenthesis there are no arguments. -/
theorem callArguments?_eq_none {s : List Char} (h : ')' ∉ s) : callArguments? s = none := by
  induction s with
  | nil => rfl
  | cons c s ih =>
    obtain ⟨hc, h⟩ := not_or.mp (mt List.mem_cons.mpr h)
    rw [callArguments?, ih h]
    simp [Ne.symm hc]

theorem exists_of_isIdentifier {name : List Char} (h : isIdentifier name = true) :
    ∃ c rest, name = c :: rest ∧ isNameStart c = true ∧ ∀ d ∈ rest, isWord d = true := by
  cases name with
  | nil => cases h
  | cons c rest =>
    rw [isIdentifier, Bool.and_eq_true, List.all_eq_true] at h
    exact ⟨c, rest, rfl, h⟩

theorem isWord_of_isIdentifier {name : List Char} (h : isIdentifier name = true) :
    ∀ c ∈ name, isWord c = true := by
  obtain ⟨c, rest, rfl, hc, hrest⟩ := exists_of_isIdentifier h
  intro d hd
  obtain rfl | hd := List.mem_cons.mp hd
  · exact isWord_of_isNameStart _ hc
  · exact hrest d hd

theorem plain_of_isIdentifier {name : List Char} (h : isIdentifier name = true) :
    name.any isLineEnd = false := by
  rw [List.any_eq_false]
  intro c hc
  simp [isLineEnd_of_isWord (isWord_of_isIdentifier h c hc)]

theorem trim_callLine {name : List Char} (h : isIdentifier name = true) (args : List Char) :
    trim (callLine name args) = callLine name args := by
  have last : (callLine name args).getLast? = some ';' := by
    have shape : callLine name args = (name ++ '(' :: args ++ [')']) ++ [';'] := by
      simp [callLine]
    rw [shape, List.getLast?_concat]
  obtain ⟨c, rest, rfl, hc, -⟩ := exists_of_isIdentifier h
  exact trim_of_ends rfl last (not_isBlank_of_isNameStart hc) (by decide)

/-- A line that begins with a name and a parenthesis is read as what stands in the parentheses. -/
theorem readCall?_append {name : List Char} (h : isIdentifier name = true) (rest : List Char) :
    readCall? (name ++ '(' :: rest) = (callArguments? rest).map fun args => (name, args) := by
  obtain ⟨c, name, rfl, hc, hname⟩ := exists_of_isIdentifier h
  have parenthesis : isWord '(' = false := by decide
  have plain : isBlank '(' = false := by decide
  have span : (name ++ '(' :: rest).span isWord = (name, '(' :: rest) := by
    rw [List.span_eq_takeWhile_dropWhile, List.takeWhile_append_of_pos hname,
      List.dropWhile_append_of_pos hname]
    simp [parenthesis]
  rw [List.cons_append, readCall?, skipBlanks_cons (not_isBlank_of_isNameStart hc)]
  simp only [hc, if_true, span, skipBlanks_cons plain, after?_singleton, Option.bind_eq_bind,
    Option.bind_some]
  cases callArguments? rest <;> rfl

/-- A line that calls a name is read as that name and all that stands in the parentheses. -/
theorem readCall?_callLine {name : List Char} (h : isIdentifier name = true) (args : List Char) :
    readCall? (callLine name args) = some (name, args) := by
  rw [callLine, readCall?_append h, callArguments?_append, Option.map_some]

end PathStudio.Program
