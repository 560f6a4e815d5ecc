import PathStudio.Json.Writable
import PathStudio.Text.Line
import PathStudio.Text.Utf8
import PathStudio.Proofs.Text.Digits

/-!
# Written JSON text

Whatever a value holds, its text consists of the printable characters of ASCII
and line feeds. So a file can hold the text, and reading the file does not take
its line ends for others.
-/

namespace PathStudio

open Text

/-- A character of written JSON text. -/
def IsWritten (c : Char) : Prop := c = '\n' ∨ 32 ≤ c.toNat ∧ c.toNat ≤ 126

instance (c : Char) : Decidable (IsWritten c) :=
  inferInstanceAs (Decidable (c = '\n' ∨ 32 ≤ c.toNat ∧ c.toNat ≤ 126))

/-- A text of written characters. -/
def Written (s : List Char) : Prop := ∀ c ∈ s, IsWritten c

instance (s : List Char) : Decidable (Written s) := List.decidableBAll _ s

namespace Written

variable {s t : List Char} {c : Char}

@[simp] theorem nil : Written [] := by simp [Written]

@[simp] theorem cons : Written (c :: s) ↔ IsWritten c ∧ Written s := List.forall_mem_cons

@[simp] theorem append : Written (s ++ t) ↔ Written s ∧ Written t := List.forall_mem_append

theorem mono (h : Written t) (sub : s ⊆ t) : Written s := fun c hc => h c (sub hc)

theorem replicate (n : Nat) (h : IsWritten c) : Written (List.replicate n c) := by
  intro d hd
  rwa [List.eq_of_mem_replicate hd]

end Written

namespace Text

theorem written_digitsOf (n : Nat) : Written (digitsOf n) :=
  have digits : Written latinDigits := by decide
  digits.mono (digitsOf_subset n)

theorem written_integerText (n : Int) : Written (integerText n) := by
  rw [integerText]
  split
  · exact Written.cons.mpr ⟨by decide, written_digitsOf _⟩
  · exact written_digitsOf _

theorem isWritten_hexDigit {n : Nat} (h : n < 16) : IsWritten (hexDigit n) := by
  revert n
  decide

theorem written_hexDigits (width n : Nat) : Written (hexDigits width n) := by
  induction width generalizing n with
  | zero => exact .nil
  | succ width ih =>
    rw [hexDigits, Written.append]
    exact ⟨ih _, Written.cons.mpr ⟨isWritten_hexDigit (Nat.mod_lt _ (by omega)), .nil⟩⟩

theorem written_place {digits : List Char} (h : Written digits) (power : Int) :
    Written (Decimal.place digits power) := by
  have zero : IsWritten '0' := by decide
  have point : IsWritten '.' := by decide
  have mark : IsWritten 'e' := by decide
  have sign (negative : Bool) : IsWritten (if negative then '-' else '+') := by
    cases negative <;> decide
  unfold Decimal.place
  dsimp only
  split
  · split
    · have padded : Written (digits ++ List.replicate power.toNat '0') :=
        Written.append.mpr ⟨h, .replicate _ zero⟩
      refine Written.append.mpr ⟨padded.mono (List.take_subset _ _), Written.cons.mpr ⟨point, ?_⟩⟩
      split
      · exact Written.cons.mpr ⟨zero, .nil⟩
      · exact padded.mono (List.drop_subset _ _)
    · exact Written.cons.mpr ⟨zero, Written.cons.mpr ⟨point,
        Written.append.mpr ⟨.replicate _ zero, h⟩⟩⟩
  · refine Written.append.mpr ⟨?_, Written.cons.mpr ⟨mark, Written.cons.mpr ⟨?_, ?_⟩⟩⟩
    · split
      · exact .nil
      · exact h
      · obtain ⟨first, rest⟩ := Written.cons.mp h
        exact Written.cons.mpr ⟨first, Written.cons.mpr ⟨point, rest⟩⟩
    · split <;> decide
    · split
      · exact Written.cons.mpr ⟨zero, written_digitsOf _⟩
      · exact written_digitsOf _

theorem written_real (x : Float) : Written (Decimal.real x) := by
  rw [Decimal.real]
  split
  · decide
  · split <;> decide
  · have body (negative : Bool) {s : List Char} (h : Written s) :
        Written (if negative then '-' :: s else s) := by
      cases negative with
      | false => exact h
      | true => exact Written.cons.mpr ⟨by decide, h⟩
    apply body
    split
    · decide
    · exact written_place (written_digitsOf _) _

theorem normalizeLineEnds_of_not_mem {s : List Char} (h : '\r' ∉ s) : normalizeLineEnds s = s := by
  induction s with
  | nil => rfl
  | cons c rest ih =>
    obtain ⟨other, later⟩ := not_or.mp (List.mem_cons.not.mp h)
    rw [normalizeLineEnds]
    · rw [ih later]
    · rintro _ rfl
      exact absurd rfl other
    · rintro rfl
      exact absurd rfl other

theorem surrogateRun?_eq_none {allowed : Nat → Bool} {s : List Char}
    (h : ∀ c ∈ s, surrogate? c = none) (first : Nat) : surrogateRun? allowed first s = none := by
  induction s generalizing first with
  | nil => rfl
  | cons c rest ih =>
    obtain ⟨none, later⟩ := List.forall_mem_cons.mp h
    rw [surrogateRun?, none]
    exact ih later (first + 1)

end Text

namespace Written

variable {s : List Char}

/-- Nothing keeps a file from holding a written text. -/
theorem unencodable? (h : Written s) (allowed : Nat → Bool) :
    Utf8.unencodable? allowed s = none := by
  have plain : ∀ c ∈ s, surrogate? c = none := by
    intro c hc
    have small : c.toNat ≤ 126 := by
      obtain rfl | ⟨-, small⟩ := h c hc
      · decide
      · exact small
    exact if_neg (by simp; omega)
  rw [Utf8.unencodable?, surrogateRun?_eq_none plain]
  rfl

/-- A written text is read from a file as it is. -/
theorem normalizeLineEnds (h : Written s) : Text.normalizeLineEnds s = s :=
  normalizeLineEnds_of_not_mem fun hc => absurd (h _ hc) (by decide)

end Written

namespace Json

theorem written_unitEscape (n : Nat) : Written (unitEscape n) :=
  Written.cons.mpr ⟨by decide, Written.cons.mpr ⟨by decide, written_hexDigits 4 n⟩⟩

theorem written_writeChar (c : Char) : Written (writeChar c) := by
  rw [writeChar]
  split_ifs with _ _ _ _ _ _ _ printable
  all_goals try decide
  · exact Written.cons.mpr ⟨.inr printable, .nil⟩
  · exact written_unitEscape _
  · split
    · exact written_unitEscape _
    · exact Written.append.mpr ⟨written_unitEscape _, written_unitEscape _⟩

theorem written_writeText (s : String) : Written (writeText s) := by
  refine Written.cons.mpr ⟨by decide, Written.append.mpr ⟨?_, by decide⟩⟩
  intro c hc
  obtain ⟨d, -, hc⟩ := List.mem_flatMap.mp hc
  exact written_writeChar d c hc

theorem written_writeReal (x : Float) : Written (writeReal x) := by
  rw [writeReal]
  split_ifs
  · decide
  · decide
  · decide
  · exact written_real x

theorem written_lineBreak (layout : Layout) (depth : Nat) : Written (layout.lineBreak depth) := by
  cases layout with
  | oneLine => exact .nil
  | indented step => exact Written.cons.mpr ⟨by decide, .replicate _ (by decide)⟩

theorem written_colon (layout : Layout) : Written layout.colon := by
  cases layout with
  | oneLine => exact (by decide : Written [':'])
  | indented step => exact (by decide : Written [':', ' '])

variable (layout : Layout)

mutual

theorem written_writeAt (depth : Nat) (value : Json) : Written (writeAt layout depth value) := by
  have breaks := written_lineBreak layout
  match value with
  | .null | .bool true | .bool false =>
    simp only [writeAt]
    decide
  | .int n => exact written_integerText n
  | .real x => exact written_writeReal x
  | .str s => exact written_writeText s
  | .arr [] | .obj [] =>
    simp only [writeAt]
    decide
  | .arr (v :: rest) =>
    have items := written_writeItems (depth + 1) (v :: rest)
    simp only [writeAt, Written.cons, Written.append]
    exact ⟨by decide, ⟨⟨breaks _, items⟩, breaks _⟩, by decide, .nil⟩
  | .obj (m :: rest) =>
    have members := written_writeMembers (depth + 1) (m :: rest)
    simp only [writeAt, Written.cons, Written.append]
    exact ⟨by decide, ⟨⟨breaks _, members⟩, breaks _⟩, by decide, .nil⟩

theorem written_writeItems (depth : Nat) (items : List Json) :
    Written (writeItems layout depth items) := by
  match items with
  | [] => exact .nil
  | [v] => exact written_writeAt depth v
  | v :: w :: rest =>
    have first := written_writeAt depth v
    have others := written_writeItems depth (w :: rest)
    simp only [writeItems, Written.cons, Written.append]
    exact ⟨first, by decide, written_lineBreak layout depth, others⟩

theorem written_writeMembers (depth : Nat) (members : List (String × Json)) :
    Written (writeMembers layout depth members) := by
  match members with
  | [] => exact .nil
  | [(key, v)] =>
    have value := written_writeAt depth v
    simp only [writeMembers, Written.append]
    exact ⟨⟨written_writeText key, written_colon layout⟩, value⟩
  | (key, v) :: m :: rest =>
    have value := written_writeAt depth v
    have others := written_writeMembers depth (m :: rest)
    simp only [writeMembers, Written.cons, Written.append]
    exact ⟨⟨⟨written_writeText key, written_colon layout⟩, value⟩, by decide,
      written_lineBreak layout depth, others⟩

end

theorem written_write (value : Json) : Written (value.write layout).toList := by
  rw [write, String.toList_ofList]
  exact written_writeAt layout 0 value

end Json

end PathStudio
