import PathStudio.Settings.Option
import PathStudio.Proofs.Outcome
import PathStudio.Proofs.Scalar.NotANumber

/-!
# What options accept

Any value can be offered for an option. What is accepted is stored as a value of
the option's own kind, whatever it was offered as, and so are the defaults.
-/

namespace PathStudio

namespace Double

open Binary Float.Model

theorem ofFloat_ne_notANumber_of_lt {x y : Float} (h : x < y) : ofFloat y ≠ .notANumber := by
  intro other
  have compared := decide_lt_eq x y
  rw [decide_eq_true h, other] at compared
  generalize unpacked (ofFloat x) = u at compared
  cases u with
  | notANumber => cases compared
  | zero s | infinity s | finite s => cases s <;> cases compared

theorem isFinite_of_not_isInf {x : Float} (number : ofFloat x ≠ .notANumber) (h : x.isInf = false) :
    x.isFinite = true := by
  rw [isInf_eq] at h
  rw [isFinite_eq]
  have unpacked_number := unpacked_ne_notANumber number
  generalize unpacked (ofFloat x) = u at h unpacked_number
  cases u with
  | notANumber => exact absurd rfl unpacked_number
  | infinity s => cases h
  | zero s | finite s => rfl

end Double

namespace Settings

/-- The values that an option may have, by what it accepts. -/
def Check.Admits : Check → Json → Prop
  | .mode, value => ∃ d : Dialect, value = .str d.name
  | .countFromTwo, value => ∃ n : Int, value = .int n ∧ 2 ≤ n
  | .positive, value => (∃ n : Int, value = .int n ∧ 0 < n) ∨
      ∃ x : Float, value = .real x ∧ 0.0 < x ∧ x.isFinite = true
  | .fraction, value => ∃ x : Float, value = .real x ∧ 0.0 < x ∧ x ≤ 1.0

theorem checkPositive_eq_ok {raw : Json} {x : Float} (h : checkPositive raw = .ok x) :
    0.0 < x ∧ x.isFinite = true := by
  rw [checkPositive] at h
  split at h
  · cases h
  next numeral _ =>
    dsimp only at h
    split at h
    · cases h
    next bounds =>
      cases h
      simp only [Bool.or_eq_true, Bool.not_eq_true', decide_eq_false_iff_not, not_or, not_not,
        Bool.not_eq_true] at bounds
      exact ⟨bounds.1, Double.isFinite_of_not_isInf (Double.ofFloat_ne_notANumber_of_lt bounds.1) bounds.2⟩

theorem checkFraction_eq_ok {raw : Json} {x : Float} (h : checkFraction raw = .ok x) :
    0.0 < x ∧ x ≤ 1.0 := by
  cases positive : checkPositive raw with
  | error cause =>
    simp only [checkFraction, positive] at h
    cases h
  | ok y =>
    have bounds := checkPositive_eq_ok positive
    have number : Binary.ofFloat y ≠ .notANumber := Double.ofFloat_ne_notANumber_of_lt bounds.1
    have one : Binary.ofFloat 1.0 ≠ .notANumber := by decide
    by_cases above : 1.0 < y
    · simp only [checkFraction, positive, bind, Except.bind, if_pos above] at h
      cases h
    · simp only [checkFraction, positive, bind, Except.bind, if_neg above] at h
      cases h
      exact ⟨bounds.1, Double.le_of_not_lt one number above⟩

/-- Only admitted values are accepted. -/
theorem Check.admits_of_accept {check : Check} {raw value : Json} (h : check.accept raw = .ok value) :
    check.Admits value := by
  cases check with
  | mode =>
    simp only [accept, checkMode] at h
    split at h
    next d _ =>
      cases h
      exact ⟨d, rfl⟩
    next => cases h
  | countFromTwo =>
    simp only [accept, checkCount] at h
    split at h
    next => cases h
    next n _ =>
      split at h
      next => cases h
      next large =>
        cases h
        exact ⟨n, rfl, Int.not_lt.mp large⟩
  | positive =>
    cases found : checkPositive raw with
    | error cause =>
      simp only [accept, found, Except.map] at h
      cases h
    | ok x =>
      simp only [accept, found, Except.map] at h
      cases h
      exact .inr ⟨x, rfl, checkPositive_eq_ok found⟩
  | fraction =>
    cases found : checkFraction raw with
    | error cause =>
      simp only [accept, found, Except.map] at h
      cases h
    | ok x =>
      simp only [accept, found, Except.map] at h
      cases h
      exact ⟨x, rfl, checkFraction_eq_ok found⟩

/-- Every default is a value that its option may have. -/
theorem admits_default : ∀ s ∈ specs, s.check.Admits s.default := by
  have real {x : Float} (h : 0.0 < x ∧ x.isFinite = true) : Check.positive.Admits (.real x) :=
    .inr ⟨x, rfl, h⟩
  simp only [specs, List.forall_mem_cons]
  refine ⟨⟨.robot, rfl⟩, ⟨5, rfl, by decide⟩, ⟨0.8, rfl, by decide⟩, real (by decide),
    .inl ⟨16, rfl, by decide⟩, real (by decide), real (by decide),
    real (by decide), by simp⟩

end Settings

end PathStudio
