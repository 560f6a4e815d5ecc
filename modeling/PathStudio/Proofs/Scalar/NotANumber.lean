import PathStudio.Proofs.Scalar.Comparison

/-!
# What is not a number

Arithmetic on what is not a number gives what is not a number, which has no whole
part. Two doubles that are numbers can be compared.
-/

namespace PathStudio.Double

open Binary Float.Model Float.Model.UnpackedFloat

theorem ofFloat_pack_notANumber :
    ofFloat (.ofModel (Float.Model.pack UnpackedFloat.notANumber)) = .notANumber := by decide

section Arithmetic

variable {x : Float} (h : ofFloat x = .notANumber) (y : Float)

include h

theorem ofFloat_add_notANumber : ofFloat (x + y) = .notANumber := by
  rw [add_eq, h]
  exact ofFloat_pack_notANumber

theorem ofFloat_mul_notANumber : ofFloat (x * y) = .notANumber := by
  rw [mul_eq, h]
  exact ofFloat_pack_notANumber

theorem ofFloat_div_notANumber : ofFloat (x / y) = .notANumber := by
  rw [div_eq, h]
  exact ofFloat_pack_notANumber

theorem floor_notANumber : floor x = .error .undefinedInteger := by rw [floor, h]

theorem isNaN_eq_true : x.isNaN = true := by
  rw [isNaN_eq, h]
  rfl

end Arithmetic

theorem ofFloat_of_isNaN {x : Float} (h : x.isNaN = true) : ofFloat x = .notANumber := by
  by_contra number
  rw [isNaN_eq_false number] at h
  cases h

theorem unpacked_ne_notANumber {b : Binary} (h : b ≠ .notANumber) : unpacked b ≠ .notANumber := by
  cases b with
  | notANumber => exact absurd rfl h
  | infinite negative => exact UnpackedFloat.noConfusion
  | finite negative m e =>
    rw [unpacked]
    split <;> exact UnpackedFloat.noConfusion

/-- The order of floating-point numbers is total. -/
theorem exists_compare {a b : UnpackedFloat} (ha : a ≠ .notANumber) (hb : b ≠ .notANumber) :
    ∃ o, a.compare b = some o := by
  cases a with
  | notANumber => exact absurd rfl ha
  | zero s | infinity s | finite s =>
    cases b with
    | notANumber => exact absurd rfl hb
    | zero t | infinity t | finite t => cases s <;> cases t <;> exact ⟨_, rfl⟩

/-- Of two numbers, one is below the other or at least as large. -/
theorem le_of_not_lt {x y : Float} (hx : ofFloat x ≠ .notANumber) (hy : ofFloat y ≠ .notANumber)
    (h : ¬ x < y) : y ≤ x := by
  obtain ⟨o, ho⟩ := exists_compare (unpacked_ne_notANumber hx) (unpacked_ne_notANumber hy)
  have compared := decide_lt_eq x y
  rw [decide_eq_false h, UnpackedFloat.lt, ho] at compared
  rw [le_iff, UnpackedFloat.le, compare_swap, ho]
  cases o with
  | lt => cases compared
  | eq | gt => rfl

/-- The length of a vector is a number, unless one of its components is not. -/
theorem notANumber_of_hypot {x y : Float} (h : ofFloat (hypot x y) = .notANumber) :
    ofFloat x = .notANumber ∨ ofFloat y = .notANumber := by
  by_contra both
  obtain ⟨hx, hy⟩ := not_or.mp both
  exact ofFloat_hypot_ne_notANumber hx hy h

/-- What is documented of the direction of a vector with a component that is not a number: it is
not a number. -/
def Trigonometry.KeepsNaN (trig : Trigonometry) : Prop :=
  ∀ y x : Float, y.isNaN = true ∨ x.isNaN = true → (trig.atan2 y x).isNaN = true

end PathStudio.Double
