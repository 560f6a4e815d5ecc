import PathStudio.Geometry.Bezier
import PathStudio.Proofs.Geometry.Polar

/-!
# Translations

Over the real numbers distances and directions between points, and the shape of a curve, do not
depend on where the points lie: only their differences count. The control point of an arc that has
none of its own moves along with its ends.
-/

namespace PathStudio

variable {ν : Type} [Add ν]

/-- A point moved by a vector. -/
def Point.translated (v p : Point ν) : Point ν := ⟨p.x + v.x, p.y + v.y⟩

/-- A pose moved by a vector, with the same heading. -/
def Pose.translated (v : Point ν) (p : Pose ν) : Pose ν := ⟨p.x + v.x, p.y + v.y, p.h⟩

@[simp] theorem Pose.point_translated (v : Point ν) (p : Pose ν) :
    (p.translated v).point = Point.translated v p.point := rfl

namespace Exact

variable (v p q : Point ℝ)

@[simp] theorem distance_translated :
    Point.distance (Point.translated v p) (Point.translated v q) = Point.distance p q := by
  simp only [distance_eq, Point.translated, add_sub_add_right_eq_sub]

@[simp] theorem bearing_translated :
    Point.bearing (Point.translated v p) (Point.translated v q) = Point.bearing p q := by
  simp only [bearing_eq, Point.translated, add_sub_add_right_eq_sub]

/-- A step from a point that has been moved leads to where the step led, moved as well. -/
@[simp] theorem ahead_translated (length degrees : ℝ) :
    ahead (Point.translated v p) length degrees =
      Point.translated v (ahead p length degrees) := by
  simp only [ahead, Point.translated, add_right_comm]

/-! ## Curves -/

/-- A whole number written among scalars. -/
theorem literal_eq (n : Nat) : @OfNat.ofNat ℝ n (Scalar.instOfNat n) = n := Int.cast_natCast n

/-- The middle of a line moves along with its ends. -/
theorem middle_translated (a b d : ℝ) :
    (a + d + (b + d)) / @OfNat.ofNat ℝ 2 (Scalar.instOfNat 2) =
      (a + b) / @OfNat.ofNat ℝ 2 (Scalar.instOfNat 2) + d := by
  rw [literal_eq]
  push_cast
  ring

theorem defaultControl_translated :
    defaultControl (Point.translated v p) (Point.translated v q) =
      (defaultControl p q).map (Point.translated v) := by
  simp only [defaultControl, Point.translated, add_sub_add_right_eq_sub, middle_translated]
  split
  · rfl
  · refine congrArg Except.ok ?_
    rw [Point.mk.injEq]
    exact ⟨add_right_comm .., add_right_comm ..⟩

variable (r : Point ℝ) (t : ℝ)

/-- The weights of the three points add up to one, so the curve moves as they do. -/
@[simp] theorem inner_translated :
    Bezier.inner t (Point.translated v p) (Point.translated v q) (Point.translated v r) =
      Point.translated v (Bezier.inner t p q r) := by
  simp only [Bezier.inner, Point.translated, literal_eq, Point.mk.injEq]
  push_cast
  constructor <;> ring

@[simp] theorem point_translated :
    Bezier.point t (Point.translated v p) (Point.translated v q) (Point.translated v r) =
      Point.translated v (Bezier.point t p q r) := by
  simp only [Bezier.point, inner_translated]
  split
  · rfl
  · split <;> rfl

@[simp] theorem tangent_translated :
    Bezier.tangent t (Point.translated v p) (Point.translated v q) (Point.translated v r) =
      Bezier.tangent t p q r := by
  simp only [Bezier.tangent, Point.translated, add_sub_add_right_eq_sub]

theorem chords_translated (steps : Nat) (last : Point ℝ) (total : ℝ) (js : List Nat) :
    Bezier.chords (Point.translated v p) (Point.translated v q) (Point.translated v r) steps
        (Point.translated v last) total js =
      Bezier.chords p q r steps last total js := by
  induction js generalizing last total with
  | nil => rfl
  | cons j js ih => rw [Bezier.chords, Bezier.chords, point_translated, distance_translated, ih]

@[simp] theorem length_translated (steps : Nat) :
    Bezier.length (Point.translated v p) (Point.translated v q) (Point.translated v r) steps =
      Bezier.length p q r steps :=
  chords_translated v p q r steps p _ _

end Exact

end PathStudio
