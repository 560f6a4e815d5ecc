import PathStudio.Proofs.Scalar.Comparison
import PathStudio.Proofs.Scalar.Hypotenuse
import PathStudio.Proofs.Geometry.NormalForm
import PathStudio.Geometry.Polyline
import PathStudio.Session.Basic

/-!
# Magnitudes in path geometry

Points whose coordinates are bounded have control points and curves with bounded coordinates, and
what is computed on the way is not refused. Each function adds a few powers of two to the bound. A
path is bounded if all its numbers are.
-/

namespace PathStudio

open Binary Double

/-- What is documented of the trigonometric functions: besides the bounds of directions, the cosines
and sines of finite angles are between minus one and one. -/
structure Double.Trigonometry.Circular (trig : Trigonometry) : Prop extends trig.Lawful where
  cos_bounds : ∀ x : Float, x.isFinite = true → -1.0 ≤ trig.cos x ∧ trig.cos x ≤ 1.0
  sin_bounds : ∀ x : Float, x.isFinite = true → -1.0 ≤ trig.sin x ∧ trig.sin x ≤ 1.0

/-- A point with bounded coordinates. -/
structure Point.Bounded (N : Nat) (p : Point Float) : Prop where
  x : Double.Bounded N p.x
  y : Double.Bounded N p.y

/-- A pose with bounded coordinates and a bounded heading. -/
structure Pose.Bounded (N : Nat) (p : Pose Float) : Prop where
  x : Double.Bounded N p.x
  y : Double.Bounded N p.y
  h : Double.Bounded N p.h

variable {M N : Nat}

theorem Point.Bounded.mono {p : Point Float} (h : p.Bounded M) (le : M ≤ N) : p.Bounded N :=
  ⟨h.x.mono le, h.y.mono le⟩

theorem Pose.Bounded.point {p : Pose Float} (h : p.Bounded N) : p.point.Bounded N := ⟨h.x, h.y⟩

theorem divide_of_pos (trig : Trigonometry) {x y : Float} {v : ℚ} (hy : HasValue y v)
    (positive : 0 < v) :
    letI := trig.scalar
    Scalar.divide x y = .ok (x / y) := by
  have some : ¬ (y == Double.ofInt 0) = true := by
    intro zero
    obtain ⟨s, hs⟩ := exists_zero_of_beq zero
    obtain ⟨m, e, hm, finite⟩ := exists_unpacked_of_pos hy positive
    cases hs.symm.trans finite
  exact if_neg some

theorem hasValue_zero : HasValue 0.0 0 := ⟨false, 0, -1074, by decide, by simp⟩

theorem exists_hasValue_of_pos {x : Float} (positive : 0.0 < x) (finite : x.isFinite = true) :
    ∃ v, HasValue x v ∧ 0 < v := by
  obtain ⟨v, hv⟩ := hasValue_of_isFinite finite
  exact ⟨v, hv, (lt_iff_of_hasValue hasValue_zero hv).mp positive⟩

/-! ## Angles -/

section Angles

variable {trig : Trigonometry} {x y : Float}

theorem hasValue_one : HasValue 1.0 1 := ⟨false, 2 ^ 52, -52, by decide, by norm_num⟩

theorem bounded_of_unit (lower : -1.0 ≤ x) (upper : x ≤ 1.0) : Double.Bounded 0 x := by
  obtain ⟨v, hv, least, most⟩ :=
    exists_hasValue_of_le_of_le (hasValue_neg hasValue_one) hasValue_one lower upper
  exact ⟨v, hv, abs_le.mpr ⟨by simpa using least, by simpa using most⟩⟩

theorem exists_cos (circular : trig.Circular) (h : Double.Bounded N x) :
    ∃ c, trig.scalar.cos x = .ok c ∧ Double.Bounded 0 c := by
  obtain ⟨lower, upper⟩ := circular.cos_bounds x h.isFinite
  exact ⟨_, if_neg (Bool.eq_false_iff.mp h.isInf_eq_false), bounded_of_unit lower upper⟩

theorem exists_sin (circular : trig.Circular) (h : Double.Bounded N x) :
    ∃ c, trig.scalar.sin x = .ok c ∧ Double.Bounded 0 c := by
  obtain ⟨lower, upper⟩ := circular.sin_bounds x h.isFinite
  exact ⟨_, if_neg (Bool.eq_false_iff.mp h.isInf_eq_false), bounded_of_unit lower upper⟩

theorem bounded_atan2 (lawful : trig.Lawful) (hy : Double.Bounded M y) (hx : Double.Bounded N x) :
    Double.Bounded 2 (trig.atan2 y x) := by
  obtain ⟨lower, upper⟩ := lawful.atan2_bounds y x (isNaN_eq_false hy.ne_notANumber)
    (isNaN_eq_false hx.ne_notANumber)
  obtain ⟨v, hv, bound⟩ := exists_hasValue_of_between lower upper
  exact ⟨v, hv, bound.trans (by norm_num)⟩

theorem bounded_toDegrees (trig : Trigonometry) (h : Double.Bounded N x) (small : N ≤ 900) :
    letI := trig.scalar
    Double.Bounded (N + 10) (toDegrees x) := by
  have turn : Double.Bounded 8 (Double.ofInt 180) := Double.bounded_ofInt (by decide) (by decide)
  have half : Apart 0 Double.pi := by decide
  exact ((h.mul turn (by omega)).div half (by omega)).mono (by omega)

/-- The normal form of a bounded angle is less than a turn. -/
theorem exists_bounded_normalizeDegrees (trig : Trigonometry) (h : Double.Bounded N x) :
    letI := trig.scalar
    ∃ r, normalizeDegrees x = .ok r ∧ Double.Bounded 8 r := by
  obtain ⟨v, hv⟩ := h.exists_hasValue
  obtain ⟨-, r, -, w, -, -, -, found, value, same⟩ := Exact.exists_normalizeDegrees hv
  refine ⟨r, found, w, value, ?_⟩
  obtain ⟨lower, upper⟩ := Exact.normal_mem v
  rw [same] at lower upper
  have lower : (-180 : ℚ) < w := by exact_mod_cast lower
  have upper : w ≤ 180 := by exact_mod_cast upper
  rw [abs_le]
  constructor <;> linarith

end Angles

/-! ## Curves -/

section Curves

variable {trig : Trigonometry} {p q r : Point Float}

theorem bounded_distance (trig : Trigonometry) (hp : p.Bounded N) (hq : q.Bounded N)
    (small : N ≤ 900) :
    letI := trig.scalar
    Double.Bounded (N + 5) (Point.distance p q) :=
  (Double.Bounded.hypot ((hq.x.sub hp.x (by omega)).mono (by omega : _ ≤ N + 2))
    ((hq.y.sub hp.y (by omega)).mono (by omega)) (by omega)).mono (by omega)

theorem bounded_bearing (lawful : trig.Lawful) (hp : p.Bounded N) (hq : q.Bounded N)
    (small : N ≤ 900) :
    letI := trig.scalar
    Double.Bounded 12 (Point.bearing p q) :=
  bounded_toDegrees trig
    (bounded_atan2 lawful (hq.y.sub hp.y (by omega)) (hq.x.sub hp.x (by omega))) (by decide)

/-- The control point that an arc has by default is bounded. -/
theorem exists_defaultControl (circular : trig.Circular) (hp : p.Bounded N) (hq : q.Bounded N)
    (small : N ≤ 900) :
    letI := trig.scalar
    ∃ c, defaultControl p q = .ok c ∧ c.Bounded (N + 9) := by
  let := trig.scalar
  have two : Apart 0 (Double.ofInt 2) := by decide
  have quarter : Double.Bounded 1 (Double.pi / Double.ofInt 2) := by decide
  have tenths : Double.Bounded 0 (Double.ofDecimal false 3 (-1)) := bounded_tenths (by decide)
  have midX := ((hp.x.add hq.x (by omega)).div two (by omega)).mono (by omega : _ ≤ N + 7)
  have midY := ((hp.y.add hq.y (by omega)).div two (by omega)).mono (by omega : _ ≤ N + 7)
  have dx := hq.x.sub hp.x (by omega)
  have dy := hq.y.sub hp.y (by omega)
  have offset := ((bounded_distance trig hp hq small).mul tenths (by omega)).mono
    (by omega : _ ≤ N + 6)
  have across := (bounded_atan2 circular.toLawful dy dx).add quarter (by decide)
  obtain ⟨c, cosine, hc⟩ := exists_cos circular across
  obtain ⟨s, sine, hs⟩ := exists_sin circular across
  rw [defaultControl]
  dsimp only
  split
  · exact ⟨_, rfl, midX.mono (by omega), midY.mono (by omega)⟩
  · refine ⟨_, bind_eq_ok.mpr ⟨c, cosine, bind_eq_ok.mpr ⟨s, sine, rfl⟩⟩, ?_, ?_⟩
    · exact (midX.add ((hc.mul offset (by omega)).mono (by omega : _ ≤ N + 7)) (by omega)).mono
        (by omega)
    · exact (midY.add ((hs.mul offset (by omega)).mono (by omega : _ ≤ N + 7)) (by omega)).mono
        (by omega)

theorem exists_controlOf (circular : trig.Circular) {motion : Motion Float} (hp : p.Bounded N)
    (hq : q.Bounded N) (own : ∀ c, motion = .arc (some c) → c.Bounded N) (small : N ≤ 900) :
    letI := trig.scalar
    ∃ control, Layout.controlOf motion p q = .ok control ∧
      (∀ c, control = some c → c.Bounded (N + 9)) ∧ (motion.kind = .arc → ∃ c, control = some c) := by
  let := trig.scalar
  cases motion with
  | drive | strafe => exact ⟨none, rfl, by rintro c ⟨⟩, by rintro ⟨⟩⟩
  | arc control =>
    cases control with
    | some c =>
      refine ⟨some c, rfl, ?_, fun _ => ⟨c, rfl⟩⟩
      rintro _ ⟨⟩
      exact (own c rfl).mono (by omega)
    | none =>
      obtain ⟨c, found, hc⟩ := exists_defaultControl circular hp hq small
      refine ⟨some c, map_eq_ok.mpr ⟨c, found, rfl⟩, ?_, fun _ => ⟨c, rfl⟩⟩
      rintro _ ⟨⟩
      exact hc

/-- A step among some is a fraction. -/
theorem bounded_parameter (trig : Trigonometry) {step steps : Nat} (among : step ≤ steps)
    (some : 0 < steps) (few : steps < 2 ^ 53) :
    letI := trig.scalar
    Double.Bounded 1 (Bezier.parameter step steps : Float) := by
  have counted := hasValue_ofInt (n := step) (by omega)
  have whole := hasValue_ofInt few
  have positive : (0 : ℚ) < steps := by exact_mod_cast some
  have fraction : |(step : ℚ) / steps| ≤ 1 := by
    rw [abs_div, abs_of_nonneg (Nat.cast_nonneg step), abs_of_pos positive, div_le_one positive]
    exact_mod_cast among
  obtain ⟨w, hw, error, -⟩ := exists_div counted whole positive.ne' (N := 0) (by decide) (by decide)
    (by simpa using fraction)
  norm_num at error
  exact bounded_of_near (N := 0) hw (error.trans (by norm_num)) (by simpa using fraction)

theorem bounded_inner (trig : Trigonometry) {t : Float} (ht : Double.Bounded 1 t)
    (hp : p.Bounded N) (hq : q.Bounded N) (hr : r.Bounded N) (small : N ≤ 900) :
    letI := trig.scalar
    (Bezier.inner t p q r).Bounded (N + 12) := by
  have one : Double.Bounded 0 (Double.ofInt 1) := Double.bounded_ofInt (by decide) (by decide)
  have two : Double.Bounded 1 (Double.ofInt 2) := Double.bounded_ofInt (by decide) (by decide)
  have mt := one.sub ht (by decide)
  have a := mt.mul mt (by decide)
  have b := (two.mul mt (by decide)).mul ht (by decide)
  have c := ht.mul ht (by decide)
  have coordinate {u v w : Float} (hu : Double.Bounded N u) (hv : Double.Bounded N v)
      (hw : Double.Bounded N w) :
      Double.Bounded (N + 12) ((Double.ofInt 1 - t) * (Double.ofInt 1 - t) * u +
        Double.ofInt 2 * (Double.ofInt 1 - t) * t * v + t * t * w) :=
    (((a.mul hu (by omega)).add (b.mul hv (by omega)) (by omega)).add (c.mul hw (by omega))
      (by omega)).mono (by omega)
  exact ⟨coordinate hp.x hq.x hr.x, coordinate hp.y hq.y hr.y⟩

theorem bounded_curve (trig : Trigonometry) {t : Float} (ht : Double.Bounded 1 t)
    (hp : p.Bounded N) (hq : q.Bounded N) (hr : r.Bounded N) (small : N ≤ 900) :
    letI := trig.scalar
    (Bezier.point t p q r).Bounded (N + 12) := by
  let := trig.scalar
  rw [Bezier.point]
  split
  · exact hp.mono (by omega)
  · split
    · exact hr.mono (by omega)
    · exact bounded_inner trig ht hp hq hr small

theorem bounded_between (trig : Trigonometry) {t : Float} (ht : Double.Bounded M t)
    (hp : p.Bounded N) (hq : q.Bounded N) (small : M + N ≤ 900) :
    letI := trig.scalar
    (Polyline.between p q t).Bounded (M + N + 5) :=
  ⟨(hp.x.add ((hq.x.sub hp.x (by omega)).mul ht (by omega)) (by omega)).mono (by omega),
    (hp.y.add ((hq.y.sub hp.y (by omega)).mul ht (by omega)) (by omega)).mono (by omega)⟩

/-- The direction of a curve is bounded. -/
theorem bounded_tangent (lawful : trig.Lawful) {t : Float} (ht : Double.Bounded 1 t)
    (hp : p.Bounded N) (hq : q.Bounded N) (hr : r.Bounded N) (small : N ≤ 900) :
    letI := trig.scalar
    Double.Bounded 12 (Bezier.tangent t p q r) := by
  have one : Double.Bounded 0 (Double.ofInt 1) := Double.bounded_ofInt (by decide) (by decide)
  have two : Double.Bounded 1 (Double.ofInt 2) := Double.bounded_ofInt (by decide) (by decide)
  have mt := one.sub ht (by decide)
  have component {u v w : Float} (hu : Double.Bounded N u) (hv : Double.Bounded N v)
      (hw : Double.Bounded N w) :
      Double.Bounded (N + 12) (Double.ofInt 2 * (Double.ofInt 1 - t) * (v - u) +
        Double.ofInt 2 * t * (w - v)) :=
    (((two.mul mt (by decide)).mul (hv.sub hu (by omega)) (by omega)).add
      ((two.mul ht (by decide)).mul (hw.sub hv (by omega)) (by omega)) (by omega)).mono (by omega)
  exact bounded_toDegrees trig
    (bounded_atan2 lawful (component hp.y hq.y hr.y) (component hp.x hq.x hr.x)) (by decide)

/-- Each chord adds to the length of a curve at most the bound of one. -/
theorem bounded_chords (trig : Trigonometry) {steps : Nat} (some : 0 < steps) (few : steps < 2 ^ 53)
    (hp : p.Bounded N) (hq : q.Bounded N) (hr : r.Bounded N) {rest : List Nat}
    (among : ∀ step ∈ rest, step ≤ steps) {last : Point Float} {total : Float} {T : Nat}
    (hlast : last.Bounded (N + 12)) (htotal : Double.Bounded T total)
    (small : max T (N + 17) + 2 * rest.length ≤ 900) :
    letI := trig.scalar
    Double.Bounded (max T (N + 17) + 2 * rest.length) (Bezier.chords p q r steps last total rest) := by
  let := trig.scalar
  induction rest generalizing last total T with
  | nil => exact htotal.mono (by omega)
  | cons step rest ih =>
    obtain ⟨first, others⟩ := List.forall_mem_cons.mp among
    rw [List.length_cons] at small ⊢
    have next := bounded_curve trig (bounded_parameter trig first some few) hp hq hr (by omega)
    have chord := bounded_distance trig hlast next (by omega)
    exact (ih others next (htotal.add chord (by omega)) (by omega)).mono (by omega)

theorem bounded_length (trig : Trigonometry) (hp : p.Bounded N) (hq : q.Bounded N)
    (hr : r.Bounded N) (small : N ≤ 800) :
    letI := trig.scalar
    Double.Bounded (N + 37) (Bezier.length p q r Bezier.defaultSteps) := by
  have zero := Double.bounded_zero 0
  have among : ∀ step ∈ List.range' 1 10, step ≤ 10 := by decide
  exact (bounded_chords trig (by decide : 0 < 10) (by decide) hp hq hr among
    (hp.mono (by omega)) zero (by rw [List.length_range']; omega)).mono
    (by rw [List.length_range']; omega)

end Curves

/-! ## Paths -/

/-- A move with a bounded pose, speed and control point. -/
structure Move.Bounded (N : Nat) (m : Move Float) : Prop where
  pose : m.pose.Bounded N
  speed : Double.Bounded N m.speed
  control : ∀ c, m.motion = .arc (some c) → c.Bounded N

theorem Move.Bounded.mono {M : Nat} {m : Move Float} (h : m.Bounded M) (le : M ≤ N) : m.Bounded N :=
  ⟨⟨h.pose.x.mono le, h.pose.y.mono le, h.pose.h.mono le⟩, h.speed.mono le,
    fun c own => (h.control c own).mono le⟩

/-- A waypoint all of whose numbers are bounded. -/
def Waypoint.Bounded (N : Nat) : Waypoint Float → Prop
  | .move m => m.Bounded N
  | .action a => a.pose.Bounded N

/-- A path all of whose numbers are bounded. -/
structure Layout.Bounded (N : Nat) (l : Layout Float) : Prop where
  start : l.start.Bounded N
  waypoints : ∀ w ∈ l.waypoints, w.Bounded N
  markers : ∀ m ∈ l.markers, (⟨m.x, m.y⟩ : Point Float).Bounded N

namespace Layout

theorem bounded_legsFrom {before : Pose Float} {index : Nat} {ws : List (Waypoint Float)}
    (hbefore : before.Bounded N) (bounded : ∀ w ∈ ws, w.Bounded N) :
    ∀ leg ∈ legsFrom before index ws, leg.before.Bounded N ∧ leg.move.Bounded N := by
  induction ws generalizing before index with
  | nil => exact fun leg hl => nomatch hl
  | cons w rest ih =>
    obtain ⟨first, others⟩ := List.forall_mem_cons.mp bounded
    cases w with
    | move m => exact List.forall_mem_cons.mpr ⟨⟨hbefore, first⟩, ih first.pose others⟩
    | action a => exact ih hbefore others

theorem Bounded.legs {l : Layout Float} (h : l.Bounded N) :
    ∀ leg ∈ l.legs, leg.before.Bounded N ∧ leg.move.Bounded N :=
  bounded_legsFrom h.start h.waypoints

theorem Bounded.moves {l : Layout Float} (h : l.Bounded N) : ∀ m ∈ l.moves, m.Bounded N := by
  intro m hm
  obtain ⟨w, hw, is⟩ := List.mem_filterMap.mp hm
  cases w with
  | move m' =>
    obtain rfl := Option.some.inj is
    exact h.waypoints _ hw
  | action a => cases is

end Layout

end PathStudio
