import PathStudio.Proofs.Simulation.Course
import PathStudio.Proofs.Simulation.Exact
import PathStudio.Proofs.Simulation.Lasting

/-!
# Field runs

Over the real numbers a run in field mode walks along its course in strides of one
length, of which the last in each gap is cut short. Direction and distance are taken
anew from where the robot is, so what carries the argument is that it is on the gap
between two points of the course, so many strides behind the first one.
-/

namespace PathStudio.Simulation

open Exact Polyline

/-! ## Walking toward a point -/

/-- A part of what is left of a line is a part of the line. -/
theorem between_between (a b : Point ℝ) (f g : ℝ) :
    between (between a b f) b g = between a b (f + (1 - f) * g) := by
  rw [between, between, between]
  congr 1 <;> ring

section WalkTo

variable {s : State ℝ} {target : Point ℝ} {travel : ℝ}

/-- A point that is near enough is reached. -/
theorem exists_walkTo_of_near (near : Point.distance s.point target ≤ travel) :
    ∃ heading, walkTo s target travel = .ok { s with
      x := target.x, y := target.y, index := s.index + 1, heading
      traveled := s.traveled + Point.distance s.point target } := by
  have reached : Scalar.le (Scalar.hypot (target.x - s.x) (target.y - s.y)) travel = true :=
    decide_eq_true near
  rw [walkTo, if_pos reached]
  exact ⟨_, rfl⟩

/-- Toward any other one the robot walks by the whole stride. -/
theorem exists_walkTo_of_far (positive : 0 < travel)
    (far : travel < Point.distance s.point target) :
    ∃ heading, walkTo s target travel = .ok { s with
      x := (between s.point target (travel / Point.distance s.point target)).x
      y := (between s.point target (travel / Point.distance s.point target)).y
      heading, traveled := s.traveled + travel } := by
  have short : ¬ Scalar.le (Scalar.hypot (target.x - s.x) (target.y - s.y)) travel = true :=
    fun reached => absurd (of_decide_eq_true reached) (not_le.mpr far)
  have divisor :
      ¬ Scalar.eq (Scalar.hypot (target.x - s.x) (target.y - s.y)) (Scalar.ofInt 0) = true := by
    rw [zero_eq]
    intro zero
    have zero : Point.distance s.point target = 0 := of_decide_eq_true zero
    linarith
  have part (d : ℝ) : Scalar.divide d (Scalar.hypot (target.x - s.x) (target.y - s.y)) =
      .ok (d / Point.distance s.point target) := if_neg divisor
  have stride (d : ℝ) : d * (travel / Point.distance s.point target) =
      d / Point.distance s.point target * travel := (mul_comm_div ..).symm
  rw [walkTo, if_neg short, part, ok_bind, part, ok_bind, between, stride, stride]
  exact ⟨_, rfl⟩

end WalkTo

/-! ## Gaps -/

/-- The lengths of the gaps of a polyline. -/
noncomputable def gaps (points : List (Point ℝ)) : List ℝ :=
  points.zipWith Point.distance points.tail

/-- The number of strides that a gap takes. -/
noncomputable def strides (travel gap : ℝ) : ℕ := ⌈gap / travel⌉₊

namespace Plan

variable (p : Plan ℝ)

/-- The length of the course up to one of its points. -/
noncomputable def lengthTo (i : ℕ) : ℝ := ((gaps p.course).take i).sum

/-- The steps of a run up to a point of the course. -/
noncomputable def stepsTo (travel : ℝ) (i : ℕ) : ℕ :=
  (((gaps p.course).take i).map (strides travel)).sum

variable {p} {i : ℕ} {a b : Point ℝ}

theorem getElem?_gaps {points : List (Point ℝ)} (ha : points[i]? = some a)
    (hb : points[i + 1]? = some b) : (gaps points)[i]? = some (Point.distance a b) := by
  rw [gaps, List.getElem?_zipWith, ha, List.getElem?_tail, hb]

@[simp] theorem length_gaps (points : List (Point ℝ)) : (gaps points).length = points.length - 1 := by
  rw [gaps, List.length_zipWith, List.length_tail]
  omega

theorem lengthTo_succ (ha : p.course[i]? = some a) (hb : p.course[i + 1]? = some b) :
    p.lengthTo (i + 1) = p.lengthTo i + Point.distance a b := by
  rw [lengthTo, List.take_add_one, getElem?_gaps ha hb, List.sum_append]
  simp [lengthTo]

theorem stepsTo_succ (travel : ℝ) (ha : p.course[i]? = some a) (hb : p.course[i + 1]? = some b) :
    p.stepsTo travel (i + 1) = p.stepsTo travel i + strides travel (Point.distance a b) := by
  rw [stepsTo, List.take_add_one, getElem?_gaps ha hb, List.map_append, List.sum_append]
  simp [stepsTo]

end Plan

/-! ## On the course -/

/-- What a run along a course needs to come to its end. -/
structure Walks (p : Plan ℝ) (ms : ℝ) : Prop where
  field : p.mode.isField = true
  long : 2 ≤ p.fieldPoints.length
  /-- No gap of the course is empty. -/
  apart : p.course.IsChain (· ≠ ·)
  travel : 0 < p.stride ms

/-- A state that has come to a point of the course. At the last one the run is over. -/
structure AtPoint (p : Plan ℝ) (i : ℕ) (s : State ℝ) : Prop where
  point : p.course[i]? = some s.point
  index : s.index = i
  running : s.running = decide (i + 1 < p.course.length)
  phase : s.phase = if i + 1 < p.course.length then .field else .done
  traveled : s.traveled = p.lengthTo i

/-- A state so many strides behind a point of the course, on the gap to the next one. -/
structure OnGap (p : Plan ℝ) (travel : ℝ) (i j : ℕ) (a b : Point ℝ) (s : State ℝ) : Prop where
  behind : p.course[i]? = some a
  ahead : p.course[i + 1]? = some b
  inside : j * travel < Point.distance a b
  point : s.point = between a b (j * travel / Point.distance a b)
  index : s.index = i
  running : s.running = true
  phase : s.phase = .field
  traveled : s.traveled = p.lengthTo i + j * travel

/-- A state on the way from one point of the course to the next. -/
def OnCourse (p : Plan ℝ) (travel : ℝ) (s : State ℝ) : Prop :=
  ∃ i j a b, OnGap p travel i j a b s

/-- The time does not matter to where a run is. -/
theorem AtPoint.of_time {p : Plan ℝ} {i : ℕ} {s : State ℝ} (h : AtPoint p i s) (time : ℝ) :
    AtPoint p i { s with time } :=
  ⟨h.point, h.index, h.running, h.phase, h.traveled⟩

theorem OnGap.of_time {p : Plan ℝ} {travel : ℝ} {i j : ℕ} {a b : Point ℝ} {s : State ℝ}
    (on : OnGap p travel i j a b s) (time : ℝ) : OnGap p travel i j a b { s with time } :=
  ⟨on.behind, on.ahead, on.inside, on.point, on.index, on.running, on.phase, on.traveled⟩

namespace Walks

variable {p : Plan ℝ} {ms : ℝ} {i j : ℕ} {a b : Point ℝ} {s : State ℝ}

theorem length_course (h : Walks p ms) : p.course.length = p.fieldPoints.length := by
  have long := h.long
  rw [Plan.course, List.length_cons, List.length_tail]
  omega

theorem getElem?_course_succ (i : ℕ) : p.course[i + 1]? = p.fieldPoints[i + 1]? := by
  rw [Plan.course, List.getElem?_cons_succ, List.getElem?_tail]

theorem distance_pos (h : Walks p ms) (ha : p.course[i]? = some a)
    (hb : p.course[i + 1]? = some b) : 0 < Point.distance a b := by
  obtain ⟨hi, rfl⟩ := List.getElem?_eq_some_iff.mp ha
  obtain ⟨hj, rfl⟩ := List.getElem?_eq_some_iff.mp hb
  exact Exact.distance_pos (h.apart.getElem i hj)

/-- From a point of the course the robot sets out for the next one. -/
theorem onGap_of_atPoint (h : Walks p ms) (start : AtPoint p i s)
    (hb : p.course[i + 1]? = some b) :
    OnGap p (p.stride ms) i 0 s.point b s := by
  have more : i + 1 < p.course.length := (List.getElem?_eq_some_iff.mp hb).1
  constructor
  · exact start.point
  · exact hb
  · simpa using h.distance_pos start.point hb
  · simp
  · exact start.index
  · exact start.running.trans (decide_eq_true more)
  · exact start.phase.trans (if_pos more)
  · simpa using start.traveled

theorem atPoint_initialState (h : Walks p ms) : AtPoint p 0 (initialState p) := by
  have more : 0 + 1 < p.course.length := by
    rw [h.length_course]
    exact h.long
  constructor
  · rfl
  · rfl
  · simp [initialState, h.field, h.long, more]
  · simp [initialState, h.field, h.long, more]
  · exact zero_eq

end Walks

namespace OnGap

variable {p : Plan ℝ} {travel : ℝ} {i j : ℕ} {a b : Point ℝ} {s : State ℝ}

theorem distance_pos (on : OnGap p travel i j a b s) (positive : 0 < travel) :
    0 < Point.distance a b := by
  have behind : 0 ≤ j * travel := by positivity
  linarith [on.inside]

/-- What is left of the gap. -/
theorem distance_eq (on : OnGap p travel i j a b s) (positive : 0 < travel) :
    Point.distance s.point b = Point.distance a b - j * travel := by
  have length := on.distance_pos positive
  have part : j * travel / Point.distance a b ≤ 1 := (div_le_one length).mpr on.inside.le
  calc Point.distance s.point b
      = Point.distance (between a b (j * travel / Point.distance a b)) (between a b 1) := by
        rw [on.point, between_one]
    _ = (1 - j * travel / Point.distance a b) * Point.distance a b := by
        rw [distance_between, abs_of_nonneg (sub_nonneg.mpr part)]
    _ = Point.distance a b - j * travel := by field_simp

/-- The point ahead is one of the plan. -/
theorem getElem?_fieldPoints (on : OnGap p travel i j a b s) : p.fieldPoints[i + 1]? = some b :=
  (Walks.getElem?_course_succ i).symm.trans on.ahead

theorem lt_length (on : OnGap p travel i j a b s) : i + 1 < p.fieldPoints.length :=
  (List.getElem?_eq_some_iff.mp on.getElem?_fieldPoints).1

/-- A step is a walk toward the next point; at the last one the run is finished. -/
theorem stepField_eq (on : OnGap p travel i j a b s) (ms : ℝ) :
    stepField p s (ms / 1000) = (walkTo s b (p.stride ms)).map fun next =>
      if (p.fieldPoints.length : Int) - 1 ≤ next.index then next.finish else next := by
  have more := on.lt_length
  rw [stepField, on.index, if_neg (by omega)]
  have target : entryAt p.fieldPoints ((i : Int) + 1) = .ok b :=
    entryAt_natCast on.getElem?_fieldPoints
  rw [target, ok_bind, Plan.stride]
  cases walkTo s b (p.driveSpeed * (ms / 1000)) <;> rfl

end OnGap

namespace Walks

variable {p : Plan ℝ} {ms : ℝ} {i j : ℕ} {a b : Point ℝ} {s : State ℝ}

/-- A whole stride stays on the gap. -/
theorem exists_stepField_short (h : Walks p ms)
    (on : OnGap p (p.stride ms) i j a b s)
    (short : (j + 1 : ℕ) * p.stride ms < Point.distance a b) :
    ∃ t, stepField p s (ms / 1000) = .ok t ∧
      OnGap p (p.stride ms) i (j + 1) a b t := by
  have positive := h.travel
  have length := on.distance_pos positive
  have left := on.distance_eq positive
  push_cast at short
  have far : p.stride ms < Point.distance s.point b := by linarith
  obtain ⟨heading, walked⟩ := exists_walkTo_of_far positive far
  have more := on.lt_length
  have place : between s.point b (p.stride ms / Point.distance s.point b) =
      between a b ((j + 1 : ℕ) * p.stride ms / Point.distance a b) := by
    have rest : Point.distance a b - j * p.stride ms ≠ 0 := by linarith
    rw [left, on.point, between_between]
    congr 1
    push_cast
    field_simp
  rw [on.stepField_eq, walked]
  refine ⟨_, congrArg Except.ok (if_neg ?_), ?_⟩
  · have index := on.index
    dsimp only
    omega
  · constructor
    · exact on.behind
    · exact on.ahead
    · push_cast
      exact short
    · exact place
    · exact on.index
    · exact on.running
    · exact on.phase
    · rw [on.traveled]
      push_cast
      ring

/-- A stride that reaches the next point ends there. -/
theorem exists_stepField_reaching (h : Walks p ms)
    (on : OnGap p (p.stride ms) i j a b s)
    (reaching : Point.distance a b ≤ (j + 1 : ℕ) * p.stride ms) :
    ∃ t, stepField p s (ms / 1000) = .ok t ∧ AtPoint p (i + 1) t := by
  have positive := h.travel
  have left := on.distance_eq positive
  push_cast at reaching
  have near : Point.distance s.point b ≤ p.stride ms := by linarith
  obtain ⟨heading, walked⟩ := exists_walkTo_of_near near
  have whole := h.length_course
  rw [on.stepField_eq, walked]
  refine ⟨_, rfl, ?_⟩
  have total : s.traveled + Point.distance s.point b = p.lengthTo (i + 1) := by
    rw [on.traveled, left, Plan.lengthTo_succ on.behind on.ahead]
    ring
  have index := on.index
  dsimp only
  by_cases last : i + 1 + 1 < p.course.length
  · rw [if_neg (by omega)]
    constructor
    · exact on.ahead
    · exact congrArg (· + 1) on.index
    · exact on.running.trans (decide_eq_true last).symm
    · exact on.phase.trans (if_pos last).symm
    · exact total
  · rw [if_pos (by omega)]
    constructor
    · exact on.ahead
    · exact congrArg (· + 1) on.index
    · exact (decide_eq_false last).symm
    · exact (if_neg last).symm
    · exact total

/-- A step stays on the gap or reaches the next point. -/
theorem exists_step (h : Walks p ms) (on : OnGap p (p.stride ms) i j a b s) :
    ∃ t, Lasts p ms (OnCourse p (p.stride ms)) 1 s t ∧
      ((j + 1 : ℕ) * p.stride ms < Point.distance a b ∧
          OnGap p (p.stride ms) i (j + 1) a b t ∨
        Point.distance a b ≤ (j + 1 : ℕ) * p.stride ms ∧ AtPoint p (i + 1) t) := by
  have here : OnCourse p (p.stride ms) s := ⟨i, j, a, b, on⟩
  obtain short | reaching :=
    lt_or_ge ((j + 1 : ℕ) * p.stride ms) (Point.distance a b)
  · obtain ⟨t, walked, still⟩ := h.exists_stepField_short on short
    exact ⟨_, .one_of_isField h.field here on.running walked, .inl ⟨short, still.of_time _⟩⟩
  · obtain ⟨t, walked, next⟩ := h.exists_stepField_reaching on reaching
    exact ⟨_, .one_of_isField h.field here on.running walked, .inr ⟨reaching, next.of_time _⟩⟩

/-- The next point is reached after the strides of the gap. -/
theorem exists_lasts_walking (h : Walks p ms) {n : ℕ}
    (on : OnGap p (p.stride ms) i j a b s)
    (left : strides (p.stride ms) (Point.distance a b) = j + (n + 1)) :
    ∃ t, Lasts p ms (OnCourse p (p.stride ms)) (n + 1) s t ∧
      AtPoint p (i + 1) t := by
  have positive := h.travel
  -- by induction on the strides that are left but for the last one
  induction n generalizing j s with
  | zero =>
    obtain ⟨t, last, ⟨short, -⟩ | ⟨-, next⟩⟩ := h.exists_step on
    · have more : j + 1 < strides (p.stride ms) (Point.distance a b) :=
        Nat.lt_ceil.mpr ((lt_div_iff₀ positive).mpr short)
      omega
    · exact ⟨t, last, next⟩
  | succ n ih =>
    obtain ⟨t, first, ⟨-, still⟩ | ⟨reaching, -⟩⟩ := h.exists_step on
    · obtain ⟨u, rest, next⟩ := ih still (by omega)
      exact ⟨u, Nat.add_comm 1 (n + 1) ▸ first.trans rest, next⟩
    · have few : strides (p.stride ms) (Point.distance a b) ≤ j + 1 :=
        Nat.ceil_le.mpr ((div_le_iff₀ positive).mpr reaching)
      omega

/-- The points of the course are reached one after the other, each in its time. -/
theorem exists_lasts_stepsTo (h : Walks p ms) (hi : i < p.course.length) :
    ∃ t, Lasts p ms (OnCourse p (p.stride ms))
        (p.stepsTo (p.stride ms) i) (initialState p) t ∧ AtPoint p i t := by
  induction i with
  | zero => exact ⟨_, .none _, h.atPoint_initialState⟩
  | succ i ih =>
    obtain ⟨s, before, start⟩ := ih (Nat.lt_of_succ_lt hi)
    have hb : p.course[i + 1]? = some p.course[i + 1] := List.getElem?_eq_getElem hi
    have length := h.distance_pos start.point hb
    obtain ⟨n, hn⟩ : ∃ n, strides (p.stride ms)
        (Point.distance s.point p.course[i + 1]) = n + 1 :=
      Nat.exists_eq_succ_of_ne_zero (Nat.ceil_pos.mpr (div_pos length h.travel)).ne'
    obtain ⟨t, walked, next⟩ :=
      h.exists_lasts_walking (n := n) (h.onGap_of_atPoint start hb) (by omega)
    rw [Plan.stepsTo_succ _ start.point hb, hn]
    exact ⟨t, before.trans walked, next⟩

/-- The run goes on for the strides of all gaps; then it is at the end of the course. -/
theorem exists_stateAfter (h : Walks p ms) (k : ℕ) :
    ∃ s, stateAfter p ms k (initialState p) = .ok s ∧
      (k < p.stepsTo (p.stride ms) (p.course.length - 1) ∧ OnCourse p (p.stride ms) s ∨
        p.stepsTo (p.stride ms) (p.course.length - 1) ≤ k ∧ AtPoint p (p.course.length - 1) s) := by
  have some : 0 < p.course.length := List.length_pos_of_ne_nil (List.cons_ne_nil _ _)
  obtain ⟨t, lasts, ended⟩ := h.exists_lasts_stepsTo (i := p.course.length - 1) (by omega)
  obtain before | after := lt_or_ge k (p.stepsTo (p.stride ms) (p.course.length - 1))
  · obtain ⟨s, reached, on, -⟩ := lasts.exists_state before
    exact ⟨s, reached, .inl ⟨before, on⟩⟩
  · obtain ⟨j, rfl⟩ := Nat.exists_eq_add_of_le after
    have stopped : t.running = false := ended.running.trans (decide_eq_false (by omega))
    refine ⟨t, ?_, .inr ⟨after, ended⟩⟩
    rw [stateAfter_add, lasts.stateAfter_eq]
    exact stateAfter_of_not_running stopped ms j

/-- At the end of the course the run is over, and the whole length is behind. -/
theorem over_of_atPoint (h : Walks p ms) (ended : AtPoint p (p.course.length - 1) s) :
    s.running = false ∧ s.phase = .done ∧ p.fieldPoints.getLast? = some s.point ∧
      s.traveled = (gaps p.course).sum := by
  have long := h.long
  have whole := h.length_course
  have last : ¬ p.course.length - 1 + 1 < p.course.length := by omega
  refine ⟨ended.running.trans (decide_eq_false last), ended.phase.trans (if_neg last), ?_, ?_⟩
  · obtain ⟨n, hn⟩ : ∃ n, p.course.length - 1 = n + 1 :=
      Nat.exists_eq_succ_of_ne_zero (by omega)
    have place := ended.point
    rw [hn, getElem?_course_succ, ← hn, whole] at place
    rw [List.getLast?_eq_getElem?, place]
  · rw [ended.traveled, Plan.lengthTo, List.take_of_length_le (Plan.length_gaps _).le]

end Walks

/-- Two states with a step between them that goes along one gap of the course, by no more than the
given length, and up to the next point at most. -/
def GoesAlong (p : Plan ℝ) (travel : ℝ) (s t : State ℝ) : Prop :=
  ∃ (i : ℕ) (a b : Point ℝ) (f g : ℝ), p.course[i]? = some a ∧ p.course[i + 1]? = some b ∧
    s.index = i ∧ s.point = between a b f ∧ t.point = between a b g ∧ 0 ≤ f ∧ f ≤ g ∧
    (g < 1 ∧ t.index = i ∨ g = 1 ∧ t.index = i + 1) ∧
    Point.distance s.point t.point ≤ travel ∧
    t.traveled = s.traveled + Point.distance s.point t.point

/-- What a step does. -/
theorem Walks.exists_goesAlong {p : Plan ℝ} {ms : ℝ} {s : State ℝ} (h : Walks p ms)
    (on : OnCourse p (p.stride ms) s) :
    ∃ t, stateAfter p ms 1 s = .ok t ∧ GoesAlong p (p.stride ms) s t := by
  obtain ⟨i, j, a, b, on⟩ := on
  have positive := h.travel
  have length := on.distance_pos positive
  obtain ⟨t, step, ⟨short, still⟩ | ⟨reaching, next⟩⟩ := h.exists_step on
  · have part : Point.distance s.point t.point = p.stride ms := by
      rw [on.point, still.point, distance_between, ← sub_div, abs_of_nonneg]
      · push_cast
        field_simp
        ring
      · push_cast
        apply div_nonneg _ length.le
        linarith
    refine ⟨t, step.stateAfter_eq, i, a, b, _, _, on.behind, on.ahead, on.index, on.point,
      still.point, by positivity, ?_, .inl ⟨(div_lt_one length).mpr short, still.index⟩,
      part.le, ?_⟩
    · push_cast
      gcongr
      linarith
    · rw [part, still.traveled, on.traveled]
      push_cast
      ring
  · have end_eq : t.point = b := Option.some.inj (next.point.symm.trans on.ahead)
    have left := on.distance_eq positive
    push_cast at reaching
    refine ⟨t, step.stateAfter_eq, i, a, b, _, 1, on.behind, on.ahead, on.index, on.point, ?_,
      by positivity, (div_le_one length).mpr on.inside.le, .inr ⟨rfl, next.index⟩, ?_, ?_⟩
    · rw [end_eq, between_one]
    · rw [end_eq, left]
      linarith
    · rw [end_eq, left, next.traveled, on.traveled, Plan.lengthTo_succ on.behind on.ahead]
      ring

/-- With exact numbers and increments of one length a run in field mode walks the whole polyline. It
is over after the strides of all gaps, and then it is at the last point and has travelled the whole
length. It is at every point of the course, after the strides of the gaps before it, and each step
goes along one gap. The course of a plan that is built is the polyline itself. -/
theorem field_run_walks_course {p : Plan ℝ} {ms : ℝ} (field : p.mode.isField = true)
    (long : 2 ≤ p.fieldPoints.length) (apart : p.course.IsChain (· ≠ ·))
    (travel : 0 < p.stride ms) :
    let total := ((gaps p.course).map (strides (p.stride ms))).sum
    (∀ k, ∃ s, stateAfter p ms k (initialState p) = .ok s ∧ (s.running = true ↔ k < total) ∧
      (s.phase = .done ↔ total ≤ k) ∧
      (total ≤ k → p.fieldPoints.getLast? = some s.point ∧ s.traveled = (gaps p.course).sum)) ∧
    (∀ (i : ℕ) (q : Point ℝ), p.course[i]? = some q →
      ∃ s, stateAfter p ms (((gaps p.course).take i).map (strides (p.stride ms))).sum
          (initialState p) = .ok s ∧
        s.point = q ∧ s.index = i ∧ s.traveled = ((gaps p.course).take i).sum) ∧
    (∀ (k : ℕ) (s : State ℝ), stateAfter p ms k (initialState p) = .ok s → s.running = true →
      ∃ t, stateAfter p ms (k + 1) (initialState p) = .ok t ∧ GoesAlong p (p.stride ms) s t) ∧
    ∀ (speeds : Speeds ℝ) (mode : Mode) (l : Layout ℝ), buildPlan speeds mode l = .ok p →
      p.course = p.fieldPoints := by
  have h : Walks p ms := ⟨field, long, apart, travel⟩
  have total : p.stepsTo (p.stride ms) (p.course.length - 1) =
      ((gaps p.course).map (strides (p.stride ms))).sum := by
    rw [Plan.stepsTo, List.take_of_length_le (Plan.length_gaps _).le]
  have states := h.exists_stateAfter
  rw [total] at states
  refine ⟨fun k => ?_, fun i q hq => ?_, fun k s hs running => ?_, fun speeds mode l built => ?_⟩
  · obtain ⟨s, reached, ⟨before, i, j, a, b, on⟩ | ⟨after, ended⟩⟩ := states k
    · refine ⟨s, reached, iff_of_true on.running before, iff_of_false ?_ (not_le.mpr before),
        fun after => absurd before (not_lt.mpr after)⟩
      rw [on.phase]
      exact Phase.noConfusion
    · obtain ⟨stopped, done, place, length⟩ := h.over_of_atPoint ended
      exact ⟨s, reached, iff_of_false (by simp [stopped]) (not_lt.mpr after),
        iff_of_true done after, fun _ => ⟨place, length⟩⟩
  · obtain ⟨hi, -⟩ := List.getElem?_eq_some_iff.mp hq
    obtain ⟨s, lasts, there⟩ := h.exists_lasts_stepsTo hi
    exact ⟨s, lasts.stateAfter_eq, Option.some.inj (there.point.symm.trans hq), there.index,
      there.traveled⟩
  · obtain ⟨s', reached, found⟩ := states k
    obtain rfl : s' = s := Except.ok.inj (reached.symm.trans hs)
    obtain ⟨-, on⟩ | ⟨-, ended⟩ := found
    · obtain ⟨t, next, along⟩ := h.exists_goesAlong on
      refine ⟨t, ?_, along⟩
      rw [stateAfter_add, hs]
      exact next
    · cases running.symm.trans (h.over_of_atPoint ended).1
  · apply course_of_buildPlan built
    rintro none
    rw [none] at long
    cases long

/-- A course of two gaps, of five metres and of one. -/
noncomputable def kink : Plan ℝ :=
  { mode := .dialect .field, start := ⟨0, 0⟩, startHeading := 0, segments := []
    fieldPoints := [⟨0, 0⟩, ⟨3.0, 4.0⟩, ⟨3.0, 5.0⟩], driveSpeed := 2.0, turnRate := 90.0 }

theorem gaps_kink : gaps kink.course = [5, 1] := by
  have five : Point.distance (⟨0, 0⟩ : Point ℝ) ⟨3.0, 4.0⟩ = 5 := by
    rw [Exact.distance_eq, Real.sqrt_eq_iff_mul_self_eq_of_pos (by norm_num)]
    norm_num
  have one : Point.distance (⟨3.0, 4.0⟩ : Point ℝ) ⟨3.0, 5.0⟩ = 1 := by
    rw [Exact.distance_eq, Real.sqrt_eq_iff_mul_self_eq_of_pos one_pos]
    norm_num
  change [Point.distance (⟨0, 0⟩ : Point ℝ) ⟨3.0, 4.0⟩, Point.distance (⟨3.0, 4.0⟩ : Point ℝ) ⟨3.0, 5.0⟩] = _
  rw [five, one]

theorem stride_kink : kink.stride 1000 = 2 := by
  rw [Plan.stride]
  norm_num [kink]

/-- Three strides of two metres to the bend, and one more to the end. -/
theorem field_run_walks_course_kink :
    kink.mode.isField = true ∧ 2 ≤ kink.fieldPoints.length ∧ kink.course.IsChain (· ≠ ·) ∧
      0 < kink.stride 1000 ∧
      ∃ s t, stateAfter kink 1000 3 (initialState kink) = .ok s ∧ s.point = ⟨3.0, 4.0⟩ ∧
        s.running = true ∧ stateAfter kink 1000 4 (initialState kink) = .ok t ∧
        t.point = ⟨3.0, 5.0⟩ ∧ t.phase = .done ∧ t.traveled = 6 := by
  have apart : kink.course.IsChain (· ≠ ·) := by
    change [(⟨0, 0⟩ : Point ℝ), ⟨3.0, 4.0⟩, ⟨3.0, 5.0⟩].IsChain (· ≠ ·)
    norm_num
  have travel : 0 < kink.stride 1000 := by
    rw [stride_kink]
    norm_num
  have three : strides 2 5 = 3 := (Nat.ceil_eq_iff three_ne_zero).mpr (by norm_num)
  have one : strides 2 1 = 1 := (Nat.ceil_eq_iff one_ne_zero).mpr (by norm_num)
  obtain ⟨states, points, -⟩ := field_run_walks_course (p := kink) rfl (by decide) apart travel
  rw [gaps_kink, stride_kink] at states points
  obtain ⟨s, reached, place, -⟩ := points 1 ⟨3.0, 4.0⟩ rfl
  obtain ⟨s', reached', running, -⟩ := states 3
  obtain ⟨t, ended, -, done, last⟩ := states 4
  simp only [List.take_succ_cons, List.take_zero, List.map_cons, List.map_nil, List.sum_cons,
    List.sum_nil, three, one] at reached running done last
  obtain rfl : s = s' := Except.ok.inj (reached.symm.trans reached')
  obtain ⟨target, length⟩ := last le_rfl
  refine ⟨rfl, by decide, apart, travel, s, t, reached, place, running.mpr (by norm_num), ended,
    (Option.some.inj target).symm, done.mpr le_rfl, ?_⟩
  rw [length]
  norm_num

end PathStudio.Simulation
