import PathStudio.Proofs.Simulation.Plan
import PathStudio.Proofs.Geometry.Polyline

/-!
# The course of a field run

The polyline of a plan in field mode. It begins where the plan does; over the real
numbers there always is one, and it goes in short steps from the start to the last
move.
-/

namespace PathStudio.Simulation

section Course

open Scalar

variable {ν : Type} [Add ν] [Sub ν] [Mul ν] [Div ν] [Neg ν] [Scalar ν]

/-- The points that a field run goes through: it sets out from the start of the plan for the second
point of the polyline. -/
def Plan.course (p : Plan ν) : List (Point ν) := p.start :: p.fieldPoints.tail

/-- The length that a step of a field run walks at most. -/
def Plan.stride (p : Plan ν) (ms : ν) : ν := p.driveSpeed * (ms / 1000)

/-- The polyline of a plan that is built begins at the start, so that the run goes through all of
it. -/
theorem course_of_buildPlan {speeds : Speeds ν} {mode : Mode} {l : Layout ν} {p : Plan ν}
    (built : buildPlan speeds mode l = .ok p) (some : p.fieldPoints ≠ []) :
    p.course = p.fieldPoints := by
  obtain ⟨-, start, -, -, polyline⟩ := parts_of_buildPlan built
  have first : p.fieldPoints.head? = .some p.start := by
    split at polyline
    · have head := Polyline.head?_refine polyline
      have left : Polyline.smooth (l.start.point :: l.moves.map Move.point) ≠ [] := by
        intro nothing
        rw [nothing] at head
        exact some (List.head?_eq_none_iff.mp head)
      rw [head, Polyline.head?_smooth left, start]
      rfl
    · exact absurd (Except.ok.inj polyline).symm some
  obtain ⟨rest, hr⟩ := List.head?_eq_some_iff.mp first
  rw [Plan.course, hr, List.tail_cons]

end Course

/-! ## Over the real numbers -/

open Exact Polyline

theorem exists_controlOf_exact (motion : Motion ℝ) (start finish : Point ℝ) :
    ∃ control, Layout.controlOf motion start finish = .ok control := by
  cases motion with
  | drive | strafe => exact ⟨none, rfl⟩
  | arc own =>
    cases own with
    | some c => exact ⟨some c, rfl⟩
    | none =>
      rw [Layout.controlOf, defaultControl]
      split <;> exact ⟨_, rfl⟩

theorem exists_segments (l : Layout ℝ) : ∃ segments, l.legs.mapM segmentOf = .ok segments := by
  refine exists_mapM fun leg _ => ?_
  obtain ⟨control, hc⟩ :=
    exists_controlOf_exact leg.move.motion leg.before.point leg.move.point
  rw [segmentOf]
  rw [hc]
  exact ⟨_, rfl⟩

/-- A path in field mode that moves has a plan. Its polyline begins at the start, ends close to the
last move, stays in every box around the start and the moves, takes steps that are neither nothing
nor long, and has all points of the smoothed path. -/
theorem field_polyline_shape {s : Session ℝ} (field : s.mode.isField = true) {last : Move ℝ}
    (ends : s.moves.getLast? = some last) (multiplier drive turn : ℝ) :
    ∃ p, buildPlan ⟨.ok multiplier, .ok drive, .ok turn⟩ s.mode s.toLayout = .ok p ∧
      p.fieldPoints.head? = some s.start.point ∧
      (∃ e, p.fieldPoints.getLast? = some e ∧ Point.distance e last.point ≤ 2 / 10 ^ 6) ∧
      (∀ low high, (∀ q ∈ s.start.point :: s.moves.map Move.point, InBox low high q) →
        ∀ q ∈ p.fieldPoints, InBox low high q) ∧
      p.fieldPoints.IsChain Spaced ∧
      (smooth (s.start.point :: s.moves.map Move.point)).Sublist p.fieldPoints := by
  have ends' : (s.start.point :: s.moves.map Move.point).getLast? = some last.point := by
    rw [List.getLast?_cons, List.getLast?_map, ends]
    rfl
  have some : 2 ≤ (s.start.point :: s.moves.map Move.point).length := by
    cases hm : s.moves with
    | nil =>
      rw [hm] at ends
      cases ends
    | cons m rest => simp
  obtain ⟨out, refined, shape⟩ := exists_refine_smooth rfl ends' some
  obtain ⟨segments, built⟩ := exists_segments s.toLayout
  refine ⟨⟨s.mode, s.start.point, planHeading s.start.h, segments, out, drive * multiplier,
    turn * multiplier⟩, ?_, shape⟩
  rw [buildPlan]
  dsimp only
  rw [ok_bind, built, ok_bind, if_pos field, fieldPolyline, refined]
  rfl

/-- A path with a corner, and with a waypoint that is set twice. -/
noncomputable def corner : Session ℝ :=
  { Session.empty with
    mode := .dialect .field
    waypoints := [.move ⟨.drive, ⟨1, 0, 0⟩, defaultSpeed⟩, .move ⟨.drive, ⟨1, 0, 0⟩, defaultSpeed⟩,
      .move ⟨.arc none, ⟨1, 1, 0⟩, defaultSpeed⟩] }

/-- The line around a corner. -/
theorem field_polyline_shape_corner :
    corner.mode.isField = true ∧
      corner.moves.getLast? = some ⟨.arc none, ⟨1, 1, 0⟩, defaultSpeed⟩ ∧
      ∃ p, buildPlan ⟨.ok 1, .ok 1, .ok 90⟩ corner.mode corner.toLayout = .ok p ∧
        p.fieldPoints.head? = some corner.start.point ∧
        (∃ e, p.fieldPoints.getLast? = some e ∧ Point.distance e ⟨1, 1⟩ ≤ 2 / 10 ^ 6) ∧
        (∀ low high, (∀ q ∈ corner.start.point :: corner.moves.map Move.point, InBox low high q) →
          ∀ q ∈ p.fieldPoints, InBox low high q) ∧
        p.fieldPoints.IsChain Spaced ∧
        (smooth (corner.start.point :: corner.moves.map Move.point)).Sublist p.fieldPoints := by
  have ends : corner.moves.getLast? = some ⟨.arc none, ⟨1, 1, 0⟩, defaultSpeed⟩ := rfl
  exact ⟨rfl, ends, field_polyline_shape (s := corner) rfl ends 1 1 90⟩

end PathStudio.Simulation
