import PathStudio.Simulation.Plan
import PathStudio.Proofs.Outcome
import Mathlib.Data.List.Chain

/-!
# Built plans

The segments of a plan that is built from a path stand for the legs of the path,
one for each move. So they form a chain from the start, and an arc has a control
point.
-/

namespace PathStudio

variable {ν : Type}

namespace Layout

/-- The moves of the legs are those of the path. -/
@[simp] theorem map_move_legsFrom (before : Pose ν) (index : Nat) (ws : List (Waypoint ν)) :
    (legsFrom before index ws).map Leg.move = ws.filterMap Waypoint.move? := by
  induction ws generalizing before index with
  | nil => rfl
  | cons w rest ih =>
    cases w with
    | move m => rw [legsFrom, List.map_cons, ih]; rfl
    | action a => rw [legsFrom, ih]; rfl

/-- The first leg is entered with the pose that the walk begins with. -/
theorem before_of_head?_legsFrom {before : Pose ν} {index : Nat} {ws : List (Waypoint ν)}
    {leg : Leg ν} (h : (legsFrom before index ws).head? = some leg) : leg.before = before := by
  induction ws generalizing index with
  | nil => cases h
  | cons w rest ih =>
    cases w with
    | move m =>
      cases h
      rfl
    | action a => exact ih h

/-- Every other leg is entered with the pose of the move before it. -/
theorem isChain_legsFrom (before : Pose ν) (index : Nat) (ws : List (Waypoint ν)) :
    (legsFrom before index ws).IsChain fun leg next => next.before = leg.move.pose := by
  induction ws generalizing before index with
  | nil => exact List.isChain_nil
  | cons w rest ih =>
    cases w with
    | move m =>
      refine List.isChain_cons.mpr ⟨fun next hn => ?_, ih m.pose (index + 1)⟩
      exact before_of_head?_legsFrom hn
    | action a => exact ih before (index + 1)

end Layout

namespace Simulation

variable [Add ν] [Sub ν] [Mul ν] [Div ν] [Neg ν] [Scalar ν]

/-- A segment as it stands for a leg of a path. -/
structure Segment.StandsFor (g : Segment ν) (leg : Layout.Leg ν) : Prop where
  a : g.a = leg.before.point
  b : g.b = leg.move.point
  kind : g.kind = leg.move.kind
  length : g.length = Point.distance g.a g.b
  bearing : g.bearing = Point.bearing g.a g.b
  startHeading : g.startHeading = planHeading leg.before.h
  endHeading : g.endHeading = planHeading leg.move.pose.h
  /-- An arc without a control point of its own has the default one. -/
  control : g.kind = .arc → ∃ c, g.control = some c

theorem standsFor_of_segmentOf {leg : Layout.Leg ν} {g : Segment ν} (h : segmentOf leg = .ok g) :
    g.StandsFor leg := by
  obtain ⟨control, hc, built⟩ := bind_eq_ok.mp h
  obtain rfl := return_eq_ok.mp built
  refine ⟨rfl, rfl, rfl, rfl, rfl, rfl, rfl, fun arc => ?_⟩
  change leg.move.motion.kind = .arc at arc
  cases hm : leg.move.motion with
  | drive | strafe =>
    rw [hm] at arc
    cases arc
  | arc own =>
    rw [hm] at hc
    cases own with
    | some c => exact ⟨c, (Except.ok.inj hc).symm⟩
    | none =>
      obtain ⟨c, -, derived⟩ := map_eq_ok.mp hc
      exact ⟨c, derived.symm⟩

/-- A plan whose segments stand for the legs of a path. -/
structure Plan.Follows (p : Plan ν) (l : Layout ν) : Prop where
  start : p.start = l.start.point
  startHeading : p.startHeading = planHeading l.start.h
  segments : List.Forall₂ Segment.StandsFor p.segments l.legs

/-- The parts of a plan that is built. -/
theorem parts_of_buildPlan {speeds : Speeds ν} {mode : Mode} {l : Layout ν} {p : Plan ν}
    (h : buildPlan speeds mode l = .ok p) :
    p.mode = mode ∧ p.start = l.start.point ∧ p.startHeading = planHeading l.start.h ∧
      l.legs.mapM segmentOf = .ok p.segments ∧
      (if mode.isField then fieldPolyline l else .ok []) = .ok p.fieldPoints := by
  obtain ⟨multiplier, -, h⟩ := bind_eq_ok.mp h
  obtain ⟨segments, hs, h⟩ := bind_eq_ok.mp h
  have finished {points : List (Point ν)} (hp : (do
      let drive ← speeds.drive
      let turn ← speeds.turn
      return ⟨mode, l.start.point, planHeading l.start.h, segments, points, drive * multiplier,
        turn * multiplier⟩) = (.ok p : Outcome (Plan ν)))
      (polyline : (if mode.isField then fieldPolyline l else .ok []) = .ok points) :
      p.mode = mode ∧ p.start = l.start.point ∧ p.startHeading = planHeading l.start.h ∧
        l.legs.mapM segmentOf = .ok p.segments ∧
        (if mode.isField then fieldPolyline l else .ok []) = .ok p.fieldPoints := by
    obtain ⟨drive, -, hp⟩ := bind_eq_ok.mp hp
    obtain ⟨turn, -, hp⟩ := bind_eq_ok.mp hp
    obtain rfl := return_eq_ok.mp hp
    exact ⟨rfl, rfl, rfl, hs, polyline⟩
  dsimp only at h
  split at h
  next field =>
    obtain ⟨points, hp, h⟩ := bind_eq_ok.mp h
    exact finished h ((if_pos field).trans hp)
  next other => exact finished h (if_neg other)

/-- A plan has the mode and the start that it is built for, and a segment for each leg. -/
theorem segments_of_buildPlan {speeds : Speeds ν} {mode : Mode} {l : Layout ν} {p : Plan ν}
    (h : buildPlan speeds mode l = .ok p) :
    p.mode = mode ∧ p.start = l.start.point ∧ p.startHeading = planHeading l.start.h ∧
      l.legs.mapM segmentOf = .ok p.segments := by
  obtain ⟨hmode, hstart, hheading, hs, -⟩ := parts_of_buildPlan h
  exact ⟨hmode, hstart, hheading, hs⟩

theorem follows_of_buildPlan {speeds : Speeds ν} {mode : Mode} {l : Layout ν} {p : Plan ν}
    (h : buildPlan speeds mode l = .ok p) : p.mode = mode ∧ p.Follows l := by
  obtain ⟨hmode, hstart, hheading, hs⟩ := segments_of_buildPlan h
  refine ⟨hmode, hstart, hheading, ?_⟩
  exact ((forall₂_of_mapM hs).imp fun _ _ => standsFor_of_segmentOf).flip

namespace Plan.Follows

variable {p : Plan ν} {l : Layout ν}

theorem exists_leg (h : p.Follows l) {i : Nat} {g : Segment ν} (hg : p.segments[i]? = some g) :
    ∃ leg, l.legs[i]? = some leg ∧ g.StandsFor leg := by
  obtain ⟨hi, rfl⟩ := List.getElem?_eq_some_iff.mp hg
  have hl : i < l.legs.length := h.segments.length_eq ▸ hi
  exact ⟨l.legs[i], List.getElem?_eq_getElem hl, h.segments.get hi hl⟩

theorem exists_control (h : p.Follows l) {i : Nat} {g : Segment ν} (hg : p.segments[i]? = some g)
    (arc : g.kind = .arc) : ∃ c, g.control = some c := by
  obtain ⟨leg, -, stands⟩ := h.exists_leg hg
  exact stands.control arc

/-- The first segment stands for a leg that is entered with the start. -/
theorem exists_leg_first (h : p.Follows l) {g : Segment ν} (hg : p.segments[0]? = some g) :
    ∃ leg, g.StandsFor leg ∧ leg.before = l.start := by
  obtain ⟨leg, hl, stands⟩ := h.exists_leg hg
  exact ⟨leg, stands, Layout.before_of_head?_legsFrom (List.head?_eq_getElem? ▸ hl)⟩

/-- Two segments that follow each other stand for legs of which the second is entered with the pose
that the first reaches. -/
theorem exists_legs_next (h : p.Follows l) {i : Nat} {g next : Segment ν}
    (hg : p.segments[i]? = some g) (hn : p.segments[i + 1]? = some next) :
    ∃ leg leg', g.StandsFor leg ∧ next.StandsFor leg' ∧ leg'.before = leg.move.pose := by
  obtain ⟨leg, hl, stands⟩ := h.exists_leg hg
  obtain ⟨leg', hl', stands'⟩ := h.exists_leg hn
  obtain ⟨hi, rfl⟩ := List.getElem?_eq_some_iff.mp hl
  obtain ⟨hi', rfl⟩ := List.getElem?_eq_some_iff.mp hl'
  exact ⟨_, _, stands, stands', (Layout.isChain_legsFrom l.start 0 l.waypoints).getElem i hi'⟩

/-- The first segment begins where the plan does, and with its heading. -/
theorem begins_first (h : p.Follows l) {g : Segment ν} (hg : p.segments[0]? = some g) :
    g.a = p.start ∧ g.startHeading = p.startHeading := by
  obtain ⟨leg, stands, before⟩ := h.exists_leg_first hg
  rw [stands.a, stands.startHeading, h.start, h.startHeading, before]
  exact ⟨rfl, rfl⟩

/-- Every other segment begins where the one before it ends, and with its heading. -/
theorem begins_next (h : p.Follows l) {i : Nat} {g next : Segment ν} (hg : p.segments[i]? = some g)
    (hn : p.segments[i + 1]? = some next) : next.a = g.b ∧ next.startHeading = g.endHeading := by
  obtain ⟨leg, leg', stands, stands', before⟩ := h.exists_legs_next hg hn
  rw [stands'.a, stands'.startHeading, stands.b, stands.endHeading, before]
  exact ⟨rfl, rfl⟩

/-- The segments end at the points of the moves, one after the other. -/
theorem map_b (h : p.Follows l) : p.segments.map Segment.b = l.moves.map Move.point := by
  have ends : p.segments.map Segment.b = l.legs.map fun leg => leg.move.point := by
    have points := h.segments.imp fun _ _ stands => stands.b
    have same := List.forall₂_map_left_iff.mpr (List.forall₂_map_right_iff.mpr points)
    rwa [List.forall₂_eq_eq_eq] at same
  rw [ends, Layout.moves, ← Layout.map_move_legsFrom l.start 0, List.map_map]
  rfl

end Plan.Follows

end Simulation

end PathStudio
