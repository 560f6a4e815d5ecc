import PathStudio.Proofs.Geometry.Magnitude
import PathStudio.Proofs.Geometry.Polyline
import PathStudio.Proofs.Scalar.Approach
import PathStudio.Simulation.Plan

/-!
# Plans of bounded paths

The plan of a path with bounded numbers is made and can be drawn, and its own numbers are bounded:
rounding off corners and filling gaps keeps the points of a polyline bounded, and a gap between bounded
points is divided into a number of parts that is exact as a double. The speeds need not be bounded: a
large multiplier may make them infinite, but they have no minus sign.
-/

/-! ## Polylines -/

namespace PathStudio.Polyline

open Double

variable {N : Nat} {trig : Trigonometry} {p q : Point Float} {points : List (Point Float)}

theorem bounded_quarterPoints (trig : Trigonometry) (hp : p.Bounded N) (hq : q.Bounded N)
    (small : N ≤ 900) :
    letI := trig.scalar
    ∀ m ∈ quarterPoints p q, m.Bounded (N + 3) := by
  let := trig.scalar
  have most : Double.Bounded 0 (Double.ofDecimal false 75 (-2)) := by decide +kernel
  have least : Double.Bounded 0 (Double.ofDecimal false 25 (-2)) := by decide +kernel
  have mean {a b x y : Float} (ha : Double.Bounded 0 a) (hb : Double.Bounded 0 b)
      (hx : Double.Bounded N x) (hy : Double.Bounded N y) :
      Double.Bounded (N + 3) (a * x + b * y) :=
    ((ha.mul hx (by omega)).add (hb.mul hy (by omega)) (by omega)).mono (by omega)
  rw [quarterPoints]
  refine List.forall_mem_cons.mpr ⟨?_, List.forall_mem_singleton.mpr ?_⟩
  · exact ⟨mean most least hp.x hq.x, mean most least hp.y hq.y⟩
  · exact ⟨mean least most hp.x hq.x, mean least most hp.y hq.y⟩

theorem bounded_cutAfter (trig : Trigonometry) (hp : p.Bounded N)
    (bounded : ∀ q ∈ points, q.Bounded N) (small : N ≤ 900) :
    letI := trig.scalar
    ∀ m ∈ cutAfter p points, m.Bounded (N + 3) := by
  let := trig.scalar
  induction points generalizing p with
  | nil => exact List.forall_mem_singleton.mpr (hp.mono (by omega))
  | cons q rest ih =>
    obtain ⟨hq, others⟩ := List.forall_mem_cons.mp bounded
    exact List.forall_mem_append.mpr ⟨bounded_quarterPoints trig hp hq small, ih hq others⟩

theorem bounded_roundOff (trig : Trigonometry) (bounded : ∀ q ∈ points, q.Bounded N)
    (small : N ≤ 900) :
    letI := trig.scalar
    ∀ m ∈ roundOff points, m.Bounded (N + 3) := by
  let := trig.scalar
  cases points with
  | nil => exact fun m hm => absurd hm List.not_mem_nil
  | cons p rest =>
    obtain ⟨hp, others⟩ := List.forall_mem_cons.mp bounded
    rw [roundOff_cons]
    refine List.forall_mem_cons.mpr ⟨hp.mono (by omega), fun m hm => ?_⟩
    exact bounded_cutAfter trig hp others small m ((collapseAfter_sublist p _).subset hm)

theorem bounded_smooth (trig : Trigonometry) (bounded : ∀ q ∈ points, q.Bounded N)
    (small : N ≤ 800) :
    letI := trig.scalar
    ∀ m ∈ smooth points, m.Bounded (N + 6) := by
  match points with
  | [] | [_] => exact fun m hm => absurd hm List.not_mem_nil
  | p :: q :: rest =>
    exact bounded_roundOff trig (bounded_roundOff trig bounded (by omega)) (by omega)

/-- A gap between bounded points is filled. -/
theorem exists_bounded_fill (trig : Trigonometry) (hp : p.Bounded N) (hq : q.Bounded N)
    (small : N ≤ 40) :
    letI := trig.scalar
    ∃ filling, fill defaultGap defaultSpacing p q = .ok filling ∧
      ∀ m ∈ filling, m.Bounded (N + 6) := by
  let := trig.scalar
  have spacing : Apart 3 (Double.ofDecimal false 2 (-1)) := by decide +kernel
  have divides (x : Float) :
      Scalar.divide x defaultSpacing = .ok (x / Double.ofDecimal false 2 (-1)) := by
    have some : (Double.ofDecimal false 2 (-1) == Double.ofInt 0) = false := by decide +kernel
    exact if_neg (Bool.eq_false_iff.mp some)
  have parts := (bounded_distance trig hp hq (by omega)).div spacing (by omega)
  obtain ⟨n, counted, few⟩ := parts.exists_ceil
  rw [fill]
  split
  · refine ⟨_, bind_eq_ok.mpr ⟨_, divides _, bind_eq_ok.mpr ⟨n, counted, rfl⟩⟩, ?_⟩
    intro m hm
    obtain ⟨k, hk, rfl⟩ := List.mem_map.mp hm
    obtain ⟨least, most⟩ := List.mem_range'_1.mp hk
    have range : 2 ^ (N + 5 + 3 + 1) ≤ 2 ^ 49 := Nat.pow_le_pow_right (by decide) (by omega)
    have natural : (n.toNat : Int) = n := Int.toNat_of_nonneg (by omega)
    have fraction := bounded_parameter trig (by omega : k ≤ n.toNat) (by omega) (by omega)
    rw [Bezier.parameter, natural] at fraction
    exact (bounded_between trig fraction hp hq (by omega)).mono (by omega)
  · exact ⟨[], rfl, fun m hm => absurd hm List.not_mem_nil⟩

theorem exists_bounded_refine (trig : Trigonometry) (bounded : ∀ q ∈ points, q.Bounded N)
    (small : N ≤ 40) :
    letI := trig.scalar
    ∃ out, refine defaultGap defaultSpacing points = .ok out ∧ ∀ m ∈ out, m.Bounded (N + 6) := by
  let := trig.scalar
  induction points using refine.induct with
  | case1 => exact ⟨[], rfl, fun m hm => absurd hm List.not_mem_nil⟩
  | case2 p => exact ⟨[p], rfl, fun m hm => (bounded m hm).mono (by omega)⟩
  | case3 p q rest ih =>
    obtain ⟨hp, others⟩ := List.forall_mem_cons.mp bounded
    obtain ⟨hq, -⟩ := List.forall_mem_cons.mp others
    obtain ⟨filling, filled, inside⟩ := exists_bounded_fill trig hp hq small
    obtain ⟨more, refined, beyond⟩ := ih others
    refine ⟨p :: (filling ++ more), bind_eq_ok.mpr ⟨_, filled, bind_eq_ok.mpr ⟨_, refined, rfl⟩⟩, ?_⟩
    exact List.forall_mem_cons.mpr ⟨hp.mono (by omega), List.forall_mem_append.mpr ⟨inside, beyond⟩⟩

end PathStudio.Polyline

/-! ## Plans -/

namespace PathStudio.Simulation

open Binary Double

variable {N : Nat} {trig : Trigonometry}

/-- A segment with bounded numbers; an arc has a control point. -/
structure Segment.Bounded (N : Nat) (g : Segment Float) : Prop where
  a : g.a.Bounded N
  b : g.b.Bounded N
  length : Double.Bounded (N + 5) g.length
  bearing : Double.Bounded 12 g.bearing
  control : ∀ c, g.control = some c → c.Bounded (N + 9)
  exists_control : g.kind = .arc → ∃ c, g.control = some c
  startHeading : Double.Bounded (N + 10) g.startHeading
  endHeading : Double.Bounded (N + 10) g.endHeading

/-- A plan whose places and headings are bounded and whose speeds have no minus sign. -/
structure Plan.Bounded (N : Nat) (p : Plan Float) : Prop where
  start : p.start.Bounded N
  startHeading : Double.Bounded (N + 10) p.startHeading
  segments : ∀ g ∈ p.segments, g.Bounded N
  fieldPoints : ∀ q ∈ p.fieldPoints, q.Bounded (N + 12)
  driveSpeed : Signed false p.driveSpeed
  turnRate : Signed false p.turnRate

/-- Speeds that can all be read: the rates are numbers without a minus sign, and the multiplier is
positive. -/
structure Speeds.Sound (speeds : Speeds Float) : Prop where
  drive : ∃ x, speeds.drive = .ok x ∧ Signed false x
  turn : ∃ x, speeds.turn = .ok x ∧ Signed false x
  multiplier : ∃ x v, speeds.multiplier = .ok x ∧ HasValue x v ∧ 0 < v

section Plans

variable {leg : Layout.Leg Float} {l : Layout Float} {speeds : Speeds Float} {g : Segment Float}
  {p : Plan Float}

theorem bounded_planHeading (trig : Trigonometry) {h : Float} (hh : Double.Bounded N h)
    (small : N ≤ 900) :
    letI := trig.scalar
    Double.Bounded (N + 10) (planHeading h) :=
  bounded_toDegrees trig hh.neg small

theorem exists_segmentOf (circular : trig.Circular) (hbefore : leg.before.Bounded N)
    (hmove : leg.move.Bounded N) (small : N ≤ 800) :
    letI := trig.scalar
    ∃ g, segmentOf leg = .ok g ∧ g.Bounded N := by
  let := trig.scalar
  obtain ⟨control, found, bounded, some⟩ :=
    exists_controlOf circular hbefore.point hmove.pose.point hmove.control (by omega)
  exact ⟨_, bind_eq_ok.mpr ⟨control, found, rfl⟩,
    { a := hbefore.point
      b := hmove.pose.point
      length := bounded_distance trig hbefore.point hmove.pose.point (by omega)
      bearing := bounded_bearing circular.toLawful hbefore.point hmove.pose.point (by omega)
      control := bounded
      exists_control := some
      startHeading := bounded_planHeading trig hbefore.h (by omega)
      endHeading := bounded_planHeading trig hmove.pose.h (by omega) }⟩

theorem exists_fieldPolyline (trig : Trigonometry) (h : l.Bounded N) (small : N ≤ 34) :
    letI := trig.scalar
    ∃ points, fieldPolyline l = .ok points ∧ ∀ q ∈ points, q.Bounded (N + 12) := by
  refine Polyline.exists_bounded_refine trig (Polyline.bounded_smooth trig ?_ (by omega)) (by omega)
  refine List.forall_mem_cons.mpr ⟨h.start.point, ?_⟩
  rw [List.forall_mem_map]
  exact fun m hm => (h.moves m hm).pose.point

theorem exists_bounded_segments (circular : trig.Circular) (h : l.Bounded N) (small : N ≤ 800) :
    letI := trig.scalar
    ∃ gs, l.legs.mapM segmentOf = .ok gs ∧ ∀ g ∈ gs, g.Bounded N := by
  let := trig.scalar
  have each {leg : Layout.Leg Float} (hl : leg ∈ l.legs) :
      ∃ g, segmentOf leg = .ok g ∧ g.Bounded N := by
    obtain ⟨hbefore, hmove⟩ := h.legs leg hl
    exact exists_segmentOf circular hbefore hmove small
  obtain ⟨gs, made⟩ := exists_mapM fun leg hl => (each hl).imp fun _ => And.left
  refine ⟨gs, made, fun g hg => ?_⟩
  obtain ⟨leg, hl, same⟩ := forall_mem_of_mapM made g hg
  obtain ⟨g', same', bounded⟩ := each hl
  obtain rfl := Except.ok.inj (same.symm.trans same')
  exact bounded

/-- The plan of a path with bounded numbers can be made. -/
theorem exists_buildPlan (circular : trig.Circular) (sound : speeds.Sound) (mode : Mode)
    (h : l.Bounded N) (small : N ≤ 34) :
    letI := trig.scalar
    ∃ p, buildPlan speeds mode l = .ok p ∧ p.mode = mode ∧ p.Bounded N := by
  let := trig.scalar
  obtain ⟨drive, hdrive, forward⟩ := sound.drive
  obtain ⟨turn, hturn, around⟩ := sound.turn
  obtain ⟨multiplier, v, hmultiplier, value, positive⟩ := sound.multiplier
  obtain ⟨segments, made, each⟩ := exists_bounded_segments circular h (by omega)
  have finish {points : List (Point Float)} (within : ∀ q ∈ points, q.Bounded (N + 12)) :
      ∃ p, (do
        let drive ← speeds.drive
        let turn ← speeds.turn
        return ⟨mode, l.start.point, planHeading l.start.h, segments, points, drive * multiplier,
          turn * multiplier⟩ : Outcome (Plan Float)) = .ok p ∧ p.mode = mode ∧ p.Bounded N :=
    ⟨_, bind_eq_ok.mpr ⟨drive, hdrive, bind_eq_ok.mpr ⟨turn, hturn, rfl⟩⟩, rfl,
      { start := h.start.point
        startHeading := bounded_planHeading trig h.start.h (by omega)
        segments := each
        fieldPoints := within
        driveSpeed := forward.mul_of_pos value positive
        turnRate := around.mul_of_pos value positive }⟩
  rw [buildPlan, hmultiplier, ok_bind, made, ok_bind]
  dsimp only
  split
  · obtain ⟨points, found, within⟩ := exists_fieldPolyline trig h small
    rw [found, ok_bind]
    exact finish within
  · exact finish fun q hq => absurd hq List.not_mem_nil

theorem Segment.Bounded.exists_curvePoint (h : g.Bounded N) (trig : Trigonometry)
    (arc : g.kind = .arc) {t : Float} (ht : Double.Bounded 1 t) (small : N ≤ 800) :
    letI := trig.scalar
    ∃ q, g.curvePoint t = .ok q ∧ q.Bounded (N + 21) := by
  let := trig.scalar
  obtain ⟨c, found⟩ := h.exists_control arc
  rw [Segment.curvePoint]
  split
  · exact ⟨_, rfl, h.a.mono (by omega)⟩
  · split
    · exact ⟨_, rfl, h.b.mono (by omega)⟩
    · refine ⟨_, by rw [Segment.requireControl, found]; rfl, ?_⟩
      exact bounded_inner trig ht (h.a.mono (by omega)) (h.control c found) (h.b.mono (by omega))
        (by omega)

/-- A plan with bounded numbers can be drawn. -/
theorem Plan.Bounded.exists_previewPoints (h : p.Bounded N) (trig : Trigonometry) (small : N ≤ 800) :
    letI := trig.scalar
    ∃ points, p.previewPoints = .ok points := by
  let := trig.scalar
  have each {g : Segment Float} (hg : g ∈ p.segments) : ∃ qs, g.previewPoints = .ok qs := by
    have bounded := h.segments g hg
    cases kind : g.kind with
    | drive | strafe => exact ⟨_, by rw [Segment.previewPoints, kind]⟩
    | arc =>
      rw [Segment.previewPoints, kind]
      refine exists_mapM fun k hk => ?_
      have few : k ≤ 20 := Nat.le_of_lt_succ (List.mem_range.mp hk)
      obtain ⟨q, found, -⟩ := bounded.exists_curvePoint trig kind
        (bounded_parameter trig few (by decide) (by decide)) small
      exact ⟨q, found⟩
  obtain ⟨lists, drawn⟩ := exists_mapM fun g => each
  rw [Plan.previewPoints]
  split
  · exact ⟨_, rfl⟩
  · exact ⟨_, bind_eq_ok.mpr ⟨lists, drawn, rfl⟩⟩

end Plans

end PathStudio.Simulation
