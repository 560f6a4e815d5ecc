import PathStudio.Proofs.Change
import PathStudio.Proofs.Simulation.Double
import PathStudio.Proofs.Simulation.Magnitude

/-!
# Steps of bounded plans

A step of a run of a bounded plan is not refused, and the place and the heading of the robot stay
bounded, however many steps are taken and however fast the robot is.
-/

namespace PathStudio.Simulation

open Binary Double

variable {N : Nat} {trig : Trigonometry}

/-- A state with a bounded place and heading, and a progress without a minus sign. -/
structure State.Bounded (N : Nat) (s : State Float) : Prop where
  x : Double.Bounded (N + 21) s.x
  y : Double.Bounded (N + 21) s.y
  heading : Double.Bounded (N + 12) s.heading
  progress : Signed false s.progress

theorem signed_zero : Signed false (Double.ofInt 0) := by
  constructor <;> decide

section Turns

variable {p : Plan Float} {g : Segment Float} {s : State Float} {heading target most : Float}

/-- A turn toward a heading goes on, by at most what is left, or it ends at the heading. -/
theorem exists_rotate (trig : Trigonometry) (hheading : Double.Bounded N heading)
    (htarget : Double.Bounded 8 target) (forward : Signed false most) (small : N ≤ 800) :
    letI := trig.scalar
    rotate heading target most = .ok (target, true) ∨
      ∃ next, rotate heading target most = .ok (next, false) ∧ Double.Bounded 8 next := by
  let := trig.scalar
  obtain ⟨difference, normal, within⟩ :=
    exists_bounded_normalizeDegrees trig (htarget.sub hheading (by omega))
  rw [rotate, normal, ok_bind]
  by_cases near : Scalar.le (Scalar.abs difference) snapAngle = true
  · left
    rw [if_pos near]
    rfl
  · right
    rw [if_neg near]
    have least : Double.Bounded 8 (Scalar.min most difference.abs) := by
      rw [Scalar.min]
      split
      next => exact within.abs
      next short =>
        obtain ⟨v, hv, bound⟩ := within.abs
        have below : most ≤ difference.abs :=
          le_of_not_lt within.abs.ne_notANumber forward.1 fun less => short (decide_eq_true less)
        obtain ⟨u, hu, nonneg, under⟩ := forward.exists_of_le hv below
        refine ⟨u, hu, ?_⟩
        rw [abs_of_nonneg nonneg]
        exact under.trans ((le_abs_self v).trans bound)
    have step : Double.Bounded 8 (Scalar.copySign (Scalar.min most difference.abs) difference) := by
      change Double.Bounded 8 (if isNegative difference then _ else _)
      split
      · exact least.abs.neg
      · exact least.abs
    obtain ⟨next, reached, bounded⟩ :=
      exists_bounded_normalizeDegrees trig (hheading.add step (by omega))
    exact ⟨next, bind_eq_ok.mpr ⟨next, reached, rfl⟩, bounded⟩

theorem Segment.Bounded.exists_course (h : g.Bounded N) (trig : Trigonometry) :
    letI := trig.scalar
    ∃ heading, g.course = .ok heading ∧ Double.Bounded 8 heading := by
  let := trig.scalar
  obtain ⟨target, normal, within⟩ := exists_bounded_normalizeDegrees trig h.bearing
  rw [Segment.course, normal, ok_bind]
  cases g.kind with
  | drive | arc => exact ⟨target, rfl, within⟩
  | strafe =>
    have quarter : Apart 0 (Double.ofInt 90) := by decide
    have half : Double.Bounded 0 (Double.ofDecimal false 5 (-1)) := bounded_tenths (by decide)
    have turn : Double.Bounded 7 (Double.ofInt 90) := Double.bounded_ofInt (by decide) (by decide)
    obtain ⟨k, whole, few⟩ := ((within.div quarter (by decide)).add half (by decide)).exists_floor
    obtain ⟨heading, turned, bounded⟩ :=
      exists_bounded_normalizeDegrees trig ((bounded_ofInt few (by decide)).mul turn (by decide))
    exact ⟨heading, bind_eq_ok.mpr ⟨k, whole, turned⟩, bounded⟩

theorem State.Bounded.of_heading (h : s.Bounded N) (within : Double.Bounded 8 heading) :
    State.Bounded N { s with heading } :=
  ⟨h.x, h.y, within.mono (by omega), h.progress⟩

theorem State.Bounded.nextSegment (h : s.Bounded N) (p : Plan Float) (trig : Trigonometry) :
    letI := trig.scalar
    (s.nextSegment p).Bounded N := by
  let := trig.scalar
  rw [State.nextSegment]
  split
  · exact ⟨h.x, h.y, h.heading, h.progress⟩
  · exact ⟨h.x, h.y, h.heading, signed_zero⟩

theorem exists_stepTurn (trig : Trigonometry) (hg : g.Bounded N) (hs : s.Bounded N)
    (forward : Signed false most) (small : N ≤ 700) :
    letI := trig.scalar
    ∃ next, stepTurn g s most = .ok next ∧ next.Bounded N := by
  let := trig.scalar
  obtain ⟨target, normal, within⟩ := exists_bounded_normalizeDegrees trig hg.bearing
  obtain turned | ⟨heading, turning, bounded⟩ :=
    exists_rotate trig hs.heading within forward (by omega)
  · obtain ⟨heading, course, bounded⟩ := hg.exists_course trig
    have faced := hs.of_heading bounded
    exact ⟨_, stepTurn_of_turned normal turned course, faced.x, faced.y, faced.heading, signed_zero⟩
  · exact ⟨_, stepTurn_of_turning normal turning, hs.of_heading bounded⟩

theorem exists_stepArrivalTurn (trig : Trigonometry) (hg : g.Bounded N) (hs : s.Bounded N)
    (forward : Signed false most) (small : N ≤ 700) :
    letI := trig.scalar
    ∃ next, stepArrivalTurn p g s most = .ok next ∧ next.Bounded N := by
  let := trig.scalar
  obtain ⟨target, normal, within⟩ := exists_bounded_normalizeDegrees trig hg.endHeading
  obtain turned | ⟨heading, turning, bounded⟩ :=
    exists_rotate trig hs.heading within forward (by omega)
  · exact ⟨_, stepArrivalTurn_of_turned normal turned, (hs.of_heading within).nextSegment p trig⟩
  · exact ⟨_, stepArrivalTurn_of_turning normal turning, hs.of_heading bounded⟩

end Turns

section Travels

variable {p : Plan Float} {g : Segment Float} {s : State Float}
  {heading progress fraction seconds : Float}

theorem hasValue_ofInt_one : HasValue (Double.ofInt 1) 1 := by
  exact_mod_cast hasValue_ofInt (n := 1) (by decide)

/-- Whatever a progress without a minus sign is, it has reached a part of the segment. -/
theorem exists_fractionOf (trig : Trigonometry) (hg : g.Bounded N) (forward : Signed false progress) :
    letI := trig.scalar
    ∃ fraction, fractionOf g progress = .ok fraction ∧ Double.Bounded 0 fraction := by
  let := trig.scalar
  have one : Double.Bounded 0 (Double.ofInt 1) := Double.bounded_ofInt (by decide) (by decide)
  rw [fractionOf]
  split
  · exact ⟨_, rfl, one⟩
  next long =>
    obtain ⟨v, hv, -⟩ := hg.length
    have shortest : Binary.ofFloat (Double.ofDecimal false 1 (-9)) =
        .finite false 4835703278458517 (-82) := by decide +kernel
    have least : HasValue (shortestTravel : Float)
        (factor false * (4835703278458517 * 2 ^ (-82 : Int))) :=
      ⟨false, 4835703278458517, -82, shortest, by norm_num⟩
    have positive : 0 < v := by
      have above : ¬ v ≤ _ := fun most => long (decide_eq_true ((le_iff_of_hasValue hv least).mpr most))
      have some : (0 : ℚ) < factor false * (4835703278458517 * 2 ^ (-82 : Int)) := by
        rw [factor_false]
        positivity
      exact some.trans (not_le.mp above)
    rw [divide_of_pos trig hv positive]
    refine ⟨_, rfl, ?_⟩
    rw [Scalar.min]
    split
    next less =>
      obtain ⟨u, hu, nonneg, below⟩ :=
        (forward.div_of_pos hv positive).exists_of_lt hasValue_ofInt_one (of_decide_eq_true less)
      refine ⟨u, hu, ?_⟩
      rw [abs_of_nonneg nonneg]
      simpa using below.le
    next => exact one

theorem Segment.Bounded.exists_reached (hg : g.Bounded N) (trig : Trigonometry)
    (hheading : Double.Bounded (N + 12) heading) (part : Double.Bounded 0 fraction) (small : N ≤ 800) :
    letI := trig.scalar
    ∃ point heading', g.reached heading fraction = .ok (point, heading') ∧
      point.Bounded (N + 21) ∧ Double.Bounded (N + 12) heading' := by
  let := trig.scalar
  have straight : (Polyline.between g.a g.b fraction).Bounded (N + 21) :=
    (bounded_between trig part hg.a hg.b (by omega)).mono (by omega)
  rw [Segment.reached]
  cases kind : g.kind with
  | drive => exact ⟨_, _, rfl, straight, hg.bearing.mono (by omega)⟩
  | strafe => exact ⟨_, _, rfl, straight, hheading⟩
  | arc =>
    obtain ⟨point, found, within⟩ := hg.exists_curvePoint trig kind (part.mono (by decide)) small
    have swing := (hg.endHeading.sub hg.startHeading (by omega)).mul part (by omega)
    obtain ⟨heading', normal, bounded⟩ :=
      exists_bounded_normalizeDegrees trig (hg.startHeading.add swing (by omega))
    exact ⟨point, heading', bind_eq_ok.mpr ⟨point, found, bind_eq_ok.mpr ⟨heading', normal, rfl⟩⟩,
      within, bounded.mono (by omega)⟩

theorem Segment.Bounded.exists_turnsFrom (hg : g.Bounded N) (trig : Trigonometry)
    (hheading : Double.Bounded (N + 12) heading) (small : N ≤ 800) :
    letI := trig.scalar
    ∃ out, g.turnsFrom heading = .ok out := by
  let := trig.scalar
  obtain ⟨difference, normal, -⟩ :=
    exists_bounded_normalizeDegrees trig (hg.endHeading.sub hheading (by omega))
  rw [Segment.turnsFrom, normal]
  split
  · exact ⟨_, rfl⟩
  · exact ⟨_, rfl⟩

theorem exists_stepTravel (trig : Trigonometry) (hg : g.Bounded N) (hs : s.Bounded N)
    (phase : s.phase = .moving g.kind)
    (forward : letI := trig.scalar; Signed false (p.driveSpeed * seconds)) (small : N ≤ 800) :
    letI := trig.scalar
    ∃ next, stepTravel p g s seconds = .ok next ∧ next.Bounded N := by
  let := trig.scalar
  have gained := hs.progress.add forward
  obtain ⟨fraction, reached, part⟩ := exists_fractionOf trig hg gained
  obtain ⟨point, heading, found, hpoint, hheading⟩ := hg.exists_reached trig hs.heading part small
  have moved : State.Bounded N { s with
      x := point.x, y := point.y, heading, progress := s.progress + p.driveSpeed * seconds
      traveled := s.traveled + p.driveSpeed * seconds } :=
    ⟨hpoint.x, hpoint.y, hheading, gained⟩
  rw [stepTravel_eq phase]
  dsimp only
  rw [reached, ok_bind, found, ok_bind]
  dsimp only
  split
  · obtain ⟨out, turns⟩ := hg.exists_turnsFrom trig hheading small
    rw [arrive_eq, turns]
    refine ⟨_, rfl, ?_⟩
    cases out with
    | true => exact ⟨moved.x, moved.y, moved.heading, moved.progress⟩
    | false => exact moved.nextSegment p trig
  · exact ⟨_, rfl, moved⟩

end Travels

/-! ## Walking -/

section Walks

variable {p : Plan Float} {s : State Float} {target : Point Float} {travel : Float}

/-- A walk toward a point arrives there or goes part of the way. -/
theorem exists_walkTo (circular : trig.Circular) (hs : s.Bounded N) (htarget : target.Bounded (N + 20))
    (forward : Signed false travel) (small : N ≤ 700) :
    letI := trig.scalar
    ∃ next, walkTo s target travel = .ok next ∧ next.Bounded N ∧
      (next.index = s.index ∨ next.index = s.index + 1) ∧ next.running = s.running := by
  let := trig.scalar
  have hx := htarget.x.sub hs.x (by omega)
  have hy := htarget.y.sub hs.y (by omega)
  have facing : Double.Bounded (N + 12)
      (if Scalar.lt (Double.ofInt 0) (hypot (target.x - s.x) (target.y - s.y)) then
        toDegrees (trig.atan2 (target.y - s.y) (target.x - s.x)) else s.heading) := by
    split
    · exact (bounded_toDegrees trig (bounded_atan2 circular.toLawful hy hx) (by decide)).mono
        (by omega)
    · exact hs.heading
  obtain ⟨a, ha, ba⟩ := hx.mono (by omega : _ ≤ N + 23)
  obtain ⟨b, hb, bb⟩ := hy.mono (by omega : _ ≤ N + 23)
  obtain ⟨d, hd, wide, wide', most⟩ := exists_hypot ha hb ba bb (by omega)
  rw [walkTo]
  split
  · exact ⟨_, rfl, ⟨htarget.x.mono (by omega), htarget.y.mono (by omega), facing, hs.progress⟩,
      .inr rfl, rfl⟩
  next far =>
    have short : travel < hypot (target.x - s.x) (target.y - s.y) :=
      lt_of_not_le (ofFloat_ne_notANumber hd) forward.1 fun near => far (decide_eq_true near)
    obtain ⟨r, hr, nonneg, less⟩ := forward.exists_of_lt hd short
    have positive : 0 < d := nonneg.trans_lt less
    refine ⟨_, bind_eq_ok.mpr ⟨_, divide_of_pos trig hd positive,
      bind_eq_ok.mpr ⟨_, divide_of_pos trig hd positive, rfl⟩⟩, ⟨?_, ?_, facing, hs.progress⟩,
      .inl rfl, rfl⟩
    · exact hs.x.approach htarget.x hd hr forward less (fun a' ha' => value_unique ha' ha ▸ wide) most
        (by omega)
    · exact hs.y.approach htarget.y hd hr forward less (fun b' hb' => value_unique hb' hb ▸ wide') most
        (by omega)

theorem exists_entryAt {α : Type} (entries : List α) {index : Int} (nonneg : 0 ≤ index)
    (inside : index < entries.length) : ∃ entry ∈ entries, entryAt entries index = .ok entry := by
  obtain ⟨i, rfl⟩ := Int.eq_ofNat_of_zero_le nonneg
  have found := List.getElem?_eq_getElem (Int.ofNat_lt.mp inside)
  exact ⟨_, List.mem_of_getElem? found, entryAt_natCast found⟩

theorem State.Bounded.finish (h : s.Bounded N) : s.finish.Bounded N :=
  ⟨h.x, h.y, h.heading, h.progress⟩

/-- A step along a bounded polyline. -/
theorem exists_stepField (circular : trig.Circular) (hp : p.Bounded N) (hs : s.Bounded N)
    (begun : 0 ≤ s.index) {seconds : Float} (forward : Signed false (p.driveSpeed * seconds))
    (small : N ≤ 700) :
    letI := trig.scalar
    ∃ next, stepField p s seconds = .ok next ∧ next.Bounded N ∧ 0 ≤ next.index := by
  let := trig.scalar
  rw [stepField]
  split
  · exact ⟨_, rfl, hs.finish, begun⟩
  next more =>
    obtain ⟨target, member, found⟩ := exists_entryAt p.fieldPoints
      (by omega : 0 ≤ s.index + 1) (by omega)
    obtain ⟨next, walked, bounded, index, -⟩ :=
      exists_walkTo circular hs ((hp.fieldPoints target member).mono (by omega)) forward small
    rw [found, ok_bind, walked, ok_bind]
    refine ⟨_, rfl, ?_⟩
    split
    · exact ⟨bounded.finish, by change 0 ≤ next.index; omega⟩
    · exact ⟨bounded, by omega⟩

end Walks

/-! ## Runs -/

section Runs

variable {p : Plan Float} {s : State Float} {before : List (Int × Phase)} {ms : Float}

/-- A state of a run of a plan: it has been reached, its numbers are bounded, and it does not count
from the end of the polyline. -/
structure Rides (trig : Trigonometry) (N : Nat) (p : Plan Float) (s : State Float) : Prop where
  reached : letI := trig.scalar; Reached p s
  bounded : s.Bounded N
  index : p.mode.isField = true → 0 ≤ s.index

theorem exists_stepRobot (trig : Trigonometry) (hp : p.Bounded N) (hs : s.Bounded N)
    (stage : letI := trig.scalar; Stage p before s) (running : s.running = true) {seconds : Float}
    (forward : Signed false (p.driveSpeed * seconds)) (around : Signed false (p.turnRate * seconds))
    (small : N ≤ 700) :
    letI := trig.scalar
    ∃ next, stepRobot p s seconds = .ok next ∧ next.Bounded N := by
  let := trig.scalar
  have segment {i : Nat} {g : Segment Float} (along : Along p i g s) : g.Bounded N :=
    hp.segments g (List.mem_of_getElem? along.segment)
  cases stage with
  | turning along phase =>
    rw [stepRobot_eq along, phase]
    exact exists_stepTurn trig (segment along) hs around small
  | travelling along phase =>
    rw [stepRobot_eq along, phase]
    exact exists_stepTravel trig (segment along) hs phase forward (by omega)
  | turningOut along phase =>
    rw [stepRobot_eq along, phase]
    exact exists_stepArrivalTurn trig (segment along) hs around small
  | ended _ _ stopped => cases running.symm.trans stopped

/-- A run of a bounded plan begins with a state of such a run. -/
theorem rides_initialState (trig : Trigonometry) (hp : p.Bounded N) :
    letI := trig.scalar
    Rides trig N p (initialState p) := by
  let := trig.scalar
  exact ⟨.start, ⟨hp.start.x.mono (by omega), hp.start.y.mono (by omega),
    hp.startHeading.mono (by omega), signed_zero⟩, fun _ => Int.le_refl 0⟩

/-- A step of a run of a bounded plan is not refused and leads to a state of such a run. -/
theorem Rides.exists_step (circular : trig.Circular) (hp : p.Bounded N) (h : Rides trig N p s)
    (goes : ∃ v, HasValue (ms / Double.ofInt 1000) v ∧ 0 < v) (small : N ≤ 700) :
    letI := trig.scalar
    ∃ next finished, step p s (.ok ms) = .ok (next, finished) ∧ Rides trig N p next := by
  let := trig.scalar
  have := ordered trig
  obtain ⟨v, hv, positive⟩ := goes
  have forward := hp.driveSpeed.mul_of_pos hv positive
  have around := hp.turnRate.mul_of_pos hv positive
  cases running : s.running with
  | false =>
    refine ⟨s, true, ?_, h⟩
    rw [step, running]
    rfl
  | true =>
    have ridden {next : State Float} (taken : step p s (.ok ms) =
        .ok ({ next with time := s.time + ms }, !next.running)) (bounded : next.Bounded N)
        (index : p.mode.isField = true → 0 ≤ next.index) :
        ∃ next finished, step p s (.ok ms) = .ok (next, finished) ∧ Rides trig N p next :=
      ⟨_, _, taken, h.reached.step taken,
        ⟨bounded.x, bounded.y, bounded.heading, bounded.progress⟩, index⟩
    cases field : p.mode.isField with
    | true =>
      obtain ⟨next, walked, bounded, index⟩ :=
        exists_stepField circular hp h.bounded (h.index field) forward small
      refine ridden ?_ bounded fun _ => index
      rw [step, running, field]
      exact bind_eq_ok.mpr ⟨ms, rfl, bind_eq_ok.mpr ⟨next, walked, rfl⟩⟩
    | false =>
      obtain ⟨before, stage⟩ := h.reached.exists_stage field
      obtain ⟨next, moved, bounded⟩ :=
        exists_stepRobot trig hp h.bounded stage running forward around small
      refine ridden ?_ bounded fun other => absurd (field.symm.trans other) (by decide)
      rw [step, running, field]
      exact bind_eq_ok.mpr ⟨ms, rfl, bind_eq_ok.mpr ⟨next, moved, rfl⟩⟩

end Runs

namespace Runner

open Change

/-- A runner whose state is bounded, and whose run, if one is going on, is that of a bounded plan. -/
structure Sound (trig : Trigonometry) (N : Nat) (r : Runner Float) : Prop where
  bounded : ∀ s, r.state = some s → s.Bounded N
  rides : ∀ s, r.state = some s → s.running = true →
    ∃ p, r.plan = some p ∧ p.Bounded N ∧ Rides trig N p s

theorem sound_idle (trig : Trigonometry) (N : Nat) : Sound trig N idle :=
  ⟨fun s hs => absurd hs.symm (Option.some_ne_none s), fun s hs => absurd hs.symm (Option.some_ne_none s)⟩

theorem Sound.halt {r : Runner Float} (h : r.Sound trig N) : r.halt.Sound trig N := by
  refine ⟨fun s hs => ?_, fun s hs running => ?_⟩
  · obtain ⟨t, ht, rfl⟩ := Option.map_eq_some_iff.mp hs
    have bounded := h.bounded t ht
    exact ⟨bounded.x, bounded.y, bounded.heading, bounded.progress⟩
  · obtain ⟨t, ht, rfl⟩ := Option.map_eq_some_iff.mp hs
    cases running

/-- The run that is going on has a plan and a state. -/
theorem Sound.exists_plan {r : Runner Float} (h : r.Sound trig N) (running : r.running = true) :
    ∃ p s, r.plan = some p ∧ r.state = some s ∧ p.Bounded N ∧ Rides trig N p s := by
  cases state : r.state with
  | none =>
    rw [Runner.running, state] at running
    cases running
  | some s =>
    rw [Runner.running, state] at running
    obtain ⟨p, plan, hp, rides⟩ := h.rides s state running
    exact ⟨p, s, plan, rfl, hp, rides⟩

theorem sound_begun (trig : Trigonometry) {p : Plan Float} (hp : p.Bounded N) :
    letI := trig.scalar
    (begun p).Sound trig N := by
  let := trig.scalar
  have rides := rides_initialState trig hp
  refine ⟨fun s hs => ?_, fun s hs _ => ?_⟩
  · obtain rfl := Option.some.inj hs
    exact rides.bounded
  · obtain rfl := Option.some.inj hs
    exact ⟨p, rfl, hp, rides⟩

theorem completes_start (trig : Trigonometry) {plan : Outcome (Plan Float)}
    (h : ∃ p, plan = .ok p ∧ p.Bounded N) :
    letI := trig.scalar
    Completes (Sound trig N) (start plan) fun _ => Sound trig N := by
  let := trig.scalar
  obtain ⟨p, rfl, hp⟩ := h
  intro r hr
  rw [on_start]
  split
  · exact ⟨_, _, rfl, hr⟩
  · exact ⟨_, _, rfl, sound_begun trig hp⟩

theorem completes_tick (circular : trig.Circular) {ms : Float}
    (goes : ∃ v, HasValue (ms / Double.ofInt 1000) v ∧ 0 < v) (small : N ≤ 700) :
    letI := trig.scalar
    Completes (fun r => Sound trig N r ∧ r.running = true) (tick (.standard (.ok ms)))
      fun _ => Sound trig N := by
  let := trig.scalar
  rintro r ⟨hr, running⟩
  obtain ⟨p, s, plan, state, hp, rides⟩ := hr.exists_plan running
  obtain ⟨next, finished, stepped, rides'⟩ := rides.exists_step circular hp goes small
  refine ⟨finished, _, (on_tick plan state _).trans
    (by rw [Increment.fetch, Except.map, ok_bind, stepped]), fun t ht => ?_, fun t ht _ => ?_⟩
  · obtain rfl := Option.some.inj ht
    exact rides'.bounded
  · obtain rfl := Option.some.inj ht
    exact ⟨p, plan, hp, rides'⟩

end Runner

end PathStudio.Simulation
