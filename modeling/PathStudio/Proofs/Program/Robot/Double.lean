import PathStudio.Proofs.Scalar.Direction
import PathStudio.Proofs.Program.Robot.RoundTrip

/-!
# Robot-oriented programs of doubles

Paths with finite positions and speeds are printed with numbers, but for the
lengths of arcs: the points of a curve may overflow where its ends do not.
-/

namespace PathStudio.Program.Robot

open Binary Double

variable {trig : Trigonometry}

/-- A point with finite coordinates. -/
def FinitePoint (p : Point Float) : Prop := p.x.isFinite = true ∧ p.y.isFinite = true

theorem faces_of_natAbs_le (trig : Trigonometry) {degrees : Int} (h : degrees.natAbs ≤ 181) :
    @Faces Float _ _ _ _ _ trig.scalar degrees := by
  have answers (f : Float → Float) :
      refuseInfinite f (ofDecimal (decide (degrees < 0)) degrees.natAbs 0 * pi / ofInt 180) =
        .ok (f (ofDecimal (decide (degrees < 0)) degrees.natAbs 0 * pi / ofInt 180)) :=
    if_neg (Bool.eq_false_iff.mp (isInf_radians (decide (degrees < 0)) h))
  exact ⟨_, _, answers trig.cos, answers trig.sin⟩

/-- A direction of numbers that can be rounded has a cosine and a sine. -/
theorem faces_of_rounded (lawful : trig.Lawful) {dx dy : Float} (hy : dy.isNaN = false)
    (hx : dx.isNaN = false) {degrees : Int}
    (rounded : floor (trig.atan2 dy dx * ofInt 180 / pi + ofDecimal false 5 (-1)) = .ok degrees) :
    @Faces Float _ _ _ _ _ trig.scalar degrees := by
  obtain ⟨lower, upper⟩ := lawful.atan2_bounds _ _ hy hx
  obtain ⟨k, hk, few⟩ := exists_floor_degrees lower upper
  obtain rfl : degrees = k := Except.ok.inj (rounded.symm.trans hk)
  exact faces_of_natAbs_le trig few

theorem navigable_of_finite (lawful : trig.Lawful) {p : Point Float} {m : Move Float}
    (hp : FinitePoint p) (hm : FinitePosition m.pose) (hs : m.speed.isFinite = true) :
    @Navigable Float _ _ _ _ _ trig.scalar p m := by
  obtain ⟨px, hpx⟩ := hasValue_of_isFinite hp.1
  obtain ⟨py, hpy⟩ := hasValue_of_isFinite hp.2
  obtain ⟨mx, hmx⟩ := hasValue_of_isFinite hm.1
  obtain ⟨my, hmy⟩ := hasValue_of_isFinite hm.2
  obtain ⟨speed, negative, mantissa, exponent, hspeed, -⟩ := hasValue_of_isFinite hs
  have dx := ofFloat_sub_ne_notANumber hmx hpx
  have dy := ofFloat_sub_ne_notANumber hmy hpy
  let := trig.scalar
  exact ⟨unitsHalfUp_ne_notANumber (ofFloat_hypot_ne_notANumber dx dy),
    unitsHalfUp_ne_notANumber (by rw [hspeed]; exact Binary.noConfusion),
    fun _ rounded => faces_of_rounded lawful (isNaN_eq_false dy) (isNaN_eq_false dx) rounded⟩

/-- All numbers of a path are finite. -/
structure FiniteNumbers (l : Layout Float) : Prop where
  start : FinitePosition l.start ∧ l.start.h.isFinite = true
  moves : ∀ m ∈ l.moves, FinitePosition m.pose ∧ m.pose.h.isFinite = true ∧
    m.speed.isFinite = true ∧ ∀ c, m.motion = .arc (some c) → FinitePoint c
  actions : ∀ a, .action a ∈ l.waypoints → FinitePosition a.pose ∧ a.pose.h.isFinite = true
  markers : ∀ m ∈ l.markers, m.x.isFinite = true ∧ m.y.isFinite = true

theorem navigable_of_finiteNumbers (lawful : trig.Lawful) {l : Layout Float} (h : FiniteNumbers l) :
    ∀ q m, (q, .move m) ∈ l.track → @Navigable Float _ _ _ _ _ trig.scalar q m := by
  intro q m hq
  obtain ⟨hm, rfl | ⟨m', hm', rfl⟩⟩ := Layout.mem_trackFrom hq
  · exact navigable_of_finite lawful h.start.1 (h.moves m hm).1 (h.moves m hm).2.2.1
  · exact navigable_of_finite lawful (h.moves m' hm').1 (h.moves m hm).1 (h.moves m hm).2.2.1

/-- A session with finite numbers, printed as a robot-oriented program, is read back, on top of any
earlier session, as its moves and calls in their order. What is left out is moves that go nowhere
and arcs whose length is not a number. -/
theorem read_print_retraces (trig : Trigonometry) (lawful : trig.Lawful) :
    letI := trig.scalar
    ∀ (s prior : Session Float) (samples : Outcome Int) (text : List Char),
      FiniteNumbers s.toLayout → s.CallsCarry Callable → print s.toLayout samples = .ok text →
        ∃ decoded, read text prior = .ok decoded ∧
          RetracedAs (s.track.filter fun step => !goesNowhere step && !lacksLength step) prior
            decoded := by
  intro s prior samples text finite calls printed
  let := trig.scalar
  exact exists_retracedAs (faces_of_natAbs_le trig (by decide))
    (navigable_of_finiteNumbers lawful finite) calls printed prior

/-- The trigonometric functions along the axes, as far as the first axis and the upper half of the
second one. -/
def axes : Trigonometry where
  cos t := if t == 0.0 then 1.0 else 6.123233995736766e-17
  sin t := if t == 0.0 then 0.0 else 1.0
  atan2 y _ := if 0.0 < y then pi / 2.0 else 0.0

theorem lawful_axes : axes.Lawful where
  atan2_bounds y x _ _ := by
    rw [axes]
    dsimp only
    split
    · exact ⟨by decide, by decide⟩
    · exact ⟨by decide, by decide⟩

/-- A path along the first axis: a drive between two calls of one marker, a move that goes nowhere,
and an arc. -/
def alongAxis : Session Float :=
  { start := ⟨0.0, 0.0, 0.0⟩
    waypoints := [.action ⟨⟨0.0, 0.0, 0.0⟩, 1⟩, .move ⟨.drive, ⟨1.0, 0.0, 0.5⟩, 0.8⟩,
      .action ⟨⟨1.0, 0.0, 0.0⟩, 1⟩, .move ⟨.strafe, ⟨1.0, 0.0, 0.0⟩, 0.8⟩,
      .move ⟨.arc (some ⟨2.0, 0.0⟩), ⟨3.0, 0.0, 0.0⟩, 0.5⟩]
    markers := [⟨1, 0.0, 0.0, "intake", "1, true"⟩]
    selection := none
    mode := .dialect .robot
    nextMarkerId := 2
    past := .empty }

theorem finiteNumbers_alongAxis : FiniteNumbers alongAxis.toLayout where
  start := by decide
  moves := by
    intro m hm
    have moves : alongAxis.moves = [⟨.drive, ⟨1.0, 0.0, 0.5⟩, 0.8⟩, ⟨.strafe, ⟨1.0, 0.0, 0.0⟩, 0.8⟩,
      ⟨.arc (some ⟨2.0, 0.0⟩), ⟨3.0, 0.0, 0.0⟩, 0.5⟩] := rfl
    rw [moves] at hm
    simp only [List.mem_cons, List.not_mem_nil, or_false] at hm
    obtain rfl | rfl | rfl := hm
    · exact ⟨by decide, by decide, by decide, by rintro c ⟨⟩⟩
    · exact ⟨by decide, by decide, by decide, by rintro c ⟨⟩⟩
    · refine ⟨by decide, by decide, by decide, ?_⟩
      rintro c ⟨⟩
      exact ⟨by decide, by decide⟩
  actions := by
    intro a ha
    simp only [alongAxis, List.mem_cons, List.not_mem_nil, or_false, Waypoint.action.injEq,
      reduceCtorEq, false_or] at ha
    obtain rfl | rfl := ha
    · exact ⟨by decide, by decide⟩
    · exact ⟨by decide, by decide⟩
  markers := by
    intro m hm
    rw [List.mem_singleton.mp hm]
    exact ⟨by decide, by decide⟩

theorem callsCarry_alongAxis : alongAxis.CallsCarry Callable := by
  have callable : Callable "intake".toList "1, true".toList :=
    ⟨by decide, by decide, by decide, by decide, by decide, by decide, by decide, by decide⟩
  intro name args h
  have entries : alongAxis.toLayout.entries = [.call "intake" "1, true",
      .move ⟨.drive, ⟨1.0, 0.0, 0.5⟩, 0.8⟩, .call "intake" "1, true",
      .move ⟨.strafe, ⟨1.0, 0.0, 0.0⟩, 0.8⟩,
      .move ⟨.arc (some ⟨2.0, 0.0⟩), ⟨3.0, 0.0, 0.0⟩, 0.5⟩] := rfl
  rw [entries] at h
  simp only [List.mem_cons, Entry.call.injEq, List.not_mem_nil, or_false, reduceCtorEq, false_or] at h
  obtain ⟨rfl, rfl⟩ | ⟨rfl, rfl⟩ := h
  · exact callable
  · exact callable

theorem read_print_retraces_along_axis :
    letI := axes.scalar
    ∃ text decoded, print alongAxis.toLayout (.ok defaultSamples) = .ok text ∧
      read text alongAxis = .ok decoded ∧
      RetracedAs (alongAxis.track.filter fun step => !goesNowhere step && !lacksLength step) alongAxis
        decoded := by
  let := axes.scalar
  obtain ⟨text, printed⟩ : ∃ text, print alongAxis.toLayout (.ok defaultSamples) = .ok text :=
    exists_of_isSome_toOption (by decide +kernel)
  obtain ⟨decoded, run, retraced⟩ := read_print_retraces axes lawful_axes alongAxis alongAxis _ text
    finiteNumbers_alongAxis callsCarry_alongAxis printed
  exact ⟨text, decoded, printed, run, retraced⟩

/-- The largest double. -/
def largest : Float := Float.ofBits 0x7FEFFFFFFFFFFFFF

/-- An arc whose inner points overflow. -/
def overflowingArc : Move Float := ⟨.arc (some ⟨largest, 1.0⟩), ⟨largest, 2.0, 0.0⟩, 0.8⟩

/-- A path of a single arc, whose inner points overflow. -/
def overflowing : Session Float :=
  { start := ⟨largest, 0.0, 0.0⟩
    waypoints := [.move overflowingArc]
    markers := []
    selection := none
    mode := .dialect .robot
    nextMarkerId := 1
    past := .empty }

theorem finiteNumbers_overflowing : FiniteNumbers overflowing.toLayout where
  start := by decide
  moves := by
    intro m hm
    have only : m = overflowingArc := List.mem_singleton.mp hm
    rw [only]
    refine ⟨by decide, by decide, by decide, ?_⟩
    rintro c ⟨⟩
    exact ⟨by decide, by decide⟩
  actions := by
    intro a ha
    cases List.mem_singleton.mp ha
  markers := by
    intro m hm
    cases hm

theorem callsCarry_overflowing : overflowing.CallsCarry Callable := by
  intro name args h
  have entries : overflowing.toLayout.entries = [.move overflowingArc] := rfl
  rw [entries] at h
  cases List.mem_singleton.mp h

/-- An arc whose length is not a number is not read back, although all numbers of its path are
finite and its program is printed. -/
theorem not_read_print_keeps_arcs :
    ¬ ∀ trig : Trigonometry, trig.Lawful →
      letI := trig.scalar
      ∀ (s prior : Session Float) (samples : Outcome Int) (text : List Char),
        FiniteNumbers s.toLayout → s.CallsCarry Callable → print s.toLayout samples = .ok text →
          ∃ decoded, read text prior = .ok decoded ∧
            RetracedAs (s.track.filter fun step => !goesNowhere step) prior decoded := by
  intro all
  let := axes.scalar
  obtain ⟨text, printed⟩ : ∃ text, print overflowing.toLayout (.ok defaultSamples) = .ok text :=
    exists_of_isSome_toOption (by decide +kernel)
  obtain ⟨kept, run, ⟨-, retraced⟩⟩ := all axes lawful_axes overflowing overflowing _ text
    finiteNumbers_overflowing callsCarry_overflowing printed
  obtain ⟨lost, run', ⟨-, retraced'⟩⟩ := exists_retracedAs (faces_of_natAbs_le axes (by decide))
    (navigable_of_finiteNumbers lawful_axes finiteNumbers_overflowing) callsCarry_overflowing printed
    overflowing
  obtain rfl : kept = lost := Except.ok.inj (run.symm.trans run')
  have track : overflowing.track = [(⟨largest, 0.0⟩, .move overflowingArc)] := rfl
  have moving : goesNowhere (⟨largest, 0.0⟩, .move overflowingArc) = false := by decide +kernel
  have hidden : isShown (⟨largest, 0.0⟩, .move overflowingArc) = false := by decide +kernel
  rw [track, List.filter_cons, moving] at retraced
  rw [track, List.filter_cons, hidden] at retraced'
  generalize kept.waypoints = waypoints at retraced retraced'
  cases retraced'
  cases retraced

end PathStudio.Program.Robot
