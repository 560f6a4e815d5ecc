import PathStudio.Proofs.Simulation.Plan
import PathStudio.Proofs.Simulation.Run
import PathStudio.Proofs.Simulation.Safety
import PathStudio.Proofs.Program.Adoption
import PathStudio.Proofs.Program.Robot.Double
import PathStudio.Proofs.Scalar.Comparison

/-!
# Runs on doubles

In robot mode a run goes through the stages of its plan one after the other,
whatever the increments of time are: nothing but its arithmetic can refuse a
step, every segment is passed once, and where a completed run ends and what it
visits is told by the plan alone.
-/

namespace PathStudio.Simulation

open Double
open Program (IsArithmetic failsOnly_floor)
open Program.Robot (axes)

theorem ordered (trig : Trigonometry) : @Ordered Float _ _ _ _ _ trig.scalar := by
  let := trig.scalar
  constructor
  · intro x below
    exact decide_eq_false (not_le_of_lt (of_decide_eq_true below))
  · intro x zero
    obtain ⟨s, hs⟩ := exists_zero_of_beq zero
    have shortest : Binary.ofFloat (Double.ofDecimal false 1 (-9)) =
        .finite false 4835703278458517 (-82) := by decide +kernel
    refine decide_eq_true (?_ : x ≤ Double.ofDecimal false 1 (-9))
    rw [le_iff, hs, shortest]
    rfl

theorem failsOnly_remainder (x y : Float) : FailsOnly IsArithmetic (Double.remainder x y) := by
  rw [Double.remainder]
  split
  next => exact .ok _
  next => exact .ok _
  next => exact .error (.inl rfl)
  next => exact .ok _
  next =>
    split
    · exact .error (.inl rfl)
    · exact .ok _

theorem refuses (trig : Trigonometry) : @Refuses Float _ _ _ _ _ trig.scalar IsArithmetic := by
  let := trig.scalar
  exact ⟨failsOnly_remainder, failsOnly_floor⟩

/-- A run in robot mode keeps to the segments of its plan and to their phases, leaves each only for
the next one and is refused only by the arithmetic of the numbers. A completed run has turned into
every segment once and travelled it once, in the order of the plan, and turned out of each at most
once. -/
theorem run_passes_each_segment_once (trig : Trigonometry) :
    letI := trig.scalar
    ∀ (speeds : Speeds Float) (l : Layout Float) (p : Plan Float),
      buildPlan speeds (.dialect .robot) l = .ok p →
        (∀ s, Reached p s →
          (s.running = true → ∃ (i : Nat) (g : Segment Float), p.segments[i]? = some g ∧ s.seg = i ∧
            (s.phase = .turn ∨ s.phase = .arrivalTurn ∨ s.phase = .moving g.kind)) ∧
          (s.running = false ↔ s.phase = .done) ∧ (s.running = false ↔ s.seg = p.segments.length) ∧
          ∀ ms, FailsOnly IsArithmetic (step p s (.ok ms)) ∧
            ∀ next finished, step p s (.ok ms) = .ok (next, finished) →
              next.label = s.label ∨ Advances p s.label next.label) ∧
        ∀ increment limit r r',
          Change.on (Runner.run (buildPlan speeds (.dialect .robot) l) increment limit) r =
              (.ok (), r') →
            r'.running = false →
              timesIn (phaseVisits r'.trace) .turn = p.segments.length ∧
              (∀ kind, timesIn (phaseVisits r'.trace) (.moving kind) =
                p.segments.countP (·.kind = kind)) ∧
              timesIn (phaseVisits r'.trace) .arrivalTurn ≤ p.segments.length ∧
              (visits (r'.trace.toList.drop 1)).Nodup := by
  let := trig.scalar
  have := ordered trig
  intro speeds l p built
  obtain ⟨mode, follows⟩ := follows_of_buildPlan built
  have robot : p.mode.isField = false := by rw [mode]; rfl
  constructor
  · intro s reached
    obtain ⟨before, stage⟩ := reached.exists_stage robot
    refine ⟨stage.exists_segment, stage.running_eq_false_iff_phase, stage.running_eq_false_iff_seg, ?_⟩
    intro ms
    constructor
    · refine (refuses trig).step robot ?_ stage
      intro g hg arc
      obtain ⟨i, hi⟩ := List.getElem?_of_mem hg
      exact follows.exists_control hi arc
    · intro next finished taken
      exact (stage.goes_step robot taken).imp And.left And.left
  · intro increment limit r r' completed stopped
    rw [built] at completed
    have track := Runner.onTrack_of_run robot completed stopped
    obtain ⟨s, -, -, -, -, -, -, -, seen⟩ := track.exists_over stopped
    have counts (phase : Phase) : timesIn (phaseVisits r'.trace) phase =
        (p.stages p.segments.length).countP (·.2 = phase) := by
      rw [timesIn_phaseVisits, seen]
    rw [counts, counts, seen, Plan.countP_turn_stages, Plan.countP_arrivalTurn_stages]
    refine ⟨rfl, ?_, List.countP_le_length, nodup_stagesFrom _ _⟩
    intro kind
    rw [counts, Plan.countP_moving_stages]

/-- A path with one move of each kind. -/
def around : Layout Float :=
  { start := ⟨0.0, 0.0, 0.0⟩
    waypoints := [.move ⟨.drive, ⟨1.0, 0.0, 0.5⟩, 0.8⟩, .move ⟨.strafe, ⟨1.0, 1.0, 0.0⟩, 0.8⟩,
      .move ⟨.arc (some ⟨1.0, 2.0⟩), ⟨1.0, 3.0, -1.0⟩, 0.5⟩]
    markers := []
    selection := none }

/-- A metre and a quarter turn in a second. -/
def steady : Speeds Float := ⟨.ok 1.0, .ok 1.0, .ok 90.0⟩

theorem on_eq_of_isSome {e : Running Float Unit} {r : Runner Float}
    (h : (Change.on e r).1.toOption.isSome = true) :
    Change.on e r = (.ok (), (Change.on e r).2) := by
  obtain ⟨⟨⟩, answered⟩ := exists_of_isSome_toOption h
  exact Prod.ext answered rfl

theorem run_passes_each_segment_once_around :
    letI := axes.scalar
    ∃ p r', buildPlan steady (.dialect .robot) around = .ok p ∧
      Change.on (Runner.run (buildPlan steady (.dialect .robot) around) (.given (.ok 500.0))
        (.ok 16)) Runner.idle = (.ok (), r') ∧
      r'.running = false ∧
      FailsOnly IsArithmetic (step p (initialState p) (.ok 500.0)) ∧
      timesIn (phaseVisits r'.trace) .turn = p.segments.length ∧
      timesIn (phaseVisits r'.trace) (.moving .arc) = p.segments.countP (·.kind = .arc) ∧
      (visits (r'.trace.toList.drop 1)).Nodup := by
  let := axes.scalar
  obtain ⟨p, built⟩ : ∃ p, buildPlan steady (.dialect .robot) around = .ok p :=
    exists_of_isSome_toOption (by decide)
  have completed := on_eq_of_isSome
    (e := Runner.run (buildPlan steady (.dialect .robot) around) (.given (.ok 500.0)) (.ok 16))
    (r := Runner.idle) (by decide +kernel)
  have stopped : (Change.on (Runner.run (buildPlan steady (.dialect .robot) around)
      (.given (.ok 500.0)) (.ok 16)) Runner.idle).2.running = false := by decide +kernel
  obtain ⟨reached, counts⟩ := run_passes_each_segment_once axes steady around p built
  obtain ⟨turns, moves, -, once⟩ := counts _ _ _ _ completed stopped
  exact ⟨p, _, built, completed, stopped, ((reached _ .start).2.2.2 _).1, turns, moves .arc, once⟩

/-- Completed runs of one plan in robot mode, with whatever increments, end at one place with one
heading and have visited the same segments and phases in the same order. -/
theorem completed_runs_agree (trig : Trigonometry) :
    letI := trig.scalar
    ∀ (speeds : Speeds Float) (l : Layout Float) (p : Plan Float),
      buildPlan speeds (.dialect .robot) l = .ok p →
        ∀ (increments increments' : List (Increment Float)) (r r' : Runner Float),
          Change.on (Runner.tickAll increments) (Runner.begun p) = (.ok (), r) →
          Change.on (Runner.tickAll increments') (Runner.begun p) = (.ok (), r') →
          r.running = false → r'.running = false →
            ∃ s s', r.state = some s ∧ r'.state = some s' ∧
              s.x = s'.x ∧ s.y = s'.y ∧ s.heading = s'.heading ∧
              s.seg = s'.seg ∧ s.phase = s'.phase ∧ s.index = s'.index ∧
              visits r.trace.toList = visits r'.trace.toList := by
  let := trig.scalar
  have := ordered trig
  intro speeds l p built increments increments' r r' run run' stopped stopped'
  have robot : p.mode.isField = false := by
    rw [(follows_of_buildPlan built).1]
    rfl
  have track := Runner.onTrack_of_tickAll robot run
  have track' := Runner.onTrack_of_tickAll robot run'
  obtain ⟨s, state, phase, seg, -, index, place, facing, seen⟩ := track.exists_over stopped
  obtain ⟨s', state', phase', seg', -, index', place', facing', seen'⟩ :=
    track'.exists_over stopped'
  have point : s.point = s'.point := Except.ok.inj (place.symm.trans place')
  refine ⟨s, s', state, state', congrArg Point.x point, congrArg Point.y point,
    Except.ok.inj (facing.symm.trans facing'), ?_, ?_, ?_, ?_⟩
  · rw [seg, seg']
  · rw [phase, phase']
  · rw [index, index']
  · rw [track.visits_eq, track'.visits_eq, seen, seen']

/-- Whether increments complete the run of a plan. -/
def completes (p : Plan Float) (increments : List (Increment Float)) : Bool :=
  letI := axes.scalar
  let ticked := Change.on (Runner.tickAll increments) (Runner.begun p)
  ticked.1.toOption.isSome && !ticked.2.running

theorem exists_run_of_completes {p : Plan Float} {increments : List (Increment Float)}
    (h : completes p increments = true) :
    letI := axes.scalar
    ∃ r, Change.on (Runner.tickAll increments) (Runner.begun p) = (.ok (), r) ∧
      r.running = false := by
  let := axes.scalar
  obtain ⟨answered, stopped⟩ := Bool.and_eq_true_iff.mp h
  exact ⟨_, on_eq_of_isSome answered, (Bool.not_eq_true' _).mp stopped⟩

theorem completed_runs_agree_around :
    letI := axes.scalar
    ∃ p r r', buildPlan steady (.dialect .robot) around = .ok p ∧
      Change.on (Runner.tickAll (.replicate 16 (.given (.ok 500.0)))) (Runner.begun p) =
        (.ok (), r) ∧
      Change.on (Runner.tickAll (.given (.ok 1.0) :: .replicate 40 (.given (.ok 300.0))))
        (Runner.begun p) = (.ok (), r') ∧
      r.running = false ∧ r'.running = false ∧
      ∃ s s', r.state = some s ∧ r'.state = some s' ∧ s.x = s'.x ∧ s.y = s'.y ∧
        s.heading = s'.heading ∧ visits r.trace.toList = visits r'.trace.toList := by
  let := axes.scalar
  have both : (buildPlan steady (.dialect .robot) around).toOption.any (fun p =>
      completes p (.replicate 16 (.given (.ok 500.0))) &&
        completes p (.given (.ok 1.0) :: .replicate 40 (.given (.ok 300.0)))) = true := by
    decide +kernel
  obtain ⟨p, built⟩ : ∃ p, buildPlan steady (.dialect .robot) around = .ok p :=
    exists_of_isSome_toOption (by decide)
  rw [built] at both
  obtain ⟨one, other⟩ := Bool.and_eq_true_iff.mp both
  obtain ⟨r, run, stopped⟩ := exists_run_of_completes one
  obtain ⟨r', run', stopped'⟩ := exists_run_of_completes other
  obtain ⟨s, s', state, state', x, y, heading, -, -, -, seen⟩ :=
    completed_runs_agree axes steady around p built _ _ r r' run run' stopped stopped'
  exact ⟨p, r, r', built, run, run', stopped, stopped', s, s', state, state', x, y, heading, seen⟩

end PathStudio.Simulation
