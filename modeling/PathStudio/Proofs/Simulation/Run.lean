import PathStudio.Proofs.Simulation.Visits
import PathStudio.Proofs.Change

/-!
# Runs

What every run of a plan keeps, however long its increments are: the state is in
a stage of the plan, and the visits of the trace are the stages that are behind,
with the present one if it has been seen. So the end of a run is known from the
plan alone.
-/

namespace PathStudio.Simulation

open Scalar

variable {ν : Type} [Add ν] [Sub ν] [Mul ν] [Div ν] [Neg ν] [Scalar ν]

/-- A state that a run of a plan comes to. -/
inductive Reached (p : Plan ν) : State ν → Prop
  | start : Reached p (initialState p)
  | step {s next : State ν} {increment : Outcome ν} {finished : Bool} (reached : Reached p s)
    (step : step p s increment = .ok (next, finished)) : Reached p next

/-! ## Steps -/

/-- A step of a run along the segments changes nothing after the end; before it the step is that of
the robot, and the time goes on. -/
theorem step_cases {p : Plan ν} {s next : State ν} {increment : Outcome ν} {finished : Bool}
    (robot : p.mode.isField = false) (h : step p s increment = .ok (next, finished)) :
    (s.running = false ∧ next = s ∧ finished = true) ∨
      (s.running = true ∧ finished = !next.running ∧ ∃ ms moved, increment = .ok ms ∧
        stepRobot p s (ms / 1000) = .ok moved ∧ next = { moved with time := s.time + ms }) := by
  rw [step] at h
  cases running : s.running with
  | false =>
    rw [running] at h
    cases h
    exact .inl ⟨rfl, rfl, rfl⟩
  | true =>
    rw [running] at h
    obtain ⟨ms, given, rest⟩ := bind_eq_ok.mp h
    dsimp only at rest
    rw [if_neg (by rw [robot]; exact Bool.false_ne_true)] at rest
    obtain ⟨moved, walked, last⟩ := bind_eq_ok.mp rest
    cases last
    exact .inr ⟨rfl, rfl, ms, moved, given, walked, rfl⟩

/-- A step of a run stays where the run is, or it goes on to the next stage. -/
theorem Stage.goes_step [Ordered ν] {p : Plan ν} {before : List (Int × Phase)} {s next : State ν}
    {increment : Outcome ν} {finished : Bool} (h : Stage p before s) (robot : p.mode.isField = false)
    (taken : step p s increment = .ok (next, finished)) : Goes p before s next := by
  obtain ⟨-, rfl, -⟩ | ⟨running, -, ms, moved, -, walked, rfl⟩ := step_cases robot taken
  · exact .inl ⟨rfl, h⟩
  · obtain ⟨label, stays⟩ | ⟨advances, leaves⟩ := h.goes_stepRobot running walked
    · exact .inl ⟨label, stays.of_time _⟩
    · exact .inr ⟨advances, leaves.of_time _⟩

/-- Wherever a run comes to, it is in a stage of its plan. -/
theorem Reached.exists_stage [Ordered ν] {p : Plan ν} {s : State ν} (robot : p.mode.isField = false)
    (h : Reached p s) : ∃ before, Stage p before s := by
  induction h with
  | start => exact ⟨[], stage_initialState robot⟩
  | step reached taken ih =>
    obtain ⟨before, stage⟩ := ih
    obtain ⟨-, stays⟩ | ⟨-, leaves⟩ := stage.goes_step robot taken
    · exact ⟨before, stays⟩
    · exact ⟨_, leaves⟩

/-! ## Runners -/

/-- A runner in the run of a plan: its trace has begun where the plan does, and after that has seen
the stages behind the state, with the present one or without it. -/
structure Runner.OnTrack (p : Plan ν) (r : Runner ν) : Prop where
  plan : r.plan = some p
  first : (r.trace.toList.map Frame.label).head? = some (initialState p).label
  exists_stage : ∃ s before, r.state = some s ∧ Stage p before s ∧
    (visits (r.trace.toList.drop 1) = before ∨
      s.running = true ∧ visits (r.trace.toList.drop 1) = before ++ [s.label])

namespace Runner

open Change

theorem onTrack_begun {p : Plan ν} (robot : p.mode.isField = false) : OnTrack p (begun p) where
  plan := rfl
  first := rfl
  exists_stage := ⟨_, [], rfl, stage_initialState robot, .inl rfl⟩

omit [Add ν] [Sub ν] [Mul ν] [Div ν] [Neg ν] [Scalar ν] in
/-- A frame that is added to a trace that has begun is the last of the frames after the first. -/
theorem drop_one_push {trace : Array (Frame ν)} {label : Int × Phase}
    (h : (trace.toList.map Frame.label).head? = some label) (f : Frame ν) :
    (trace.push f).toList.drop 1 = trace.toList.drop 1 ++ [f] := by
  rw [Array.toList_push]
  cases hl : trace.toList with
  | nil =>
    rw [hl] at h
    cases h
  | cons first rest => rfl

omit [Add ν] [Sub ν] [Mul ν] [Div ν] [Neg ν] [Scalar ν] in
/-- The frame of a step from a state shows the stage of the state. -/
theorem visits_concat_label {frames : List (Frame ν)} {before : List (Int × Phase)}
    {label : Int × Phase} {f : Frame ν} (present : f.label = label) (ahead : label ∉ before)
    (seen : visits frames = before ∨ visits frames = before ++ [label]) :
    visits (frames ++ [f]) = before ++ [label] := by
  rw [visits_concat, present]
  obtain seen | seen := seen
  · have : before.getLast? ≠ some label := fun last => ahead (List.mem_of_getLast? last)
    rw [seen, if_neg this]
  · rw [seen, if_pos List.getLast?_concat]

/-- What a tick of a run does to the runner. -/
theorem on_tick {p : Plan ν} {s : State ν} {r : Runner ν} (plan : r.plan = some p)
    (state : r.state = some s) (increment : Increment ν) :
    Change.on (tick increment) r =
      match increment.fetch >>= step p s with
      | .error fault => (.error fault, r)
      | .ok next => (.ok next.2, { r with
          state := some next.1
          trace := if s.running then r.trace.push (frame next.1 s.phase s.seg) else r.trace }) := by
  obtain ⟨_, _, trace⟩ := r
  dsimp only at plan state
  subst plan state
  change Change.on ((liftM increment.fetch : Running ν _) >>= fun given =>
    (liftM (step p s given) : Running ν _) >>= fun next => do
      set (⟨some p, some next.1,
        if s.running then trace.push (frame next.1 s.phase s.seg) else trace⟩ : Runner ν)
      return next.2) ⟨some p, some s, trace⟩ = _
  cases increment.fetch with
  | error fault => rfl
  | ok given =>
    rw [ok_bind]
    cases h : step p s given with
    | error fault => exact (on_bind_ok rfl).trans (on_bind_error (congrArg (·, _) h))
    | ok result => exact (on_bind_ok rfl).trans (on_bind_ok (congrArg (·, _) h))

theorem keeps_tick [Ordered ν] {p : Plan ν} (robot : p.mode.isField = false)
    (increment : Increment ν) : Keeps (OnTrack p) (tick increment) := by
  intro r hr
  obtain ⟨s, before, state, stage, seen⟩ := hr.exists_stage
  rw [on_tick hr.plan state]
  cases h : increment.fetch >>= step p s with
  | error fault => exact hr
  | ok result =>
    obtain ⟨given, -, taken⟩ := bind_eq_ok.mp h
    obtain ⟨after, finished⟩ := result
    have goes := stage.goes_step robot taken
    dsimp only
    cases running : s.running with
    | false =>
      obtain ⟨-, rfl, -⟩ | ⟨going, -⟩ := step_cases robot taken
      · exact ⟨hr.plan, hr.first, after, before, rfl, stage, seen⟩
      · rw [running] at going
        cases going
    | true =>
      have shown : visits ((r.trace.push (frame after s.phase s.seg)).toList.drop 1) =
          before ++ [s.label] := by
        rw [drop_one_push hr.first]
        exact visits_concat_label rfl (stage.label_notMem running) (seen.imp_right And.right)
      refine ⟨hr.plan, ?_, after, ?_⟩
      · rw [if_pos rfl, Array.toList_push, List.map_append, List.head?_append, hr.first]
        rfl
      · obtain ⟨label, stays⟩ | ⟨-, leaves⟩ := goes
        · refine ⟨before, rfl, stays, .inr ⟨?_, by rw [label]; exact shown⟩⟩
          have phase : after.phase = s.phase := congrArg Prod.snd label
          rw [← Bool.not_eq_false, stays.running_eq_false_iff_phase, phase,
            ← stage.running_eq_false_iff_phase, running]
          exact Bool.noConfusion
        · exact ⟨_, rfl, leaves, .inl shown⟩

theorem keeps_ticks [Ordered ν] {p : Plan ν} (robot : p.mode.isField = false)
    (increment : Increment ν) (limit : Nat) : Keeps (OnTrack p) (ticks increment limit) := by
  induction limit with
  | zero => exact keeps_pure ()
  | succ limit ih =>
    refine (keeps_tick robot increment).keeps_bind fun finished => ?_
    cases finished with
    | false => exact ih
    | true => exact keeps_pure ()

/-- Ticks with one increment after the other. -/
def tickAll : List (Increment ν) → Running ν Unit
  | [] => pure ()
  | increment :: rest => do
    let _ ← tick increment
    tickAll rest

theorem keeps_tickAll [Ordered ν] {p : Plan ν} (robot : p.mode.isField = false)
    (increments : List (Increment ν)) : Keeps (OnTrack p) (tickAll increments) := by
  induction increments with
  | nil => exact keeps_pure ()
  | cons increment rest ih => exact (keeps_tick robot increment).keeps_bind fun _ => ih

theorem onTrack_of_tickAll [Ordered ν] {p : Plan ν} (robot : p.mode.isField = false)
    {increments : List (Increment ν)} {r : Runner ν} {answer : Outcome Unit}
    (h : Change.on (tickAll increments) (begun p) = (answer, r)) : OnTrack p r := by
  have kept := keeps_tickAll robot increments _ (onTrack_begun robot)
  rwa [h] at kept

/-- Where a completed run has come to. -/
theorem OnTrack.exists_over {p : Plan ν} {r : Runner ν} (h : OnTrack p r)
    (stopped : r.running = false) : ∃ s, r.state = some s ∧ s.phase = .done ∧
      s.seg = p.segments.length ∧ s.running = false ∧ s.index = 0 ∧
      p.departure p.segments.length = .ok s.point ∧
      p.facing p.segments.length = .ok s.heading ∧
      visits (r.trace.toList.drop 1) = p.stages p.segments.length := by
  obtain ⟨s, before, state, stage, seen⟩ := h.exists_stage
  have off : s.running = false := by
    rw [running, state] at stopped
    exact stopped
  cases stage with
  | turning along | travelling along | turningOut along =>
    exact absurd off along.not_over.1
  | ended seg phase running index place facing =>
    obtain seen | ⟨on, -⟩ := seen
    · exact ⟨s, state, phase, seg, off, index, place, facing, seen⟩
    · rw [off] at on
      cases on

/-- The visits of a whole trace begin where the plan does. -/
theorem OnTrack.visits_eq {p : Plan ν} {r : Runner ν} (h : OnTrack p r) :
    visits r.trace.toList =
      ((initialState p).label :: visits (r.trace.toList.drop 1)).destutter (· ≠ ·) := by
  have first := h.first
  cases hl : r.trace.toList with
  | nil =>
    rw [hl] at first
    cases first
  | cons f rest =>
    rw [hl] at first
    have same : f.label = (initialState p).label := Option.some.inj first
    rw [visits, List.map_cons, same]
    exact (destutter_cons_destutter _ _).symm

theorem on_start (plan : Outcome (Plan ν)) (r : Runner ν) :
    Change.on (start plan) r =
      if r.running then (.ok false, r)
      else match plan with
        | .error fault => (.error fault, r)
        | .ok p => (.ok (begun p).running, begun p) := by
  have looked : Change.on (get : Running ν (Runner ν)) r = (.ok r, r) := rfl
  refine (on_bind_ok looked).trans ?_
  cases on : r.running with
  | true => rfl
  | false => cases plan <;> rfl

/-- A run is a start and then ticks. -/
theorem on_run (plan : Outcome (Plan ν)) (increment : Increment ν) (limit : Outcome Nat)
    (r : Runner ν) :
    Change.on (run plan increment limit) r =
      if r.running then (.ok (), r)
      else match plan with
        | .error fault => (.error fault, r)
        | .ok p =>
          if (begun p).running then
            match limit with
            | .error fault => (.error fault, begun p)
            | .ok limit => Change.on (ticks increment limit) (begun p)
          else (.ok (), begun p) := by
  rw [run, on_bind, on_start]
  cases r.running with
  | true => rfl
  | false =>
    cases plan with
    | error fault => rfl
    | ok p =>
      simp only [Bool.false_eq_true, if_false]
      cases (begun p).running with
      | false => rfl
      | true => cases limit <;> rfl

/-- A run that is begun and completed has followed its plan from the beginning. -/
theorem onTrack_of_run [Ordered ν] {p : Plan ν} (robot : p.mode.isField = false)
    {increment : Increment ν} {limit : Outcome Nat} {r r' : Runner ν}
    (h : Change.on (run (.ok p) increment limit) r = (.ok (), r')) (stopped : r'.running = false) :
    OnTrack p r' := by
  rw [on_run] at h
  split at h
  next on =>
    cases h
    rw [on] at stopped
    cases stopped
  next =>
    have track := onTrack_begun robot
    dsimp only at h
    split at h
    · cases limit with
      | error fault => cases h
      | ok count =>
        have kept := keeps_ticks robot increment count (begun p) track
        dsimp only at h
        rwa [h] at kept
    · cases h
      exact track

end Runner

end PathStudio.Simulation
