import PathStudio.Proofs.Simulation.Double
import Mathlib.Data.Vector.Basic

/-!
# The protocol of a runner

A runner is begun, ticked, halted and run through, in any order. At most one run
is going on, and its trace is the ledger of it: a frame for the beginning and one
for each tick that has advanced it. So the trace tells the time of the run.
-/

namespace PathStudio.Simulation

variable {ν : Type} [Add ν] [Sub ν] [Mul ν] [Div ν] [Neg ν] [Scalar ν]

/-! ## Ticks -/

theorem step_of_stopped (p : Plan ν) {s : State ν} (stopped : s.running = false)
    (increment : Outcome ν) : step p s increment = .ok (s, true) := by
  rw [step, stopped]
  rfl

/-- A step of a run that is going on takes its increment, whichever way the robot walks. -/
theorem exists_increment_of_step {p : Plan ν} {s next : State ν} {increment : Outcome ν}
    {finished : Bool} (going : s.running = true) (h : step p s increment = .ok (next, finished)) :
    ∃ ms, increment = .ok ms ∧ next.time = s.time + ms ∧ finished = !next.running := by
  rw [step, going] at h
  obtain ⟨ms, given, h⟩ := bind_eq_ok.mp h
  dsimp only at h
  split at h
  all_goals
    obtain ⟨moved, -, last⟩ := bind_eq_ok.mp h
    cases last
    exact ⟨ms, given, rfl, rfl⟩

/-- What is read for the increment. -/
def Increment.reading {ν : Type} : Increment ν → Outcome ν
  | .standard reading | .given reading => reading

omit [Add ν] [Sub ν] [Mul ν] [Div ν] [Neg ν] [Scalar ν] in
theorem Increment.reading_of_fetch {increment : Increment ν} {given : Outcome ν} {ms : ν}
    (fetched : increment.fetch = .ok given) (h : given = .ok ms) : increment.reading = .ok ms := by
  cases increment with
  | standard reading =>
    obtain ⟨read, answered, rfl⟩ := map_eq_ok.mp fetched
    cases h
    exact answered
  | given reading =>
    cases fetched
    exact h

namespace Runner

open Change

/-- A tick of a runner that has no run going on finds it over and leaves everything as it is; only a
standard increment that cannot be looked up is refused. -/
theorem on_tick_of_stopped {r : Runner ν} (stopped : r.running = false) (increment : Increment ν) :
    Change.on (tick increment) r = (.ok true, r) ∨
      ∃ fault, increment.fetch = .error fault ∧ Change.on (tick increment) r = (.error fault, r) := by
  obtain ⟨plan, state, trace⟩ := r
  cases plan with
  | none => exact .inl rfl
  | some p =>
    cases state with
    | none => exact .inl rfl
    | some s =>
      have off : s.running = false := stopped
      rw [on_tick rfl rfl]
      cases increment.fetch with
      | error fault => exact .inr ⟨fault, rfl, rfl⟩
      | ok given =>
        rw [ok_bind, step_of_stopped p off, off]
        exact .inl rfl

/-- A tick of a run that is going on makes a step of it. A refused step changes nothing; any other
adds one frame, of the new state but with the phase and the segment of the old one. -/
theorem on_tick_of_running {r : Runner ν} {p : Plan ν} {s : State ν} (plan : r.plan = some p)
    (state : r.state = some s) (going : s.running = true) (increment : Increment ν) :
    (∃ fault, (increment.fetch >>= step p s) = .error fault ∧
        Change.on (tick increment) r = (.error fault, r)) ∨
      ∃ ms next, increment.reading = .ok ms ∧ next.time = s.time + ms ∧
        (increment.fetch >>= step p s) = .ok (next, !next.running) ∧
        Change.on (tick increment) r = (.ok (!next.running), { r with
          state := some next
          trace := r.trace.push ⟨next.time, next.x, next.y, next.heading, s.phase, s.seg⟩ }) := by
  rw [on_tick plan state]
  cases h : increment.fetch >>= step p s with
  | error fault => exact .inl ⟨fault, rfl, rfl⟩
  | ok result =>
    obtain ⟨given, fetched, taken⟩ := bind_eq_ok.mp h
    obtain ⟨next, finished⟩ := result
    obtain ⟨ms, read, time, rfl⟩ := exists_increment_of_step going taken
    refine .inr ⟨ms, next, Increment.reading_of_fetch fetched read, time, rfl, ?_⟩
    dsimp only
    rw [if_pos going]
    rfl

/-! ## Calls -/

/-- What may be asked of a runner. -/
inductive Call (ν : Type) where
  | start (plan : Outcome (Plan ν))
  | tick (increment : Increment ν)
  | halt
  | run (plan : Outcome (Plan ν)) (increment : Increment ν) (limit : Outcome Nat)

/-- The runner after a call, refused or not. -/
def perform (r : Runner ν) : Call ν → Runner ν
  | .start plan => (Change.on (start plan) r).2
  | .tick increment => (Change.on (tick increment) r).2
  | .halt => r.halt
  | .run plan increment limit => (Change.on (run plan increment limit) r).2

/-- The increment by which a tick advances the run, if it does. -/
def gain (increment : Increment ν) (r : Runner ν) : List ν :=
  match r.running, increment.reading, (Change.on (tick increment) r).1 with
  | true, .ok ms, .ok _ => [ms]
  | _, _, _ => []

/-- The increments by which ticks advance the run until it is over. -/
def gains (increment : Increment ν) : Nat → Runner ν → List ν
  | 0, _ => []
  | limit + 1, r =>
    match Change.on (tick increment) r with
    | (.ok false, r') => gain increment r ++ gains increment limit r'
    | _ => gain increment r

/-- The increments by which the run has advanced since it began, after a call: the start that puts in
a plan begins anew, each tick that advances the run adds its own. -/
def sinceStart (r : Runner ν) (increments : List ν) : Call ν → List ν
  | .start (.ok _) => if r.running then increments else []
  | .start (.error _) => increments
  | .tick increment => increments ++ gain increment r
  | .halt => increments
  | .run plan increment limit =>
    if r.running then increments
    else match plan with
      | .error _ => increments
      | .ok p =>
        if (begun p).running then
          match limit with
          | .error _ => []
          | .ok limit => gains increment limit (begun p)
        else []

/-- The runner after calls. -/
def performAll (r : Runner ν) (calls : List (Call ν)) : Runner ν := calls.foldl perform r

/-- The increments by which the run has advanced since it began, after calls. -/
def sinceStartAll (r : Runner ν) (increments : List ν) : List (Call ν) → List ν
  | [] => increments
  | call :: rest => sinceStartAll (r.perform call) (r.sinceStart increments call) rest

/-- A runner whose trace has a frame for the beginning of its run and for each of the given
increments, at the time that they add up to. -/
inductive Timed : Runner ν → List ν → Prop
  | idle : Timed idle []
  | of {p : Plan ν} {s : State ν} {trace : Array (Frame ν)} {increments : List ν}
      (times : trace.toList.map Frame.time = increments.scanl (· + ·) (Scalar.ofInt 0))
      (time : s.time = increments.foldl (· + ·) (Scalar.ofInt 0)) :
      Timed ⟨some p, some s, trace⟩ increments

theorem timed_begun (p : Plan ν) : Timed (begun p) [] := .of rfl rfl

theorem gain_of_stopped {r : Runner ν} (stopped : r.running = false) (increment : Increment ν) :
    gain increment r = [] := by
  rw [gain, stopped]

theorem gain_of_error {r r' : Runner ν} {increment : Increment ν} {fault : Fault}
    (refused : Change.on (tick increment) r = (.error fault, r')) : gain increment r = [] := by
  rw [gain, refused]
  split
  next h => cases h
  next => rfl

theorem gain_of_ok {r r' : Runner ν} {increment : Increment ν} {ms : ν} {finished : Bool}
    (going : r.running = true) (read : increment.reading = .ok ms)
    (ticked : Change.on (tick increment) r = (.ok finished, r')) : gain increment r = [ms] := by
  rw [gain, going, read, ticked]

namespace Timed

variable {r : Runner ν} {increments : List ν}

theorem after_tick (h : Timed r increments) (increment : Increment ν) :
    Timed (Change.on (tick increment) r).2 (increments ++ gain increment r) := by
  cases going : r.running with
  | false =>
    rw [gain_of_stopped going, List.append_nil]
    obtain ticked | ⟨fault, -, ticked⟩ := on_tick_of_stopped going increment <;> rw [ticked] <;> exact h
  | true =>
    cases h with
    | idle => cases going
    | @of p s trace _ times time =>
      obtain ⟨fault, -, refused⟩ | ⟨ms, next, read, later, -, ticked⟩ :=
        on_tick_of_running (r := ⟨some p, some s, trace⟩) rfl rfl going increment
      · rw [gain_of_error refused, refused, List.append_nil]
        exact of times time
      · rw [gain_of_ok going read ticked, ticked]
        have added : next.time = (increments ++ [ms]).foldl (· + ·) (Scalar.ofInt 0) := by
          rw [List.foldl_concat, ← time, later]
        refine of ?_ added
        rw [Array.toList_push, List.map_append, times, List.scanl_append, ← time]
        exact congrArg (_ ++ [·]) later

theorem after_ticks (h : Timed r increments) (increment : Increment ν) (limit : Nat) :
    Timed (Change.on (ticks increment limit) r).2 (increments ++ gains increment limit r) := by
  induction limit generalizing r increments with
  | zero => exact (List.append_nil increments).symm ▸ h
  | succ limit ih =>
    have first := h.after_tick increment
    rw [gains, ticks, on_bind]
    match ticked : Change.on (tick increment) r with
    | (.error fault, r') | (.ok true, r') =>
      rw [ticked] at first
      exact first
    | (.ok false, r') =>
      rw [ticked] at first
      dsimp only
      rw [← List.append_assoc]
      exact ih first

theorem after_call (h : Timed r increments) (call : Call ν) :
    Timed (r.perform call) (r.sinceStart increments call) := by
  cases call with
  | start plan =>
    rw [perform, on_start]
    cases plan with
    | error fault => split <;> exact h
    | ok p =>
      rw [sinceStart]
      split
      · exact h
      · exact timed_begun p
  | tick increment => exact h.after_tick increment
  | halt =>
    cases h with
    | idle => exact idle
    | of times time => exact of times time
  | run plan increment limit =>
    rw [perform, on_run, sinceStart.eq_def]
    dsimp only
    cases r.running with
    | true => exact h
    | false =>
      cases plan with
      | error fault => exact h
      | ok p =>
        have began := timed_begun p
        simp only [Bool.false_eq_true, if_false]
        cases (begun p).running with
        | false => exact began
        | true =>
          cases limit with
          | error fault => exact began
          | ok limit => exact began.after_ticks increment limit

theorem after_calls (h : Timed r increments) (calls : List (Call ν)) :
    Timed (r.performAll calls) (r.sinceStartAll increments calls) := by
  induction calls generalizing r increments with
  | nil => exact h
  | cons call rest ih => exact ih (h.after_call call)

end Timed

/-! ## Halting -/

/-- Whether a call may begin a run. -/
def Call.begins {ν : Type} : Call ν → Bool
  | .start _ | .run _ _ _ => true
  | .tick _ | .halt => false

section

omit [Add ν] [Sub ν] [Mul ν] [Div ν] [Neg ν] [Scalar ν]

@[simp] theorem running_halt (r : Runner ν) : r.halt.running = false := by
  rw [running, halt]
  cases r.state <;> rfl

theorem halt_of_stopped {r : Runner ν} (stopped : r.running = false) : r.halt = r := by
  obtain ⟨plan, state, trace⟩ := r
  cases state with
  | none => rfl
  | some s =>
    have off : s.running = false := stopped
    rw [halt, Option.map_some, ← off]

end

/-- Calls that begin no run leave a runner as it is that has none going on. -/
theorem performAll_of_stopped {r : Runner ν} (stopped : r.running = false) {calls : List (Call ν)}
    (later : ∀ call ∈ calls, call.begins = false) : r.performAll calls = r := by
  induction calls with
  | nil => rfl
  | cons call rest ih =>
    obtain ⟨first, rest'⟩ := List.forall_mem_cons.mp later
    have stays : r.perform call = r := by
      cases call with
      | start | run => cases first
      | tick increment =>
        rw [perform]
        obtain ticked | ⟨fault, -, ticked⟩ := on_tick_of_stopped stopped increment <;> rw [ticked]
      | halt => exact halt_of_stopped stopped
    rw [performAll, List.foldl_cons, stays]
    exact ih rest'

/-! ## The protocol -/

/-- What a runner answers after any calls, and what its trace holds. A start during a run changes
nothing; any other puts in its plan, if there is one. A tick makes a step of a run that is going on
and adds the frame of it; without such a run it finds the run over. Where a tick is refused, by the
step or by the reading of the standard increment, nothing changes. The trace has begun with the
run and has a frame for each tick that has advanced it since, at the times that the increments add
up to. After a halt nothing changes until a run is begun. -/
theorem runner_keeps_protocol (calls : List (Call ν)) :
    let r := idle.performAll calls
    let increments := idle.sinceStartAll [] calls
    (∀ plan, Change.on (start plan) r =
      if r.running then (.ok false, r)
      else match plan with
        | .error fault => (.error fault, r)
        | .ok p => (.ok (initialState p).running,
            ⟨some p, some (initialState p), #[frame (initialState p) (initialState p).phase
              (initialState p).seg]⟩)) ∧
    (r.running = false → ∀ increment, Change.on (tick increment) r = (.ok true, r) ∨
      ∃ fault, increment.fetch = .error fault ∧ Change.on (tick increment) r = (.error fault, r)) ∧
    (r.running = true → ∃ p s, r.plan = some p ∧ r.state = some s ∧ ∀ increment,
      (∃ fault, (increment.fetch >>= step p s) = .error fault ∧
          Change.on (tick increment) r = (.error fault, r)) ∨
        ∃ ms next, increment.reading = .ok ms ∧ next.time = s.time + ms ∧
          (increment.fetch >>= step p s) = .ok (next, !next.running) ∧
          Change.on (tick increment) r = (.ok (!next.running), { r with
            state := some next
            trace := r.trace.push ⟨next.time, next.x, next.y, next.heading, s.phase, s.seg⟩ })) ∧
    (∀ increment answer r', Change.on (tick increment) r = (.ok answer, r') →
      (answer = true ↔ r'.running = false)) ∧
    (r = idle ∨ r.trace.size = 1 + increments.length ∧
      r.trace.toList.map Frame.time = increments.scanl (· + ·) (Scalar.ofInt 0)) ∧
    ∀ later, (∀ call ∈ later, call.begins = false) → r.halt.performAll later = r.halt := by
  intro r increments
  have timed : Timed r increments := Timed.idle.after_calls calls
  clear_value r increments
  have going : r.running = true → ∃ p s, r.plan = some p ∧ r.state = some s ∧ s.running = true := by
    intro on
    cases timed with
    | idle => cases on
    | of => exact ⟨_, _, rfl, rfl, on⟩
  refine ⟨fun plan => ?_, on_tick_of_stopped, fun on => ?_, fun increment answer r' ticked => ?_, ?_,
    fun later => performAll_of_stopped (running_halt r)⟩
  · rw [on_start]
    rfl
  · obtain ⟨p, s, plan, state, on⟩ := going on
    exact ⟨p, s, plan, state, on_tick_of_running plan state on⟩
  · cases on : r.running with
    | false =>
      obtain same | ⟨fault, -, refused⟩ := on_tick_of_stopped on increment
      · cases same.symm.trans ticked
        exact ⟨fun _ => on, fun _ => rfl⟩
      · cases refused.symm.trans ticked
    | true =>
      obtain ⟨p, s, plan, state, on⟩ := going on
      obtain ⟨fault, -, refused⟩ | ⟨ms, next, -, -, -, advanced⟩ :=
        on_tick_of_running plan state on increment
      · cases refused.symm.trans ticked
      · cases advanced.symm.trans ticked
        exact Bool.not_eq_true' next.running ▸ Iff.rfl
  · cases timed with
    | idle => exact .inl rfl
    | of times time =>
      refine .inr ⟨?_, times⟩
      rw [← Array.length_toList, ← List.length_map, times, List.length_scanl, Nat.add_comm]

/-- A drive from a place with an infinite heading. -/
def spinning : Layout Float :=
  { start := ⟨0.0, 0.0, 1.0 / 0.0⟩
    waypoints := [.move ⟨.drive, ⟨1.0, 0.0, 0.0⟩, 0.8⟩]
    markers := []
    selection := none }

/-- Not every tick of a run that is going on adds a frame: the turn from an infinite heading is
refused. -/
theorem not_every_tick_adds_frame :
    letI := Program.Robot.axes.scalar
    ¬ ∀ (l : Layout Float) (p : Plan Float), buildPlan steady (.dialect .robot) l = .ok p →
      (begun p).running = true → ∀ ms, ∃ answer r',
        Change.on (tick (.given (.ok ms))) (begun p) = (.ok answer, r') ∧ r'.trace.size = 2 := by
  let := Program.Robot.axes.scalar
  intro always
  have refused : (buildPlan steady (.dialect .robot) spinning).toOption.any (fun p =>
      (begun p).running &&
        (Change.on (tick (.given (.ok 16.0))) (begun p)).1.toOption.isNone) = true := by
    decide +kernel
  cases built : buildPlan steady (.dialect .robot) spinning with
  | error fault =>
    rw [built] at refused
    cases refused
  | ok p =>
    rw [built] at refused
    obtain ⟨on, none⟩ := Bool.and_eq_true_iff.mp refused
    obtain ⟨answer, r', ticked, -⟩ := always spinning p built on 16.0
    rw [ticked] at none
    cases none

end Runner

end PathStudio.Simulation
