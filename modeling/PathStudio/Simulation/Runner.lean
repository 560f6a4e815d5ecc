import PathStudio.Simulation.Step

/-!
# Runs

A runner holds at most one run at a time: its plan, its state and the trace of
frames. A clock outside drives it tick by tick.
-/

namespace PathStudio.Simulation

/-- A frame of a trace: where the robot is, and what it was doing to get there. -/
structure Frame (ν : Type) where
  time : ν
  x : ν
  y : ν
  heading : ν
  phase : Phase
  seg : Int

/-- A run, or none yet. -/
structure Runner (ν : Type) where
  plan : Option (Plan ν)
  state : Option (State ν)
  trace : Array (Frame ν)

/-- The time that a tick advances by: the standard one, looked up at every tick, or a given one,
which matters only while the run is going on. -/
inductive Increment (ν : Type) where
  | standard (reading : Outcome ν)
  | given (reading : Outcome ν)

/-- The increment as a step takes it. -/
def Increment.fetch {ν : Type} : Increment ν → Outcome (Outcome ν)
  | .standard reading => reading.map .ok
  | .given reading => .ok reading

/-- A change of a runner that can be refused part of the way. -/
abbrev Running (ν α : Type) := ExceptT Fault (StateM (Runner ν)) α

namespace Runner

variable {ν : Type}

/-- A runner before its first run. -/
def idle : Runner ν := ⟨none, none, #[]⟩

/-- Whether a run is going on. -/
def running (r : Runner ν) : Bool := r.state.any (·.running)

/-- Stops the run. -/
def halt (r : Runner ν) : Runner ν :=
  { r with state := r.state.map fun s => { s with running := false } }

/-- The frame of a state, with the phase and segment that it was reached in. -/
def frame (s : State ν) (phase : Phase) (seg : Int) : Frame ν := ⟨s.time, s.x, s.y, s.heading, phase, seg⟩

variable [Add ν] [Sub ν] [Mul ν] [Div ν] [Neg ν] [Scalar ν]

/-- The runner with the run of a plan begun. -/
def begun (p : Plan ν) : Runner ν :=
  let s := initialState p
  { plan := some p
    state := some s
    trace := #[⟨Scalar.ofInt 0, s.x, s.y, s.heading, s.phase, s.seg⟩] }

/-- Begins a run with the plan that is made on demand, unless one is going on; tells whether there
is anything to do. -/
def start (plan : Outcome (Plan ν)) : Running ν Bool := do
  if (← get).running then return false
  let p ← plan
  set (begun p)
  return (← get).running

/-- Advances the run; tells whether it is over. Only a run that is going on adds a frame. -/
def tick (increment : Increment ν) : Running ν Bool := do
  let r ← get
  match r.plan, r.state with
  | some p, some before =>
    let (after, finished) ← step p before (← increment.fetch)
    let trace := if before.running then r.trace.push (frame after before.phase before.seg) else r.trace
    set { r with state := some after, trace }
    return finished
  | _, _ => return true

/-- Advances the run until it is over, by a limited number of ticks. -/
def ticks (increment : Increment ν) : Nat → Running ν Unit
  | 0 => pure ()
  | limit + 1 => do
    if !(← tick increment) then ticks increment limit

/-- Begins a run and advances it until it is over; the limit of ticks matters once the run has
begun. -/
def run (plan : Outcome (Plan ν)) (increment : Increment ν) (limit : Outcome Nat) :
    Running ν Unit := do
  if ← start plan then ticks increment (← limit)

end Runner

/-- Adds one to the count of a phase. -/
def countVisit (phase : Phase) : List (Phase × Nat) → List (Phase × Nat)
  | [] => [(phase, 1)]
  | (p, n) :: rest => if p = phase then (p, n + 1) :: rest else (p, n) :: countVisit phase rest

/-- How often each phase was entered, counting runs of one phase in one segment. -/
def visitsFrom {ν : Type} (last : Option (Int × Phase)) (counts : List (Phase × Nat)) :
    List (Frame ν) → List (Phase × Nat)
  | [] => counts
  | f :: rest =>
    let key := (f.seg, f.phase)
    if some key = last then visitsFrom last counts rest
    else visitsFrom (some key) (countVisit f.phase counts) rest

/-- How often each phase was entered in a trace; its first frame is where the run began. -/
def phaseVisits {ν : Type} (trace : Array (Frame ν)) : List (Phase × Nat) :=
  visitsFrom none [] (trace.toList.drop 1)

end PathStudio.Simulation
