import PathStudio.Simulation.Step
import PathStudio.Session.Arguments

/-!
# Given states

A step can begin in a state that is given from outside. Its phase, its counters
and the mark that it is running may then be any values; each stays as it is given
until a step sets it. A counter that is no integer can be compared with the end
of the run but leads to no segment or polyline point.
-/

namespace PathStudio.Simulation

/-- A state of which some parts are values as they were given. -/
structure Given where
  state : State Float
  phase : Json
  seg : Json
  index : Json
  running : Json

namespace Given

/-- A state as a given one. -/
def ofState (s : State Float) : Given :=
  { state := s, phase := .str s.phase.name, seg := .int s.seg, index := .int s.index
    running := .bool s.running }

/-- The phase that a value stands for; what is no label belongs to no phase. -/
def phaseOf : Json → Phase
  | .str label => .ofName label
  | _ => .other ""

/-- The counter that a step of a plan goes by. -/
def counter (p : Plan Float) (g : Given) : IndexOperand Float :=
  .ofJson (if p.mode.isField then g.index else g.seg)

/-- The first value of the counter at which a run of a plan is over. -/
def bound (p : Plan Float) : Int :=
  if p.mode.isField then p.fieldPoints.length - 1 else p.segments.length

/-- The state in which a step begins, with the counter at a place. -/
def before (p : Plan Float) (g : Given) (place : Int) : State Float :=
  let s := { g.state with phase := phaseOf g.phase, running := true }
  if p.mode.isField then { s with index := place } else { s with seg := place }

/-- The given state with what a step has set. -/
def after (g : Given) (s next : State Float) : Given :=
  { state := next
    phase := if next.phase = s.phase then g.phase else .str next.phase.name
    seg := if next.seg = s.seg then g.seg else .int next.seg
    index := if next.index = s.index then g.index else .int next.index
    running := if next.running then g.running else .bool false }

/-- The state after a run has been found at its end. -/
def ended (p : Plan Float) (g : Given) (ms : Float) : Given :=
  let s := g.before p 0
  g.after s { s.finish with time := s.time + ms }

/-- A step from a given state; a state whose mark counts as nothing is not running. -/
def step (p : Plan Float) (g : Given) (increment : Outcome Float) : Outcome (Given × Bool) := do
  if !g.running.isTruthy then return (g, true)
  let ms ← increment
  match g.counter p with
  | .real x _ =>
    if Scalar.le (Scalar.ofInt (bound p)) x then return (g.ended p ms, true) else throw .wrongType
  | counter =>
    let s := g.before p (← counter.position)
    let (next, done) ← Simulation.step p s (.ok ms)
    return (g.after s next, done)

end Given

end PathStudio.Simulation
