import PathStudio.Program.Decode
import PathStudio.Program.Encode
import PathStudio.Simulation.Speeds
import PathStudio.Session.Arguments

/-!
# Self checks

Checks with a label, run in order and reported line by line. A check that gives
up counts as failed. Only required checks count for the verdict.
-/

namespace PathStudio.SelfCheck

/-- A check: its label, whether it holds, and whether it has to hold. -/
structure Check where
  label : String
  holds : Outcome Bool
  required : Bool

/-- The word for how a check went. -/
def mark (holds required : Bool) : String :=
  if holds then "PASS" else if required then "FAIL" else "WARN"

namespace Check

/-- Whether a check holds; one that gives up does not. -/
def passes (c : Check) : Bool := c.holds.toOption.getD false

/-- Whether a check counts against the verdict. -/
def fails (c : Check) : Bool := c.required && !c.passes

/-- The lines about a check. -/
def lines (c : Check) : List String :=
  let verdict := "[" ++ mark c.passes c.required ++ "] " ++ c.label
  match c.holds with
  | .ok _ => [verdict]
  | .error fault =>
    ["       " ++ c.label ++ ": " ++ fault.family.name ++ ": " ++ fault.message, verdict]

end Check

/-- The report on some checks and whether all that have to hold do so. -/
def report (checks : List Check) : List String × Bool :=
  let failed := (checks.filter Check.fails).length
  let verdict :=
    if failed = 0 then "All checks passed." else toString failed ++ " check(s) failed."
  ("Odogen Doctor" :: checks.flatMap Check.lines ++ [verdict], failed = 0)

/-- The session that comes from adding some moves to an empty one. -/
def sessionOf (moves : List (Point Float × MoveKind)) : Session Float :=
  let edit : Edit Float Unit := moves.forM fun (p, kind) => do
    let _ ← Edit.addWaypoint (.ofPose ⟨p.x, p.y, 0.0⟩) (.move kind) (.number defaultSpeed)
  (StateT.run (ExceptT.run edit) Session.empty).2

/-- A finite coordinate in whole hundredths. -/
def hundredths? (x : Float) : Option Int :=
  match Binary.ofFloat x with
  | .finite negative mantissa exponent =>
    let count : Int := Decimal.units .toEven mantissa exponent 2
    some (if negative then -count else count)
  | _ => none

/-- The moves of a session in whole hundredths. -/
def places (s : Session Float) : List (Option Int × Option Int) :=
  s.moves.map fun m => (hundredths? m.pose.x, hundredths? m.pose.y)

/-- Whether a small path comes back from a program of either dialect. -/
def roundTrip : Outcome Bool := do
  let s := sessionOf [(⟨1.0, 0.0⟩, .drive), (⟨1.0, 1.0⟩, .strafe)]
  let texts := [← Program.Robot.print s.toLayout (.ok Program.Robot.defaultSamples),
    ← Program.Field.print s.toLayout]
  let decoded ← texts.mapM fun text => Program.decode text (Session.empty (ν := Float))
  return decoded.all fun d => places d.2 == [(some 100, some 0), (some 100, some 100)]

/-- Whether a short run comes to its end. -/
def runCompletes : Outcome Bool :=
  let s := sessionOf [(⟨0.5, 0.0⟩, .drive)]
  let settings : Json := .obj []
  let run := Simulation.Runner.run (Simulation.planOf settings s)
    (Simulation.standardIncrement settings) (.ok 10000)
  match StateT.run (ExceptT.run run) Simulation.Runner.idle with
  | (.error fault, _) => .error fault
  | (.ok (), r) => .ok (r.state.any fun state => state.phase = .done)

/-- The checks of the program itself. -/
def own : List Check :=
  [⟨"program codec round trip", roundTrip, true⟩,
   ⟨"simulator runs to completion", runCompletes, true⟩]

end PathStudio.SelfCheck
