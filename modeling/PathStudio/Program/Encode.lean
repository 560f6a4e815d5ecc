import PathStudio.Program.Field.Print
import PathStudio.Program.Robot.Print
import PathStudio.Settings.Basic

/-!
# Encoding paths

A session as a program of its own mode. A mode that is no dialect is written as
a robot-oriented program.
-/

namespace PathStudio.Program

variable {ν : Type} [Add ν] [Sub ν] [Mul ν] [Div ν] [Neg ν] [Scalar ν]

/-- A session as a program; only a robot-oriented one looks at the number of heading samples. -/
def encode (samples : Outcome Int) (s : Session ν) : Outcome (List Char) :=
  if s.mode.isField then Field.print s.toLayout
  else do
    let samples ← samples
    Robot.print s.toLayout (.ok samples)

/-- The number of heading samples that settings ask for. -/
def samplesOf (cfg : Json) : Outcome (Outcome Int) := do
  let view ← Settings.flat "codegen" (Settings.orEmpty cfg)
  return (Settings.valueOf "arc_samples" view).toInteger

/-- A session as a program, with settings. -/
def generate (cfg : Json) (s : Session ν) : Outcome String := do
  let samples ← samplesOf cfg
  return String.ofList (← encode samples s)

end PathStudio.Program
