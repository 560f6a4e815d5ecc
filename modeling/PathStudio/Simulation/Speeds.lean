import PathStudio.Simulation.Runner
import PathStudio.Settings.Basic

/-!
# Runs with settings

The speeds and the increment that settings ask for.
-/

namespace PathStudio.Simulation

/-- The speeds that settings ask for. -/
def speedsOf (cfg : Json) : Outcome (Speeds Float) := do
  let view ← Settings.flat "sim" (Settings.orEmpty cfg)
  return {
    multiplier := (Settings.valueOf "speed_multiplier" view).toReal
    drive := (Settings.valueOf "drive_speed_mps" view).toReal
    turn := (Settings.valueOf "turn_speed_dps" view).toReal }

/-- The increment in milliseconds that settings ask for. -/
def incrementOf (cfg : Json) : Outcome Float := do
  let view ← Settings.flat "sim" (Settings.orEmpty cfg)
  (Settings.valueOf "step_ms" view).toReal

/-- The standard increment of settings. -/
def standardIncrement (cfg : Json) : Increment Float := .standard (incrementOf cfg)

variable [Scalar Float]

/-- The plan of a session with settings. -/
def planOf (cfg : Json) (s : Session Float) : Outcome (Plan Float) := do
  buildPlan (← speedsOf cfg) s.mode s.toLayout

end PathStudio.Simulation
