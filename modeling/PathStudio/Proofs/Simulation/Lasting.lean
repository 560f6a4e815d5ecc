import PathStudio.Proofs.Simulation.Run

/-!
# Lasting

How many steps of one increment a run goes on for. `Lasts` counts steps from
states with a property; the counts of parts of a run that follow each other are
added.
-/

namespace PathStudio.Simulation

open Scalar

variable {ν : Type} [Add ν] [Sub ν] [Mul ν] [Div ν] [Neg ν] [Scalar ν]

/-- The state after a number of steps of one increment. -/
def stateAfter (p : Plan ν) (ms : ν) : Nat → State ν → Outcome (State ν)
  | 0, s => .ok s
  | n + 1, s => do stateAfter p ms n (← step p s (.ok ms)).1

/-- A run comes from one state to another by a number of steps, each from a running state with a
property. -/
inductive Lasts (p : Plan ν) (ms : ν) (P : State ν → Prop) : Nat → State ν → State ν → Prop
  | none (s : State ν) : Lasts p ms P 0 s s
  | step {n : Nat} {s next t : State ν} (here : P s) (running : s.running = true)
    (taken : step p s (.ok ms) = .ok (next, !next.running)) (rest : Lasts p ms P n next t) :
    Lasts p ms P (n + 1) s t

namespace Lasts

variable {p : Plan ν} {ms : ν} {P Q : State ν → Prop} {n m k : Nat} {s t u : State ν}

theorem mono (h : Lasts p ms P n s t) (weaker : ∀ s, P s → Q s) : Lasts p ms Q n s t := by
  induction h with
  | none s => exact .none s
  | step here running taken _ ih => exact .step (weaker _ here) running taken ih

/-- Parts of a run that follow each other take their steps together. -/
theorem trans (h : Lasts p ms P n s t) (h' : Lasts p ms P m t u) : Lasts p ms P (n + m) s u := by
  induction h with
  | none s =>
    rw [Nat.zero_add]
    exact h'
  | step here running taken _ ih =>
    rw [Nat.add_right_comm]
    exact .step here running taken (ih h')

theorem stateAfter_eq (h : Lasts p ms P n s t) : stateAfter p ms n s = .ok t := by
  induction h with
  | none s => rfl
  | step _ _ taken _ ih =>
    rw [stateAfter, taken]
    exact ih

/-- On the way the run is in states with the property. -/
theorem exists_state (h : Lasts p ms P n s t) (hk : k < n) :
    ∃ u, stateAfter p ms k s = .ok u ∧ P u ∧ u.running = true := by
  induction h generalizing k with
  | none s => exact absurd hk (Nat.not_lt_zero k)
  | step here running taken _ ih =>
    cases k with
    | zero => exact ⟨_, rfl, here, running⟩
    | succ k =>
      obtain ⟨u, reached, found⟩ := ih (Nat.lt_of_succ_lt_succ hk)
      refine ⟨u, ?_, found⟩
      rw [stateAfter, taken]
      exact reached

/-- A step of the mode is a step of the run. -/
theorem one_of_moved (here : P s) (running : s.running = true) {moved : State ν}
    (walked : (if p.mode.isField then stepField p s (ms / 1000) else stepRobot p s (ms / 1000)) =
      .ok moved) : Lasts p ms P 1 s { moved with time := s.time + ms } := by
  refine .step here running ?_ (.none _)
  rw [Simulation.step, if_neg (by rw [running]; decide), ok_bind]
  dsimp only
  split
  next field =>
    rw [if_pos field] at walked
    rw [walked]
    rfl
  next other =>
    rw [if_neg other] at walked
    rw [walked]
    rfl

theorem one (robot : p.mode.isField = false) (here : P s) (running : s.running = true)
    {moved : State ν} (walked : stepRobot p s (ms / 1000) = .ok moved) :
    Lasts p ms P 1 s { moved with time := s.time + ms } :=
  one_of_moved here running ((if_neg (Bool.not_eq_true _ ▸ robot)).trans walked)

theorem one_of_isField (field : p.mode.isField = true) (here : P s) (running : s.running = true)
    {moved : State ν} (walked : stepField p s (ms / 1000) = .ok moved) :
    Lasts p ms P 1 s { moved with time := s.time + ms } :=
  one_of_moved here running ((if_pos field).trans walked)

end Lasts

theorem stateAfter_add (p : Plan ν) (ms : ν) (n m : Nat) (s : State ν) :
    stateAfter p ms (n + m) s = stateAfter p ms n s >>= stateAfter p ms m := by
  induction n generalizing s with
  | zero =>
    rw [Nat.zero_add]
    rfl
  | succ n ih =>
    rw [Nat.add_right_comm, stateAfter, stateAfter, bind_assoc]
    exact congrArg _ (funext fun _ => ih _)

/-- After its end a run stays as it is. -/
theorem stateAfter_of_not_running {p : Plan ν} {s : State ν} (stopped : s.running = false) (ms : ν)
    (n : Nat) : stateAfter p ms n s = .ok s := by
  induction n with
  | zero => rfl
  | succ n ih =>
    rw [stateAfter, step, stopped]
    exact ih

theorem Reached.of_stateAfter {p : Plan ν} {ms : ν} {n : Nat} {s t : State ν} (reached : Reached p s)
    (h : stateAfter p ms n s = .ok t) : Reached p t := by
  induction n generalizing s with
  | zero =>
    cases h
    exact reached
  | succ n ih =>
    obtain ⟨⟨next, finished⟩, taken, rest⟩ := bind_eq_ok.mp h
    exact ih (reached.step taken) rest

end PathStudio.Simulation
