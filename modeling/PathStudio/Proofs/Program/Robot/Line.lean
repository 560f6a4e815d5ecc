import PathStudio.Proofs.Program.Robot.Spacing
import PathStudio.Proofs.Program.Registry

/-!
# What a line does to a trail

A line leaves a trail alone, moves it, opens an arc or goes on with one, or adds a call. What each of
these keeps is kept by a whole program: that the cursor is at the end of the path is the first such
property.
-/

namespace PathStudio.Program.Robot

open Text

/-- Whether a command moves the robot. -/
def Command.isMove : Command → Bool
  | .travel .. | .arc .. => true
  | .turn | .call .. | .nothing => false

/-- The call of a command that is one. -/
def Command.call? : Command → Option (List Char × List Char)
  | .call name args => some (name, args)
  | .turn | .travel .. | .arc .. | .nothing => none

variable {ν : Type} [Add ν] [Sub ν] [Mul ν] [Div ν] [Neg ν] [Scalar ν]

namespace Trail

/-- All that reading a line can do to a trail. -/
inductive Step (t : Trail ν) (line : List Char) : Trail ν → Prop where
  | pass : t.pending = none → (Command.ofLine line).isMove = false →
    (Command.ofLine line).call? = none → Step t line t
  | move (motion : Motion ν) (p : Point ν) (degrees speed : ν) : t.pending = none →
    (Command.ofLine line).isMove = true → (Command.ofLine line).call? = none →
    Step t line ({ t with pending := none }.move motion p degrees speed)
  | openArc (a : OpenArc) : t.pending = none → (Command.ofLine line).isMove = true →
    (Command.ofLine line).call? = none → Step t line { t with pending := some a }
  | extendArc (a b : OpenArc) : t.pending = some a → Step t line { t with pending := some b }
  | closeArc (a : OpenArc) (motion : Motion ν) (p : Point ν) (degrees speed : ν) :
    t.pending = some a → Step t line ({ t with pending := none }.move motion p degrees speed)
  | call (name args : List Char) : t.pending = none → (Command.ofLine line).isMove = false →
    (Command.ofLine line).call? = some (name, args) → Step t line (t.addCall name args)

variable {t t' : Trail ν} {line : List Char}

omit [Add ν] [Sub ν] [Mul ν] [Div ν] [Neg ν] [Scalar ν] in
theorem eq_settled (h : t.pending = none) : { t with pending := none } = t := by
  rw [← h]

/-- An arc with all its lines adds a move. -/
theorem exists_move_of_addArc {a : OpenArc} (h : t.addArc a = .ok t') :
    ∃ motion p degrees speed, t' = { t with pending := none }.move motion p degrees speed := by
  obtain ⟨p, -, h⟩ := bind_eq_ok.mp h
  cases h
  exact ⟨_, p, _, _, rfl⟩

/-- A line that goes on with an arc leaves it open or adds its move. -/
theorem extendArc_cases {a : OpenArc} (h : t.extendArc a line = .ok t') :
    (∃ b, t' = { t with pending := some b }) ∨
      ∃ motion p degrees speed, t' = { t with pending := none }.move motion p degrees speed := by
  simp only [Trail.extendArc] at h
  split at h
  · exact .inr (exists_move_of_addArc h)
  · cases h
    exact .inl ⟨_, rfl⟩

theorem step_of_readLine (h : t.readLine line = .ok t') : Step t line t' := by
  rw [readLine] at h
  cases pending : t.pending with
  | some a =>
    rw [pending] at h
    obtain ⟨b, rfl⟩ | ⟨motion, p, degrees, speed, rfl⟩ := extendArc_cases h
    · exact .extendArc a b pending
    · exact .closeArc a motion p degrees speed pending
  | none =>
    rw [pending] at h
    cases command : Command.ofLine line with
    | turn | nothing =>
      rw [command] at h
      cases h
      exact .pass pending (by rw [command]; rfl) (by rw [command]; rfl)
    | travel kind length degrees =>
      rw [command] at h
      obtain ⟨p, -, h⟩ := bind_eq_ok.mp h
      cases h
      have moved : Step t line _ := .move (.ofKind kind) p degrees.value defaultSpeed pending
        (by rw [command]; rfl) (by rw [command]; rfl)
      rwa [eq_settled pending] at moved
    | arc length speed =>
      rw [command] at h
      obtain ⟨b, rfl⟩ | ⟨motion, p, degrees, speed, rfl⟩ := extendArc_cases h
      · exact .openArc b pending (by rw [command]; rfl) (by rw [command]; rfl)
      · exact .move motion p degrees speed pending (by rw [command]; rfl) (by rw [command]; rfl)
    | call name args =>
      rw [command] at h
      cases h
      exact .call name args pending (by rw [command]; rfl) (by rw [command]; rfl)

/-! ## The cursor -/

/-- The cursor of a trail is at its last move, or at the start if it has none. -/
def AtEnd (start : Pose ν) (t : Trail ν) : Prop :=
  t.cursor = (Layout.walkBack start t.draft.waypoints.reverse).point

variable {start : Pose ν}

omit [Add ν] [Sub ν] [Mul ν] [Div ν] [Neg ν] [Scalar ν] in
theorem atEnd_start (prior : Session ν) : (Trail.start prior).AtEnd prior.start := rfl

theorem atEnd_move (t : Trail ν) (motion : Motion ν) (p : Point ν) (degrees speed : ν) :
    (t.move motion p degrees speed).AtEnd start := by
  rw [AtEnd, move, Draft.add, List.reverse_append]
  rfl

theorem AtEnd.addCall (h : t.AtEnd start) (name args : List Char) :
    (t.addCall name args).AtEnd start := by
  rw [AtEnd, waypoints_addCall, List.reverse_append]
  exact h

theorem AtEnd.step (h : t.AtEnd start) (s : Step t line t') : t'.AtEnd start := by
  cases s with
  | pass | openArc | extendArc => exact h
  | move motion p degrees speed | closeArc _ motion p degrees speed =>
    exact atEnd_move _ motion p degrees speed
  | call name args => exact h.addCall name args

end Trail

end PathStudio.Program.Robot
