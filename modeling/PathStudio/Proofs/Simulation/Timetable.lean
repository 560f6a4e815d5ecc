import PathStudio.Proofs.Simulation.Exact
import PathStudio.Proofs.Simulation.Lasting
import PathStudio.Proofs.Simulation.Plan

/-!
# Timetables

Over the real numbers a run with increments of one length ends, and every stage
takes a number of steps that the plan tells: a turn as many as the angle asks for
and one to notice the end, the travel as many as its length asks for. The robot
turns where a segment begins or ends, and at last it stands at the last point.
-/

namespace PathStudio.Simulation

open Exact

/-! ## Turns -/

/-- The steps of a turn over an angle by at most so much at a time. -/
noncomputable def turnSteps (most angle : ℝ) : ℕ := ⌈(angle - 0.5) / most⌉₊ + 1

/-- The steps of the travel of a length by so much at a time. -/
noncomputable def travelSteps (travel length : ℝ) : ℕ :=
  if length ≤ 1e-9 then 1 else max 1 ⌈length / travel⌉₊

/-- What a run with exact numbers needs to come to an end. -/
structure Proceeds (p : Plan ℝ) (ms : ℝ) : Prop where
  robot : p.mode.isField = false
  control : ∀ g ∈ p.segments, g.kind = .arc → ∃ c, g.control = some c
  travel : 0 < p.driveSpeed * (ms / 1000)
  turn : 0 < p.turnRate * (ms / 1000)

/-- A state that is running in a phase of a segment. -/
def Within (p : Plan ℝ) (i : ℕ) (g : Segment ℝ) (phase : Phase) (s : State ℝ) : Prop :=
  Along p i g s ∧ s.phase = phase

namespace Within

variable {p : Plan ℝ} {i : ℕ} {g : Segment ℝ} {s : State ℝ}

theorem of_same {phase : Phase} {t : State ℝ} (h : Within p i g phase s) (seg : t.seg = s.seg)
    (same : t.phase = s.phase) (running : t.running = s.running) (index : t.index = s.index) :
    Within p i g phase t :=
  ⟨h.1.of_same seg running index, same.trans h.2⟩

theorem stepRobot_turn (h : Within p i g .turn s) (seconds : ℝ) :
    stepRobot p s seconds = stepTurn g s (p.turnRate * seconds) := by
  rw [stepRobot_eq h.1, h.2]

theorem stepRobot_arrivalTurn (h : Within p i g .arrivalTurn s) (seconds : ℝ) :
    stepRobot p s seconds = stepArrivalTurn p g s (p.turnRate * seconds) := by
  rw [stepRobot_eq h.1, h.2]

theorem stepRobot_moving {kind : MoveKind} (h : Within p i g (.moving kind) s) (seconds : ℝ) :
    stepRobot p s seconds = stepTravel p g s seconds := by
  rw [stepRobot_eq h.1, h.2]

end Within

/-- A step of a turn leaves as many steps less one. -/
theorem ceil_left {most angle : ℝ} (positive : 0 < most) :
    ⌈(angle - min most angle - 0.5) / most⌉₊ = ⌈(angle - 0.5) / most⌉₊ - 1 := by
  obtain whole | last := le_total most angle
  · rw [min_eq_left whole, sub_right_comm, sub_div, div_self positive.ne', Nat.ceil_sub_one]
  · -- the last step turns by all that is left, and before it there was at most one to go
    have none : ⌈(angle - angle - 0.5) / most⌉₊ = 0 := by
      rw [Nat.ceil_eq_zero, div_le_iff₀ positive]
      linarith
    have one : ⌈(angle - 0.5) / most⌉₊ ≤ 1 := by
      rw [Nat.ceil_le, div_le_iff₀ positive]
      push_cast
      linarith
    rw [min_eq_right last, none]
    omega

namespace Proceeds

variable {p : Plan ℝ} {i : ℕ} {g : Segment ℝ} {phase : Phase} {ms target : ℝ} {s : State ℝ}

/-- A turn goes on until no more than the snap angle is left. -/
theorem exists_lasts_turning (h : Proceeds p ms)
    (turns : ∀ s heading, Within p i g phase s →
      rotate s.heading target (p.turnRate * (ms / 1000)) = .ok (heading, false) →
        stepRobot p s (ms / 1000) = .ok { s with heading })
    {n : ℕ} (within : Within p i g phase s)
    (steps : ⌈(|normal (target - s.heading)| - 0.5) / (p.turnRate * (ms / 1000))⌉₊ = n) :
    ∃ t, Lasts p ms (Within p i g phase) n s t ∧ Within p i g phase t ∧
      |normal (target - t.heading)| ≤ 0.5 := by
  -- by induction on the steps that are left, which a step of the turn makes one less
  induction n generalizing s with
  | zero =>
    refine ⟨s, .none s, within, ?_⟩
    rw [Nat.ceil_eq_zero, div_le_iff₀ h.turn] at steps
    linarith
  | succ n ih =>
    have far : 0.5 < |normal (target - s.heading)| := by
      by_contra near
      have zero : ⌈(|normal (target - s.heading)| - 0.5) / (p.turnRate * (ms / 1000))⌉₊ = 0 := by
        rw [Nat.ceil_eq_zero, div_le_iff₀ h.turn]
        linarith
      omega
    obtain ⟨heading, turned, left⟩ := rotate_of_far far h.turn
    have first := Lasts.one h.robot within within.1.running (turns s heading within turned)
    have still : Within p i g phase { s with heading, time := s.time + ms } :=
      within.of_same rfl rfl rfl rfl
    have fewer : ⌈(|normal (target - heading)| - 0.5) / (p.turnRate * (ms / 1000))⌉₊ = n := by
      rw [left, ceil_left h.turn, steps]
      rfl
    obtain ⟨t, rest, found⟩ := ih still fewer
    exact ⟨t, Nat.add_comm 1 n ▸ first.trans rest, found⟩

/-- The turn into a segment ends with the heading of the travel. -/
theorem exists_lasts_turn (h : Proceeds p ms) (within : Within p i g .turn s) :
    ∃ t, Lasts p ms (Within p i g .turn)
        (turnSteps (p.turnRate * (ms / 1000)) |normal (g.bearing - s.heading)|) s t ∧
      Within p i g (.moving g.kind) t ∧ t.progress = 0 ∧ g.course = .ok t.heading := by
  have aim := normalizeDegrees_eq g.bearing
  have turning (s heading) (within : Within p i g .turn s)
      (turned : rotate s.heading (normal g.bearing) (p.turnRate * (ms / 1000)) =
        .ok (heading, false)) :
      stepRobot p s (ms / 1000) = .ok { s with heading } :=
    (within.stepRobot_turn _).trans (stepTurn_of_turning aim turned)
  obtain ⟨t, turned, still, near⟩ := h.exists_lasts_turning turning within rfl
  rw [normal_normal_sub] at turned
  obtain ⟨course, hc⟩ := g.exists_course
  have last : stepRobot p t (ms / 1000) =
      .ok { t with heading := course, phase := .moving g.kind, progress := Scalar.ofInt 0 } :=
    (still.stepRobot_turn _).trans (stepTurn_of_turned aim (rotate_of_near near _) hc)
  refine ⟨_, turned.trans (.one h.robot still still.1.running last), ?_, zero_eq, hc⟩
  exact ⟨still.1.of_same rfl rfl rfl, rfl⟩

/-- A step of the travel that stays short of the end. -/
theorem exists_step_travelling (h : Proceeds p ms) (within : Within p i g (.moving g.kind) s)
    (long : 1e-9 < g.length) (short : s.progress + p.driveSpeed * (ms / 1000) < g.length) :
    ∃ t, Lasts p ms (Within p i g (.moving g.kind)) 1 s t ∧ Within p i g (.moving g.kind) t ∧
      t.progress = s.progress + p.driveSpeed * (ms / 1000) ∧
      (g.kind = .strafe → t.heading = s.heading) := by
  have control := h.control g (List.mem_of_getElem? within.1.segment)
  obtain ⟨part, hpart⟩ :
      ∃ part, min 1 ((s.progress + p.driveSpeed * (ms / 1000)) / g.length) = part := ⟨_, rfl⟩
  have below : ¬ (Scalar.ofInt 1 : ℝ) ≤ part := by
    rw [one_eq, ← hpart, not_le]
    exact min_lt_of_right_lt ((div_lt_one (by linarith)).mpr short)
  obtain ⟨point, heading, reached, kept⟩ := g.exists_reached control s.heading part
  have walked : stepRobot p s (ms / 1000) = .ok { s with
      x := point.x, y := point.y, heading, progress := s.progress + p.driveSpeed * (ms / 1000)
      traveled := s.traveled + p.driveSpeed * (ms / 1000) } := by
    rw [within.stepRobot_moving, stepTravel_eq within.2]
    dsimp only
    rw [fractionOf_eq long, hpart, ok_bind, reached, ok_bind]
    exact if_neg fun whole => below (of_decide_eq_true whole)
  exact ⟨_, .one h.robot within within.1.running walked, within.of_same rfl rfl rfl rfl, rfl, kept⟩

/-- The travel goes on until the next step reaches the end of the segment. -/
theorem exists_lasts_travelling (h : Proceeds p ms) {n : ℕ}
    (within : Within p i g (.moving g.kind) s) (long : 1e-9 < g.length)
    (steps : ⌈(g.length - s.progress) / (p.driveSpeed * (ms / 1000))⌉₊ - 1 = n) :
    ∃ t, Lasts p ms (Within p i g (.moving g.kind)) n s t ∧ Within p i g (.moving g.kind) t ∧
      g.length ≤ t.progress + p.driveSpeed * (ms / 1000) ∧
      (g.kind = .strafe → t.heading = s.heading) := by
  -- by induction on the steps that are left but for the last one
  induction n generalizing s with
  | zero =>
    refine ⟨s, .none s, within, ?_, fun _ => rfl⟩
    have one : ⌈(g.length - s.progress) / (p.driveSpeed * (ms / 1000))⌉₊ ≤ 1 := by omega
    rw [Nat.ceil_le, div_le_iff₀ h.travel] at one
    push_cast at one
    linarith
  | succ n ih =>
    have more : 1 < ⌈(g.length - s.progress) / (p.driveSpeed * (ms / 1000))⌉₊ := by omega
    rw [Nat.lt_ceil, lt_div_iff₀ h.travel] at more
    push_cast at more
    have short : s.progress + p.driveSpeed * (ms / 1000) < g.length := by linarith
    obtain ⟨u, first, still, progress, kept⟩ := h.exists_step_travelling within long short
    have fewer : ⌈(g.length - u.progress) / (p.driveSpeed * (ms / 1000))⌉₊ - 1 = n := by
      rw [progress, ← sub_sub, sub_div, div_self h.travel.ne', Nat.ceil_sub_one]
      omega
    obtain ⟨t, rest, last, close, same⟩ := ih still fewer
    refine ⟨t, Nat.add_comm 1 n ▸ first.trans rest, last, close, ?_⟩
    intro strafe
    exact (same strafe).trans (kept strafe)

/-- A step that reaches the end of the segment leads to the turn out of it or leaves it. -/
theorem exists_step_arriving (h : Proceeds p ms) (within : Within p i g (.moving g.kind) s)
    (reaches : 1e-9 < g.length → g.length ≤ s.progress + p.driveSpeed * (ms / 1000))
    (course : g.kind = .strafe → g.course = .ok s.heading) :
    ∃ t, Lasts p ms (Within p i g (.moving g.kind)) 1 s t ∧
      (g.turnsOut = .ok true ∧ Within p i g .arrivalTurn t ∧ g.arrivalHeading = .ok t.heading ∨
        g.turnsOut = .ok false ∧ AtStart p (i + 1) t) := by
  have control := h.control g (List.mem_of_getElem? within.1.segment)
  obtain ⟨point, heading, reached, -⟩ := g.exists_reached control s.heading (Scalar.ofInt 1)
  obtain ⟨-, arrival⟩ := arrival_of_reached course reached
  obtain ⟨arrived, along, facing, walked⟩ : ∃ arrived : State ℝ, Along p i g arrived ∧
      g.arrivalHeading = .ok arrived.heading ∧ stepRobot p s (ms / 1000) = arrived.arrive p g := by
    refine ⟨{ s with
      x := point.x, y := point.y, heading, progress := s.progress + p.driveSpeed * (ms / 1000)
      traveled := s.traveled + p.driveSpeed * (ms / 1000) },
      within.1.of_same rfl rfl rfl, arrival, ?_⟩
    rw [within.stepRobot_moving, stepTravel_eq within.2]
    dsimp only
    rw [fractionOf_of_le reaches, ok_bind, reached, ok_bind]
    exact if_pos (decide_eq_true le_rfl)
  obtain ⟨out, turns⟩ := g.exists_turnsFrom arrived.heading
  have leaves : g.turnsOut = .ok out := by rw [Segment.turnsOut, facing, ok_bind, turns]
  rw [arrive_eq, turns] at walked
  refine ⟨_, .one h.robot within within.1.running walked, ?_⟩
  cases out with
  | true =>
    left
    exact ⟨leaves, ⟨along.of_same rfl rfl rfl, rfl⟩, facing⟩
  | false =>
    right
    have exit : g.exitHeading = .ok arrived.heading := by
      rw [Segment.exitHeading_of_turnsOut leaves, if_neg Bool.false_ne_true, facing]
    exact ⟨leaves, (atStart_nextSegment along exit).of_time _⟩

/-- The travel ends where the robot turns out of the segment or leaves it. -/
theorem exists_lasts_travel (h : Proceeds p ms) (within : Within p i g (.moving g.kind) s)
    (progress : s.progress = 0) (course : g.course = .ok s.heading) :
    ∃ t, Lasts p ms (Within p i g (.moving g.kind))
        (travelSteps (p.driveSpeed * (ms / 1000)) g.length) s t ∧
      (g.turnsOut = .ok true ∧ Within p i g .arrivalTurn t ∧ g.arrivalHeading = .ok t.heading ∨
        g.turnsOut = .ok false ∧ AtStart p (i + 1) t) := by
  obtain short | long := le_or_gt g.length 1e-9
  · rw [travelSteps, if_pos short]
    apply h.exists_step_arriving within
    · intro long
      exact absurd short (not_le.mpr long)
    · intro _
      exact course
  · obtain ⟨u, travelled, still, close, kept⟩ := h.exists_lasts_travelling within long rfl
    have facing : g.kind = .strafe → g.course = .ok u.heading := by
      intro strafe
      rw [kept strafe, course]
    obtain ⟨t, last, found⟩ := h.exists_step_arriving still (fun _ => close) facing
    have steps : travelSteps (p.driveSpeed * (ms / 1000)) g.length =
        ⌈(g.length - s.progress) / (p.driveSpeed * (ms / 1000))⌉₊ - 1 + 1 := by
      rw [travelSteps, if_neg (not_le.mpr long), progress, sub_zero]
      omega
    exact ⟨t, steps ▸ travelled.trans last, found⟩

/-- The turn out of a segment ends with leaving it. -/
theorem exists_lasts_arrivalTurn (h : Proceeds p ms) (within : Within p i g .arrivalTurn s)
    (leaves : g.turnsOut = .ok true) :
    ∃ t, Lasts p ms (Within p i g .arrivalTurn)
        (turnSteps (p.turnRate * (ms / 1000)) |normal (g.endHeading - s.heading)|) s t ∧
      AtStart p (i + 1) t := by
  have aim := normalizeDegrees_eq g.endHeading
  have turning (s heading) (within : Within p i g .arrivalTurn s)
      (turned : rotate s.heading (normal g.endHeading) (p.turnRate * (ms / 1000)) =
        .ok (heading, false)) :
      stepRobot p s (ms / 1000) = .ok { s with heading } :=
    (within.stepRobot_arrivalTurn _).trans (stepArrivalTurn_of_turning aim turned)
  obtain ⟨t, turned, still, near⟩ := h.exists_lasts_turning turning within rfl
  rw [normal_normal_sub] at turned
  have last : stepRobot p t (ms / 1000) =
      .ok (State.nextSegment p { t with heading := normal g.endHeading }) :=
    (still.stepRobot_arrivalTurn _).trans (stepArrivalTurn_of_turned aim (rotate_of_near near _))
  have along : Along p i g { t with heading := normal g.endHeading } :=
    still.1.of_same rfl rfl rfl
  have exit : g.exitHeading = .ok (normal g.endHeading) := by
    rw [Segment.exitHeading_of_turnsOut leaves, if_pos rfl, aim]
  exact ⟨_, turned.trans (.one h.robot still still.1.running last),
    (atStart_nextSegment along exit).of_time _⟩

end Proceeds

/-! ## The timetable -/

/-- The heading with which the travel of a segment ends. -/
noncomputable def Segment.arriving (g : Segment ℝ) : ℝ := g.arrivalHeading.toOption.getD 0

/-- The steps of the turn out of a segment, if there is one. -/
noncomputable def Segment.turnOutSteps (g : Segment ℝ) (most : ℝ) : ℕ :=
  if g.turnsOut = .ok true then turnSteps most |normal (g.endHeading - g.arriving)| else 0

namespace Plan

variable (p : Plan ℝ) (ms : ℝ)

/-- The heading with which a segment is begun. -/
noncomputable def entering (i : ℕ) : ℝ := (p.facing i).toOption.getD 0

/-- The steps of the turn into a segment. -/
noncomputable def turnInSteps (i : ℕ) (g : Segment ℝ) : ℕ :=
  turnSteps (p.turnRate * (ms / 1000)) |normal (g.bearing - p.entering i)|

/-- The steps of a segment. -/
noncomputable def stepsOf (i : ℕ) (g : Segment ℝ) : ℕ :=
  p.turnInSteps ms i g + travelSteps (p.driveSpeed * (ms / 1000)) g.length +
    g.turnOutSteps (p.turnRate * (ms / 1000))

/-- The steps of the first segments. -/
noncomputable def elapsed (n : ℕ) : ℕ :=
  ∑ i ∈ Finset.range n, p.segments[i]?.elim 0 (p.stepsOf ms i)

/-- From one count of steps up to another a run is in one segment and phase. -/
def Stays (label : Int × Phase) (first last : ℕ) : Prop :=
  ∀ k, first ≤ k → k < last →
    ∃ s, stateAfter p ms k (initialState p) = .ok s ∧ s.label = label

variable {p ms}

theorem elapsed_succ {i : ℕ} {g : Segment ℝ} (h : p.segments[i]? = some g) :
    p.elapsed ms (i + 1) = p.elapsed ms i + p.stepsOf ms i g := by
  rw [elapsed, Finset.sum_range_succ, h]
  rfl

theorem Stays.of_lasts {i : ℕ} {g : Segment ℝ} {phase : Phase} {first n : ℕ} {s t : State ℝ}
    (reached : stateAfter p ms first (initialState p) = .ok s)
    (h : Lasts p ms (Within p i g phase) n s t) : p.Stays ms (i, phase) first (first + n) := by
  intro k after before
  obtain ⟨j, rfl⟩ := Nat.exists_eq_add_of_le after
  obtain ⟨u, hu, within, -⟩ := h.exists_state (Nat.lt_of_add_lt_add_left before)
  refine ⟨u, ?_, Prod.ext within.1.seg within.2⟩
  rw [stateAfter_add, reached]
  exact hu

end Plan

namespace Proceeds

variable {p : Plan ℝ} {ms : ℝ} {i : ℕ} {g : Segment ℝ} {s : State ℝ}

/-- A segment is turned into, travelled and turned out of. -/
theorem exists_passage (h : Proceeds p ms) (hg : p.segments[i]? = some g)
    (start : AtStart p i s) :
    ∃ u v t, Lasts p ms (Within p i g .turn) (p.turnInSteps ms i g) s u ∧
      Lasts p ms (Within p i g (.moving g.kind)) (travelSteps (p.driveSpeed * (ms / 1000)) g.length)
        u v ∧
      Lasts p ms (Within p i g .arrivalTurn) (g.turnOutSteps (p.turnRate * (ms / 1000))) v t ∧
      AtStart p (i + 1) t ∧ (g.turnsOut = .ok true → v.heading = g.arriving) := by
  have within : Within p i g .turn s := start.along hg
  have entering : p.entering i = s.heading := by
    rw [Plan.entering, start.facing]
    rfl
  obtain ⟨u, turned, moving, progress, course⟩ := h.exists_lasts_turn within
  obtain ⟨v, travelled, ⟨leaves, arrived, facing⟩ | ⟨leaves, next⟩⟩ :=
    h.exists_lasts_travel moving progress course
  · obtain ⟨t, out, next⟩ := h.exists_lasts_arrivalTurn arrived leaves
    have arriving : g.arriving = v.heading := by
      rw [Segment.arriving, facing]
      rfl
    refine ⟨u, v, t, ?_, travelled, ?_, next, fun _ => arriving.symm⟩
    · rw [Plan.turnInSteps, entering]
      exact turned
    · rw [Segment.turnOutSteps, if_pos leaves, arriving]
      exact out
  · have stays : g.turnsOut ≠ .ok true := by
      rw [leaves]
      decide
    refine ⟨u, v, v, ?_, travelled, ?_, next, fun out => absurd out stays⟩
    · rw [Plan.turnInSteps, entering]
      exact turned
    · rw [Segment.turnOutSteps, if_neg stays]
      exact .none v

/-- The segments are passed one after the other, each in its time. -/
theorem exists_lasts_elapsed (h : Proceeds p ms) {n : ℕ} (hn : n ≤ p.segments.length) :
    ∃ t, Lasts p ms (fun _ => True) (p.elapsed ms n) (initialState p) t ∧ AtStart p n t := by
  induction n with
  | zero => exact ⟨_, .none _, atStart_initialState h.robot⟩
  | succ n ih =>
    obtain ⟨s, before, start⟩ := ih (Nat.le_of_succ_le hn)
    have hg : p.segments[n]? = some p.segments[n] := List.getElem?_eq_getElem hn
    obtain ⟨u, v, t, turned, travelled, out, next, -⟩ := h.exists_passage hg start
    have turned' := turned.mono fun _ _ => trivial
    have travelled' := travelled.mono fun _ _ => trivial
    have out' := out.mono fun _ _ => trivial
    rw [Plan.elapsed_succ hg]
    exact ⟨t, before.trans ((turned'.trans travelled').trans out'), next⟩

/-- The run goes on for the steps of all segments, and then it is over. -/
theorem exists_stateAfter (h : Proceeds p ms) (k : ℕ) :
    ∃ s, stateAfter p ms k (initialState p) = .ok s ∧
      (s.running = true ↔ k < p.elapsed ms p.segments.length) := by
  obtain ⟨t, lasts, ended⟩ := h.exists_lasts_elapsed le_rfl
  have stopped : t.running = false := ended.running.trans (decide_eq_false (lt_irrefl _))
  obtain before | after := lt_or_ge k (p.elapsed ms p.segments.length)
  · obtain ⟨u, reached, -, running⟩ := lasts.exists_state before
    exact ⟨u, reached, iff_of_true running before⟩
  · obtain ⟨j, rfl⟩ := Nat.exists_eq_add_of_le after
    refine ⟨t, ?_, iff_of_false (by simp [stopped]) (not_lt.mpr after)⟩
    rw [stateAfter_add, lasts.stateAfter_eq]
    exact stateAfter_of_not_running stopped ms j

/-- Each stage of a segment has its time, and the turns begin with the headings that they are
counted from. -/
theorem stays (h : Proceeds p ms) (hg : p.segments[i]? = some g) :
    let turned := p.elapsed ms i + p.turnInSteps ms i g
    let arrived := turned + travelSteps (p.driveSpeed * (ms / 1000)) g.length
    p.Stays ms (i, .turn) (p.elapsed ms i) turned ∧
      p.Stays ms (i, .moving g.kind) turned arrived ∧
      p.Stays ms (i, .arrivalTurn) arrived (p.elapsed ms (i + 1)) ∧
      (∃ s, stateAfter p ms (p.elapsed ms i) (initialState p) = .ok s ∧ s.heading = p.entering i) ∧
      (g.turnsOut = .ok true →
        ∃ s, stateAfter p ms arrived (initialState p) = .ok s ∧ s.heading = g.arriving) := by
  have inside : i < p.segments.length := (List.getElem?_eq_some_iff.mp hg).1
  obtain ⟨s, lasts, start⟩ := h.exists_lasts_elapsed inside.le
  obtain ⟨u, v, t, turned, travelled, out, -, arriving⟩ := h.exists_passage hg start
  have begun := lasts.stateAfter_eq
  have turning :
      stateAfter p ms (p.elapsed ms i + p.turnInSteps ms i g) (initialState p) = .ok u := by
    rw [stateAfter_add, begun]
    exact turned.stateAfter_eq
  have moving : stateAfter p ms (p.elapsed ms i + p.turnInSteps ms i g +
      travelSteps (p.driveSpeed * (ms / 1000)) g.length) (initialState p) = .ok v := by
    rw [stateAfter_add, turning]
    exact travelled.stateAfter_eq
  refine ⟨.of_lasts begun turned, .of_lasts turning travelled, ?_, ⟨s, begun, ?_⟩,
    fun leaves => ⟨v, moving, arriving leaves⟩⟩
  · rw [Plan.elapsed_succ hg, Plan.stepsOf, ← Nat.add_assoc, ← Nat.add_assoc]
    exact .of_lasts moving out
  · rw [Plan.entering, start.facing]
    rfl

end Proceeds

/-! ## Places -/

namespace Plan.Follows

variable {p : Plan ℝ} {l : Layout ℝ}

/-- The robot leaves for a segment from where the segment begins. -/
theorem departure_eq (h : p.Follows l) {i : ℕ} {g : Segment ℝ} (hg : p.segments[i]? = some g) :
    p.departure i = .ok g.a := by
  cases i with
  | zero => rw [departure, (h.begins_first hg).1]
  | succ i =>
    have inside : i < p.segments.length :=
      Nat.lt_of_succ_lt (List.getElem?_eq_some_iff.mp hg).1
    have before : p.segments[i]? = some p.segments[i] := List.getElem?_eq_getElem inside
    rw [departure_succ before, Segment.arrivalPoint_eq, (h.begins_next before hg).1]

/-- At last the robot is where the last move ends. -/
theorem departure_last (h : p.Follows l) (work : p.segments ≠ []) {point : Point ℝ}
    (place : p.departure p.segments.length = .ok point) :
    (l.moves.map Move.point).getLast? = some point := by
  obtain ⟨i, hi⟩ := Nat.exists_eq_succ_of_ne_zero (List.length_pos_iff.mpr work).ne'
  have last : p.segments[i]? = some p.segments[i] := List.getElem?_eq_getElem (by omega)
  rw [hi, departure_succ last, Segment.arrivalPoint_eq] at place
  rw [← h.map_b, List.getLast?_eq_getElem?, List.length_map, hi, List.getElem?_map,
    Nat.succ_sub_one, last, ← Except.ok.inj place]
  rfl

end Plan.Follows

/-- With exact numbers and increments of one length a run in robot mode ends after the steps of its
segments. Every segment takes the steps of the turn into it, those of its travel and, unless it is an
arc, those of the turn out of it if there is one. The robot turns into a segment where it begins,
turns out of it where it ends, and at last stands where the last move ends. -/
theorem run_keeps_timetable {speeds : Speeds ℝ} {l : Layout ℝ} {p : Plan ℝ} {ms : ℝ}
    (built : buildPlan speeds (.dialect .robot) l = .ok p) (work : p.segments ≠ [])
    (drive : 0 < p.driveSpeed) (turn : 0 < p.turnRate) (passes : 0 < ms) :
    (∀ k, ∃ s, stateAfter p ms k (initialState p) = .ok s ∧
      (s.running = true ↔ k < p.elapsed ms p.segments.length) ∧
      (s.phase = .done ↔ p.elapsed ms p.segments.length ≤ k) ∧
      (s.phase = .turn → ∃ (i : ℕ) (g : Segment ℝ), p.segments[i]? = some g ∧ s.seg = i ∧
        s.point = g.a) ∧
      (s.phase = .arrivalTurn → ∃ (i : ℕ) (g : Segment ℝ), p.segments[i]? = some g ∧ s.seg = i ∧
        s.point = g.b ∧ g.kind ≠ .arc) ∧
      (s.phase = .done → (l.moves.map Move.point).getLast? = some s.point)) ∧
    ∀ (i : ℕ) (g : Segment ℝ), p.segments[i]? = some g →
      let turned := p.elapsed ms i + p.turnInSteps ms i g
      let arrived := turned + travelSteps (p.driveSpeed * (ms / 1000)) g.length
      p.Stays ms (i, .turn) (p.elapsed ms i) turned ∧
      p.Stays ms (i, .moving g.kind) turned arrived ∧
      p.Stays ms (i, .arrivalTurn) arrived (p.elapsed ms (i + 1)) ∧
      (∃ s, stateAfter p ms (p.elapsed ms i) (initialState p) = .ok s ∧ s.heading = p.entering i) ∧
      (g.turnsOut = .ok true →
        ∃ s, stateAfter p ms arrived (initialState p) = .ok s ∧ s.heading = g.arriving) := by
  obtain ⟨mode, follows⟩ := follows_of_buildPlan built
  have proceeds : Proceeds p ms := {
    robot := by
      rw [mode]
      rfl
    control := fun g hg arc => by
      obtain ⟨i, hi⟩ := List.getElem?_of_mem hg
      exact follows.exists_control hi arc
    travel := by positivity
    turn := by positivity }
  refine ⟨fun k => ?_, fun i g hg => proceeds.stays hg⟩
  obtain ⟨s, reached, running⟩ := proceeds.exists_stateAfter k
  obtain ⟨before, stage⟩ := (Reached.start.of_stateAfter reached).exists_stage proceeds.robot
  have done : s.phase = .done ↔ p.elapsed ms p.segments.length ≤ k := by
    rw [← stage.running_eq_false_iff_phase, ← not_lt, ← running, Bool.not_eq_true]
  refine ⟨s, reached, running, done, fun phase => ?_, fun phase => ?_, fun phase => ?_⟩
  · obtain ⟨i, g, hg, seg, place⟩ := stage.departure_of_turn phase
    rw [follows.departure_eq hg] at place
    exact ⟨i, g, hg, seg, (Except.ok.inj place).symm⟩
  · obtain ⟨i, g, hg, seg, place, out⟩ := stage.departure_of_arrivalTurn phase
    rw [Plan.departure_succ hg, Segment.arrivalPoint_eq] at place
    refine ⟨i, g, hg, seg, (Except.ok.inj place).symm, fun arc => ?_⟩
    rw [Segment.turnsOut_of_arc arc] at out
    cases out
  · exact follows.departure_last work (stage.departure_of_done phase)

/-- A path of one move, before and after which the robot faces along the second axis. -/
noncomputable def sideways : Layout ℝ :=
  { start := ⟨0, 0, Real.pi * 0.5⟩
    waypoints := [.move ⟨.drive, ⟨2.0, 0, Real.pi * 0.5⟩, 0.8⟩]
    markers := []
    selection := none }

/-- A metre and a half and an eighth of a turn in a second. -/
noncomputable def brisk : Speeds ℝ := ⟨.ok 1, .ok 1.5, .ok 45.0⟩

/-- The segment of the move. -/
noncomputable def side : Segment ℝ :=
  { a := ⟨0, 0⟩, b := ⟨2.0, 0⟩, kind := .drive, length := Point.distance ⟨0, 0⟩ ⟨2.0, 0⟩
    bearing := Point.bearing ⟨0, 0⟩ ⟨2.0, 0⟩, control := none
    startHeading := planHeading (Real.pi * 0.5), endHeading := planHeading (Real.pi * 0.5) }

/-- The plan of the path. -/
noncomputable def sidePlan : Plan ℝ :=
  { mode := .dialect .robot, start := ⟨0, 0⟩, startHeading := planHeading (Real.pi * 0.5)
    segments := [side], fieldPoints := [], driveSpeed := 1.5 * 1, turnRate := 45.0 * 1 }

theorem planHeading_quarter : planHeading (Real.pi * 0.5) = -90 := by
  change -(Real.pi * 0.5) * Scalar.ofInt 180 / Real.pi = -90
  rw [show (Scalar.ofInt 180 : ℝ) = 180 from Int.cast_ofNat 180]
  field_simp
  norm_num

theorem length_side : side.length = 2 := by
  change Real.sqrt (((2.0 : ℝ) - 0) ^ 2 + ((0 : ℝ) - 0) ^ 2) = 2
  rw [Real.sqrt_eq_iff_mul_self_eq_of_pos two_pos]
  norm_num

theorem bearing_side : side.bearing = 0 := by
  change Complex.arg ⟨(2.0 : ℝ) - 0, (0 : ℝ) - 0⟩ * Scalar.ofInt 180 / Real.pi = 0
  have : Complex.arg ⟨(2.0 : ℝ) - 0, (0 : ℝ) - 0⟩ = 0 := by
    rw [Complex.arg_eq_zero_iff]
    norm_num
  rw [this]
  norm_num

theorem endHeading_side : side.endHeading = -90 := planHeading_quarter

theorem arrivalHeading_side : side.arrivalHeading = .ok 0 := congrArg Except.ok bearing_side

theorem turnsOut_side : side.turnsOut = .ok true := by
  have quarter : normal (-90 - 0) = -90 := by
    rw [sub_zero, normal_of_mem (by norm_num) (by norm_num)]
  have tolerance : (arrivalTolerance : ℝ) = 1 / 10000 := by
    change factor false * ((1 : ℕ) * 10 ^ (-4 : ℤ)) = (1 / 10000 : ℝ)
    norm_num [factor]
  have turns : Scalar.lt arrivalTolerance (Scalar.abs (-90 : ℝ)) = true := by
    rw [tolerance]
    exact decide_eq_true (by norm_num [Scalar.abs])
  have far : Scalar.lt snapAngle (Scalar.abs (-90 : ℝ)) = true := by
    rw [snapAngle_eq]
    exact decide_eq_true (by norm_num [Scalar.abs])
  rw [Segment.turnsOut, arrivalHeading_side, ok_bind, Segment.turnsFrom, endHeading_side,
    if_pos turns, normalizeDegrees_eq, quarter]
  exact congrArg Except.ok far

/-- A quarter turn by an eighth at a time. -/
theorem turnSteps_quarter : turnSteps (45.0 * 1 * (1000 / 1000)) 90 = 3 := by
  have two : ⌈((90 : ℝ) - 0.5) / (45.0 * 1 * (1000 / 1000))⌉₊ = 2 :=
    (Nat.ceil_eq_iff two_ne_zero).mpr (by norm_num)
  rw [turnSteps, two]

theorem travelSteps_side : travelSteps (1.5 * 1 * (1000 / 1000)) 2 = 2 := by
  have two : ⌈(2 : ℝ) / (1.5 * 1 * (1000 / 1000))⌉₊ = 2 :=
    (Nat.ceil_eq_iff two_ne_zero).mpr (by norm_num)
  rw [travelSteps, if_neg (by norm_num), two]
  rfl

/-- Three steps to turn, two to travel and three to turn again. -/
theorem elapsed_sidePlan : sidePlan.elapsed 1000 1 = 8 := by
  have entering : sidePlan.entering 0 = -90 := planHeading_quarter
  have arriving : side.arriving = 0 := bearing_side
  have aside : |normal (0 - -90)| = 90 := by
    rw [normal_of_mem (by norm_num) (by norm_num)]
    norm_num
  have back : |normal (-90 - 0)| = 90 := by
    rw [normal_of_mem (by norm_num) (by norm_num)]
    norm_num
  have first : sidePlan.segments[0]? = some side := rfl
  rw [Plan.elapsed_succ first, Plan.stepsOf, Plan.turnInSteps, entering, bearing_side, aside,
    length_side, Segment.turnOutSteps, if_pos turnsOut_side, endHeading_side, arriving, back]
  change 0 + (turnSteps (45.0 * 1 * (1000 / 1000)) 90 + travelSteps (1.5 * 1 * (1000 / 1000)) 2 +
    turnSteps (45.0 * 1 * (1000 / 1000)) 90) = 8
  rw [turnSteps_quarter, travelSteps_side]

theorem run_keeps_timetable_sideways :
    buildPlan brisk (.dialect .robot) sideways = .ok sidePlan ∧ sidePlan.segments ≠ [] ∧
      0 < sidePlan.driveSpeed ∧ 0 < sidePlan.turnRate ∧ (0 : ℝ) < 1000 ∧
      ∃ s t, stateAfter sidePlan 1000 7 (initialState sidePlan) = .ok s ∧ s.running = true ∧
        stateAfter sidePlan 1000 8 (initialState sidePlan) = .ok t ∧ t.phase = .done ∧
        t.point = ⟨2.0, 0⟩ := by
  have built : buildPlan brisk (.dialect .robot) sideways = .ok sidePlan := rfl
  have work : sidePlan.segments ≠ [] := List.cons_ne_nil side []
  have drive : 0 < sidePlan.driveSpeed := by norm_num [sidePlan]
  have turn : 0 < sidePlan.turnRate := by norm_num [sidePlan]
  have passes : (0 : ℝ) < 1000 := by norm_num
  have total : sidePlan.elapsed 1000 sidePlan.segments.length = 8 := elapsed_sidePlan
  have steps := (run_keeps_timetable built work drive turn passes).1
  rw [total] at steps
  obtain ⟨s, late, running, -⟩ := steps 7
  obtain ⟨t, last, -, done, -, -, place⟩ := steps 8
  have ended : t.phase = .done := done.mpr le_rfl
  refine ⟨built, work, drive, turn, passes, s, t, late, running.mpr (by norm_num), last, ended, ?_⟩
  exact (Option.some.inj (place ended)).symm

end PathStudio.Simulation
