import PathStudio.Proofs.Simulation.Passage
import Mathlib.Data.List.Basic

/-!
# Stages of a run

A run along the segments goes through the stages of the plan one after the
other: each segment is turned into, travelled and, if the heading on arrival
asks for it, turned out of. `Stage` says in which of them a state is, which ones
are behind, and what is known of the place and the heading there. A step stays
in its stage or goes on to the next one.
-/

namespace PathStudio.Simulation

open Scalar

variable {ν : Type}

/-- How a run may go on from the segment and phase that it is in. -/
inductive Advances (p : Plan ν) : Int × Phase → Int × Phase → Prop
  | depart {i : Nat} {g : Segment ν} (h : p.segments[i]? = some g) :
    Advances p (i, .turn) (i, .moving g.kind)
  | turnOut {i : Nat} {g : Segment ν} (h : p.segments[i]? = some g) :
    Advances p (i, .moving g.kind) (i, .arrivalTurn)
  | next {i : Nat} {g : Segment ν} {phase : Phase} (h : p.segments[i]? = some g)
    (last : phase = .moving g.kind ∨ phase = .arrivalTurn) (more : i + 1 < p.segments.length) :
    Advances p (i, phase) ((i + 1 : Nat), .turn)
  | finish {i : Nat} {g : Segment ν} {phase : Phase} (h : p.segments[i]? = some g)
    (last : phase = .moving g.kind ∨ phase = .arrivalTurn) (none : i + 1 = p.segments.length) :
    Advances p (i, phase) ((i + 1 : Nat), .done)

/-- A state that is running in a segment. -/
structure Along (p : Plan ν) (i : Nat) (g : Segment ν) (s : State ν) : Prop where
  segment : p.segments[i]? = some g
  seg : s.seg = i
  running : s.running = true
  /-- No polyline is walked. -/
  index : s.index = 0

namespace Along

variable {p : Plan ν} {i : Nat} {g : Segment ν} {s t : State ν}

theorem lt_length (h : Along p i g s) : i < p.segments.length :=
  (List.getElem?_eq_some_iff.mp h.segment).1

theorem not_over (h : Along p i g s) : ¬ s.running = false ∧ s.seg ≠ p.segments.length := by
  have inside := h.lt_length
  have seg := h.seg
  exact ⟨by simp [h.running], by omega⟩

/-- Place, heading, time and progress do not matter to which segment a state is in. -/
theorem of_same (h : Along p i g s) (seg : t.seg = s.seg) (running : t.running = s.running)
    (index : t.index = s.index) : Along p i g t :=
  ⟨h.segment, seg.trans h.seg, running.trans h.running, index.trans h.index⟩

theorem label_eq {phase : Phase} (h : Along p i g s) (hp : s.phase = phase) :
    s.label = (↑i, phase) := by
  rw [State.label, h.seg, hp]

end Along

variable [Add ν] [Sub ν] [Mul ν] [Div ν] [Neg ν] [Scalar ν]

/-- The stages of a segment. -/
def Segment.stages (i : Nat) (g : Segment ν) : List (Int × Phase) :=
  (i, .turn) :: (i, .moving g.kind) ::
    if g.turnsOut.toOption.getD false then [(i, .arrivalTurn)] else []

theorem Segment.stages_of_turnsOut {i : Nat} {g : Segment ν} {out : Bool}
    (h : g.turnsOut = .ok out) :
    g.stages i =
      (↑i, .turn) :: (↑i, .moving g.kind) :: if out then [(↑i, .arrivalTurn)] else [] := by
  rw [stages, h]
  rfl

theorem Segment.fst_of_mem_stages {i : Nat} {g : Segment ν} {label : Int × Phase}
    (h : label ∈ g.stages i) : label.1 = i := by
  rw [stages] at h
  split at h
  · simp only [List.mem_cons, List.not_mem_nil, or_false] at h
    obtain rfl | rfl | rfl := h <;> rfl
  · simp only [List.mem_cons, List.not_mem_nil, or_false] at h
    obtain rfl | rfl := h <;> rfl

/-- The stages of the given segments, counted from the given number. -/
def stagesFrom (i : Nat) : List (Segment ν) → List (Int × Phase)
  | [] => []
  | g :: rest => g.stages i ++ stagesFrom (i + 1) rest

/-- The stages of the first segments of a plan. -/
def Plan.stages (p : Plan ν) (n : Nat) : List (Int × Phase) := stagesFrom 0 (p.segments.take n)

@[simp] theorem stagesFrom_append (i : Nat) (gs hs : List (Segment ν)) :
    stagesFrom i (gs ++ hs) = stagesFrom i gs ++ stagesFrom (i + gs.length) hs := by
  induction gs generalizing i with
  | nil => rfl
  | cons g rest ih =>
    rw [List.cons_append, stagesFrom, ih, stagesFrom, List.append_assoc, List.length_cons]
    congr 3
    omega

theorem Plan.stages_succ {p : Plan ν} {i : Nat} {g : Segment ν} (h : p.segments[i]? = some g) :
    p.stages (i + 1) = p.stages i ++ g.stages i := by
  obtain ⟨hi, -⟩ := List.getElem?_eq_some_iff.mp h
  rw [stages, List.take_add_one, h, stagesFrom_append, List.length_take_of_le (Nat.le_of_lt hi),
    Nat.zero_add]
  simp only [Option.toList_some, stagesFrom, List.append_nil, stages]

theorem fst_of_mem_stagesFrom {i : Nat} {gs : List (Segment ν)} {label : Int × Phase}
    (h : label ∈ stagesFrom i gs) : i ≤ label.1 ∧ label.1 < i + gs.length := by
  induction gs generalizing i with
  | nil => cases h
  | cons g rest ih =>
    rw [List.length_cons]
    obtain here | later := List.mem_append.mp h
    · have first : label.1 = i := Segment.fst_of_mem_stages here
      omega
    · have := ih later
      omega

/-- The stages of earlier segments are not those of a later one. -/
theorem Plan.fst_lt_of_mem_stages {p : Plan ν} {n : Nat} {label : Int × Phase}
    (h : label ∈ p.stages n) : label.1 < n := by
  have := (fst_of_mem_stagesFrom h).2
  have := List.length_take_le n p.segments
  omega

theorem Segment.nodup_stages (i : Nat) (g : Segment ν) : (g.stages i).Nodup := by
  rw [stages]
  split <;> simp

theorem nodup_stagesFrom (i : Nat) (gs : List (Segment ν)) : (stagesFrom i gs).Nodup := by
  induction gs generalizing i with
  | nil => exact .nil
  | cons g rest ih =>
    refine List.nodup_append.mpr ⟨g.nodup_stages i, ih (i + 1), fun here hm later hm' same => ?_⟩
    have := Segment.fst_of_mem_stages hm
    have := (fst_of_mem_stagesFrom hm').1
    rw [same] at *
    omega

/-- Where a run is: the stages behind it, and what is known of its state. -/
inductive Stage (p : Plan ν) : List (Int × Phase) → State ν → Prop
  | turning {i : Nat} {g : Segment ν} {s : State ν} (along : Along p i g s)
    (phase : s.phase = .turn) (place : p.departure i = .ok s.point) : Stage p (p.stages i) s
  | travelling {i : Nat} {g : Segment ν} {s : State ν} (along : Along p i g s)
    (phase : s.phase = .moving g.kind) (course : g.kind = .strafe → g.course = .ok s.heading) :
    Stage p (p.stages i ++ [((i : Int), .turn)]) s
  | turningOut {i : Nat} {g : Segment ν} {s : State ν} (along : Along p i g s)
    (phase : s.phase = .arrivalTurn) (place : p.departure (i + 1) = .ok s.point)
    (out : g.turnsOut = .ok true) :
    Stage p (p.stages i ++ [((i : Int), .turn), ((i : Int), .moving g.kind)]) s
  | ended {s : State ν} (seg : s.seg = p.segments.length) (phase : s.phase = .done)
    (running : s.running = false) (index : s.index = 0)
    (place : p.departure p.segments.length = .ok s.point)
    (facing : p.facing p.segments.length = .ok s.heading) :
    Stage p (p.stages p.segments.length) s

namespace Stage

variable {p : Plan ν} {before : List (Int × Phase)} {s : State ν}

/-- A run is over just in the last phase. -/
theorem running_eq_false_iff_phase (h : Stage p before s) : s.running = false ↔ s.phase = .done := by
  cases h with
  | turning along phase | travelling along phase | turningOut along phase =>
    simp [along.not_over, phase]
  | ended seg phase running => simp [running, phase]

/-- A run is over just when all segments are behind. -/
theorem running_eq_false_iff_seg (h : Stage p before s) :
    s.running = false ↔ s.seg = p.segments.length := by
  cases h with
  | turning along | travelling along | turningOut along => simp [along.not_over]
  | ended seg phase running => simp [running, seg]

/-- A run that goes on is in a segment, and in one of its phases. -/
theorem exists_segment (h : Stage p before s) (running : s.running = true) :
    ∃ (i : Nat) (g : Segment ν), p.segments[i]? = some g ∧ s.seg = i ∧
      (s.phase = .turn ∨ s.phase = .arrivalTurn ∨ s.phase = .moving g.kind) := by
  cases h with
  | turning along phase => exact ⟨_, _, along.segment, along.seg, .inl phase⟩
  | travelling along phase => exact ⟨_, _, along.segment, along.seg, .inr (.inr phase)⟩
  | turningOut along phase => exact ⟨_, _, along.segment, along.seg, .inr (.inl phase)⟩
  | ended _ _ stopped => cases running.symm.trans stopped

/-- The turn into a segment takes place where the robot leaves for it. -/
theorem departure_of_turn (h : Stage p before s) (turn : s.phase = .turn) :
    ∃ (i : Nat) (g : Segment ν), p.segments[i]? = some g ∧ s.seg = i ∧
      p.departure i = .ok s.point := by
  cases h with
  | turning along _ place => exact ⟨_, _, along.segment, along.seg, place⟩
  | travelling _ phase | turningOut _ phase | ended _ phase => cases turn.symm.trans phase

/-- The turn out of a segment takes place where the robot has arrived. -/
theorem departure_of_arrivalTurn (h : Stage p before s) (turn : s.phase = .arrivalTurn) :
    ∃ (i : Nat) (g : Segment ν), p.segments[i]? = some g ∧ s.seg = i ∧
      p.departure (i + 1) = .ok s.point ∧ g.turnsOut = .ok true := by
  cases h with
  | turningOut along _ place out => exact ⟨_, _, along.segment, along.seg, place, out⟩
  | turning _ phase | travelling _ phase | ended _ phase => cases turn.symm.trans phase

/-- The run ends where all segments are behind. -/
theorem departure_of_done (h : Stage p before s) (done : s.phase = .done) :
    p.departure p.segments.length = .ok s.point := by
  cases h with
  | ended _ _ _ _ place => exact place
  | turning _ phase | travelling _ phase | turningOut _ phase => cases done.symm.trans phase

/-- A running state is in a stage that is not behind it. -/
theorem label_notMem (h : Stage p before s) (running : s.running = true) : s.label ∉ before := by
  have earlier {i : Nat} (seg : s.seg = i) : s.label ∉ p.stages i := by
    intro behind
    have : s.seg < i := Plan.fst_lt_of_mem_stages behind
    omega
  cases h with
  | turning along => exact earlier along.seg
  | travelling along phase | turningOut along phase =>
    apply List.not_mem_append (earlier along.seg)
    simp [State.label, phase]
  | ended _ _ stopped => cases running.symm.trans stopped

/-- The time does not matter to where a run is. -/
theorem of_time (h : Stage p before s) (time : ν) : Stage p before { s with time } := by
  cases h with
  | turning along phase place => exact .turning (along.of_same rfl rfl rfl) phase place
  | travelling along phase course => exact .travelling (along.of_same rfl rfl rfl) phase course
  | turningOut along phase place out =>
    exact .turningOut (along.of_same rfl rfl rfl) phase place out
  | ended seg phase running index place facing =>
    exact .ended seg phase running index place facing

end Stage

/-! ## The start of a segment -/

/-- A state at the start of a segment, or at the end of the plan. -/
structure AtStart (p : Plan ν) (i : Nat) (s : State ν) : Prop where
  seg : s.seg = i
  phase : s.phase = if i < p.segments.length then .turn else .done
  running : s.running = decide (i < p.segments.length)
  index : s.index = 0
  facing : p.facing i = .ok s.heading

section Start

variable {p : Plan ν} {i : Nat} {g : Segment ν} {s : State ν}

theorem AtStart.of_time (h : AtStart p i s) (time : ν) : AtStart p i { s with time } :=
  ⟨h.seg, h.phase, h.running, h.index, h.facing⟩

theorem AtStart.along (h : AtStart p i s) (hg : p.segments[i]? = some g) :
    Along p i g s ∧ s.phase = .turn := by
  have inside : i < p.segments.length := (List.getElem?_eq_some_iff.mp hg).1
  exact ⟨⟨hg, h.seg, h.running.trans (decide_eq_true inside), h.index⟩,
    h.phase.trans (if_pos inside)⟩

/-- At the start of a segment the stages of the earlier ones are behind. -/
theorem AtStart.stage (h : AtStart p i s) (inside : i ≤ p.segments.length)
    (place : p.departure i = .ok s.point) : Stage p (p.stages i) s := by
  obtain more | rfl := Nat.lt_or_eq_of_le inside
  · obtain ⟨along, phase⟩ := h.along (List.getElem?_eq_getElem more)
    exact .turning along phase place
  · exact .ended h.seg (h.phase.trans (if_neg (Nat.lt_irrefl _)))
      (h.running.trans (decide_eq_false (Nat.lt_irrefl _))) h.index place h.facing

/-- A run begins at the start of the first segment, or it is over at once. -/
theorem atStart_initialState (robot : p.mode.isField = false) : AtStart p 0 (initialState p) where
  seg := rfl
  phase := by simp [initialState, robot, List.length_pos_iff]
  running := by cases hs : p.segments <;> simp [initialState, robot, hs]
  index := rfl
  facing := rfl

/-- A segment that is left with its last heading leads to the start of the next one. -/
theorem atStart_nextSegment (along : Along p i g s) (exit : g.exitHeading = .ok s.heading) :
    AtStart p (i + 1) (s.nextSegment p) := by
  rw [← Plan.facing_succ along.segment] at exit
  rw [State.nextSegment, along.seg]
  by_cases more : i + 1 < p.segments.length
  · rw [if_neg (by omega)]
    have running : s.running = decide (i + 1 < p.segments.length) :=
      along.running.trans (decide_eq_true more).symm
    exact ⟨rfl, (if_pos more).symm, running, along.index, exit⟩
  · rw [if_pos (by omega)]
    exact ⟨rfl, (if_neg more).symm, (decide_eq_false more).symm, along.index, exit⟩

@[simp] theorem State.point_nextSegment (p : Plan ν) (s : State ν) : (s.nextSegment p).point = s.point := by
  rw [nextSegment]
  split <;> rfl

theorem stage_initialState (robot : p.mode.isField = false) : Stage p [] (initialState p) :=
  (atStart_initialState robot).stage (Nat.zero_le _) rfl

/-- Leaving a segment, at the point and with the heading that it ends with. -/
theorem stage_nextSegment (along : Along p i g s) (place : g.arrivalPoint = .ok s.point)
    (exit : g.exitHeading = .ok s.heading)
    (last : s.phase = .moving g.kind ∨ s.phase = .arrivalTurn) :
    Stage p (p.stages (i + 1)) (s.nextSegment p) ∧
      Advances p s.label (s.nextSegment p).label := by
  have start := atStart_nextSegment along exit
  have inside : i + 1 ≤ p.segments.length := along.lt_length
  rw [← Plan.departure_succ along.segment, ← State.point_nextSegment p] at place
  refine ⟨start.stage inside place, ?_⟩
  rw [State.label, State.label, start.seg, start.phase, along.seg]
  split
  next more => exact .next along.segment last more
  next none => exact .finish along.segment last (by omega)

end Start

/-! ## Steps -/

theorem entryAt_natCast {α : Type} {entries : List α} {i : Nat} {entry : α}
    (h : entries[i]? = some entry) : entryAt entries i = .ok entry := by
  obtain ⟨hi, -⟩ := List.getElem?_eq_some_iff.mp h
  have place : Json.position? entries.length i = some i := by
    rw [Json.position?, if_pos (by omega), if_pos (by omega)]
    rfl
  rw [entryAt, place, Option.bind_some, h]

section Steps

variable {p : Plan ν} {i : Nat} {g : Segment ν} {before : List (Int × Phase)} {s next : State ν}
  {most seconds : ν}

/-- A step of a state that is running in a segment is a step of its phase. -/
theorem stepRobot_eq (h : Along p i g s) (seconds : ν) : stepRobot p s seconds =
    match s.phase with
    | .turn => stepTurn g s (p.turnRate * seconds)
    | .arrivalTurn => stepArrivalTurn p g s (p.turnRate * seconds)
    | _ => stepTravel p g s seconds := by
  have inside := h.lt_length
  rw [stepRobot, h.seg, if_neg (by omega), entryAt_natCast h.segment]
  rfl

/-- A step stays in its stage, or the stage is behind it and the next one has begun. -/
def Goes (p : Plan ν) (before : List (Int × Phase)) (s next : State ν) : Prop :=
  (next.label = s.label ∧ Stage p before next) ∨
    (Advances p s.label next.label ∧ Stage p (before ++ [s.label]) next)

/-- The turn into a segment goes on, or the travel begins. -/
theorem goes_stepTurn (along : Along p i g s) (phase : s.phase = .turn)
    (place : p.departure i = .ok s.point) (step : stepTurn g s most = .ok next) :
    Goes p (p.stages i) s next := by
  obtain ⟨heading, rfl⟩ | ⟨heading, course, rfl⟩ := stepTurn_cases step
  · left
    exact ⟨rfl, .turning (along.of_same rfl rfl rfl) phase place⟩
  · right
    rw [along.label_eq phase]
    refine ⟨?_, .travelling (along.of_same rfl rfl rfl) rfl fun _ => course⟩
    rw [State.label, along.seg]
    exact .depart along.segment

/-- The travel goes on, or the robot has arrived and turns out of the segment or leaves it. -/
theorem goes_stepTravel [Ordered ν] (along : Along p i g s) (phase : s.phase = .moving g.kind)
    (course : g.kind = .strafe → g.course = .ok s.heading)
    (step : stepTravel p g s seconds = .ok next) :
    Goes p (p.stages i ++ [((i : Int), .turn)]) s next := by
  obtain ⟨x, y, heading, progress, traveled, kept, rfl⟩ |
    ⟨point, heading, progress, traveled, out, hp, hh, turns, rfl⟩ :=
    stepTravel_cases step phase course
  · left
    refine ⟨rfl, .travelling (along.of_same rfl rfl rfl) phase ?_⟩
    intro strafe
    exact (course strafe).trans (congrArg Except.ok (kept strafe).symm)
  · right
    cases out with
    | true =>
      rw [along.label_eq phase, List.append_assoc, if_pos rfl]
      refine ⟨?_, .turningOut (along.of_same rfl rfl rfl) rfl ?_ turns⟩
      · rw [State.label, along.seg]
        exact .turnOut along.segment
      · rw [Plan.departure_succ along.segment]
        exact hp
    | false =>
      have exit : g.exitHeading = .ok heading := by
        rw [Segment.exitHeading_of_turnsOut turns, if_neg Bool.false_ne_true, hh]
      have arrived : Along p i g
          { s with x := point.x, y := point.y, heading, progress, traveled } :=
        along.of_same rfl rfl rfl
      obtain ⟨stage, advances⟩ := stage_nextSegment arrived hp exit (.inl phase)
      rw [Plan.stages_succ along.segment, Segment.stages_of_turnsOut turns] at stage
      rw [along.label_eq phase, List.append_assoc]
      refine ⟨?_, stage⟩
      rw [← along.label_eq phase]
      exact advances

/-- The turn out of a segment goes on, or the segment is left. -/
theorem goes_stepArrivalTurn (along : Along p i g s) (phase : s.phase = .arrivalTurn)
    (place : p.departure (i + 1) = .ok s.point) (out : g.turnsOut = .ok true)
    (step : stepArrivalTurn p g s most = .ok next) :
    Goes p (p.stages i ++ [((i : Int), .turn), ((i : Int), .moving g.kind)]) s next := by
  obtain ⟨heading, rfl⟩ | ⟨heading, normal, rfl⟩ := stepArrivalTurn_cases step
  · left
    exact ⟨rfl, .turningOut (along.of_same rfl rfl rfl) phase place out⟩
  · right
    rw [Plan.departure_succ along.segment] at place
    have exit : g.exitHeading = .ok heading := by
      rw [Segment.exitHeading_of_turnsOut out, if_pos rfl, normal]
    have turned : Along p i g { s with heading } := along.of_same rfl rfl rfl
    obtain ⟨stage, advances⟩ := stage_nextSegment turned place exit (.inr phase)
    rw [Plan.stages_succ along.segment, Segment.stages_of_turnsOut out] at stage
    rw [along.label_eq phase, List.append_assoc]
    refine ⟨?_, stage⟩
    rw [← along.label_eq phase]
    exact advances

/-- Whatever its stage is, a step of a running state stays in it or goes on to the next one. -/
theorem Stage.goes_stepRobot [Ordered ν] (h : Stage p before s) (running : s.running = true)
    (step : stepRobot p s seconds = .ok next) : Goes p before s next := by
  cases h with
  | turning along phase place =>
    rw [stepRobot_eq along, phase] at step
    exact goes_stepTurn along phase place step
  | travelling along phase course =>
    rw [stepRobot_eq along, phase] at step
    exact goes_stepTravel along phase course step
  | turningOut along phase place out =>
    rw [stepRobot_eq along, phase] at step
    exact goes_stepArrivalTurn along phase place out step
  | ended _ _ stopped => cases running.symm.trans stopped

end Steps

end PathStudio.Simulation
