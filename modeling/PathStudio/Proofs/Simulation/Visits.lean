import PathStudio.Proofs.Simulation.Stage
import PathStudio.Simulation.Runner
import Mathlib.Data.List.Destutter

/-!
# Visits of a trace

Frames in a row with one segment and phase are one visit. The visits of a trace
are told from the visits of its beginning and the next frame, and the counts of
the phases are those of the visits. A run that has passed a number of segments
has visited their stages, so that the counts are known.
-/

namespace PathStudio.Simulation

open Scalar

variable {ν : Type}

/-- The segment and the phase of a frame. -/
def Frame.label (f : Frame ν) : Int × Phase := (f.seg, f.phase)

/-- The visits of frames, in order: their labels, each once for all frames in a row. -/
def visits (frames : List (Frame ν)) : List (Int × Phase) :=
  (frames.map Frame.label).destutter (· ≠ ·)

/-! ## Entries in a row -/

section Destutter

variable {α : Type} [DecidableEq α]

theorem destutter'_concat (a x : α) (l : List α) :
    (l ++ [x]).destutter' (· ≠ ·) a =
      if (l.destutter' (· ≠ ·) a).getLast? = some x then l.destutter' (· ≠ ·) a
      else l.destutter' (· ≠ ·) a ++ [x] := by
  induction l generalizing a with
  | nil =>
    by_cases h : a = x
    · simp [h]
    · simp [h]
  | cons b l ih =>
    rw [List.cons_append]
    by_cases h : a = b
    · rw [List.destutter'_cons_neg _ (not_not.mpr h), List.destutter'_cons_neg _ (not_not.mpr h), ih]
    · rw [List.destutter'_cons_pos _ h, List.destutter'_cons_pos _ h, ih,
        List.getLast?_cons_of_ne_nil (List.destutter'_ne_nil _ _)]
      split <;> rfl

/-- One more entry adds to the entries in a row unless it is that of the last row. -/
theorem destutter_concat (x : α) (l : List α) :
    (l ++ [x]).destutter (· ≠ ·) =
      if (l.destutter (· ≠ ·)).getLast? = some x then l.destutter (· ≠ ·)
      else l.destutter (· ≠ ·) ++ [x] := by
  cases l with
  | nil => rfl
  | cons a l => exact destutter'_concat a x l

theorem tail_destutter'_self (a : α) (l : List α) :
    l.destutter' (· ≠ ·) a = a :: (l.destutter' (· ≠ ·) a).tail := by
  induction l with
  | nil => rfl
  | cons b l ih =>
    by_cases h : a = b
    · rw [List.destutter'_cons_neg _ (not_not.mpr h)]
      exact ih
    · rw [List.destutter'_cons_pos _ h]
      rfl

/-- An entry in front of the others counts the same whether or not those are told apart before. -/
theorem destutter_cons_destutter (a : α) (l : List α) :
    (a :: l.destutter (· ≠ ·)).destutter (· ≠ ·) = (a :: l).destutter (· ≠ ·) := by
  cases l with
  | nil => rfl
  | cons b l =>
    have chain : (b :: (l.destutter' (· ≠ ·) b).tail).IsChain (· ≠ ·) :=
      tail_destutter'_self b l ▸ List.isChain_destutter' _ l b
    rw [List.destutter_cons', List.destutter_cons', List.destutter_cons', tail_destutter'_self b l]
    by_cases h : a = b
    · subst h
      rw [List.destutter'_cons_neg _ (not_not.mpr rfl), List.destutter'_cons_neg _ (not_not.mpr rfl),
        List.destutter'_of_isChain_cons _ _ chain, ← tail_destutter'_self]
    · rw [List.destutter'_cons_pos _ h, List.destutter'_cons_pos _ h,
        List.destutter'_of_isChain_cons _ _ chain, ← tail_destutter'_self]

end Destutter

theorem visits_concat (frames : List (Frame ν)) (f : Frame ν) :
    visits (frames ++ [f]) =
      if (visits frames).getLast? = some f.label then visits frames
      else visits frames ++ [f.label] := by
  rw [visits, List.map_append]
  exact destutter_concat f.label _

/-! ## Counting -/

/-- How often a table of counts says that a phase was entered. -/
def timesIn (counts : List (Phase × Nat)) (phase : Phase) : Nat := (counts.lookup phase).getD 0

theorem timesIn_cons (first phase : Phase) (n : Nat) (rest : List (Phase × Nat)) :
    timesIn ((first, n) :: rest) phase = if phase = first then n else timesIn rest phase := by
  rw [timesIn, List.lookup_cons]
  split
  next same => rw [if_pos (eq_of_beq same)]; rfl
  next other => rw [if_neg (ne_of_beq_false other)]; rfl

theorem timesIn_countVisit (entered phase : Phase) (counts : List (Phase × Nat)) :
    timesIn (countVisit entered counts) phase =
      timesIn counts phase + if entered = phase then 1 else 0 := by
  induction counts with
  | nil =>
    rw [countVisit, timesIn_cons]
    by_cases h : entered = phase
    · rw [if_pos h.symm, if_pos h]
      rfl
    · rw [if_neg (Ne.symm h), if_neg h, Nat.add_zero]
  | cons entry rest ih =>
    obtain ⟨first, n⟩ := entry
    rw [countVisit]
    by_cases same : first = entered
    · subst same
      rw [if_pos rfl, timesIn_cons, timesIn_cons]
      by_cases h : first = phase
      · rw [if_pos h.symm, if_pos h.symm, if_pos h]
      · rw [if_neg (Ne.symm h), if_neg (Ne.symm h), if_neg h, Nat.add_zero]
    · rw [if_neg same, timesIn_cons, timesIn_cons, ih]
      by_cases h : phase = first
      · rw [if_pos h, if_pos h, if_neg (fun entering => same (h.symm.trans entering.symm)),
          Nat.add_zero]
      · rw [if_neg h, if_neg h]

/-- The counts of a list of visits. -/
theorem timesIn_foldl_countVisit (phase : Phase) (list : List (Int × Phase))
    (counts : List (Phase × Nat)) :
    timesIn (list.foldl (fun counts visit => countVisit visit.2 counts) counts) phase =
      timesIn counts phase + list.countP (·.2 = phase) := by
  induction list generalizing counts with
  | nil => rfl
  | cons visit rest ih =>
    rw [List.foldl_cons, ih, timesIn_countVisit, List.countP_cons]
    simp only [decide_eq_true_eq]
    omega

theorem visitsFrom_some (key : Int × Phase) (counts : List (Phase × Nat)) (frames : List (Frame ν)) :
    visitsFrom (some key) counts frames =
      ((frames.map Frame.label).destutter' (· ≠ ·) key).tail.foldl
        (fun counts visit => countVisit visit.2 counts) counts := by
  induction frames generalizing key counts with
  | nil => rfl
  | cons f rest ih =>
    rw [visitsFrom, List.map_cons]
    change (if some f.label = some key then _ else visitsFrom (some f.label) _ rest) = _
    by_cases same : f.label = key
    · rw [if_pos (congrArg some same), List.destutter'_cons_neg _ (not_not.mpr same.symm), ih]
    · rw [if_neg fun h => same (Option.some.inj h), List.destutter'_cons_pos _ (Ne.symm same), ih,
        List.tail_cons, tail_destutter'_self f.label, List.foldl_cons]
      rfl

/-- A trace counts the visits of its frames after the first. -/
theorem timesIn_phaseVisits (trace : Array (Frame ν)) (phase : Phase) :
    timesIn (phaseVisits trace) phase = (visits (trace.toList.drop 1)).countP (·.2 = phase) := by
  rw [phaseVisits, visits]
  cases trace.toList.drop 1 with
  | nil => rfl
  | cons f rest =>
    rw [List.map_cons, List.destutter_cons', tail_destutter'_self, List.countP_cons, visitsFrom]
    change timesIn (visitsFrom (some f.label) _ rest) phase = _
    rw [visitsFrom_some, timesIn_foldl_countVisit, timesIn_countVisit]
    simp only [decide_eq_true_eq, timesIn, List.lookup_nil, Option.getD_none, Nat.zero_add]
    exact Nat.add_comm _ _

/-! ## The visits of the stages -/

section Stages

variable [Add ν] [Sub ν] [Mul ν] [Div ν] [Neg ν] [Scalar ν] (p : Plan ν)

/-- The stages of segments are counted by counting segments, if those of each segment are. -/
theorem countP_stagesFrom {test : Int × Phase → Bool} {counted : Segment ν → Bool}
    (h : ∀ (i : Nat) g, (g.stages i).countP test = if counted g then 1 else 0) (i : Nat)
    (gs : List (Segment ν)) : (stagesFrom i gs).countP test = gs.countP counted := by
  induction gs generalizing i with
  | nil => rfl
  | cons g rest ih =>
    rw [stagesFrom, List.countP_append, h, ih, List.countP_cons]
    exact Nat.add_comm _ _

theorem Plan.countP_stages {test : Int × Phase → Bool} {counted : Segment ν → Bool}
    (h : ∀ (i : Nat) g, (g.stages i).countP test = if counted g then 1 else 0) :
    (p.stages p.segments.length).countP test = p.segments.countP counted := by
  rw [stages, List.take_length, countP_stagesFrom h]

/-- Every segment is turned into once. -/
theorem Plan.countP_turn_stages :
    (p.stages p.segments.length).countP (·.2 = .turn) = p.segments.length := by
  have once (i : Nat) (g : Segment ν) :
      (g.stages i).countP (·.2 = .turn) = if true then 1 else 0 := by
    rw [Segment.stages]
    split <;> simp
  exact (p.countP_stages once).trans (congrFun List.countP_true _)

/-- Every segment is travelled once, in the way of its kind. -/
theorem Plan.countP_moving_stages (kind : MoveKind) :
    (p.stages p.segments.length).countP (·.2 = .moving kind) =
      p.segments.countP (·.kind = kind) := by
  refine p.countP_stages fun i g => ?_
  rw [Segment.stages]
  split <;> simp [List.countP_cons]

/-- The segments that are turned out of are turned out of once. -/
theorem Plan.countP_arrivalTurn_stages :
    (p.stages p.segments.length).countP (·.2 = .arrivalTurn) =
      p.segments.countP fun g => g.turnsOut.toOption.getD false := by
  refine p.countP_stages fun i g => ?_
  rw [Segment.stages]
  split <;> simp [*]

end Stages

end PathStudio.Simulation
