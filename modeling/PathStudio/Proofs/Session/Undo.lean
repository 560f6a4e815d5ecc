import PathStudio.Proofs.Session.Operation
import Mathlib.Logic.Function.Iterate

/-!
# Undoing

The history is a bounded stack. Whatever has been done since, undoing goes back
through the saved layouts from the latest on, as many as are still kept, and then
refuses. Mode and marker numbers are not part of a layout and stay.
-/

namespace PathStudio

variable {ν : Type}

namespace Session

/-- The session after so many undos. -/
def undos (n : Nat) (s : Session ν) : Session ν := (fun s => (Edit.undo.on s).2)^[n] s

@[simp] theorem undos_succ (n : Nat) (s : Session ν) : s.undos (n + 1) = (Edit.undo.on (s.undos n)).2 :=
  Function.iterate_succ_apply' _ n s

end Session

theorem on_undo_of_nil {s : Session ν} (h : s.history = []) :
    (Edit.undo : Edit ν Bool).on s = (.ok false, s) := by
  have none : s.undone? = none := by simp [Session.undone?, h]
  rw [Edit.undo, Edit.on_bind_ok (Edit.on_get s), none]
  rfl

theorem on_undo_of_cons {s : Session ν} {l : Layout ν} {rest : List (Layout ν)}
    (h : s.history = l :: rest) :
    (Edit.undo : Edit ν Bool).on s = (.ok true, { s with toLayout := l, past := s.past.tail }) := by
  have some : s.undone? = some { s with toLayout := l, past := s.past.tail } := by
    simp [Session.undone?, h]
  rw [Edit.undo, Edit.on_bind_ok (Edit.on_get s), some]
  rfl

/-- The layouts that there are after an undo are the earlier ones. -/
theorem Session.cons_layouts_tail {s : Session ν} {l : Layout ν} {rest : List (Layout ν)}
    (h : s.history = l :: rest) : l :: s.past.tail.layouts = s.history := by
  have kept : s.past.tail.layouts = rest := congrArg List.tail h
  rw [h, kept]

/-- An undo takes the latest layout out of the history and keeps what is no part of a layout. -/
theorem undo_frame (s : Session ν) :
    let t := (Edit.undo.on s).2
    t.history = s.history.tail ∧ t.mode = s.mode ∧ t.nextMarkerId = s.nextMarkerId := by
  cases h : s.history with
  | nil => simp [on_undo_of_nil h, h]
  | cons l rest =>
    rw [on_undo_of_cons h]
    exact ⟨congrArg List.tail h, rfl, rfl⟩

theorem undos_frame (n : Nat) (s : Session ν) :
    (s.undos n).history = s.history.drop n ∧ (s.undos n).mode = s.mode ∧
      (s.undos n).nextMarkerId = s.nextMarkerId := by
  induction n with
  | zero => exact ⟨rfl, rfl, rfl⟩
  | succ n ih =>
    obtain ⟨hh, hm, hn⟩ := ih
    obtain ⟨history, mode, next⟩ := undo_frame (s.undos n)
    rw [Session.undos_succ]
    exact ⟨by rw [history, hh, List.tail_drop], mode.trans hm, next.trans hn⟩

/-- The undo after `n` others restores the saved layout at that depth, if there is one that deep. -/
theorem on_undo_undos (n : Nat) (s : Session ν) :
    match s.history[n]? with
    | some l => Edit.undo.on (s.undos n) = (.ok true, s.undos (n + 1)) ∧
        (s.undos (n + 1)).toLayout = l
    | none => (Edit.undo : Edit ν Bool).on (s.undos n) = (.ok false, s.undos n) := by
  obtain ⟨history, -, -⟩ := undos_frame n s
  cases h : s.history[n]? with
  | none =>
    have empty : (s.undos n).history = [] := by
      rw [history, List.drop_eq_nil_iff]
      exact List.getElem?_eq_none_iff.mp h
    exact on_undo_of_nil empty
  | some l =>
    obtain ⟨hn, hl⟩ := List.getElem?_eq_some_iff.mp h
    have cons : (s.undos n).history = l :: s.history.drop (n + 1) := by
      rw [history, List.drop_eq_getElem_cons hn, hl]
    have undone := on_undo_of_cons cons
    rw [Session.undos_succ, undone]
    exact ⟨rfl, rfl⟩

variable [Add ν] [Sub ν] [Mul ν] [Div ν] [Neg ν] [Scalar ν]

/-- What is beyond the limit may as well be dropped before more is put in front. -/
theorem take_append_take {α : Type} (a b : List α) (n : Nat) :
    (a ++ b.take n).take n = (a ++ b).take n := by
  rw [List.take_append, List.take_append, List.take_take, Nat.min_eq_left (Nat.sub_le n a.length)]

namespace Operation

/-- Runs of operations save what each of them saves, and of all that the latest layouts stay. -/
theorem runAll_history (ops : List (Operation ν)) (hops : ∀ op ∈ ops, op.isUndo = false)
    (s : Session ν) : (runAll ops s).history = (savedAll ops s ++ s.history).take historyLimit := by
  induction ops generalizing s with
  | nil =>
    rw [runAll, List.foldl_nil, savedAll, List.nil_append, List.take_of_length_le s.past.length_le]
  | cons op ops ih =>
    have first := run_history op (hops op (by simp)) s
    have rest := ih (fun op h => hops op (by simp [h])) (op.run s)
    calc (runAll (op :: ops) s).history
        = (savedAll ops (op.run s) ++ (op.run s).history).take historyLimit := rest
      _ = (savedAll ops (op.run s) ++ (op.saved s ++ s.history).take historyLimit).take
            historyLimit := by rw [first]
      _ = (savedAll (op :: ops) s ++ s.history).take historyLimit := by
          rw [savedAll, List.append_assoc, take_append_take]

/-- What a saving operation has changed, or has refused only after saving, one undo takes back. -/
theorem undo_run (op : Operation ν) (h : op.saves = true) (s : Session ν) :
    (op.saved s = [] ∧ op.run s = s) ∨
      (op.saved s = [s.toLayout] ∧ (Edit.undo.on (op.run s)).1 = .ok true ∧
        (Edit.undo.on (op.run s)).2.toLayout = s.toLayout) := by
  obtain same | ⟨saved, history⟩ := run_of_saves op h s
  · exact .inl same
  · have undone := on_undo_of_cons (history.trans (List.take_succ_cons ..))
    exact .inr ⟨saved, by rw [undone], by rw [undone]⟩

end Operation

namespace Session

/-- A session that has been read has nothing selected and nothing to undo. -/
theorem fresh_of_ofJson {data : Json} {s : Session Float} (h : ofJson data = .ok s) :
    s.selection = none ∧ s.history = [] := by
  simp only [ofJson, bind_eq_ok] at h
  obtain ⟨_, -, _, -, _, -, _, -, _, -, _, -, _, -, _, -, _, -, _, -, _, -, _, -, _, -, _, -, _, -,
    _, -, h⟩ := h
  rw [return_eq_ok] at h
  rw [← h]
  exact ⟨rfl, rfl⟩

theorem IsInitial.history_eq_nil {s : Session Float} (h : s.IsInitial) : s.history = [] := by
  obtain rfl | ⟨data, hd⟩ := h
  · rfl
  · exact (fresh_of_ofJson hd).2

end Session

open Operation

/-- After a run of operations without undo, undoing restores the layouts saved by the run, and then
those saved before it, from the latest on, as many as are kept; the next undo is refused and changes
nothing. Each operation saves at most the layout that it is given, and one that has not saved has
changed nothing that undoing restores, unless it is a drag, a selection or a change of mode. -/
theorem undo_is_bounded_stack (s : Session Float) (ops : List (Operation Float))
    (hops : ∀ op ∈ ops, op.isUndo = false) :
    let t := runAll ops s
    let saved := savedAll ops s ++ s.history
    let kept := min historyLimit (s.history.length + (savedAll ops s).length)
    t.history = saved.take historyLimit ∧
      (∀ n, (t.undos n).mode = t.mode ∧ (t.undos n).nextMarkerId = t.nextMarkerId) ∧
      (∀ n < kept, Edit.undo.on (t.undos n) = (.ok true, t.undos (n + 1)) ∧
        some (t.undos (n + 1)).toLayout = saved[n]?) ∧
      (∀ n, kept ≤ n → Edit.undo.on (t.undos n) = (.ok false, t.undos n)) ∧
      ∀ (op : Operation Float) (u : Session Float),
        (op.saves = true →
          (op.saved u = [] ∧ op.run u = u) ∨
            (op.saved u = [u.toLayout] ∧ (Edit.undo.on (op.run u)).1 = .ok true ∧
              (Edit.undo.on (op.run u)).2.toLayout = u.toLayout)) ∧
        (op.saves = false → op.isUndo = false → op.saved u = []) := by
  intro t saved kept
  have history : t.history = saved.take historyLimit := runAll_history ops hops s
  have length : t.history.length = kept := by
    rw [history, List.length_take, List.length_append, Nat.add_comm]
  refine ⟨history, fun n => (undos_frame n t).2, fun n hn => ?_, fun n hn => ?_, fun op u => ?_⟩
  · have step := on_undo_undos n t
    rw [List.getElem?_eq_getElem (length ▸ hn)] at step
    refine ⟨step.1, ?_⟩
    rw [step.2, ← List.getElem?_eq_getElem, history, List.getElem?_take_of_lt (by omega)]
  · have step := on_undo_undos n t
    rwa [List.getElem?_eq_none (length ▸ hn)] at step
  · exact ⟨fun h => undo_run op h u, fun h hu => (run_of_not_saves op h hu u).1⟩

/-- Of five and twenty saved layouts the latest twenty can be restored. -/
theorem undo_is_bounded_stack_past_limit :
    (∀ op ∈ List.replicate 25 (Operation.saveState (ν := Float)), op.isUndo = false) ∧
      let t := runAll (List.replicate 25 .saveState) (Session.empty : Session Float)
      (∀ n < 20, (Edit.undo.on (t.undos n)).1 = .ok true) ∧
        Edit.undo.on (t.undos 20) = (.ok false, t.undos 20) := by
  have noUndo : ∀ op ∈ List.replicate 25 (Operation.saveState (ν := Float)), op.isUndo = false := by
    intro op h
    rw [List.eq_of_mem_replicate h]
    rfl
  have stack := undo_is_bounded_stack Session.empty _ noUndo
  refine ⟨noUndo, fun n hn => ?_, stack.2.2.2.1 20 (by decide)⟩
  exact congrArg (·.1) (stack.2.2.1 n hn).1

end PathStudio
