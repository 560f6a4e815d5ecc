import PathStudio.Proofs.Program.Entry
import PathStudio.Proofs.Program.Field.Slots
import PathStudio.Program.Field.Print

/-!
# The order of moves and actions

A field-oriented program lists moves and actions apart. Every action carries the
number of moves done before it, and from these numbers the two lists are put
together again in the order of the path.
-/

namespace PathStudio.Program.Field

open Scalar

variable {ν : Type}

/-- The markers of actions with the number of moves done before each. -/
def slotsFrom (l : Layout ν) : (done : Nat) → List (Waypoint ν) → List (Nat × Marker ν)
  | _, [] => []
  | done, .move _ :: rest => slotsFrom l (done + 1) rest
  | done, .action a :: rest =>
    match l.marker? a.markerId with
    | none => slotsFrom l done rest
    | some m => (done, m) :: slotsFrom l done rest

/-- Every slot lies between the moves done before and the moves done at the end. -/
theorem mem_slotsFrom {l : Layout ν} {done : Nat} {ws : List (Waypoint ν)} {d : Nat} {m : Marker ν}
    (h : (d, m) ∈ slotsFrom l done ws) :
    done ≤ d ∧ d ≤ done + (ws.filterMap Waypoint.move?).length := by
  induction ws generalizing done with
  | nil => cases h
  | cons w ws ih =>
    cases w with
    | move move =>
      have := ih h
      simp only [List.filterMap_cons, Waypoint.move?, List.length_cons]
      omega
    | action a =>
      rw [slotsFrom] at h
      simp only [List.filterMap_cons, Waypoint.move?]
      cases hm : l.marker? a.markerId with
      | none =>
        rw [hm] at h
        exact ih h
      | some found =>
        rw [hm] at h
        obtain h | h := List.mem_cons.mp h
        · cases h
          omega
        · exact ih h

theorem le_of_mem_slotsFrom {l : Layout ν} {s : Nat × Marker ν} (hs : s ∈ slotsFrom l 0 l.waypoints) :
    s.1 ≤ l.moves.length := by
  have := (mem_slotsFrom hs).2
  rwa [Nat.zero_add] at this

/-- Every marker with a slot is an entry of the path. -/
theorem call_mem_of_mem_slotsFrom {l : Layout ν} {done : Nat} {ws : List (Waypoint ν)} {d : Nat}
    {m : Marker ν} (h : (d, m) ∈ slotsFrom l done ws) :
    .call m.name m.args ∈ ws.filterMap l.entryOf? := by
  induction ws generalizing done with
  | nil => cases h
  | cons w ws ih =>
    cases w with
    | move move => exact List.mem_cons_of_mem _ (ih h)
    | action a =>
      rw [slotsFrom] at h
      rw [List.filterMap_cons, Layout.entryOf?]
      cases hm : l.marker? a.markerId with
      | none =>
        rw [hm] at h
        exact ih h
      | some found =>
        rw [hm] at h
        obtain h | h := List.mem_cons.mp h
        · cases h
          exact List.mem_cons_self
        · exact List.mem_cons_of_mem _ (ih h)

section Printed

variable [Add ν] [Sub ν] [Mul ν] [Div ν] [Neg ν] [Scalar ν]

theorem percentagesFrom_eq (l : Layout ν) (total done : Nat) (ws : List (Waypoint ν)) :
    percentagesFrom l total done ws =
      (slotsFrom l done ws).map fun (d, m) => (percentage d total, m) := by
  induction ws generalizing done with
  | nil => rfl
  | cons w ws ih =>
    cases w with
    | move m => exact ih (done + 1)
    | action a =>
      rw [percentagesFrom, slotsFrom]
      cases l.marker? a.markerId with
      | none => exact ih done
      | some m =>
        rw [ih done]
        rfl

end Printed

/-! ## Putting moves and actions together -/

@[simp] theorem actionsAt_cons_self (k : Nat) (w : Waypoint ν) (actions : List (Nat × Waypoint ν)) :
    actionsAt ((k, w) :: actions) k = w :: actionsAt actions k := by
  simp [actionsAt]

theorem actionsAt_eq_nil {k : Nat} {actions : List (Nat × Waypoint ν)}
    (h : ∀ a ∈ actions, k < a.1) : actionsAt actions k = [] := by
  have none : (actions.filter fun a => a.1 = k) = [] := by
    rw [List.filter_eq_nil_iff]
    intro a ha
    have := h a ha
    simp only [decide_eq_true_eq]
    omega
  rw [actionsAt, none, List.map_nil]

/-- An action goes with a marker and its slot. -/
def Placed (entry : Entry ν → Waypoint ν → Prop) (s : Nat × Marker ν) (a : Nat × Waypoint ν) : Prop :=
  a.1 = s.1 ∧ entry (.call s.2.name s.2.args) a.2

theorem lt_of_placed {entry : Entry ν → Waypoint ν → Prop} {k : Nat} {slots : List (Nat × Marker ν)}
    {actions : List (Nat × Waypoint ν)} (h : List.Forall₂ (Placed entry) slots actions)
    (hs : ∀ s ∈ slots, k < s.1) : ∀ a ∈ actions, k < a.1 := by
  induction h with
  | nil => simp
  | cons placed _ ih =>
    intro a ha
    obtain rfl | ha := List.mem_cons.mp ha
    · rw [placed.1]
      exact hs _ (by simp)
    · exact ih (fun s hs' => hs s (List.mem_cons_of_mem _ hs')) a ha

section Interleaved

variable [Add ν] [Sub ν] [Mul ν] [Div ν] [Neg ν] [Scalar ν]

/-- Actions of earlier slots do not show among later moves. -/
theorem interleave_cons_of_le {j k : Nat} (h : j ≤ k) (w : Waypoint ν)
    (actions : List (Nat × Waypoint ν)) (moves : List (Pose ν)) :
    interleave ((j, w) :: actions) k moves = interleave actions k moves := by
  induction moves generalizing k with
  | nil => rfl
  | cons p moves ih =>
    have skipped : actionsAt ((j, w) :: actions) (k + 1) = actionsAt actions (k + 1) := by
      simp [actionsAt, show j ≠ k + 1 by omega]
    rw [interleave, interleave, skipped, ih (by omega)]

/-- From moves and actions that go with those of a path, waypoints are put together that go with its
entries, in the same order. -/
theorem forall₂_interleave {l : Layout ν} {entry : Entry ν → Waypoint ν → Prop}
    {ws : List (Waypoint ν)} {done : Nat} {actions : List (Nat × Waypoint ν)} {poses : List (Pose ν)}
    (hactions : List.Forall₂ (Placed entry) (slotsFrom l done ws) actions)
    (hposes : List.Forall₂ (fun m p => entry (.move m) (.move ⟨.drive, p, defaultSpeed⟩))
      (ws.filterMap Waypoint.move?) poses) :
    List.Forall₂ entry (ws.filterMap l.entryOf?)
      (actionsAt actions done ++ interleave actions done poses) := by
  induction ws generalizing done actions poses with
  | nil =>
    cases hactions
    cases hposes
    exact .nil
  | cons w ws ih =>
    cases w with
    | move m =>
      cases hposes with
      | @cons _ p _ poses hp hposes =>
        have later : ∀ s ∈ slotsFrom l (done + 1) ws, done < s.1 := fun s hs => (mem_slotsFrom hs).1
        rw [actionsAt_eq_nil (lt_of_placed hactions later)]
        exact .cons hp (ih hactions hposes)
    | action a =>
      rw [slotsFrom] at hactions
      rw [List.filterMap_cons, Layout.entryOf?]
      cases hm : l.marker? a.markerId with
      | none =>
        rw [hm] at hactions
        exact ih hactions hposes
      | some m =>
        rw [hm] at hactions
        cases hactions with
        | @cons _ action _ actions placed hactions =>
          obtain ⟨k, w⟩ := action
          obtain ⟨rfl, called⟩ : k = done ∧ entry (.call m.name m.args) w := placed
          rw [actionsAt_cons_self, interleave_cons_of_le le_rfl]
          exact .cons called (ih hactions hposes)

end Interleaved

end PathStudio.Program.Field
