import PathStudio.Proofs.Program.Field.RoundTrip

/-!
# Field-oriented programs keep the calls

The calls of the actions come back from a field-oriented program in their order,
whatever else a reader finds in it. Calls that look like poses add moves to the
path, and so the actions may come to stand behind other moves than before; but a
larger percentage never points at an earlier move.
-/

namespace PathStudio.Program.Field

open Text Scalar

variable {ν : Type}

/-! ## The slots of a path -/

/-- The slots of a path come in order. -/
theorem pairwise_slotsFrom (l : Layout ν) (done : Nat) (ws : List (Waypoint ν)) :
    (slotsFrom l done ws).Pairwise fun s t => s.1 ≤ t.1 := by
  induction ws generalizing done with
  | nil => exact .nil
  | cons w ws ih =>
    cases w with
    | move m => exact ih (done + 1)
    | action a =>
      rw [slotsFrom]
      cases l.marker? a.markerId with
      | none => exact ih done
      | some m => exact .cons (fun t ht => (mem_slotsFrom ht).1) (ih done)

/-- The slots of a path whose actions all have markers go through its calls. -/
theorem map_call_slotsFrom {l : Layout ν} {ws : List (Waypoint ν)}
    (resolved : ∀ a, .action a ∈ ws → (l.marker? a.markerId).isSome = true) (done : Nat) :
    (slotsFrom l done ws).map (fun s => some (s.2.name, s.2.args)) = ws.filterMap l.callOf? := by
  induction ws generalizing done with
  | nil => rfl
  | cons w ws ih =>
    have rest := ih fun a h => resolved a (.tail _ h)
    cases w with
    | move m => exact rest (done + 1)
    | action a =>
      obtain ⟨m, hm⟩ := Option.isSome_iff_exists.mp (resolved a List.mem_cons_self)
      have called : l.callOf? (.action a) = some (some (m.name, m.args)) := by
        rw [Layout.callOf?, hm, Option.map_some]
      rw [slotsFrom, hm, List.filterMap_cons_some called, ← rest done]
      rfl

/-! ## Actions among moves -/

/-- Actions in order begin with those of the first slot. -/
theorem exists_first_slot {k : Nat} {actions : List (Nat × Waypoint ν)}
    (sorted : actions.Pairwise fun a b => a.1 ≤ b.1) (least : ∀ a ∈ actions, k ≤ a.1) :
    ∃ first later, actions = first ++ later ∧ (∀ a ∈ first, a.1 = k) ∧ ∀ a ∈ later, k < a.1 := by
  induction sorted with
  | nil => exact ⟨[], [], rfl, by simp, by simp⟩
  | @cons a actions ha sorted ih =>
    by_cases here : a.1 = k
    · obtain ⟨first, later, rfl, hf, hl⟩ := ih fun b hb => least b (.tail _ hb)
      exact ⟨a :: first, later, rfl, List.forall_mem_cons.mpr ⟨here, hf⟩, hl⟩
    · have after : k < a.1 := lt_of_le_of_ne (least a List.mem_cons_self) (Ne.symm here)
      refine ⟨[], a :: actions, rfl, by simp, List.forall_mem_cons.mpr ⟨after, fun b hb => ?_⟩⟩
      exact after.trans_le (ha b hb)

@[simp] theorem actionsAt_append (a b : List (Nat × Waypoint ν)) (k : Nat) :
    actionsAt (a ++ b) k = actionsAt a k ++ actionsAt b k := by
  simp [actionsAt]

theorem actionsAt_of_forall {k : Nat} {actions : List (Nat × Waypoint ν)}
    (h : ∀ a ∈ actions, a.1 = k) : actionsAt actions k = actions.map Prod.snd := by
  rw [actionsAt, List.filter_eq_self.mpr]
  intro a ha
  exact decide_eq_true (h a ha)

variable [Add ν] [Sub ν] [Mul ν] [Div ν] [Neg ν] [Scalar ν]

/-- Actions of earlier slots do not show among later moves. -/
theorem interleave_append_of_le {k : Nat} {earlier : List (Nat × Waypoint ν)}
    (h : ∀ a ∈ earlier, a.1 ≤ k) (actions : List (Nat × Waypoint ν)) (moves : List (Pose ν)) :
    interleave (earlier ++ actions) k moves = interleave actions k moves := by
  induction earlier with
  | nil => rfl
  | cons a earlier ih =>
    obtain ⟨first, rest⟩ := List.forall_mem_cons.mp h
    rw [List.cons_append, interleave_cons_of_le first, ih rest]

/-- Put among moves by slots in order, actions stay in order, and none is lost. -/
theorem filterMap_interleave {β : Type} {f : Waypoint ν → Option β} (hf : ∀ m, f (.move m) = none)
    {k : Nat} {actions : List (Nat × Waypoint ν)} {moves : List (Pose ν)}
    (sorted : actions.Pairwise fun a b => a.1 ≤ b.1) (least : ∀ a ∈ actions, k ≤ a.1)
    (most : ∀ a ∈ actions, a.1 ≤ k + moves.length) :
    (actionsAt actions k ++ interleave actions k moves).filterMap f =
      (actions.map Prod.snd).filterMap f := by
  induction moves generalizing k actions with
  | nil =>
    have only : ∀ a ∈ actions, a.1 = k := fun a ha => le_antisymm (most a ha) (least a ha)
    rw [actionsAt_of_forall only, interleave, List.append_nil]
  | cons p moves ih =>
    obtain ⟨first, later, rfl, here, after⟩ := exists_first_slot sorted least
    have gone : actionsAt first (k + 1) = [] := by
      rw [actionsAt, List.filter_eq_nil_iff.mpr, List.map_nil]
      intro a ha
      have := here a ha
      simp only [decide_eq_true_eq]
      omega
    have rest := ih (k := k + 1) (List.pairwise_append.mp sorted).2.1 after fun a ha => by
      have := most a (List.mem_append_right _ ha)
      rw [List.length_cons] at this
      omega
    have passed : interleave (first ++ later) (k + 1) moves = interleave later (k + 1) moves :=
      interleave_append_of_le (fun a ha => (here a ha).le.trans (Nat.le_succ k)) later moves
    rw [interleave, passed, actionsAt_append, actionsAt_append, gone, List.nil_append,
      actionsAt_of_forall here, actionsAt_eq_nil after, List.append_nil, List.filterMap_append,
      List.filterMap_cons_none (hf _), rest, List.map_append, List.filterMap_append]

/-! ## The calls of a program -/

/-- What runs the markers that were found calls what they call. -/
theorem filterMap_callOf?_of_runs {decoded : Layout ν} {draft : Draft ν} {first : Int}
    (numbered : draft.Numbered first) (same : decoded.markers = draft.markers)
    {found : List (Nat × Marker ν)} {placed : List (Nat × Waypoint ν)}
    (h : List.Forall₂ (Runs draft.markers) found placed) :
    (placed.map Prod.snd).filterMap decoded.callOf? =
      found.map fun s => some (s.2.name, s.2.args) := by
  induction h with
  | nil => rfl
  | @cons s a found placed run _ ih =>
    obtain ⟨-, m, hm, name, args, action⟩ := run
    have called : decoded.callOf? a.2 = some (some (s.2.name, s.2.args)) := by
      rw [action, numbered.callOf?_markerAction same hm, name, args]
    rw [List.map_cons, List.filterMap_cons_some called, ih, List.map_cons]

/-- The slots at which markers have been placed. -/
theorem map_fst_of_runs {markers : List (Marker ν)} {found : List (Nat × Marker ν)}
    {placed : List (Nat × Waypoint ν)} (h : List.Forall₂ (Runs markers) found placed) :
    placed.map Prod.fst = found.map Prod.fst := by
  induction h with
  | nil => rfl
  | cons run _ ih => rw [List.map_cons, List.map_cons, run.1, ih]

/-- If the slots of a path are sent to places in the same order, the markers at these places are in
order. -/
theorem placed_in_order {l : Layout ν} {markers : List (Marker ν)} {place : Nat → Nat}
    {placed : List (Nat × Waypoint ν)} {most : Nat} (within : ∀ done ≤ l.moves.length, place done ≤ most)
    (mono : ∀ done done', done ≤ done' → done' ≤ l.moves.length → place done ≤ place done')
    (runs : List.Forall₂ (Runs markers)
      ((slotsFrom l 0 l.waypoints).map fun s => (place s.1, s.2)) placed) :
    placed.Pairwise (fun a b => a.1 ≤ b.1) ∧ ∀ a ∈ placed, a.1 ≤ most := by
  have places : placed.map Prod.fst = (slotsFrom l 0 l.waypoints).map fun s => place s.1 := by
    rw [map_fst_of_runs runs, List.map_map]
    rfl
  constructor
  · rw [← List.pairwise_map, places, List.pairwise_map]
    refine (pairwise_slotsFrom l 0 l.waypoints).imp_of_mem fun hs ht less => ?_
    exact mono _ _ less (le_of_mem_slotsFrom ht)
  · intro a ha
    have slot : a.1 ∈ placed.map Prod.fst := List.mem_map_of_mem ha
    rw [places] at slot
    obtain ⟨s, hs, same⟩ := List.mem_map.mp slot
    rw [← same]
    exact within s.1 (le_of_mem_slotsFrom hs)

/-- A printed path whose actions all have markers is read back with its calls in their order, if the
calls can be found and its percentages keep their order among any number of moves that there may be
poses for. -/
theorem exists_calls_read {l : Layout ν}
    (resolved : ∀ a, .action a ∈ l.waypoints → (l.marker? a.markerId).isSome = true)
    (findable : ∀ s ∈ slotsFrom l 0 l.waypoints, Findable s.2.name.toList s.2.args.toList)
    {text : List Char} (h : print l = .ok text)
    (ordered : ∀ total ≤ text.length, SlotsKeepOrder ν l.moves.length total) (prior : Session ν) :
    ∃ decoded, read text prior = .ok decoded ∧ decoded.calls = l.calls := by
  let poses : List (Pose ν) := (searchAll readPose text).map WrittenPose.pose
  have few : poses.tail.length ≤ text.length := by
    have bound := length_searchAll_le readPose text
    rw [List.length_tail, List.length_map]
    omega
  obtain ⟨place, written, within, mono⟩ := ordered _ few
  have percents : ∀ a ∈ actionPercentages l, unitsHalfUp a.1 1 ≠ .notANumber := by
    refine forall_mem_actionPercentages fun s hs => ?_
    obtain ⟨count, units, -⟩ := written s.1 (le_of_mem_slotsFrom hs)
    rw [units]
    exact Magnitude.noConfusion
  obtain ⟨ms, hms⟩ := exists_printsMarker percents h
  have markers := searchAll_readMarker h (forall_mem_actionPercentages findable) hms
  -- Every marker is found again, in the slot that its percentage points at by now.
  have finds := forall₂_finds written findable hms
  obtain ⟨slots', placed, run, numbered, -, actions, runs⟩ :=
    foldlM_addMarker (readStart prior.start poses) finds ⟨.after prior, []⟩ (Draft.numbered_after prior)
  rw [List.nil_append] at actions
  obtain ⟨sorted, most⟩ := placed_in_order within mono runs
  refine ⟨Draft.toSession { slots'.draft with
    waypoints := actionsAt placed 0 ++ interleave placed 0 poses.tail }
    (readStart prior.start poses) prior, ?_, ?_⟩
  · simp only [read, markers]
    rw [run, ok_bind, actions]
    rfl
  · show (actionsAt placed 0 ++ interleave placed 0 poses.tail).filterMap _ = _
    rw [filterMap_interleave (fun _ => rfl) sorted (fun _ _ => Nat.zero_le _)
        (by rwa [Nat.zero_add]),
      filterMap_callOf?_of_runs numbered rfl runs, List.map_map, Layout.calls,
      ← map_call_slotsFrom resolved 0]
    rfl

end PathStudio.Program.Field
