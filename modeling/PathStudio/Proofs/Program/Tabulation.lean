import PathStudio.Proofs.Program.MarkerTable
import PathStudio.Proofs.Program.Robot.Line
import PathStudio.Proofs.Program.Field.Order

/-!
# Decoded programs have their tables of markers

A robot-oriented program has its calls between its moves, and the reader makes the marker of a call
at the cursor, which is where the moves before it lead. A field-oriented program has its calls apart
from the moves, and the percentage of each says how many moves are before it; here the order in which
markers are made is not that of the path. In both, one line or one marker of the text adds its call
to the table, and the whole text adds all of them.
-/

namespace PathStudio.Program

open Text Scalar

variable {ν : Type}

/-! ## Points after moves -/

namespace Field

variable {start : Pose ν} {moves : List (Pose ν)}

/-- A further move does not change the points before it. -/
theorem pointAfter_append {k : Nat} (h : k ≤ moves.length) (more : List (Pose ν)) :
    pointAfter start (moves ++ more) k = pointAfter start moves k := by
  cases k with
  | zero => rfl
  | succ k => rw [pointAfter, pointAfter, List.getElem?_append_left h]

@[simp] theorem pointAfter_length_succ (p : Pose ν) :
    pointAfter start (moves ++ [p]) (moves.length + 1) = p.point := by
  rw [pointAfter, List.getElem?_concat_length, Option.getD_some]

end Field

variable [Add ν] [Sub ν] [Mul ν] [Div ν] [Neg ν] [Scalar ν]

/-! ## Robot-oriented programs -/

namespace Robot

/-- The command of a line; the lines of an open arc have none of their own. -/
def commandOf (isOpen : Bool) (line : List Char) : Command :=
  if isOpen then .nothing else Command.ofLine line

/-- The call of a line behind so many moves. -/
def callOf (begun : Nat) (isOpen : Bool) (line : List Char) : List PlacedCall :=
  match (commandOf isOpen line).call? with
  | some (name, args) => [⟨begun, String.ofList name, String.ofList args⟩]
  | none => []

/-- How many moves are begun behind a line, where so many were before it. -/
def begunBehind (begun : Nat) (isOpen : Bool) (line : List Char) : Nat :=
  if (commandOf isOpen line).isMove then begun + 1 else begun

/-- The calls of the lines of a program, in order, each with the number of moves begun before it. -/
def callsFrom (begun : Nat) (isOpen : Bool) : List (List Char) → List PlacedCall
  | [] => []
  | line :: rest =>
    callOf begun isOpen (trim line) ++
      callsFrom (begunBehind begun isOpen (trim line)) (arcOpenBehind isOpen line) rest

section Line

variable {begun : Nat} {isOpen : Bool} {line : List Char}

theorem callOf_eq_nil (h : (commandOf isOpen line).call? = none) : callOf begun isOpen line = [] := by
  rw [callOf, h]

theorem callOf_eq {name args : List Char} (h : (commandOf isOpen line).call? = some (name, args)) :
    callOf begun isOpen line = [⟨begun, String.ofList name, String.ofList args⟩] := by
  rw [callOf, h]

theorem begunBehind_of_isMove (h : (commandOf isOpen line).isMove = true) :
    begunBehind begun isOpen line = begun + 1 := if_pos h

theorem begunBehind_of_not_isMove (h : (commandOf isOpen line).isMove = false) :
    begunBehind begun isOpen line = begun := if_neg (Bool.eq_false_iff.mp h)

end Line

namespace Trail

open Program.Field (pointAfter pointAfter_append pointAfter_length_succ)

/-- The poses that have been moved to. -/
def poses (t : Trail ν) : List (Pose ν) := (t.draft.waypoints.filterMap Waypoint.move?).map Move.pose

/-- How many moves have been begun: those that have been made and that of an open arc. -/
def begun (t : Trail ν) : Nat := if t.pending.isSome then t.poses.length + 1 else t.poses.length

section

omit [Add ν] [Sub ν] [Mul ν] [Div ν] [Neg ν] [Scalar ν]

theorem begun_of_none {t : Trail ν} (h : t.pending = none) : t.begun = t.poses.length := by
  rw [begun, h]
  rfl

theorem begun_of_some {t : Trail ν} {a : OpenArc} (h : t.pending = some a) :
    t.begun = t.poses.length + 1 := by
  rw [begun, h]
  rfl

theorem commandOf_of_none {t : Trail ν} (h : t.pending = none) (line : List Char) :
    commandOf t.pending.isSome line = Command.ofLine line := by
  rw [h]
  rfl

theorem commandOf_of_some {t : Trail ν} {a : OpenArc} (h : t.pending = some a) (line : List Char) :
    commandOf t.pending.isSome line = .nothing := by
  rw [h]
  rfl

end

/-- The markers of a trail are a table of the calls read so far, and the cursor is behind all moves. -/
structure Tabulates (prior : Session ν) (calls : List PlacedCall) (t : Trail ν) : Prop where
  table : t.draft.Tabulates prior.nextMarkerId (pointAfter prior.start t.poses) calls
    (actionsFrom 0 t.draft.waypoints)
  within : ∀ c ∈ calls, c.moves ≤ t.poses.length
  cursor : t.cursor = pointAfter prior.start t.poses t.poses.length

variable {prior : Session ν} {calls : List PlacedCall} {t t' : Trail ν} {line : List Char}

theorem tabulates_start (prior : Session ν) : (Trail.start prior).Tabulates prior [] where
  table := Draft.tabulates_after prior _
  within c h := by cases h
  cursor := rfl

@[simp] theorem poses_move (t : Trail ν) (motion : Motion ν) (p : Point ν) (degrees speed : ν) :
    (t.move motion p degrees speed).poses = t.poses ++ [⟨p.x, p.y, toRadians (-degrees)⟩] := by
  simp only [poses, move, Draft.add, List.filterMap_append, List.map_append]
  rfl

@[simp] theorem poses_addCall (t : Trail ν) (name args : List Char) : (t.addCall name args).poses = t.poses := by
  simp only [poses, waypoints_addCall, List.filterMap_append, List.map_append]
  exact List.append_nil _

namespace Tabulates

theorem withPending (h : t.Tabulates prior calls) (pending : Option OpenArc) :
    ({ t with pending } : Trail ν).Tabulates prior calls :=
  ⟨h.table, h.within, h.cursor⟩

theorem move (h : t.Tabulates prior calls) (motion : Motion ν) (p : Point ν) (degrees speed : ν) :
    (t.move motion p degrees speed).Tabulates prior calls where
  table := by
    have unmoved : actionsFrom 0 (t.move motion p degrees speed).draft.waypoints =
        actionsFrom 0 t.draft.waypoints := by
      rw [Trail.move, Draft.add, actionsFrom_append]
      exact List.append_nil _
    rw [unmoved, poses_move]
    exact (h.table.of_points fun c hc => (pointAfter_append (h.within c hc) _).symm).of_markers rfl rfl
  within c hc := by
    rw [poses_move, List.length_append]
    exact Nat.le_add_right_of_le (h.within c hc)
  cursor := by
    rw [poses_move, List.length_append, List.length_singleton, pointAfter_length_succ]
    rfl

theorem addCall (h : t.Tabulates prior calls) (name args : List Char) :
    (t.addCall name args).Tabulates prior
      (calls ++ [⟨t.poses.length, String.ofList name, String.ofList args⟩]) where
  table := by
    have added : actionsFrom 0 (t.addCall name args).draft.waypoints =
        actionsFrom 0 t.draft.waypoints ++
          [(t.poses.length, markerAction (t.draft.markerFor name args t.cursor).1)] := by
      rw [waypoints_addCall, actionsFrom_append, poses, List.length_map, Nat.zero_add]
      rfl
    rw [added, poses_addCall, h.cursor]
    exact (h.table.addCall t.poses.length name args).of_markers (by rw [← h.cursor]; rfl)
      (by rw [← h.cursor]; rfl)
  within c hc := by
    rw [poses_addCall]
    obtain hc | hc := List.mem_append.mp hc
    · exact h.within c hc
    · rw [List.mem_singleton.mp hc]
  cursor := by
    rw [poses_addCall]
    exact h.cursor

/-- A line adds its call to the table, and its move to those that are begun. -/
theorem step (h : t.Tabulates prior calls) (s : Step t line t') :
    t'.Tabulates prior (calls ++ callOf t.begun t.pending.isSome line) ∧
      t'.begun = begunBehind t.begun t.pending.isSome line := by
  cases s with
  | pass outside still silent =>
    rw [← commandOf_of_none outside line] at still silent
    rw [callOf_eq_nil silent, begunBehind_of_not_isMove still, List.append_nil]
    exact ⟨h, rfl⟩
  | move motion p degrees speed outside moves silent =>
    rw [← commandOf_of_none outside line] at moves silent
    rw [callOf_eq_nil silent, begunBehind_of_isMove moves, List.append_nil, begun_of_none rfl,
      begun_of_none outside, poses_move, List.length_append]
    exact ⟨(h.withPending none).move motion p degrees speed, rfl⟩
  | openArc a outside moves silent =>
    rw [← commandOf_of_none outside line] at moves silent
    rw [callOf_eq_nil silent, begunBehind_of_isMove moves, List.append_nil, begun_of_some rfl,
      begun_of_none outside]
    exact ⟨h.withPending (some a), rfl⟩
  | extendArc a b inside =>
    have none := commandOf_of_some inside line
    rw [callOf_eq_nil (by rw [none]; rfl), begunBehind_of_not_isMove (by rw [none]; rfl),
      List.append_nil, begun_of_some rfl, begun_of_some inside]
    exact ⟨h.withPending (some b), rfl⟩
  | closeArc a motion p degrees speed inside =>
    have none := commandOf_of_some inside line
    rw [callOf_eq_nil (by rw [none]; rfl), begunBehind_of_not_isMove (by rw [none]; rfl),
      List.append_nil, begun_of_none rfl, begun_of_some inside, poses_move, List.length_append]
    exact ⟨(h.withPending .none).move motion p degrees speed, rfl⟩
  | call name args outside still called =>
    rw [← commandOf_of_none outside line] at still called
    rw [callOf_eq called, begunBehind_of_not_isMove still, begun_of_none outside,
      begun_of_none (t := t.addCall name args) outside, poses_addCall]
    exact ⟨h.addCall name args, rfl⟩

/-- Lines add all their calls. -/
theorem readLines (h : t.Tabulates prior calls) {lines : List (List Char)}
    (run : t.readLines lines = .ok t') :
    t'.Tabulates prior (calls ++ callsFrom t.begun t.pending.isSome lines) := by
  induction lines generalizing t calls with
  | nil =>
    cases run
    rw [callsFrom, List.append_nil]
    exact h
  | cons line lines ih =>
    rw [callsFrom, arcOpenBehind, ← List.append_assoc]
    by_cases blank : trim line = []
    · rw [readLines_of_trim_eq_nil blank] at run
      have silent : commandOf t.pending.isSome [] = .nothing := by
        cases t.pending <;> rfl
      rw [blank, callOf, begunBehind, silent]
      simpa [Command.call?, Command.isMove] using ih h run
    · rw [readLines_cons blank] at run
      obtain ⟨next, first, rest⟩ := bind_eq_ok.mp run
      obtain ⟨table, begun⟩ := h.step (step_of_readLine first)
      rw [if_neg (mt List.isEmpty_iff.mp blank), ← begun, ← isSome_pending_readLine first]
      exact ih table rest

theorem finish (h : t.Tabulates prior calls) (run : t.finish = .ok t') :
    t'.Tabulates prior calls := by
  rw [Trail.finish] at run
  split at run
  next a open_ =>
    obtain ⟨motion, p, degrees, speed, rfl⟩ := exists_move_of_addArc run
    exact (h.withPending none).move motion p degrees speed
  next =>
    cases run
    exact h

end Tabulates

end Trail

theorem markerTable_read {text : List Char} {prior s : Session ν} (h : read text prior = .ok s) :
    MarkerTable (callsFrom 0 false (splitLines text)) prior s := by
  obtain ⟨t, lines, h⟩ := bind_eq_ok.mp (Trail.read_eq_conclude text prior ▸ h)
  obtain ⟨last, finished, h⟩ := bind_eq_ok.mp h
  cases h
  have table := ((Trail.tabulates_start prior).readLines lines).finish finished
  exact table.table.markerTable table.within fun k => rfl

end Robot

/-! ## Field-oriented programs -/

namespace Field

/-- The calls of the markers of a program, in the order of the text, each with the number of moves
that its percentage points behind. -/
def callsFrom (ν : Type) [Add ν] [Sub ν] [Mul ν] [Div ν] [Neg ν] [Scalar ν] (moves : Nat) :
    List (WrittenNumber × List Char) → Outcome (List PlacedCall)
  | [] => .ok []
  | written :: rest =>
    match bodyAction? written.2 with
    | none => callsFrom ν moves rest
    | some (name, args) => do
      let k ← slot (ν := ν) written.1 moves
      let later ← callsFrom ν moves rest
      return ⟨k, String.ofList name, String.ofList args⟩ :: later

theorem slot_le {percent : WrittenNumber} {moves k : Nat} (h : slot (ν := ν) percent moves = .ok k) :
    k ≤ moves := by
  obtain ⟨i, -, h⟩ := bind_eq_ok.mp h
  have clamped : (min i moves).toNat = k := Except.ok.inj h
  omega

/-- Markers of the text add their calls to the table. -/
theorem tabulates_addMarkers {start : Pose ν} {moves : List (Pose ν)} {first : Int}
    {found : List (WrittenNumber × List Char)} {slots last : Slots ν} {calls : List PlacedCall}
    (h : slots.draft.Tabulates first (pointAfter start moves) calls slots.actions)
    (within : ∀ c ∈ calls, c.moves ≤ moves.length)
    (run : found.foldlM (addMarker start moves) slots = .ok last) :
    ∃ later, callsFrom ν moves.length found = .ok later ∧
      last.draft.Tabulates first (pointAfter start moves) (calls ++ later) last.actions ∧
      ∀ c ∈ calls ++ later, c.moves ≤ moves.length := by
  induction found generalizing slots calls with
  | nil =>
    cases run
    exact ⟨[], rfl, by rwa [List.append_nil], by rwa [List.append_nil]⟩
  | cons written found ih =>
    rw [List.foldlM_cons] at run
    obtain ⟨next, here, rest⟩ := bind_eq_ok.mp run
    rw [addMarker] at here
    cases body : bodyAction? written.2 with
    | none =>
      rw [body] at here
      cases here
      rw [callsFrom, body]
      exact ih h within rest
    | some call =>
      obtain ⟨name, args⟩ := call
      rw [body] at here
      obtain ⟨k, pointsAt, here⟩ := bind_eq_ok.mp here
      cases here
      have bound : ∀ c ∈ calls ++ [⟨k, String.ofList name, String.ofList args⟩],
          c.moves ≤ moves.length :=
        List.forall_mem_append.mpr ⟨within, List.forall_mem_singleton.mpr (slot_le pointsAt)⟩
      obtain ⟨later, collected, table, bounded⟩ := ih (h.addCall k name args) bound rest
      rw [List.append_assoc] at table bounded
      refine ⟨_ :: later, ?_, table, bounded⟩
      rw [callsFrom, body]
      exact bind_eq_ok.mpr ⟨k, pointsAt, bind_eq_ok.mpr ⟨later, collected, rfl⟩⟩

/-! ### Actions among moves -/

section Interleaved

variable {actions : List (Nat × Waypoint ν)}

section

omit [Add ν] [Sub ν] [Mul ν] [Div ν] [Neg ν] [Scalar ν]

theorem poses_actionsAt (acts : ∀ a ∈ actions, a.2.move? = none) (k : Nat) :
    (actionsAt actions k).filterMap Waypoint.move? = [] := by
  apply List.filterMap_eq_nil_iff.mpr
  intro w hw
  obtain ⟨a, ha, rfl⟩ := mem_actionsAt hw
  exact acts a ha

theorem actionsFrom_actionsAt (acts : ∀ a ∈ actions, a.2.move? = none) (k : Nat) :
    actionsFrom k (actionsAt actions k) = actions.filter fun a => a.1 = k := by
  have slotted : ∀ a ∈ actions.filter (fun a => a.1 = k), a.1 = k ∧ a.2.move? = none := by
    intro a ha
    obtain ⟨among, here⟩ := List.mem_filter.mp ha
    exact ⟨of_decide_eq_true here, acts a among⟩
  rw [actionsAt]
  generalize actions.filter (fun a => a.1 = k) = here at slotted
  induction here with
  | nil => rfl
  | cons a here ih =>
    obtain ⟨⟨rfl, action⟩, rest⟩ := List.forall_mem_cons.mp slotted
    obtain ⟨j, w⟩ := a
    cases w with
    | move m => cases action
    | action b =>
      rw [List.map_cons, actionsFrom, ih rest]

theorem actionsFrom_slot (acts : ∀ a ∈ actions, a.2.move? = none) (k : Nat)
    (ws : List (Waypoint ν)) :
    actionsFrom k (actionsAt actions k ++ ws) =
      (actions.filter fun a => a.1 = k) ++ actionsFrom k ws := by
  rw [actionsFrom_append, poses_actionsAt acts, actionsFrom_actionsAt acts]
  rfl

end

/-- The poses of moves with actions behind them are those of the moves. -/
theorem poses_interleave (acts : ∀ a ∈ actions, a.2.move? = none) (k : Nat) (moves : List (Pose ν)) :
    ((interleave actions k moves).filterMap Waypoint.move?).map Move.pose = moves := by
  induction moves generalizing k with
  | nil => rfl
  | cons p moves ih =>
    have later := ih (k + 1)
    rw [← List.nil_append (List.filterMap _ _), ← poses_actionsAt acts (k + 1),
      ← List.filterMap_append] at later
    exact congrArg (p :: ·) later

/-- In the path that is put together, the actions behind so many moves are those of that slot. -/
theorem filter_actionsFrom_interleave {k : Nat} {moves : List (Pose ν)}
    (acts : ∀ a ∈ actions, a.2.move? = none) (most : ∀ a ∈ actions, a.1 ≤ k + moves.length) {j : Nat}
    (least : k ≤ j) :
    (actionsFrom k (actionsAt actions k ++ interleave actions k moves)).filter (fun a => a.1 = j) =
      actions.filter fun a => a.1 = j := by
  induction moves generalizing k with
  | nil =>
    rw [actionsFrom_slot acts, interleave, actionsFrom, List.append_nil, List.filter_filter]
    apply List.filter_congr
    intro a ha
    have bound := most a ha
    rw [List.length_nil] at bound
    simp only [← Bool.decide_and, decide_eq_decide]
    omega
  | cons p moves ih =>
    rw [actionsFrom_slot acts, interleave, actionsFrom, List.filter_append]
    obtain rfl | later := Nat.eq_or_lt_of_le least
    · have none : (actionsFrom (k + 1) (actionsAt actions (k + 1) ++
          interleave actions (k + 1) moves)).filter (fun a => a.1 = k) = [] := by
        rw [List.filter_eq_nil_iff]
        intro a ha
        have := (mem_waypoints_of_mem_actionsFrom ha).2
        simp only [decide_eq_true_eq]
        omega
      rw [none, List.append_nil, List.filter_filter]
      simp only [Bool.and_self]
    · have none : (actions.filter fun a => a.1 = k).filter (fun a => a.1 = j) = [] := by
        rw [List.filter_eq_nil_iff]
        intro a ha
        have := (List.mem_filter.mp ha).2
        simp only [decide_eq_true_eq] at this ⊢
        omega
      rw [none, List.nil_append]
      apply ih _ later
      intro a ha
      have bound := most a ha
      rw [List.length_cons] at bound
      omega

end Interleaved

theorem markerTable_read {text : List Char} {prior s : Session ν} (h : read text prior = .ok s) :
    ∃ calls, callsFrom ν ((searchAll readPose text).length - 1) (searchAll readMarker text) = .ok calls ∧
      MarkerTable calls prior s := by
  obtain ⟨slots, found, h⟩ := bind_eq_ok.mp h
  cases h
  generalize hposes : ((searchAll readPose text).map WrittenPose.pose : List (Pose ν)) = poses
    at found ⊢
  have count : (searchAll readPose text).length - 1 = poses.tail.length := by
    rw [List.length_tail, ← hposes, List.length_map]
  obtain ⟨calls, collected, table, within⟩ :=
    tabulates_addMarkers (Draft.tabulates_after prior _) (by simp) found
  rw [List.nil_append] at table within
  have acts : ∀ a ∈ slots.actions, a.2.move? = none := by
    intro a ha
    obtain ⟨c, -, -, m, -, run⟩ := table.exists_call ha
    rw [run]
    rfl
  have most : ∀ a ∈ slots.actions, a.1 ≤ 0 + poses.tail.length := by
    intro a ha
    obtain ⟨c, hc, moves, -⟩ := table.exists_call ha
    rw [moves, Nat.zero_add]
    exact within c hc
  have same : ((actionsAt slots.actions 0 ++ interleave slots.actions 0 poses.tail).filterMap
      Waypoint.move?).map Move.pose = poses.tail := by
    rw [List.filterMap_append, poses_actionsAt acts]
    exact poses_interleave acts 0 poses.tail
  refine ⟨calls, count ▸ collected, ?_⟩
  apply Draft.Tabulates.markerTable
  · exact (table.of_points fun c _ => congrArg (pointAfter _ · c.moves) same.symm).of_markers rfl rfl
  · intro c hc
    exact (within c hc).trans_eq (congrArg List.length same.symm)
  · intro k
    exact filter_actionsFrom_interleave acts most (Nat.zero_le k)

end Field

/-- The calls of a program of a dialect in the order of its text, each with the number of moves before
it: those above it, or those that its percentage points behind. -/
def callsOf (ν : Type) [Add ν] [Sub ν] [Mul ν] [Div ν] [Neg ν] [Scalar ν] (text : List Char) :
    Dialect → Outcome (List PlacedCall)
  | .field => Field.callsFrom ν ((searchAll Field.readPose text).length - 1)
    (searchAll Field.readMarker text)
  | .robot => .ok (Robot.callsFrom 0 false (splitLines text))

/-- A session that is read from a program of either dialect has a table of markers for its calls: the
markers are numbered on from the earlier session, no two of them call the same, each is run by an
action, each action stands where its marker does, and each marker stands where the first call of its
kind in the text does. -/
theorem markerTable_of_read (d : Dialect) (text : List Char) (prior s : Session ν)
    (h : read d text prior = .ok s) :
    ∃ calls, callsOf ν text d = .ok calls ∧ MarkerTable calls prior s := by
  cases d with
  | field => exact Field.markerTable_read h
  | robot => exact ⟨_, rfl, Robot.markerTable_read h⟩

/-- A drive with one call at its end, which comes first in the text, and at its start. -/
def callsAgainstPath : List Char :=
  ("new Pose2d(0,0,new Rotation2d(0))\nnew Pose2d(100,0,new Rotation2d(0))\n" ++
    "new PathMarker(100,()->\x7bgrab();\x7d));\nnew PathMarker(0,()->\x7bgrab();\x7d));").toList

/-- Its only marker stands at the end. -/
theorem markerTable_of_read_callsAgainstPath :
    ∃ s, read .field callsAgainstPath (Session.empty : Session Float) = .ok s ∧
      (s.waypoints.length = 3 ∧ s.markers.map (fun m => (m.id, m.x == 1.0)) = [(1, true)]) ∧
      ∃ calls, callsOf Float callsAgainstPath .field = .ok calls ∧ MarkerTable calls Session.empty s := by
  have shape : (read .field callsAgainstPath (Session.empty : Session Float)).map (fun s =>
      (s.waypoints.length, s.markers.map fun m => (m.id, m.x == 1.0))) = .ok (3, [(1, true)]) := by
    decide +kernel
  obtain ⟨s, decoded, shape⟩ := map_eq_ok.mp shape
  exact ⟨s, decoded, ⟨congrArg Prod.fst shape, congrArg Prod.snd shape⟩,
    markerTable_of_read .field callsAgainstPath Session.empty s decoded⟩

end PathStudio.Program
