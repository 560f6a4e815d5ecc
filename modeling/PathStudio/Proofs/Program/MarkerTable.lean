import PathStudio.Proofs.Program.Registry
import PathStudio.Program.Field.Read

/-!
# Tables of markers

A program has calls in the order of its text, each behind some of the moves. A draft tabulates them
when it has one marker for each call that is different from the others, and the marker stands where
the first call of its kind does. One more call of the text keeps this, whether its marker is new or
not. Both readers bring their actions among the moves afterwards, each in its own way: what they need
in common is that a path has the actions of the draft behind the same moves.
-/

namespace PathStudio

variable {ν : Type}

/-- What a marker calls. -/
def Marker.call (m : Marker ν) : String × String := (m.name, m.args)

/-- The point at which a marker stands. -/
def Marker.point (m : Marker ν) : Point ν := ⟨m.x, m.y⟩

/-- The poses that a path moves to. -/
def Layout.poses (l : Layout ν) : List (Pose ν) := l.moves.map Move.pose

namespace Program

open PathStudio.Program.Field (pointAfter actionsAt interleave)

/-- A call of a program with the number of moves before it. -/
structure PlacedCall where
  moves : Nat
  name : String
  args : String
  deriving DecidableEq, Repr

/-- What a placed call calls. -/
def PlacedCall.call (c : PlacedCall) : String × String := (c.name, c.args)

/-- The actions of a path, each with the number of moves before it. -/
def actionsFrom : Nat → List (Waypoint ν) → List (Nat × Waypoint ν)
  | _, [] => []
  | k, .move _ :: rest => actionsFrom (k + 1) rest
  | k, .action a :: rest => (k, .action a) :: actionsFrom k rest

/-- The placed call of an action whose marker is there. -/
def placedCall? (l : Layout ν) : Nat × Waypoint ν → Option PlacedCall
  | (_, .move _) => none
  | (k, .action a) => (l.marker? a.markerId).map fun m => ⟨k, m.name, m.args⟩

/-- The calls of a path, each with the number of moves before it. -/
def placedCalls (l : Layout ν) : List PlacedCall :=
  (actionsFrom 0 l.waypoints).filterMap (placedCall? l)

/-- The markers of a session that has been read on top of an earlier one are a table of the calls of
the text. -/
structure MarkerTable (calls : List PlacedCall) (prior s : Session ν) : Prop where
  /-- The markers are numbered one after another, from the next free number of the earlier session
  on. -/
  ids : s.markerIds = (List.range s.markers.length).map fun (i : Nat) => prior.nextMarkerId + i
  next : s.nextMarkerId = prior.nextMarkerId + s.markers.length
  /-- No two markers call the same. -/
  distinct : (s.markers.map Marker.call).Nodup
  /-- Every marker is run by an action. -/
  used : ∀ m ∈ s.markers, ∃ a, .action a ∈ s.waypoints ∧ a.markerId = m.id
  /-- Every action runs a marker and stands exactly where it does. -/
  placed : ∀ a, .action a ∈ s.waypoints → ∃ m ∈ s.markers, a.markerId = m.id ∧
    a.pose.x = m.x ∧ a.pose.y = m.y
  /-- Every marker stands where the first call of its kind in the text does: at the start if no move
  is before it, and else at the last move before it. -/
  stands : ∀ m ∈ s.markers, ∃ c, calls.find? (fun c => c.call = m.call) = some c ∧
    m.point = pointAfter s.start s.poses c.moves
  /-- No call is behind more moves than there are. -/
  within : ∀ c ∈ calls, c.moves ≤ s.poses.length
  /-- The path has the calls of the text, and those behind the same moves are in the order of the
  text. -/
  laid : ∀ k, (placedCalls s.toLayout).filter (fun c => c.moves = k) =
    calls.filter fun c => c.moves = k

/-! ## Actions behind moves -/

section Actions

theorem actionsFrom_append (k : Nat) (a b : List (Waypoint ν)) :
    actionsFrom k (a ++ b) =
      actionsFrom k a ++ actionsFrom (k + (a.filterMap Waypoint.move?).length) b := by
  induction a generalizing k with
  | nil => rfl
  | cons w a ih =>
    cases w with
    | move m =>
      have count : k + 1 + (a.filterMap Waypoint.move?).length =
          k + ((.move m :: a).filterMap Waypoint.move?).length := by
        simp only [List.filterMap_cons, Waypoint.move?, List.length_cons]
        omega
      rw [List.cons_append, actionsFrom, actionsFrom, ih, count]
    | action action =>
      rw [List.cons_append, actionsFrom, actionsFrom, ih]
      rfl

theorem mem_waypoints_of_mem_actionsFrom {k : Nat} {ws : List (Waypoint ν)} {a : Nat × Waypoint ν}
    (h : a ∈ actionsFrom k ws) : a.2 ∈ ws ∧ k ≤ a.1 := by
  induction ws generalizing k with
  | nil => cases h
  | cons w ws ih =>
    cases w with
    | move m =>
      obtain ⟨among, least⟩ := ih h
      exact ⟨.tail _ among, Nat.le_of_succ_le least⟩
    | action action =>
      obtain rfl | h := List.mem_cons.mp h
      · exact ⟨List.mem_cons_self, Nat.le_refl k⟩
      · exact ⟨.tail _ (ih h).1, (ih h).2⟩

theorem exists_mem_actionsFrom {ws : List (Waypoint ν)} {a : Action ν} (h : .action a ∈ ws)
    (k : Nat) : ∃ j, (j, .action a) ∈ actionsFrom k ws := by
  induction ws generalizing k with
  | nil => cases h
  | cons w ws ih =>
    cases w with
    | move m =>
      obtain h | h := List.mem_cons.mp h
      · cases h
      · exact ih h (k + 1)
    | action action =>
      obtain h | h := List.mem_cons.mp h
      · cases h
        exact ⟨k, List.mem_cons_self⟩
      · exact (ih h k).imp fun j => List.mem_cons_of_mem _

theorem placedCall?_moves {l : Layout ν} {a : Nat × Waypoint ν} {c : PlacedCall}
    (h : placedCall? l a = some c) : c.moves = a.1 := by
  obtain ⟨k, w⟩ := a
  cases w with
  | move m => cases h
  | action action =>
    obtain ⟨m, -, rfl⟩ := Option.map_eq_some_iff.mp h
    rfl

/-- The calls behind so many moves are those of the actions behind so many moves. -/
theorem filter_filterMap_placedCall? (l : Layout ν) (actions : List (Nat × Waypoint ν)) (k : Nat) :
    (actions.filterMap (placedCall? l)).filter (fun c => c.moves = k) =
      (actions.filter fun a => a.1 = k).filterMap (placedCall? l) := by
  induction actions with
  | nil => rfl
  | cons a actions ih =>
    cases call : placedCall? l a with
    | none =>
      rw [List.filterMap_cons_none call, List.filter_cons, ih]
      split
      · rw [List.filterMap_cons_none call]
      · rfl
    | some c =>
      rw [List.filterMap_cons_some call, List.filter_cons, List.filter_cons, ih,
        placedCall?_moves call]
      split
      · rw [List.filterMap_cons_some call]
      · rfl

end Actions

/-! ## Tables of calls -/

variable [Add ν] [Sub ν] [Mul ν] [Div ν] [Neg ν] [Scalar ν]

/-- An action is behind the same moves as a call and runs a marker for it. -/
def Carries (markers : List (Marker ν)) (c : PlacedCall) (a : Nat × Waypoint ν) : Prop :=
  a.1 = c.moves ∧ ∃ m ∈ markers, m.call = c.call ∧ a.2 = markerAction m

/-- A draft has one marker for each of the calls read so far, where the first of its kind stands, and
the actions run these markers. -/
structure Draft.Tabulates (first : Int) (point : Nat → Point ν) (calls : List PlacedCall)
    (actions : List (Nat × Waypoint ν)) (d : Draft ν) : Prop where
  numbered : d.Numbered first
  distinct : (d.markers.map Marker.call).Nodup
  stands : ∀ m ∈ d.markers, ∃ c, calls.find? (fun c => c.call = m.call) = some c ∧
    m.point = point c.moves
  runs : List.Forall₂ (Carries d.markers) calls actions

namespace Draft

variable {first : Int} {point : Nat → Point ν} {calls : List PlacedCall}
  {actions : List (Nat × Waypoint ν)} {d : Draft ν}

theorem tabulates_after (prior : Session ν) (point : Nat → Point ν) :
    (after prior).Tabulates prior.nextMarkerId point [] [] where
  numbered := numbered_after prior
  distinct := List.nodup_nil
  stands m h := by simp [after] at h
  runs := .nil

namespace Tabulates

/-- The table is a matter of the markers alone. -/
theorem of_markers (h : d.Tabulates first point calls actions) {d' : Draft ν}
    (same : d'.markers = d.markers) (next : d'.nextMarkerId = d.nextMarkerId) :
    d'.Tabulates first point calls actions where
  numbered := ⟨same ▸ h.numbered.id_eq, by rw [next, same, h.numbered.next_eq]⟩
  distinct := same ▸ h.distinct
  stands := same ▸ h.stands
  runs := same ▸ h.runs

/-- Only the points of the calls matter. -/
theorem of_points (h : d.Tabulates first point calls actions) {point' : Nat → Point ν}
    (same : ∀ c ∈ calls, point c.moves = point' c.moves) :
    d.Tabulates first point' calls actions where
  numbered := h.numbered
  distinct := h.distinct
  stands m hm := by
    obtain ⟨c, found, stands⟩ := h.stands m hm
    exact ⟨c, found, stands.trans (same c (List.mem_of_find?_eq_some found))⟩
  runs := h.runs

/-- Every call read so far has an action, which runs a marker for it. -/
theorem exists_action (h : d.Tabulates first point calls actions) {c : PlacedCall} (hc : c ∈ calls) :
    ∃ m ∈ d.markers, m.call = c.call ∧ (c.moves, markerAction m) ∈ actions := by
  obtain ⟨i, bound, rfl⟩ := List.getElem_of_mem hc
  have bound' := h.runs.length_eq ▸ bound
  obtain ⟨moves, m, hm, same, run⟩ := List.Forall₂.get h.runs bound bound'
  have here : actions[i] = (calls[i].moves, markerAction m) := Prod.ext moves run
  exact ⟨m, hm, same, here ▸ List.getElem_mem bound'⟩

/-- Every action is that of a call and runs a marker. -/
theorem exists_call (h : d.Tabulates first point calls actions) {a : Nat × Waypoint ν}
    (ha : a ∈ actions) : ∃ c ∈ calls, a.1 = c.moves ∧ ∃ m ∈ d.markers, a.2 = markerAction m := by
  obtain ⟨i, bound, rfl⟩ := List.getElem_of_mem ha
  have bound' := h.runs.length_eq.symm ▸ bound
  obtain ⟨moves, m, hm, -, run⟩ := List.Forall₂.get h.runs bound' bound
  exact ⟨_, List.getElem_mem bound', moves, m, hm, run⟩

/-- A new marker differs from all that are there. -/
theorem nodup_markerFor (h : d.Tabulates first point calls actions) (name args : List Char)
    (at_ : Point ν) : ((d.markerFor name args at_).2.markers.map Marker.call).Nodup := by
  obtain ⟨m, -, -, -, eq⟩ | ⟨unlike, eq⟩ := markerFor_cases d name args at_
  · rw [eq]
    exact h.distinct
  · rw [eq, List.map_append]
    refine List.nodup_append.mpr ⟨h.distinct, List.nodup_singleton _, ?_⟩
    intro call hcall other hother same
    obtain ⟨m, hm, rfl⟩ := List.mem_map.mp hcall
    rw [List.mem_singleton.mp hother] at same
    exact unlike m hm (congrArg Prod.fst same) (congrArg Prod.snd same)

/-- A call like no marker is like no call read so far, for each of those has a marker. -/
theorem find?_eq_none (h : d.Tabulates first point calls actions) {call : String × String}
    (unlike : ∀ m ∈ d.markers, m.call ≠ call) : calls.find? (fun c => c.call = call) = none := by
  rw [List.find?_eq_none]
  intro c hc same
  obtain ⟨m, hm, like, -⟩ := h.exists_action hc
  exact unlike m hm (like.trans (of_decide_eq_true same))

/-- With one more call, each marker stands where the first call of its kind does. -/
theorem stands_markerFor (h : d.Tabulates first point calls actions) {name args : List Char}
    {c : PlacedCall} (called : c.call = (String.ofList name, String.ofList args)) :
    ∀ m ∈ (d.markerFor name args (point c.moves)).2.markers,
      ∃ c', (calls ++ [c]).find? (fun c' => c'.call = m.call) = some c' ∧
        m.point = point c'.moves := by
  have earlier : ∀ m ∈ d.markers, ∃ c', (calls ++ [c]).find? (fun c' => c'.call = m.call) = some c' ∧
      m.point = point c'.moves := by
    intro m hm
    obtain ⟨c', found, stands⟩ := h.stands m hm
    exact ⟨c', by rw [List.find?_append, found, Option.some_or], stands⟩
  obtain ⟨m, -, -, -, eq⟩ | ⟨unlike, eq⟩ := markerFor_cases d name args (point c.moves)
  · rw [eq]
    exact earlier
  · rw [eq]
    intro m hm
    obtain hm | hm := List.mem_append.mp hm
    · exact earlier m hm
    · obtain rfl := List.mem_singleton.mp hm
      have fresh : calls.find? (fun c' => c'.call = (String.ofList name, String.ofList args)) = none := by
        apply h.find?_eq_none
        intro m hm same
        exact unlike m hm (congrArg Prod.fst same) (congrArg Prod.snd same)
      have itself : [c].find? (fun c' => c'.call = (String.ofList name, String.ofList args)) = some c :=
        List.find?_cons_of_pos (decide_eq_true called)
      refine ⟨c, ?_, rfl⟩
      rw [List.find?_append]
      exact (congrArg₂ Option.or fresh itself).trans (Option.none_or ..)

/-- One more call keeps the table: a call like an earlier one gets its marker, and another one gets a
marker of its own where it stands. -/
theorem addCall (h : d.Tabulates first point calls actions) (k : Nat) (name args : List Char) :
    (d.markerFor name args (point k)).2.Tabulates first point
      (calls ++ [⟨k, String.ofList name, String.ofList args⟩])
      (actions ++ [(k, markerAction (d.markerFor name args (point k)).1)]) where
  numbered := h.numbered.markerFor name args (point k)
  distinct := h.nodup_markerFor name args (point k)
  stands := h.stands_markerFor (c := ⟨k, String.ofList name, String.ofList args⟩) rfl
  runs := by
    have made : Carries (d.markerFor name args (point k)).2.markers
        ⟨k, String.ofList name, String.ofList args⟩
        (k, markerAction (d.markerFor name args (point k)).1) :=
      ⟨rfl, _, markerFor_mem .., Prod.ext (markerFor_name ..) (markerFor_args ..), rfl⟩
    have kept : List.Forall₂ (Carries (d.markerFor name args (point k)).2.markers) calls actions :=
      h.runs.imp fun c a => And.imp_right fun ⟨m, hm, run⟩ =>
        ⟨m, (markers_markerFor d name args (point k)).subset hm, run⟩
    exact List.rel_append kept (.cons made .nil)

/-- The actions of a path with the markers of the draft are the calls. -/
theorem filterMap_placedCall? (h : d.Tabulates first point calls actions) {l : Layout ν}
    (same : l.markers = d.markers) : actions.filterMap (placedCall? l) = calls := by
  have runs := h.runs
  generalize calls = cs at runs
  generalize actions = as at runs
  induction runs with
  | nil => rfl
  | @cons c a cs as run _ ih =>
    obtain ⟨moves, m, hm, call, action⟩ := run
    have resolved : placedCall? l a = some c := by
      rw [← Prod.eta a, moves, action, markerAction, placedCall?, h.numbered.marker?_id same hm,
        Option.map_some]
      exact congrArg some (congrArg₂ (PlacedCall.mk c.moves) (congrArg Prod.fst call)
        (congrArg Prod.snd call))
    rw [List.filterMap_cons_some resolved, ih]

/-- A path with the actions of a draft behind the same moves has the draft's table. -/
theorem markerTable {start : Pose ν} {prior : Session ν}
    (h : d.Tabulates prior.nextMarkerId
      (pointAfter start (d.toSession start prior).poses) calls actions)
    (within : ∀ c ∈ calls, c.moves ≤ (d.toSession start prior).poses.length)
    (laid : ∀ k, (actionsFrom 0 d.waypoints).filter (fun a => a.1 = k) =
      actions.filter fun a => a.1 = k) :
    MarkerTable calls prior (d.toSession start prior) := by
  have actions_iff (a : Nat × Waypoint ν) : a ∈ actionsFrom 0 d.waypoints ↔ a ∈ actions := by
    have here := congrArg (a ∈ ·) (laid a.1)
    simpa using here
  refine ⟨h.numbered.markerIds_eq, h.numbered.next_eq, h.distinct, ?_, ?_, h.stands, within, ?_⟩
  · -- the first call of the marker's kind has an action that runs the marker
    intro m hm
    obtain ⟨c, found, -⟩ := h.stands m hm
    have like : c.call = m.call := by simpa using List.find?_some found
    obtain ⟨m', hm', call, run⟩ := h.exists_action (List.mem_of_find?_eq_some found)
    obtain rfl : m' = m := List.inj_on_of_nodup_map h.distinct hm' hm (call.trans like)
    exact ⟨_, (mem_waypoints_of_mem_actionsFrom ((actions_iff _).mpr run)).1, rfl⟩
  · intro a ha
    obtain ⟨k, among⟩ := exists_mem_actionsFrom ha 0
    obtain ⟨-, -, -, m, hm, same⟩ := h.exists_call ((actions_iff _).mp among)
    cases same
    exact ⟨m, hm, rfl, rfl, rfl⟩
  · intro k
    rw [placedCalls, filter_filterMap_placedCall?]
    exact (congrArg (List.filterMap _) (laid k)).trans <|
      (filter_filterMap_placedCall? ..).symm.trans
        (congrArg (List.filter _) (h.filterMap_placedCall? rfl))

end Tabulates

end Draft

end Program

end PathStudio
