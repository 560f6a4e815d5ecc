import PathStudio.Proofs.Simulation.Double

/-!
# Actions and geometry

Actions move nothing. A path is walked forward for its legs, back from a place for
the pose before it and through a filter for its moves, and each of these walks
passes over the actions. What is made from a path by the legs alone is therefore
the same however many actions are put in or taken out, and wherever.
-/

namespace PathStudio

variable {ν : Type}

namespace Layout

/-! ## Forward and back -/

@[simp] theorem walkBack_append (start : Pose ν) (a b : List (Waypoint ν)) :
    walkBack start (a ++ b) = walkBack (walkBack start b) a := by
  induction a with
  | nil => rfl
  | cons w rest ih =>
    cases w with
    | move m => rfl
    | action a => exact ih

/-- A leg of the forward walk has the move at its place, and the walk back from there comes to the
pose that the leg is entered with. -/
theorem exists_place_of_mem_legsFrom {before : Pose ν} {index : Nat} {ws : List (Waypoint ν)}
    {leg : Leg ν} (h : leg ∈ legsFrom before index ws) :
    ∃ i, leg.index = index + i ∧ ws[i]? = some (.move leg.move) ∧
      walkBack before (ws.take i).reverse = leg.before := by
  induction ws generalizing before index with
  | nil => cases h
  | cons w rest ih =>
    -- what the walk back over `w` comes to is what the forward walk goes on with
    have further {pose : Pose ν} (turn : walkBack before [w] = pose)
        (later : leg ∈ legsFrom pose (index + 1) rest) :
        ∃ i, leg.index = index + i ∧ (w :: rest)[i]? = some (.move leg.move) ∧
          walkBack before ((w :: rest).take i).reverse = leg.before := by
      obtain ⟨i, place, found, back⟩ := ih later
      refine ⟨i + 1, by omega, found, ?_⟩
      rw [List.take_succ_cons, List.reverse_cons, walkBack_append, turn, back]
    cases w with
    | move m =>
      obtain rfl | later := List.mem_cons.mp h
      · exact ⟨0, rfl, rfl, rfl⟩
      · exact further rfl later
    | action a => exact further rfl h

/-- The move at a place has a leg there. -/
theorem exists_mem_legsFrom {ws : List (Waypoint ν)} {i : Nat} {m : Move ν}
    (there : ws[i]? = some (.move m)) (before : Pose ν) (index : Nat) :
    ∃ leg ∈ legsFrom before index ws, leg.index = index + i ∧ leg.move = m := by
  induction ws generalizing before index i with
  | nil => cases there
  | cons w rest ih =>
    cases i with
    | zero =>
      obtain rfl : w = .move m := Option.some.inj there
      exact ⟨⟨before, m, index⟩, List.mem_cons_self, rfl, rfl⟩
    | succ i =>
      cases w with
      | move m' =>
        obtain ⟨leg, hl, place, same⟩ := ih there m'.pose (index + 1)
        exact ⟨leg, List.mem_cons_of_mem _ hl, by omega, same⟩
      | action a =>
        obtain ⟨leg, hl, place, same⟩ := ih there before (index + 1)
        exact ⟨leg, hl, by omega, same⟩

theorem poseBefore_natCast {l : Layout ν} {i : Nat} (h : i ≤ l.waypoints.length) :
    l.poseBefore i = .ok (walkBack l.start (l.waypoints.take i).reverse) := by
  rw [poseBefore]
  split
  next first =>
    obtain rfl : i = 0 := by omega
    rfl
  next => rw [if_pos (by omega), Int.toNat_natCast]

/-- A leg has the move at its place and is entered with the pose before that place. -/
theorem place_of_mem_legs {l : Layout ν} {leg : Leg ν} (h : leg ∈ l.legs) :
    l.waypoints[leg.index]? = some (.move leg.move) ∧ l.poseBefore leg.index = .ok leg.before := by
  obtain ⟨i, place, found, back⟩ := exists_place_of_mem_legsFrom h
  rw [Nat.zero_add] at place
  rw [place]
  obtain ⟨inside, -⟩ := List.getElem?_eq_some_iff.mp found
  exact ⟨found, by rw [poseBefore_natCast inside.le, back]⟩

theorem locate_natCast {l : Layout ν} {i : Nat} {w : Waypoint ν} (h : l.waypoints[i]? = some w) :
    l.locate i = .ok i := by
  obtain ⟨inside, -⟩ := List.getElem?_eq_some_iff.mp h
  rw [locate, Json.position?, if_pos (Int.natCast_nonneg i), if_pos (by omega), Int.toNat_natCast]

theorem waypointAt_natCast {l : Layout ν} {i : Nat} {w : Waypoint ν} (h : l.waypoints[i]? = some w) :
    l.waypointAt i = .ok w := by
  rw [waypointAt, locate_natCast h, ok_bind, h]

section Control

variable [Add ν] [Sub ν] [Mul ν] [Div ν] [Neg ν] [Scalar ν]

/-- The control point at the place of a leg is the one that belongs to its motion between the point
before it and the point that it reaches. -/
theorem arcControl_of_mem_legs {l : Layout ν} {leg : Leg ν} (h : leg ∈ l.legs) :
    l.arcControl leg.index = controlOf leg.move.motion leg.before.point leg.move.point := by
  obtain ⟨found, before⟩ := place_of_mem_legs h
  rw [arcControl, waypointAt_natCast found, ok_bind]
  match hm : leg.move with
  | ⟨.drive, _, _⟩ => rfl
  | ⟨.strafe, _, _⟩ => rfl
  | ⟨.arc (some c), _, _⟩ => rfl
  | ⟨.arc none, pose, _⟩ =>
    rw [before]
    change (defaultControl leg.before.point pose.point >>= fun c => pure (some c)) =
      (defaultControl leg.before.point pose.point).map some
    cases defaultControl leg.before.point pose.point <;> rfl

end Control

/-! ## Putting actions in and taking them out -/

/-- Waypoints that come from others by putting in actions at any places and taking out any. -/
inductive ActionsVary : List (Waypoint ν) → List (Waypoint ν) → Prop
  | none (ws : List (Waypoint ν)) : ActionsVary ws ws
  | putIn {ws vs : List (Waypoint ν)} (h : ActionsVary ws vs) (i : Nat) (a : Action ν) :
      ActionsVary ws (vs.insertIdx i (.action a))
  | takeOut {ws vs : List (Waypoint ν)} (h : ActionsVary ws vs) {i : Nat} {a : Action ν}
      (there : vs[i]? = some (.action a)) : ActionsVary ws (vs.eraseIdx i)

@[simp] theorem moves_insertIdx_action (ws : List (Waypoint ν)) (i : Nat) (a : Action ν) :
    (ws.insertIdx i (.action a)).filterMap Waypoint.move? = ws.filterMap Waypoint.move? := by
  induction ws generalizing i with
  | nil => cases i <;> rfl
  | cons w rest ih =>
    cases i with
    | zero => rfl
    | succ i => rw [List.insertIdx_succ_cons, List.filterMap_cons, List.filterMap_cons, ih]

theorem moves_eraseIdx_action {ws : List (Waypoint ν)} {i : Nat} {a : Action ν}
    (there : ws[i]? = some (.action a)) :
    (ws.eraseIdx i).filterMap Waypoint.move? = ws.filterMap Waypoint.move? := by
  induction ws generalizing i with
  | nil => rfl
  | cons w rest ih =>
    cases i with
    | zero =>
      cases there
      rfl
    | succ i => rw [List.eraseIdx_cons_succ, List.filterMap_cons, List.filterMap_cons, ih there]

theorem ActionsVary.moves_eq {ws vs : List (Waypoint ν)} (h : ActionsVary ws vs) :
    vs.filterMap Waypoint.move? = ws.filterMap Waypoint.move? := by
  induction h with
  | none => rfl
  | putIn _ i a ih => rw [moves_insertIdx_action, ih]
  | takeOut _ there ih => rw [moves_eraseIdx_action there, ih]

/-- The moves of a path, each with the pose before it. -/
def passes (before : Pose ν) : List (Move ν) → List (Pose ν × Move ν)
  | [] => []
  | m :: rest => (before, m) :: passes m.pose rest

/-- A leg without its place. -/
def Leg.pass (leg : Leg ν) : Pose ν × Move ν := (leg.before, leg.move)

@[simp] theorem map_pass_legsFrom (before : Pose ν) (index : Nat) (ws : List (Waypoint ν)) :
    (legsFrom before index ws).map Leg.pass = passes before (ws.filterMap Waypoint.move?) := by
  induction ws generalizing before index with
  | nil => rfl
  | cons w rest ih =>
    cases w with
    | move m => exact congrArg ((before, m) :: ·) (ih m.pose (index + 1))
    | action a => exact ih before (index + 1)

/-- Legs without their places are made of start and moves. -/
@[simp] theorem map_pass_legs (l : Layout ν) : l.legs.map Leg.pass = passes l.start l.moves :=
  map_pass_legsFrom l.start 0 l.waypoints

end Layout

namespace Simulation

open Layout

variable [Add ν] [Sub ν] [Mul ν] [Div ν] [Neg ν] [Scalar ν]

theorem mapM_segmentOf (l : Layout ν) :
    l.legs.mapM segmentOf =
      (passes l.start l.moves).mapM fun pass => segmentOf ⟨pass.1, pass.2, 0⟩ := by
  rw [← map_pass_legs, List.mapM_map]
  rfl

/-- The control points at the places of the legs are made of start and moves. -/
theorem map_arcControl_legs (l : Layout ν) :
    l.legs.map (fun leg => l.arcControl leg.index) =
      (passes l.start l.moves).map fun pass =>
        controlOf pass.2.motion pass.1.point pass.2.point := by
  rw [← map_pass_legs, List.map_map]
  exact List.map_congr_left fun leg hl => arcControl_of_mem_legs hl

/-- A plan is made of the start and the moves. -/
theorem buildPlan_congr {l t : Layout ν} (start : t.start = l.start) (moves : t.moves = l.moves)
    (speeds : Speeds ν) (mode : Mode) : buildPlan speeds mode t = buildPlan speeds mode l := by
  simp only [buildPlan, fieldPolyline, mapM_segmentOf, start, moves]

/-- The control point of a segment is the one at the place of its leg. -/
theorem arcControl_of_segmentOf {l : Layout ν} {leg : Leg ν} (hl : leg ∈ l.legs) {g : Segment ν}
    (h : segmentOf leg = .ok g) : l.arcControl leg.index = .ok g.control := by
  obtain ⟨control, hc, built⟩ := bind_eq_ok.mp h
  cases return_eq_ok.mp built
  rw [arcControl_of_mem_legs hl]
  exact hc

/-- Putting actions in and taking them out changes neither the moves nor the poses before them, nor
the control points of the arcs, nor the plan. The legs of a path are its moves in order, each at its
place and entered with the pose before that place. A plan has a segment for each of them, with the
control point at its place; the first begins at the start and every other where the one before it
ends. -/
theorem actions_move_nothing {s t : Session ν} (start : t.start = s.start) (mode : t.mode = s.mode)
    (vary : ActionsVary s.waypoints t.waypoints) :
    (t.moves = s.moves ∧ t.legs.map Leg.pass = s.legs.map Leg.pass ∧
      t.legs.map (fun leg => t.arcControl leg.index) =
        s.legs.map (fun leg => s.arcControl leg.index) ∧
      ∀ speeds, buildPlan speeds t.mode t.toLayout = buildPlan speeds s.mode s.toLayout) ∧
    (s.legs.map Leg.move = s.moves ∧ ∀ leg ∈ s.legs,
      s.waypoints[leg.index]? = some (.move leg.move) ∧
        s.poseBefore leg.index = .ok leg.before) ∧
    ∀ speeds p, buildPlan speeds s.mode s.toLayout = .ok p →
      List.Forall₂ (fun g leg => g.StandsFor leg ∧ s.arcControl leg.index = .ok g.control)
        p.segments s.legs ∧
      p.segments.length = s.moves.length ∧
      (∀ g, p.segments[0]? = some g → g.a = s.start.point ∧ g.startHeading = p.startHeading) ∧
      ∀ (i : Nat) (g next : Segment ν), p.segments[i]? = some g → p.segments[i + 1]? = some next →
        next.a = g.b ∧ next.startHeading = g.endHeading := by
  have moves : t.moves = s.moves := vary.moves_eq
  have legs : s.legs.map Leg.move = s.moves := map_move_legsFrom s.start 0 s.waypoints
  refine ⟨⟨moves, ?_, ?_, fun speeds => ?_⟩, ⟨legs, fun leg hl => place_of_mem_legs hl⟩,
    fun speeds p built => ?_⟩
  · rw [map_pass_legs, map_pass_legs, start, moves]
  · rw [map_arcControl_legs t.toLayout, map_arcControl_legs s.toLayout, start, moves]
  · rw [mode]
    exact buildPlan_congr start moves speeds s.mode
  · obtain ⟨-, follows⟩ := follows_of_buildPlan built
    obtain ⟨-, -, -, segments⟩ := segments_of_buildPlan built
    have each := (List.forall₂_and_left (p := fun leg => leg ∈ s.legs) _ _).mpr
      ⟨fun _ hl => hl, forall₂_of_mapM segments⟩
    refine ⟨(each.imp fun leg g made => ?_).flip, ?_, fun g hg => ?_, fun _ _ _ => follows.begins_next⟩
    · exact ⟨standsFor_of_segmentOf made.2, arcControl_of_segmentOf made.1 made.2⟩
    · rw [follows.segments.length_eq, ← legs, List.length_map]
    · exact follows.start ▸ follows.begins_first hg

/-- A drive and an arc without a control point of its own. -/
def bend : Session Float :=
  { start := ⟨0.0, 0.0, 0.0⟩
    waypoints := [.move ⟨.drive, ⟨1.0, 0.0, 0.5⟩, 0.8⟩, .move ⟨.arc none, ⟨1.0, 2.0, 0.0⟩, 0.5⟩]
    markers := []
    selection := none
    mode := .dialect .robot
    nextMarkerId := 2
    past := .empty }

/-- The same moves with an action before the first and two between them. -/
def busyBend : Session Float :=
  let a := .action ⟨⟨0.0, 0.0, 0.0⟩, 1⟩
  { bend with waypoints := ((bend.waypoints.insertIdx 0 a).insertIdx 2 a).insertIdx 2 a }

theorem actions_move_nothing_busyBend :
    letI := Program.Robot.axes.scalar
    busyBend.legs.map (·.index) = [1, 4] ∧ ActionsVary bend.waypoints busyBend.waypoints ∧
      busyBend.legs.map Leg.pass = bend.legs.map Leg.pass ∧
      buildPlan steady busyBend.mode busyBend.toLayout = buildPlan steady bend.mode bend.toLayout ∧
      ∃ p, buildPlan steady bend.mode bend.toLayout = .ok p ∧ p.segments.length = 2 := by
  let := Program.Robot.axes.scalar
  have vary : ActionsVary bend.waypoints busyBend.waypoints :=
    (((ActionsVary.none _).putIn 0 _).putIn 2 _).putIn 2 _
  obtain ⟨p, built⟩ : ∃ p, buildPlan steady bend.mode bend.toLayout = .ok p :=
    exists_of_isSome_toOption (by decide +kernel)
  obtain ⟨⟨-, legs, -, plan⟩, -, chain⟩ := actions_move_nothing (s := bend) (t := busyBend) rfl rfl vary
  exact ⟨rfl, vary, legs, plan steady, p, built, (chain steady p built).2.1⟩

end Simulation

end PathStudio
