import PathStudio.Proofs.Program.Entry
import PathStudio.Proofs.Program.Spelling
import PathStudio.Program.Robot.Print

/-!
# Retracing a path

What a robot-oriented program keeps of a path is a track: its entries, each with
the point that the robot has before it. A decoded path retraces a track when each
of its waypoints is the one that the printed numbers of an entry lead to, from a
cursor that every move carries on.
-/

namespace PathStudio

variable {ν : Type}

namespace Layout

/-- The entries of waypoints, each with the point before it; the first one has the given point. -/
def trackFrom (l : Layout ν) : Point ν → List (Waypoint ν) → List (Point ν × Entry ν)
  | _, [] => []
  | p, .action a :: rest => ((l.entryOf? (.action a)).map (p, ·)).toList ++ l.trackFrom p rest
  | p, .move m :: rest => (p, .move m) :: l.trackFrom m.point rest

/-- The entries of a path, each with the point before it. -/
def track (l : Layout ν) : List (Point ν × Entry ν) := l.trackFrom l.start.point l.waypoints

/-- The track of a path goes through its entries. -/
@[simp] theorem map_snd_trackFrom (l : Layout ν) (p : Point ν) (ws : List (Waypoint ν)) :
    (l.trackFrom p ws).map Prod.snd = ws.filterMap l.entryOf? := by
  induction ws generalizing p with
  | nil => rfl
  | cons w ws ih =>
    cases w with
    | move m => simp [trackFrom, entryOf?, ih]
    | action a => cases h : l.entryOf? (.action a) <;> simp [trackFrom, h, ih]

@[simp] theorem map_snd_track (l : Layout ν) : l.track.map Prod.snd = l.entries := l.map_snd_trackFrom _ _

/-- The moves of a track are moves of the path, and each starts at a point of the path. -/
theorem mem_trackFrom {l : Layout ν} {p q : Point ν} {m : Move ν} {ws : List (Waypoint ν)}
    (h : (q, .move m) ∈ l.trackFrom p ws) :
    m ∈ ws.filterMap Waypoint.move? ∧ (q = p ∨ ∃ m' ∈ ws.filterMap Waypoint.move?, q = m'.point) := by
  induction ws generalizing p with
  | nil => cases h
  | cons w ws ih =>
    cases w with
    | move m' =>
      obtain first | rest := List.mem_cons.mp h
      · cases first
        exact ⟨by simp [Waypoint.move?], .inl rfl⟩
      · obtain ⟨hm, rfl | ⟨m'', hm'', rfl⟩⟩ := ih rest
        · exact ⟨by simp [Waypoint.move?, hm], .inr ⟨m', by simp [Waypoint.move?], rfl⟩⟩
        · exact ⟨by simp [Waypoint.move?, hm], .inr ⟨m'', by simp [Waypoint.move?, hm''], rfl⟩⟩
    | action a =>
      obtain first | rest := List.mem_append.mp h
      · simp only [entryOf?, Option.map_map, Option.mem_toList, Option.map_eq_some_iff,
          Function.comp_apply, Prod.mk.injEq, reduceCtorEq, and_false] at first
        obtain ⟨_, ⟨⟩⟩ := first
      · exact ih rest

end Layout

namespace Program.Robot

open Text Scalar

variable [Add ν] [Sub ν] [Mul ν] [Div ν] [Neg ν] [Scalar ν]

/-- Whether a move ends where it starts, or nearly so. -/
def goesNowhere : Point ν × Entry ν → Bool
  | (p, .move m) => lt (Point.distance p m.point) negligible
  | (_, .call ..) => false

/-- Whether a move is an arc whose length is not a number, since its points overflow. -/
def lacksLength : Point ν × Entry ν → Bool
  | (p, .move m) =>
    match Layout.controlOf m.motion p m.point with
    | .ok (some control) =>
      unitsHalfUp (Bezier.length p control m.point Bezier.defaultSteps) 2 = .notANumber
    | _ => false
  | (_, .call ..) => false

/-- A length in a direction, in degrees, leads from one point to another. -/
def LeadsTo (c : Point ν) (length degrees : ν) (c' : Point ν) : Prop :=
  ∃ x y, cos (toRadians degrees) = .ok x ∧ sin (toRadians degrees) = .ok y ∧
    c' = ⟨c.x + length * x, c.y + length * y⟩

/-- What an entry of a track is read back as, from one place of the cursor to the next. Calls are
compared by the given relation. -/
inductive Retraces (carries : Waypoint ν → String → String → Prop) :
    Point ν → Point ν × Entry ν → Waypoint ν → Point ν → Prop where
  | straight {c c' p : Point ν} {m : Move ν} {length : List Char} {degrees : Int} {L B : ν} :
    m.kind ≠ .arc → amount (Point.distance p m.point) 2 = .ok length →
    roundHalfUp (Point.bearing p m.point) = .ok degrees → numeral? length = some L →
    numeral? (integerText degrees) = some B → LeadsTo c L B c' →
    Retraces carries c (p, .move m)
      (.move ⟨m.motion.plain, ⟨c'.x, c'.y, toRadians (-B)⟩, defaultSpeed⟩) c'
  | arc {c c' p control : Point ν} {m : Move ν} {length speed : List Char} {final : Int}
      {L V H E : ν} :
    Layout.controlOf m.motion p m.point = .ok (some control) →
    amount (Bezier.length p control m.point Bezier.defaultSteps) 2 = .ok length →
    amount m.speed 2 = .ok speed → programHeading m.pose.h = .ok final →
    numeral? length = some L → numeral? speed = some V → numeral? (integerText 0) = some H →
    numeral? (integerText final) = some E → LeadsTo c L H c' →
    Retraces carries c (p, .move m)
      (.move ⟨m.motion.plain, ⟨c'.x, c'.y, toRadians (-E)⟩, V⟩) c'
  | call {c p : Point ν} {name args : String} {w : Waypoint ν} :
    carries w name args → Retraces carries c (p, .call name args) w c

/-- Waypoints retrace a track one by one, each from where the cursor is after those before it. -/
inductive RetracesAll (carries : Waypoint ν → String → String → Prop) :
    Point ν → List (Point ν × Entry ν) → List (Waypoint ν) → Prop where
  | nil {c : Point ν} : RetracesAll carries c [] []
  | cons {c c' : Point ν} {step : Point ν × Entry ν} {w : Waypoint ν}
      {steps : List (Point ν × Entry ν)} {ws : List (Waypoint ν)} :
    Retraces carries c step w c' → RetracesAll carries c' steps ws →
    RetracesAll carries c (step :: steps) (w :: ws)

variable {carries carries' : Waypoint ν → String → String → Prop}

theorem Retraces.imp (h : ∀ w name args, carries w name args → carries' w name args) {c c' : Point ν}
    {step : Point ν × Entry ν} {w : Waypoint ν} (hw : Retraces carries c step w c') :
    Retraces carries' c step w c' := by
  cases hw with
  | straight kind length degrees readL readB leads =>
    exact .straight kind length degrees readL readB leads
  | arc control length speed final readL readV readH readE leads =>
    exact .arc control length speed final readL readV readH readE leads
  | call found => exact .call (h _ _ _ found)

theorem RetracesAll.imp (h : ∀ w name args, carries w name args → carries' w name args) {c : Point ν}
    {steps : List (Point ν × Entry ν)} {ws : List (Waypoint ν)} (hw : RetracesAll carries c steps ws) :
    RetracesAll carries' c steps ws := by
  induction hw with
  | nil => exact .nil
  | cons first _ ih => exact .cons (first.imp h) ih

end Program.Robot

end PathStudio
