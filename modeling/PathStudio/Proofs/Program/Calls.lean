import PathStudio.Proofs.Program.Field.Calls
import PathStudio.Proofs.Program.Robot.Agreement
import PathStudio.Proofs.Program.Robot.Calls

/-!
# Both dialects keep the calls

A path that is printed in both dialects comes back from both programs with the
calls of its actions. A call is lost or changed only if its line closes the marker
around it, if its name looks like telemetry although it has arguments, or if the
line has a command in it.
-/

namespace PathStudio.Program

open Text Scalar

/-! ## Calls that both dialects keep -/

/-- The actions of a path all have markers, whose calls both dialects give back. -/
def CallsKept {ν : Type} (l : Layout ν) : Prop :=
  ∀ a, .action a ∈ l.waypoints → ∃ m, l.marker? a.markerId = some m ∧
    Field.Findable m.name.toList m.args.toList ∧ Robot.Callable m.name.toList m.args.toList

/-- Every marker with a slot is that of an action. -/
theorem Field.exists_action_of_mem_slotsFrom {ν : Type} {l : Layout ν} {done : Nat}
    {ws : List (Waypoint ν)} {s : Nat × Marker ν} (h : s ∈ slotsFrom l done ws) :
    ∃ a, .action a ∈ ws ∧ l.marker? a.markerId = some s.2 := by
  induction ws generalizing done with
  | nil => cases h
  | cons w ws ih =>
    cases w with
    | move m =>
      obtain ⟨a, ha, found⟩ := ih h
      exact ⟨a, .tail _ ha, found⟩
    | action a =>
      rw [slotsFrom] at h
      cases hm : l.marker? a.markerId with
      | none =>
        rw [hm] at h
        obtain ⟨b, hb, found⟩ := ih h
        exact ⟨b, .tail _ hb, found⟩
      | some m =>
        rw [hm] at h
        obtain rfl | rest := List.mem_cons.mp h
        · exact ⟨a, List.mem_cons_self, hm⟩
        · obtain ⟨b, hb, found⟩ := ih rest
          exact ⟨b, .tail _ hb, found⟩

open Double

variable {trig : Trigonometry}

/-- Directions of doubles guide a robot: where one can be rounded, it is that of a vector. -/
theorem Robot.guided_of_lawful (lawful : trig.Lawful) (keeps : trig.KeepsNaN) :
    @Guided Float _ _ _ _ _ trig.scalar := by
  let := trig.scalar
  constructor
  · intro p q degrees rounded
    exact unitsHalfUp_ne_notANumber (ofFloat_hypot_of_rounded keeps rounded)
  · intro p q degrees rounded
    obtain ⟨hy, hx⟩ := not_lost_of_rounded keeps rounded
    exact faces_of_rounded lawful hy hx rounded

/-- A path whose calls are kept, printed in both dialects, comes back from both programs with its
calls. -/
theorem dialects_carry_calls (trig : Trigonometry) (lawful : trig.Lawful) (keeps : trig.KeepsNaN) :
    letI := trig.scalar
    ∀ (s prior prior' : Session Float) (samples : Outcome Int) (field robot : List Char),
      s.moves.length ≤ 1000 → CallsKept s.toLayout → Field.print s.toLayout = .ok field →
        field.length < 2 ^ 63 → Robot.print s.toLayout samples = .ok robot →
          ∃ decoded decoded', Field.read field prior = .ok decoded ∧
            Robot.read robot prior' = .ok decoded' ∧
            decoded.calls = s.calls ∧ decoded'.calls = s.calls := by
  let := trig.scalar
  intro s prior prior' samples field robot few kept printed short printed'
  have resolved : ∀ a, .action a ∈ s.waypoints → (s.marker? a.markerId).isSome = true := by
    intro a ha
    obtain ⟨m, found, -⟩ := kept a ha
    rw [found, Option.isSome_some]
  have findable : ∀ t ∈ Field.slotsFrom s.toLayout 0 s.waypoints,
      Field.Findable t.2.name.toList t.2.args.toList := by
    intro t ht
    obtain ⟨a, ha, found⟩ := Field.exists_action_of_mem_slotsFrom ht
    obtain ⟨m, found', findable, -⟩ := kept a ha
    obtain rfl : m = t.2 := Option.some.inj (found'.symm.trans found)
    exact findable
  have ordered : ∀ total ≤ field.length, Field.SlotsKeepOrder Float s.moves.length total :=
    fun total small => Field.slotsKeepOrder_double few (small.trans_lt short)
  have carried : ∀ a, .action a ∈ s.waypoints →
      ∃ m, s.marker? a.markerId = some m ∧ Robot.Callable m.name.toList m.args.toList :=
    fun a ha => (kept a ha).imp fun m h => ⟨h.1, h.2.2⟩
  obtain ⟨decoded, run, calls⟩ := Field.exists_calls_read resolved findable printed ordered prior
  obtain ⟨decoded', run', calls'⟩ := Robot.exists_calls_read (Robot.guided_of_lawful lawful keeps)
    (Robot.faces_of_natAbs_le trig (by decide)) carried printed' prior'
  exact ⟨decoded, decoded', run, run', calls, calls'⟩

theorem Robot.lawful_compass : compass.Lawful where
  atan2_bounds y x hy hx := by
    have numbers : ¬ (y.isNaN || x.isNaN) = true := by rw [hy, hx]; decide
    have direction : compass.atan2 y x = axes.atan2 y x := if_neg numbers
    rw [direction]
    exact lawful_axes.atan2_bounds y x hy hx

/-- Two drives with a call behind each of them: one whose arguments have a pose and a lambda, and one
that looks like telemetry. -/
def follows : Session Float :=
  { start := ⟨0.0, 0.0, 0.0⟩
    waypoints := [.move ⟨.drive, ⟨1.0, 0.0, 0.0⟩, 0.8⟩, .action ⟨⟨1.0, 0.0, 0.0⟩, 1⟩,
      .move ⟨.drive, ⟨2.0, 0.0, 0.0⟩, 0.8⟩, .action ⟨⟨2.0, 0.0, 0.0⟩, 2⟩]
    markers := [⟨1, 1.0, 0.0, "follow",
        "new Pose2d(1, 2, Rotation2d.fromDegrees(3)), () -> \x7b\x7d"⟩,
      ⟨2, 2.0, 0.0, "telemetryReset", ""⟩]
    selection := none
    mode := .dialect .robot
    nextMarkerId := 3
    past := .empty }

theorem callsKept_follows : CallsKept follows.toLayout := by
  intro a ha
  simp only [follows, List.mem_cons, List.not_mem_nil, or_false, Waypoint.action.injEq, reduceCtorEq,
    false_or] at ha
  obtain rfl | rfl := ha
  · exact ⟨_, rfl, ⟨by decide, by decide, by decide, by decide, by decide⟩,
      ⟨by decide, by decide, by decide, by decide, by decide, by decide, by decide, by decide⟩⟩
  · exact ⟨_, rfl, ⟨by decide, by decide, by decide, by decide, by decide⟩,
      ⟨by decide, by decide, by decide, by decide, by decide, by decide, by decide, by decide⟩⟩

theorem dialects_carry_calls_follows :
    letI := Robot.compass.scalar
    ∃ field robot decoded decoded', Field.print follows.toLayout = .ok field ∧
      Robot.print follows.toLayout (.ok Robot.defaultSamples) = .ok robot ∧
      Field.read field follows = .ok decoded ∧ Robot.read robot follows = .ok decoded' ∧
      decoded.calls = follows.calls ∧ decoded'.calls = follows.calls := by
  let := Robot.compass.scalar
  have short : (Field.print follows.toLayout).map (fun text => decide (text.length < 2 ^ 63)) =
      .ok true := by decide +kernel
  obtain ⟨field, printed, short⟩ := map_eq_ok.mp short
  obtain ⟨robot, printed'⟩ :
      ∃ text, Robot.print follows.toLayout (.ok Robot.defaultSamples) = .ok text :=
    exists_of_isSome_toOption (by decide +kernel)
  obtain ⟨decoded, decoded', run, run', calls⟩ := dialects_carry_calls Robot.compass
    Robot.lawful_compass Robot.keepsNaN_compass follows follows follows _ field robot (by decide)
    callsKept_follows printed (of_decide_eq_true short) printed'
  exact ⟨field, robot, decoded, decoded', printed, printed', run, run', calls⟩

/-! ## Calls that a dialect does not keep -/

/-- Moves of finite coordinates, of which no two in a row are at the same place, and actions that all
call an identifier other than a command, with arguments on one line without blanks around them. -/
structure Ordinary (l : Layout Float) : Prop where
  finite : ∀ m ∈ l.moves, Robot.FinitePoint m.point
  apart : (l.moves.map Move.point).IsChain fun p q => (p.x == q.x && p.y == q.y) = false
  few : l.moves.length ≤ 1000
  plain : ∀ a, .action a ∈ l.waypoints → ∃ m, l.marker? a.markerId = some m ∧
    isIdentifier m.name.toList = true ∧ (m.name.toList.all fun c => decide (c.toNat < 128)) = true ∧
    Robot.keywords.contains m.name.toList = false ∧ trim m.args.toList = m.args.toList ∧
    m.args.toList.any isLineEnd = false

/-- A drive along the first axis with a call behind it. -/
def callsOnce (x : Float) (name args : String) : Session Float :=
  { start := ⟨0.0, 0.0, 0.0⟩
    waypoints := [.move ⟨.drive, ⟨x, 0.0, 0.0⟩, 0.8⟩, .action ⟨⟨x, 0.0, 0.0⟩, 1⟩]
    markers := [⟨1, x, 0.0, name, args⟩]
    selection := none
    mode := .dialect .robot
    nextMarkerId := 2
    past := .empty }

theorem ordinary_callsOnce {x : Float} {name args : String} (finite : x.isFinite = true)
    (identifier : isIdentifier name.toList = true)
    (ascii : (name.toList.all fun c => decide (c.toNat < 128)) = true)
    (notKeyword : Robot.keywords.contains name.toList = false)
    (trimmed : trim args.toList = args.toList) (oneLine : args.toList.any isLineEnd = false) :
    Ordinary (callsOnce x name args).toLayout where
  finite := by
    intro m hm
    have moves : (callsOnce x name args).moves = [⟨.drive, ⟨x, 0.0, 0.0⟩, 0.8⟩] := rfl
    rw [moves] at hm
    rw [List.mem_singleton.mp hm]
    have level : (0.0 : Float).isFinite = true := by decide
    exact ⟨finite, level⟩
  apart := .singleton _
  few := show 1 ≤ 1000 by decide
  plain := by
    intro a ha
    simp only [callsOnce, List.mem_cons, List.not_mem_nil, or_false, Waypoint.action.injEq,
      reduceCtorEq, false_or] at ha
    rw [ha]
    exact ⟨_, rfl, identifier, ascii, notKeyword, trimmed, oneLine⟩

/-- The calls that come back from the field-oriented program of a session. -/
def fieldCalls {ν : Type} [Add ν] [Sub ν] [Mul ν] [Div ν] [Neg ν] [Scalar ν] (s : Session ν) :
    Outcome (List (Option (String × String))) := do
  let text ← Field.print s.toLayout
  let decoded ← Field.read text s
  return decoded.calls

/-- The calls that come back from the robot-oriented program of a session. -/
def robotCalls {ν : Type} [Add ν] [Sub ν] [Mul ν] [Div ν] [Neg ν] [Scalar ν] (s : Session ν) :
    Outcome (List (Option (String × String))) := do
  let text ← Robot.print s.toLayout (.ok Robot.defaultSamples)
  let decoded ← Robot.read text s
  return decoded.calls

/-- Calls of ordinary sessions that one of the dialects changes or drops. A field-oriented program
loses the arguments of what looks like telemetry and of a call whose line closes its marker, and a
robot-oriented program takes a call that ends like a command for one. A path may also go too far for
a field-oriented program at all. -/
theorem calls_changed_or_dropped :
    letI := Robot.compass.scalar
    (Ordinary (callsOnce 1.0 "telemetryLog" "1").toLayout ∧
      fieldCalls (callsOnce 1.0 "telemetryLog" "1") = .ok [some ("telemetryLog", "")] ∧
      robotCalls (callsOnce 1.0 "telemetryLog" "1") = .ok [some ("telemetryLog", "1")]) ∧
    (Ordinary (callsOnce 1.0 "log" "x\x7d)").toLayout ∧
      fieldCalls (callsOnce 1.0 "log" "x\x7d)") = .ok [some ("log", "")] ∧
      robotCalls (callsOnce 1.0 "log" "x\x7d)") = .ok [some ("log", "x\x7d)")]) ∧
    (Ordinary (callsOnce 1.0 "myturnPID" "5").toLayout ∧
      fieldCalls (callsOnce 1.0 "myturnPID" "5") = .ok [some ("myturnPID", "5")] ∧
      robotCalls (callsOnce 1.0 "myturnPID" "5") = .ok []) ∧
    (Ordinary (callsOnce 1e307 "log" "").toLayout ∧
      fieldCalls (callsOnce 1e307 "log" "") = .error .unprintable) := by
  let := Robot.compass.scalar
  have metre : (1.0 : Float).isFinite = true := by decide
  refine ⟨⟨?_, ?_, ?_⟩, ⟨?_, ?_, ?_⟩, ⟨?_, ?_, ?_⟩, ?_, ?_⟩
  · exact ordinary_callsOnce metre (by decide) (by decide) (by decide) (by decide) (by decide)
  · decide +kernel
  · decide +kernel
  · exact ordinary_callsOnce metre (by decide) (by decide) (by decide) (by decide) (by decide)
  · decide +kernel
  · decide +kernel
  · exact ordinary_callsOnce metre (by decide) (by decide) (by decide) (by decide) (by decide)
  · decide +kernel
  · decide +kernel
  · have far : (1e307 : Float).isFinite = true := by decide +kernel
    exact ordinary_callsOnce far (by decide) (by decide) (by decide) (by decide) (by decide)
  · decide +kernel

end PathStudio.Program
