import PathStudio.Proofs.Session.Undo

/-!
# Adopting decoded programs

Decoding into a session either fails before the session is touched or replaces
the whole path at once. A text without moves is the one refusal that comes after
the replacement, and no reader gives that refusal by itself, so the two can be
told apart by their faults.
-/

namespace PathStudio.Program

open Scalar Text

section Faults

variable {ν : Type} [Add ν] [Sub ν] [Mul ν] [Div ν] [Neg ν] [Scalar ν] {P : Fault → Prop}

theorem Field.failsOnly_read (hfloor : ∀ x : ν, FailsOnly P (floor x)) (text : List Char)
    (prior : Session ν) : FailsOnly P (Field.read text prior) := by
  refine FailsOnly.bind (FailsOnly.foldlM (fun slots written => ?_) _ _) fun _ => FailsOnly.ok _
  unfold Field.addMarker
  split
  · exact FailsOnly.ok _
  · exact ((hfloor _).bind fun _ => FailsOnly.ok _).bind fun _ => FailsOnly.ok _

theorem Robot.failsOnly_ahead (hcos : ∀ x : ν, FailsOnly P (cos x))
    (hsin : ∀ x : ν, FailsOnly P (sin x)) (t : Robot.Trail ν) (length degrees : ν) :
    FailsOnly P (t.ahead length degrees) :=
  (hcos _).bind fun _ => (hsin _).bind fun _ => FailsOnly.ok _

theorem Robot.failsOnly_read (hcos : ∀ x : ν, FailsOnly P (cos x))
    (hsin : ∀ x : ν, FailsOnly P (sin x)) (text : List Char) (prior : Session ν) :
    FailsOnly P (Robot.read text prior) := by
  have ahead := Robot.failsOnly_ahead hcos hsin
  have addArc (t : Robot.Trail ν) (a : Robot.OpenArc) : FailsOnly P (t.addArc a) :=
    (ahead t _ _).bind fun _ => FailsOnly.ok _
  have extendArc (t : Robot.Trail ν) (a : Robot.OpenArc) (line : List Char) :
      FailsOnly P (t.extendArc a line) := by
    unfold Robot.Trail.extendArc
    dsimp only
    split
    · exact addArc t _
    · exact FailsOnly.ok _
  refine FailsOnly.bind (FailsOnly.foldlM (fun t line => ?_) _ _) fun t =>
    FailsOnly.bind ?_ fun _ => FailsOnly.ok _
  · unfold Robot.Trail.readLine
    split
    · exact extendArc t _ line
    · unfold Robot.Trail.run
      split
      · exact FailsOnly.ok _
      · exact FailsOnly.ok _
      · exact (ahead t _ _).bind fun _ => FailsOnly.ok _
      · exact extendArc t _ line
      · exact FailsOnly.ok _
  · unfold Robot.Trail.finish
    split
    · exact addArc t _
    · exact FailsOnly.ok _

end Faults

/-- The faults of arithmetic on doubles. -/
def IsArithmetic (f : Fault) : Prop :=
  f = .outsideDomain ∨ f = .infiniteInteger ∨ f = .undefinedInteger

theorem failsOnly_floor (x : Float) : FailsOnly IsArithmetic (floor x) := by
  change FailsOnly IsArithmetic (Double.floor x)
  unfold Double.floor
  split
  · exact FailsOnly.error (.inr (.inr rfl))
  · exact FailsOnly.error (.inr (.inl rfl))
  · exact FailsOnly.ok _

theorem failsOnly_refuseInfinite (f : Float → Float) (x : Float) :
    FailsOnly IsArithmetic (Double.refuseInfinite f x) := by
  unfold Double.refuseInfinite
  split
  · exact FailsOnly.error (.inl rfl)
  · exact FailsOnly.ok _

theorem failsOnly_read (d : Dialect) (text : List Char) (prior : Session Float) :
    FailsOnly IsArithmetic (read d text prior) := by
  cases d with
  | field => exact Field.failsOnly_read failsOnly_floor text prior
  | robot =>
    exact Robot.failsOnly_read (failsOnly_refuseInfinite _) (failsOnly_refuseInfinite _) text prior

/-- No text is refused for its lack of moves before it has been adopted. -/
theorem failsOnly_decode (text : List Char) (prior : Session Float) :
    FailsOnly (fun f => f.family ≠ .noWaypoints) (decode text prior) := by
  refine FailsOnly.bind ?_ fun d => ?_
  · unfold sniff
    split
    · exact FailsOnly.error (by decide)
    split
    · exact FailsOnly.ok _
    split
    · exact FailsOnly.ok _
    · exact FailsOnly.error (by decide)
  · split
    · exact FailsOnly.ok _
    · rename_i f hf
      have arithmetic := failsOnly_read d text prior f hf
      split
      · exact FailsOnly.error (by simp [Fault.family])
      · obtain rfl | rfl | rfl := arithmetic <;> exact FailsOnly.error (by decide)

theorem sniff_of_decode {text : List Char} {prior decoded : Session Float} {d : Dialect}
    (h : decode text prior = .ok (d, decoded)) : sniff text = .ok d := by
  obtain ⟨d', hs, h⟩ := bind_eq_ok.mp h
  split at h
  · cases h
    exact hs
  · split at h <;> cases h

/-- Decoding into a session is refused with the session as it was, where decoding the text is
refused in the same way, or takes the decoded path over as a whole, in the dialect of the text and
with its first waypoint selected. It then has saved the earlier layout, which one undo brings back,
also where the text is refused for its lack of moves. -/
theorem decodeInto_all_or_nothing (s : Session Float) (text : List Char) :
    let (r, t) := (decodeInto text).on s
    ((∃ f, decode text s = .error f ∧ r = .error f ∧ f.family ≠ .noWaypoints) ∧ t = s) ∨
      ∃ d decoded, sniff text = .ok d ∧ decode text s = .ok (d, decoded) ∧
        r = (if decoded.moves.isEmpty then .error (.noWaypoints d) else .ok d) ∧
        t.history = (s.toLayout :: s.history).take historyLimit ∧
        t.start = decoded.start ∧ t.waypoints = decoded.waypoints ∧
        t.markers = decoded.markers ∧ t.nextMarkerId = decoded.nextMarkerId ∧
        t.mode = .dialect d ∧
        t.selection = (if decoded.waypoints.isEmpty then none else some (.place 0)) ∧
        (Edit.undo.on t).1 = .ok true ∧ (Edit.undo.on t).2.toLayout = s.toLayout := by
  cases h : decode text s with
  | error f =>
    rw [on_decodeInto_of_error h]
    exact .inl ⟨⟨f, rfl, rfl, failsOnly_decode text s f h⟩, rfl⟩
  | ok found =>
    obtain ⟨d, decoded⟩ := found
    rw [on_decodeInto_of_ok h]
    have history : (adopt s d decoded).history = s.toLayout :: s.history.take (historyLimit - 1) :=
      List.take_succ_cons ..
    have undone := on_undo_of_cons history
    refine .inr ⟨d, decoded, sniff_of_decode h, rfl, rfl, rfl, rfl, rfl, rfl, rfl, rfl, rfl, ?_⟩
    rw [undone]
    exact ⟨rfl, rfl⟩

/-- A path with one move, whose earlier layout had none. -/
def oneStride : Session Float :=
  { Session.empty.saved with waypoints := [.move ⟨.drive, ⟨1, 0, 0⟩, defaultSpeed⟩] }

/-- A program that turns to one side and has two moves. -/
def cornered : List Char :=
  "waypoints.add(new Pose2d(0, 0, Rotation2d.fromDegrees(0)));\n".toList ++
    "waypoints.add(new Pose2d(50, 0, Rotation2d.fromDegrees(0)));\n".toList ++
    "waypoints.add(new Pose2d(50, 50, Rotation2d.fromDegrees(90)));\n".toList

/-- The program is taken over and saves both the path with one move and the layout before it. -/
theorem decodeInto_all_or_nothing_cornered :
    let t := ((decodeInto cornered).on oneStride).2
    ((decodeInto cornered).on oneStride).1 = .ok .field ∧ t.moves.length = 2 ∧
      t.mode = .dialect .field ∧ t.history = [oneStride.toLayout, Session.empty.toLayout] ∧
      (Edit.undo.on t).1 = .ok true ∧ (Edit.undo.on t).2.toLayout = oneStride.toLayout := by
  -- for any text and session, so that nothing is decoded again while the theorem is applied
  have commits {text : List Char} {s : Session Float} {n : Nat} {earlier : List (Layout Float)}
      (read : ((decode text s).map fun x => (x.1, x.2.moves.length)).toOption = some (.field, n + 1))
      (before : (s.toLayout :: s.history).take historyLimit = earlier) :
      let t := ((decodeInto text).on s).2
      ((decodeInto text).on s).1 = .ok .field ∧ t.moves.length = n + 1 ∧
        t.mode = .dialect .field ∧ t.history = earlier ∧
        (Edit.undo.on t).1 = .ok true ∧ (Edit.undo.on t).2.toLayout = s.toLayout := by
    obtain ⟨⟨f, refused, -⟩, -⟩ | ⟨d, decoded, -, accepted, result, history, -, waypoints, -, -, mode,
      -, undone⟩ := decodeInto_all_or_nothing s text
    · rw [refused] at read
      cases read
    · rw [accepted] at read
      obtain ⟨rfl, moves⟩ : d = .field ∧ decoded.moves.length = n + 1 := by
        simpa [Except.map, Except.toOption] using read
      have some : decoded.moves.isEmpty = false := by
        rw [List.isEmpty_eq_false_iff, ← List.length_pos_iff, moves]
        exact Nat.succ_pos n
      rw [some] at result
      have kept : ((decodeInto text).on s).2.moves = decoded.moves :=
        congrArg (·.filterMap Waypoint.move?) waypoints
      exact ⟨result, kept ▸ moves, mode, history.trans before, undone⟩
  exact commits (by decide +kernel) rfl

end PathStudio.Program
