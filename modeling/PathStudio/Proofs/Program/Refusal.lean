import PathStudio.Proofs.Program.Adoption
import PathStudio.Proofs.Scalar.Double

/-!
# The refusals of decoding

A text is refused because its dialect is unknown, because one of its numbers
cannot be worked with, or because it has no moves, with a single exception: a
percentage so large that the place it points at is infinite has no whole part,
and that refusal is handed on as it is.
-/

namespace PathStudio

namespace Program

open Scalar Text

namespace Field

/-- The percentages of the markers that stand for an action, as they follow in the text. -/
def actionPercents (text : List Char) : List WrittenNumber :=
  ((searchAll readMarker text).filter fun m => (bodyAction? m.2).isSome).map (·.1)

/-- The number of moves of a text: all its poses but the first. -/
def moveCount (text : List Char) : Nat := (searchAll readPose text).tail.length

section

variable {ν : Type} [Add ν] [Sub ν] [Mul ν] [Div ν] [Neg ν] [Scalar ν]

/-- The place among the moves that a percentage points at, and a half to round it by. -/
def reach (percent : WrittenNumber) (moves : Nat) : ν := percent.value / 100 * ofInt moves + 0.5

theorem slot_eq_error {percent : WrittenNumber} {moves : Nat} {f : Fault} :
    slot (ν := ν) percent moves = .error f ↔ floor (reach percent moves : ν) = .error f := by
  rw [slot, bind_eq_error]
  constructor
  · rintro (h | ⟨k, -, ⟨⟩⟩)
    exact h
  · exact .inl

theorem exists_slot_iff {percent : WrittenNumber} {moves : Nat} :
    (∃ k, slot (ν := ν) percent moves = .ok k) ↔ ∃ i, floor (reach percent moves : ν) = .ok i := by
  constructor
  · rintro ⟨k, h⟩
    obtain ⟨i, hi, -⟩ := bind_eq_ok.mp h
    exact ⟨i, hi⟩
  · rintro ⟨i, hi⟩
    exact ⟨(min i moves).toNat, bind_eq_ok.mpr ⟨i, hi, rfl⟩⟩

/-- The markers are refused as the percentages of their actions are. -/
theorem foldlM_addMarker_eq_error {start : Pose ν} {moves : List (Pose ν)} {f : Fault}
    {written : List (WrittenNumber × List Char)} {slots : Slots ν} :
    written.foldlM (addMarker start moves) slots = .error f ↔
      ((written.filter fun m => (bodyAction? m.2).isSome).map (·.1)).mapM
        (fun percent => slot (ν := ν) percent moves.length) = .error f := by
  induction written generalizing slots with
  | nil => exact iff_of_false (by rintro ⟨⟩) (by rintro ⟨⟩)
  | cons m written ih =>
    rw [List.foldlM_cons, addMarker]
    split
    next silent =>
      rw [List.filter_cons_of_neg (by simp [silent])]
      exact ih
    next name args action =>
      rw [List.filter_cons_of_pos (by simp [action]), List.map_cons, List.mapM_cons]
      cases slot (ν := ν) m.1 moves.length with
      | error cause => simp [bind, Except.bind]
      | ok k =>
        refine ih.trans ?_
        rw [ok_bind, bind_eq_error]
        refine ⟨Or.inl, ?_⟩
        rintro (failed | ⟨ks, -, ⟨⟩⟩)
        exact failed

theorem read_eq_error {text : List Char} {prior : Session ν} {f : Fault} :
    read text prior = .error f ↔
      (actionPercents text).mapM (fun percent => slot (ν := ν) percent (moveCount text)) =
        .error f := by
  have count : ((searchAll readPose text).map (WrittenPose.pose (ν := ν))).tail.length =
      moveCount text := by
    rw [← List.map_tail, List.length_map, moveCount]
  rw [read, bind_eq_error, foldlM_addMarker_eq_error, count, actionPercents]
  constructor
  · rintro (h | ⟨slots, -, ⟨⟩⟩)
    exact h
  · exact .inl

end

/-- The place among the moves of a text that a percentage points at, as a double. -/
abbrev placeIn (text : List Char) (percent : WrittenNumber) : Float :=
  reach percent (moveCount text)

/-- Some percentage of an action points at an infinite place, and those before it at finite ones. -/
def LeadsToInfinity (text : List Char) : Prop :=
  ∃ before percent after, actionPercents text = before ++ percent :: after ∧
    (∀ p ∈ before, (placeIn text p).isFinite = true) ∧ (placeIn text percent).isInf = true

theorem read_eq_infiniteInteger {text : List Char} {prior : Session Float} :
    read text prior = .error .infiniteInteger ↔ LeadsToInfinity text := by
  have finite (p : WrittenNumber) :
      (∃ k, slot (ν := Float) p (moveCount text) = .ok k) ↔ (placeIn text p).isFinite = true :=
    exists_slot_iff.trans Double.exists_floor_iff
  have infinite (p : WrittenNumber) :
      slot (ν := Float) p (moveCount text) = .error .infiniteInteger ↔
        (placeIn text p).isInf = true :=
    slot_eq_error.trans Double.floor_eq_infiniteInteger
  simp only [read_eq_error, mapM_eq_error, finite, infinite, LeadsToInfinity]

end Field

/-- Readers of robot-oriented programs only take sines and cosines. -/
theorem Robot.read_ne_infiniteInteger (text : List Char) (prior : Session Float) :
    Robot.read text prior ≠ .error .infiniteInteger := by
  have domain (f : Float → Float) (x : Float) :
      FailsOnly (· = .outsideDomain) (Double.refuseInfinite f x) := by
    unfold Double.refuseInfinite
    split
    · exact FailsOnly.error rfl
    · exact FailsOnly.ok _
  intro h
  cases Robot.failsOnly_read (domain _) (domain _) text prior _ h

/-- The families of the refusals that decoding announces. -/
def IsRefusal (f : Fault) : Prop :=
  f.family = .unrecognized ∨ f.family = .undecodable ∨ f.family = .noWaypoints

instance (f : Fault) : Decidable (IsRefusal f) :=
  inferInstanceAs (Decidable (f.family = .unrecognized ∨ f.family = .undecodable ∨
    f.family = .noWaypoints))

theorem failsOnly_sniff (text : List Char) : FailsOnly IsRefusal (sniff text) := by
  unfold sniff
  split
  · exact FailsOnly.error (by decide)
  split
  · exact FailsOnly.ok _
  split
  · exact FailsOnly.ok _
  · exact FailsOnly.error (by decide)

theorem decode_eq_infiniteInteger {text : List Char} {prior : Session Float} :
    decode text prior = .error .infiniteInteger ↔
      sniff text = .ok .field ∧ Field.read text prior = .error .infiniteInteger := by
  rw [decode, bind_eq_error]
  constructor
  · rintro (h | ⟨d, sniffed, h⟩)
    · exact absurd (failsOnly_sniff text _ h) (by decide)
    · split at h
      · cases h
      next f failed =>
        split at h
        · cases h
        · cases h
          cases d with
          | field => exact ⟨sniffed, failed⟩
          | robot => exact absurd failed (Robot.read_ne_infiniteInteger text prior)
  · rintro ⟨sniffed, failed⟩
    refine .inr ⟨.field, sniffed, ?_⟩
    have failed : read .field text prior = .error .infiniteInteger := failed
    rw [failed]
    rfl

/-- What else arithmetic refuses is put down to the text. -/
theorem failsOnly_decode_refusal (text : List Char) (prior : Session Float) :
    FailsOnly (fun f => IsRefusal f ∨ f = .infiniteInteger) (decode text prior) := by
  refine FailsOnly.bind (fun f h => .inl (failsOnly_sniff text f h)) fun d => ?_
  split
  · exact FailsOnly.ok _
  next f failed =>
    split
    · exact FailsOnly.error (.inl (.inr (.inl rfl)))
    next blameless =>
      obtain rfl | rfl | rfl := failsOnly_read d text prior f failed
      · exact absurd rfl blameless
      · exact FailsOnly.error (.inr rfl)
      · exact absurd rfl blameless

/-- Decoding into a session is refused in one of the announced ways, or else it hands on the
refusal of an infinite integer and leaves the session alone. It does the latter just for the
field-oriented texts in which the first percentage of an action that points at no finite place
points at an infinite one. -/
theorem decodeInto_refused_as_announced_or_at_infinity (s : Session Float) (text : List Char) :
    let (r, t) := (decodeInto text).on s
    (∀ f, r = .error f → IsRefusal f ∨ f = .infiniteInteger ∧ t = s) ∧
      (r = .error .infiniteInteger ↔ sniff text = .ok .field ∧ Field.LeadsToInfinity text) := by
  have infinite : decode text s = .error .infiniteInteger ↔
      sniff text = .ok .field ∧ Field.LeadsToInfinity text := by
    rw [decode_eq_infiniteInteger, Field.read_eq_infiniteInteger]
  cases h : decode text s with
  | error f =>
    rw [on_decodeInto_of_error h]
    rw [h, Except.error.injEq] at infinite
    refine ⟨?_, (Except.error.injEq ..).to_iff.trans infinite⟩
    rintro _ ⟨⟩
    obtain refusal | escaped := failsOnly_decode_refusal text s f h
    · exact .inl refusal
    · exact .inr ⟨escaped, rfl⟩
  | ok found =>
    obtain ⟨d, decoded⟩ := found
    rw [on_decodeInto_of_ok h]
    rw [h] at infinite
    dsimp only
    split
    · refine ⟨?_, iff_of_false (by rintro ⟨⟩) fun led => by cases infinite.mpr led⟩
      rintro _ ⟨⟩
      exact .inl (.inr (.inr rfl))
    · refine ⟨by rintro _ ⟨⟩, iff_of_false (by rintro ⟨⟩) fun led => by cases infinite.mpr led⟩

/-- A marker at a percentage of four hundred digits, on the way between two poses. -/
def farMarker : List Char :=
  "waypoints.add(new Pose2d(0, 0, Rotation2d.fromDegrees(0)));\n".toList ++
    "waypoints.add(new Pose2d(100, 0, Rotation2d.fromDegrees(0)));\n".toList ++
    "markers.add(new PathMarker(1".toList ++ List.replicate 400 '0' ++
    ", () -> \x7b\nfoo();\n\x7d));\n".toList

/-- Decoding the far marker is refused in none of the announced ways. -/
theorem decodeInto_farMarker_unannounced :
    ((decodeInto farMarker).on (Session.empty : Session Float)).1 = .error .infiniteInteger ∧
      ¬ IsRefusal .infiniteInteger := by
  constructor
  · decide +kernel
  · decide

end Program

end PathStudio
