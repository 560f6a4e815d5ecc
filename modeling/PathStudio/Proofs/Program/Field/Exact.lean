import PathStudio.Proofs.Program.Amount
import PathStudio.Proofs.Program.Field.RoundTrip

/-!
# Field-oriented programs in exact arithmetic

Over the real numbers a pose is read back within half a millimetre and half a
degree of where it was, since its centimetres have one decimal and its degrees
none.
-/

namespace PathStudio.Program.Field

open Exact

theorem hasNumbers_real (p : Pose ℝ) : HasNumbers p := by
  constructor <;> exact Magnitude.noConfusion

theorem percentage_real (done total : Nat) :
    (percentage done total : ℝ) = (done : ℝ) / (total : ℝ) * 100 := by
  rw [percentage]
  split
  next none =>
    show ((0 : Int) : ℝ) = _
    simp [none]
  next => rfl

/-- In exact arithmetic a percentage with one decimal finds its move back. -/
theorem slotsFit_real {total : Nat} (ht : total ≤ 1000) : SlotsFit ℝ total := by
  intro done hd
  obtain ⟨count, units, near⟩ := unitsHalfUp_eq (percentage done total) 1
  have natural : (0 : ℝ) ≤ total := Nat.cast_nonneg total
  have positive : (0 : ℝ) ≤ (done : ℝ) / (total : ℝ) * 100 := by positivity
  have exact : (done : ℝ) / (total : ℝ) * 100 * total = 100 * done := by
    obtain rfl | some := Nat.eq_zero_or_pos total
    · obtain rfl := Nat.le_zero.mp hd
      simp
    · have : (total : ℝ) ≠ 0 := by exact_mod_cast some.ne'
      field_simp
  rw [percentage_real, abs_of_nonneg positive, pow_one, abs_le] at near
  have scaledUp := mul_le_mul_of_nonneg_right near.2 natural
  have scaledDown := mul_le_mul_of_nonneg_right near.1 natural
  have upper : 2 * (count * total) ≤ 2000 * done + total := by
    have : (2 * (count * total) : ℝ) ≤ 2000 * done + total := by linarith
    exact_mod_cast this
  have lower : 2000 * done ≤ 2 * (count * total) + total := by
    have : (2000 * done : ℝ) ≤ 2 * (count * total) + total := by linarith
    exact_mod_cast this
  obtain ⟨above, below⟩ := nearest_move ht upper lower
  have above' : (10 * (count * total) : ℝ) ≤ 10000 * done + 4995 := by exact_mod_cast above
  have below' : (10000 * done : ℝ) ≤ 10 * (count * total) + 4995 := by exact_mod_cast below
  have whole : ⌊(1 : ℝ) * (count * 10 ^ (-1 : Int)) / 100 * total + 1 * (5 * 10 ^ (-1 : Int))⌋ =
      (done : Int) := by
    rw [Int.floor_eq_iff]
    norm_num
    constructor <;> linarith
  have sign : Scalar.lt (percentage done total : ℝ) (Scalar.ofInt 0) = false := by
    have notBelow : ¬ (percentage done total : ℝ) < ((0 : Int) : ℝ) := by
      rw [percentage_real, Int.cast_zero]
      exact not_lt.mpr positive
    exact decide_eq_false notBelow
  have chosen : (min (done : Int) total).toNat = done := by omega
  refine ⟨count, units, sign, ?_⟩
  calc slot (ν := ℝ) ⟨false, count, 1⟩ total
      = .ok (min ⌊(1 : ℝ) * (count * 10 ^ (-1 : Int)) / 100 * total + 1 * (5 * 10 ^ (-1 : Int))⌋
          total).toNat := rfl
    _ = .ok done := by rw [whole, chosen]

/-! ## How near a pose is read back -/

/-- An amount with one decimal is at most half a tenth away. -/
theorem abs_amount_sub_le {v : ℝ} {text : List Char} {X : ℝ} (h : amount v 1 = .ok text)
    (hX : numeral? text = some X) : |X - v| ≤ 1 / 20 := by
  have read := numeral?_amount 1 (by decide) (by decide) h
  obtain rfl := Option.some.inj (hX.symm.trans read)
  have near := abs_rounded_sub_le v 1
  norm_num at near ⊢
  exact near

/-- A pose is read back within half a millimetre, and within half a degree. -/
theorem abs_sub_le_of_rereadsPose {p q : Pose ℝ} (h : RereadsPose p q) :
    |q.x - p.x| ≤ 5 / 10000 ∧ |q.y - p.y| ≤ 5 / 10000 ∧ |q.h - p.h| ≤ 1 / 2 * (Real.pi / 180) := by
  obtain ⟨x, y, heading, X, Y, D, hx, hy, hh, readX, readY, readD, rfl⟩ := h
  have nearX : |X - p.x * ((100 : Int) : ℝ)| ≤ 1 / 20 := abs_amount_sub_le hx readX
  have nearY : |Y - p.y * ((100 : Int) : ℝ)| ≤ 1 / 20 := abs_amount_sub_le hy readY
  have degrees : ⌊-p.h * ((180 : Int) : ℝ) / Real.pi + 1 * ((5 : Nat) * 10 ^ (-1 : Int))⌋ = heading :=
    Except.ok.inj hh
  rw [Int.floor_eq_iff] at degrees
  rw [numeral?_integerText readD]
  push_cast at nearX nearY degrees
  norm_num at degrees
  show |X / ((100 : Int) : ℝ) - p.x| ≤ _ ∧ |Y / ((100 : Int) : ℝ) - p.y| ≤ _ ∧
    |-(heading : ℝ) * Real.pi / ((180 : Int) : ℝ) - p.h| ≤ _
  push_cast
  rw [abs_le] at nearX nearY
  refine ⟨abs_le.mpr ⟨by linarith, by linarith⟩, abs_le.mpr ⟨by linarith, by linarith⟩, ?_⟩
  have turn : (0 : ℝ) < Real.pi / 180 := by positivity
  have shape : -(heading : ℝ) * Real.pi / 180 - p.h =
      (-(p.h * 180) / Real.pi - heading) * (Real.pi / 180) := by
    have nonzero : Real.pi ≠ 0 := Real.pi_ne_zero
    field_simp
    ring
  rw [shape, abs_mul, abs_of_pos turn]
  refine mul_le_mul_of_nonneg_right ?_ turn.le
  rw [abs_le]
  constructor <;> linarith

/-! ## The round trip -/

theorem hasNumbers_of_finitePosition {p : Pose Float} (h : FinitePosition p) : HasNumbers p := by
  have numbers : ∀ {v : Float}, v.isFinite = true →
      Scalar.unitsHalfUp (v * Double.ofInt 100) 1 ≠ .notANumber := by
    intro v hv
    obtain ⟨u, hu⟩ := Double.hasValue_of_isFinite hv
    exact Double.unitsHalfUp_ne_notANumber (Binary.ofFloat_mul_ne_notANumber hu hasValue_hundred)
  exact ⟨numbers h.1, numbers h.2⟩

/-- A session with finite coordinates and up to a thousand moves, printed as a field-oriented
program, is read back, on top of any earlier session, as its moves and calls in their order: the
poses are those of the printed numbers, and the start as well unless there are no moves or it is the
origin. In exact arithmetic these poses are within half a millimetre and half a degree. -/
theorem read_print_round_trip :
    (∀ (s prior : Session Float) (text : List Char), FinitePosition s.start →
      (∀ m ∈ s.moves, FinitePosition m.pose) → s.moves.length ≤ 1000 → s.CallsCarry Callable →
      print s.toLayout = .ok text →
        ∃ decoded, read text prior = .ok decoded ∧ RereadAs s.toLayout prior decoded) ∧
    (∀ (s prior : Session ℝ) (text : List Char), s.moves.length ≤ 1000 → s.CallsCarry Callable →
      print s.toLayout = .ok text →
        ∃ decoded, read text prior = .ok decoded ∧ RereadAs s.toLayout prior decoded) ∧
    (∀ p q : Pose ℝ, RereadsPose p q → |q.x - p.x| ≤ 5 / 10000 ∧ |q.y - p.y| ≤ 5 / 10000 ∧
      |q.h - p.h| ≤ 1 / 2 * (Real.pi / 180)) := by
  refine ⟨?_, ?_, fun p q => abs_sub_le_of_rereadsPose⟩
  · intro s prior text start moves short calls printed
    exact exists_rereadAs (hasNumbers_of_finitePosition start)
      (fun m hm => hasNumbers_of_finitePosition (moves m hm)) (slotsFit_double short) calls printed
      prior
  · intro s prior text short calls printed
    exact exists_rereadAs (hasNumbers_real _) (fun m _ => hasNumbers_real _) (slotsFit_real short)
      calls printed prior

/-- A path with a call before and behind its only move. -/
def exampleSession : Session Float :=
  { start := ⟨0.5, 0.25, 0.0⟩
    waypoints := [.action ⟨⟨0.5, 0.25, 0.0⟩, 1⟩, .move ⟨.drive, ⟨1.0, -2.0, 0.5⟩, 0.8⟩,
      .action ⟨⟨1.0, -2.0, 0.0⟩, 2⟩]
    markers := [⟨1, 0.5, 0.25, "raise", "3, true"⟩, ⟨2, 1.0, -2.0, "drop", ""⟩]
    selection := none
    mode := .dialect .field
    nextMarkerId := 3
    past := .empty }

theorem callable_example : Callable "raise".toList "3, true".toList ∧ Callable "drop".toList [] :=
  ⟨⟨by decide, by decide, by decide, by decide, by decide, by decide, by decide⟩,
    ⟨by decide, by decide, by decide, by decide, by decide, by decide, by decide⟩⟩

theorem callsCarry_example : exampleSession.CallsCarry Callable := by
  intro name args h
  have entries : exampleSession.toLayout.entries =
      [.call "raise" "3, true", .move ⟨.drive, ⟨1.0, -2.0, 0.5⟩, 0.8⟩, .call "drop" ""] := rfl
  rw [entries] at h
  simp only [List.mem_cons, Entry.call.injEq, List.not_mem_nil, or_false, reduceCtorEq, false_or] at h
  obtain ⟨rfl, rfl⟩ | ⟨rfl, rfl⟩ := h
  · exact callable_example.1
  · exact callable_example.2

theorem exists_print_example : ∃ text, print exampleSession.toLayout = .ok text :=
  exists_of_isSome_toOption (by decide +kernel)

/-- The path without waypoints at the origin, in exact arithmetic. -/
noncomputable def emptySession : Session ℝ := Session.empty

theorem print_emptySession : ∃ text, print emptySession.toLayout = .ok text := by
  have units : Scalar.unitsHalfUp (((0 : Int) : ℝ) * ((100 : Int) : ℝ)) 1 = .units 0 := by
    show Magnitude.units ⌊|((0 : Int) : ℝ) * ((100 : Int) : ℝ)| * 10 ^ (1 : Int) + 1 / 2⌋₊ = .units 0
    norm_num
  have sign : Scalar.lt (((0 : Int) : ℝ) * ((100 : Int) : ℝ)) ((0 : Int) : ℝ) = false :=
    decide_eq_false (by norm_num)
  have zero : centimetres ((0 : Int) : ℝ) = .ok "0.0".toList := by
    have digits : Decimal.amount? false 0 1 = some "0.0".toList := by decide +kernel
    exact amount_eq_ok (by decide) (by decide) units (sign.symm ▸ digits)
  have level : programHeading ((0 : Int) : ℝ) = .ok 0 := by
    show Except.ok ⌊-((0 : Int) : ℝ) * ((180 : Int) : ℝ) / Real.pi
      + 1 * ((5 : Nat) * 10 ^ (-1 : Int))⌋ = .ok 0
    norm_num
  obtain ⟨line, hline⟩ : ∃ line, poseLine emptySession.start = .ok line := by
    have start : emptySession.start = ⟨((0 : Int) : ℝ), ((0 : Int) : ℝ), ((0 : Int) : ℝ)⟩ := rfl
    rw [start, poseLine]
    simp only [zero, level, ok_bind]
    exact ⟨_, rfl⟩
  have steps : print emptySession.toLayout = poseLine emptySession.start >>= fun line =>
      .ok (Text.unlines (opening ++ line :: [] :: [] ++ middle
        ++ ["    return new ArrayList<>();".toList, "\x7d".toList])) := rfl
  exact ⟨_, by rw [steps, hline, ok_bind]⟩

theorem read_print_round_trip_example :
    (∃ text decoded, print exampleSession.toLayout = .ok text ∧
      read text (Session.empty : Session Float) = .ok decoded ∧
      RereadAs exampleSession.toLayout Session.empty decoded) ∧
    (∃ text decoded, print emptySession.toLayout = .ok text ∧
      read text emptySession = .ok decoded ∧
      RereadAs emptySession.toLayout emptySession decoded ∧
      ∃ q, RereadsPose emptySession.start q ∧ |q.x - emptySession.start.x| ≤ 5 / 10000) := by
  constructor
  · obtain ⟨text, printed⟩ := exists_print_example
    obtain ⟨decoded, run, reread⟩ := read_print_round_trip.1 exampleSession Session.empty text
      (by decide) (by decide) (by decide) callsCarry_example printed
    exact ⟨text, decoded, printed, run, reread⟩
  · obtain ⟨text, printed⟩ := print_emptySession
    have calls : emptySession.CallsCarry Callable := by
      intro name args h
      cases h
    obtain ⟨decoded, run, reread⟩ := read_print_round_trip.2.1 emptySession emptySession text
      (Nat.zero_le _) calls printed
    obtain ⟨q, hq, -⟩ := reread.start
    exact ⟨text, decoded, printed, run, reread, q, hq, (read_print_round_trip.2.2 _ q hq).1⟩

end PathStudio.Program.Field
