import PathStudio.Proofs.Program.Spelling
import PathStudio.Proofs.Scalar.Order
import PathStudio.Proofs.Settings.Reload
import PathStudio.Proofs.Simulation.Magnitude
import PathStudio.Program.Encode
import PathStudio.Session.Arguments
import PathStudio.Simulation.Speeds

/-!
# Settings that are changed by steps

The speed of the simulation and the number of heading samples are changed by adding to them. A real
that is offered is taken if it is positive and finite, and an integer that is offered is read back from
its text. The other options keep their defaults, and the settings can be written.
-/

namespace PathStudio.Settings

open Change Storage Text

/-! ## Integers that are offered -/

/-- An integer is read back from its text, unless it has too many digits. -/
theorem readInteger_integerText {n : Int} (few : digitCount n.natAbs ≤ Decimal.integerDigitLimit)
    (shown : List Char) : Decimal.readInteger (integerText n) shown = .ok n := by
  have spelled := (Program.spells_integerText n).subset
  have digits := digitsOf_subset n.natAbs
  have body : (digitsOf n.natAbs).all isDigit = true :=
    List.all_eq_true.mpr fun c hc => isDigit_of_mem_latinDigits (digits c hc)
  have some : (digitsOf n.natAbs).isEmpty = false := by simpa using digitsOf_ne_nil n.natAbs
  have sign : Decimal.readSign (integerText n) = (decide (n < 0), digitsOf n.natAbs) := by
    rw [integerText]
    by_cases negative : n < 0
    · rw [if_pos negative, decide_eq_true negative]
      rfl
    · rw [if_neg negative, decide_eq_false negative]
      obtain ⟨d, more, h⟩ := List.exists_cons_of_ne_nil (digitsOf_ne_nil n.natAbs)
      rw [h] at digits ⊢
      have minus : d ≠ '-' := by
        rintro rfl
        exact absurd (digits '-' (by simp)) (by decide)
      have plus : d ≠ '+' := by
        rintro rfl
        exact absurd (digits '+' (by simp)) (by decide)
      simp [Decimal.readSign, minus, plus]
  rw [Decimal.readInteger, Program.trimNumber_of_subset spelled,
    Program.dropGrouping?_of_subset spelled]
  dsimp only
  rw [sign]
  dsimp only
  have short : ¬ Decimal.integerDigitLimit < (digitsOf n.natAbs).length := Nat.not_lt.mpr few
  rw [some, body, if_neg (by simp), if_neg short, digitsValue_digitsOf]
  congr 1
  by_cases negative : n < 0
  · rw [decide_eq_true negative, if_pos rfl]
    omega
  · rw [decide_eq_false negative, if_neg Bool.false_ne_true]
    omega

theorem textOf_int (n : Int) : textOf (.int n) = integerText n := by
  have spelled := (Program.spells_integerText n).subset
  have visible : ∀ c ∈ integerText n, isBlank c = false := fun c hc =>
    Program.not_blank_of_mem (spelled c hc)
  exact trim_eq_self (fun c hc => visible c (List.mem_of_mem_head? hc))
    fun c hc => visible c (List.mem_of_mem_getLast? hc)

/-! ## Values -/

/-- Values of which only two may differ from the defaults: the speed of the simulation, which is
positive and finite, and the number of heading samples, which is bounded. -/
structure Values.Stepped (most : Nat) (values : Values) : Prop where
  speed : ∃ x, values "sim" "speed_multiplier" = .real x ∧ 0.0 < x ∧ x.isFinite = true
  samples : ∃ n : Int, values "codegen" "arc_samples" = .int n ∧ 2 ≤ n ∧ n ≤ most
  others : ∀ s ∈ specs, s.key ≠ "speed_multiplier" → s.key ≠ "arc_samples" →
    values s.group s.key = s.default

theorem stepped_defaults : (valuesOf Spec.default).Stepped 5 := by
  refine ⟨⟨1.0, rfl, by decide, by decide⟩, ⟨5, rfl, by decide, by decide⟩, ?_⟩
  exact fun s hs _ _ => valuesOf_spec Spec.default hs

namespace Values.Stepped

variable {values : Values} {most : Nat}

theorem mono (h : values.Stepped most) {more : Nat} (le : most ≤ more) : values.Stepped more := by
  obtain ⟨n, value, least, bound⟩ := h.samples
  exact ⟨h.speed, ⟨n, value, least, by omega⟩, h.others⟩

/-- The value of an option that is never changed. -/
theorem value_eq (h : values.Stepped most) {group key : String} {s : Spec}
    (found : spec? group key = some s) (still : key ≠ "speed_multiplier")
    (still' : key ≠ "arc_samples") :
    values group key = s.default := by
  obtain ⟨hs, rfl, rfl⟩ := of_spec? found
  exact h.others s hs still still'

theorem isLong_eq_false {n : Int} (nonneg : 0 ≤ n) (bound : n ≤ most) (small : most < 2 ^ 60) :
    Json.isLong n = false :=
  Json.isLong_of_lt (by omega)

/-- None of the values is too long to be written. -/
theorem hasLong_eq_false (h : values.Stepped most) (small : most < 2 ^ 60) :
    (settingsOf values).hasLong = false := by
  obtain ⟨x, speed, -, -⟩ := h.speed
  obtain ⟨n, samples, least, bound⟩ := h.samples
  refine hasLong_settingsOf fun s hs => ?_
  by_cases steps : s.key = "speed_multiplier"
  · obtain rfl := List.inj_on_of_nodup_map keys_nodup hs
      (List.mem_of_find?_eq_some (rfl : spec? "sim" "speed_multiplier" = some _)) steps
    rw [speed]
    rfl
  by_cases steps' : s.key = "arc_samples"
  · obtain rfl := List.inj_on_of_nodup_map keys_nodup hs
      (List.mem_of_find?_eq_some (rfl : spec? "codegen" "arc_samples" = some _)) steps'
    rw [samples]
    exact isLong_eq_false (by omega) bound small
  · rw [h.others s hs steps steps']
    exact hasLong_default s hs

/-! ## Steps -/

/-- A speed that is offered is turned down, or the speed becomes it. -/
theorem setOption_speed (h : values.Stepped most) (x : Float) :
    (∃ cause, setOption "sim" "speed_multiplier" (.real x) (settingsOf values) =
      .error (.rejected cause)) ∨
    ∃ after value, Values.Stepped most after ∧
      setOption "sim" "speed_multiplier" (.real x) (settingsOf values) =
        .ok (settingsOf after, value) := by
  obtain turned | ⟨s, value, found, accepted, set⟩ :=
    setOption_settingsOf values "sim" "speed_multiplier" (rfl : (Json.real x).hasLong = false)
  · exact .inl turned
  refine .inr ⟨values.set "sim" "speed_multiplier" value, value, ⟨?_, ?_, ?_⟩, set⟩
  · cases found
    obtain ⟨n, rfl, -⟩ | ⟨y, rfl, positive⟩ := Check.admits_of_accept accepted
    · exact absurd accepted (Check.accept_positive_ne_int n)
    · exact ⟨y, by simp [Values.set], positive⟩
  · simpa [Values.set] using h.samples
  · intro t ht other other'
    simpa [Values.set, other] using h.others t ht other other'

/-- A number of samples that is offered is turned down, or it becomes that number. -/
theorem setOption_samples (h : values.Stepped most) {n : Int} (nonneg : 0 ≤ n) (bound : n ≤ most)
    (small : most < 2 ^ 60) :
    (∃ cause, setOption "codegen" "arc_samples" (.int n) (settingsOf values) =
      .error (.rejected cause)) ∨
    ∃ after value, Values.Stepped most after ∧
      setOption "codegen" "arc_samples" (.int n) (settingsOf values) =
        .ok (settingsOf after, value) := by
  have short : (Json.int n).hasLong = false := isLong_eq_false nonneg bound small
  obtain turned | ⟨s, value, found, accepted, set⟩ :=
    setOption_settingsOf values "codegen" "arc_samples" short
  · exact .inl turned
  refine .inr ⟨values.set "codegen" "arc_samples" value, value, ⟨?_, ?_, ?_⟩, set⟩
  · simpa [Values.set] using h.speed
  · have few : digitCount n.natAbs ≤ Decimal.integerDigitLimit := by
      have short : n.natAbs < 10 ^ (19 + 1) := by omega
      have := digitCount_le short
      rw [Decimal.integerDigitLimit]
      omega
    cases found
    rw [Check.accept, checkCount, textOf_int, readInteger_integerText few] at accepted
    dsimp only at accepted
    split at accepted
    · cases accepted
    next least =>
      cases accepted
      exact ⟨n, by simp [Values.set], Int.not_lt.mp least, bound⟩
  · intro t ht other other'
    simpa [Values.set, other'] using h.others t ht other other'

/-! ## What is asked of the settings -/

end Values.Stepped

@[simp] theorem orEmpty_settingsOf (values : Values) : orEmpty (settingsOf values) = settingsOf values :=
  rfl

/-- The value of an option in the view of its group. -/
theorem exists_flat (values : Values) (group key : String) {s : Spec}
    (found : spec? group key = some s) :
    ∃ view, flat group (settingsOf values) = .ok view ∧ valueOf key view = values group key := by
  obtain ⟨hs, rfl, rfl⟩ := of_spec? found
  obtain ⟨view, flattened, value⟩ := flat_settingsOf values (group_mem hs)
  exact ⟨view, flattened, value _ (key_mem hs)⟩

namespace Values.Stepped

variable {values : Values} {most : Nat}

theorem sound_speedsOf (h : values.Stepped most) :
    ∃ speeds, Simulation.speedsOf (settingsOf values) = .ok speeds ∧ speeds.Sound := by
  obtain ⟨view, flattened, value⟩ := flat_settingsOf values (by decide : "sim" ∈ groups)
  obtain ⟨x, speed, positive, finite⟩ := h.speed
  obtain ⟨v, hv, above⟩ := exists_hasValue_of_pos positive finite
  have drive := h.value_eq (rfl : spec? "sim" "drive_speed_mps" = some _) (by decide) (by decide)
  have turn := h.value_eq (rfl : spec? "sim" "turn_speed_dps" = some _) (by decide) (by decide)
  refine ⟨⟨(values "sim" "speed_multiplier").toReal, (values "sim" "drive_speed_mps").toReal,
    (values "sim" "turn_speed_dps").toReal⟩, ?_, ⟨⟨0.8, ?_, ?_⟩, ⟨120.0, ?_, ?_⟩, x, v, ?_, hv, above⟩⟩
  · rw [Simulation.speedsOf, orEmpty_settingsOf, flattened, ok_bind,
      value "speed_multiplier" (by decide), value "drive_speed_mps" (by decide),
      value "turn_speed_dps" (by decide)]
    rfl
  · rw [drive]
    rfl
  · exact ⟨by decide, by decide⟩
  · rw [turn]
    rfl
  · exact ⟨by decide, by decide⟩
  · rw [speed]
    rfl

theorem incrementOf_eq (h : values.Stepped most) :
    Simulation.incrementOf (settingsOf values) = .ok 16.0 := by
  obtain ⟨view, flattened, value⟩ :=
    exists_flat values "sim" "step_ms" rfl
  rw [Simulation.incrementOf, orEmpty_settingsOf, flattened, ok_bind, value,
    h.value_eq rfl (by decide) (by decide)]
  exact eq_ok_of_toOption (by decide)

theorem exists_samplesOf (h : values.Stepped most) :
    ∃ n : Int, Program.samplesOf (settingsOf values) = .ok (.ok n) ∧ 2 ≤ n ∧ n ≤ (most : Int) := by
  obtain ⟨view, flattened, value⟩ :=
    exists_flat values "codegen" "arc_samples" rfl
  obtain ⟨n, samples, bounds⟩ := h.samples
  refine ⟨n, ?_, bounds⟩
  rw [Program.samplesOf, orEmpty_settingsOf, flattened, ok_bind, value, samples]
  rfl

end Values.Stepped

end PathStudio.Settings
