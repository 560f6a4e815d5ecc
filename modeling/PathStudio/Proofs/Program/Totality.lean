import PathStudio.Proofs.Program.Spelling
import PathStudio.Proofs.Geometry.Magnitude
import PathStudio.Program.Encode

/-!
# Programs that can be written

An amount is written if it is not too large, and whole degrees are found if an angle is bounded. So a
path with bounded numbers can be written as a program of either dialect.
-/

namespace PathStudio.Program

open Text Double Binary Scalar

variable {trig : Trigonometry} {N : Nat}

/-- A bounded amount has few enough digits. -/
theorem exists_amount_of_bounded (trig : Trigonometry) {places : Nat} (few : places ≤ 6) {x : Float}
    (h : Bounded N x) (small : N ≤ 70) :
    letI := trig.scalar
    ∃ text, amount x places = .ok text := by
  let := trig.scalar
  obtain ⟨v, hv, bound⟩ := h
  obtain ⟨count, counted, near⟩ := unitsHalfUp_eq hv places
  have size : |v| ≤ 2 ^ 70 := bound.trans (pow_le_pow_right₀ (by norm_num) small)
  have power : (10 : ℚ) ^ places ≤ 10 ^ 6 := pow_le_pow_right₀ (by norm_num) few
  have scaled : |v| * 10 ^ places ≤ 2 ^ 70 * 10 ^ 6 :=
    mul_le_mul size power (by positivity) (by positivity)
  have short : count < powerOfTen Decimal.digitLimit := by
    have below : (count : ℚ) < (10 ^ 28 : Nat) := by
      push_cast
      linarith [(abs_le.mp near).2]
    exact_mod_cast below
  rw [amount_of_units few counted rfl, Decimal.amount?, if_neg (Nat.not_le.mpr short)]
  exact ⟨_, rfl⟩

theorem exists_roundHalfUp (trig : Trigonometry) {x : Float} (h : Bounded N x) (small : N ≤ 900) :
    letI := trig.scalar
    ∃ k, roundHalfUp x = .ok k := by
  have half : Bounded 0 (Double.ofDecimal false 5 (-1)) := bounded_tenths (by decide)
  obtain ⟨k, found, -⟩ := (h.add half (by omega)).exists_floor
  exact ⟨k, found⟩

theorem exists_programHeading (trig : Trigonometry) {h : Float} (bounded : Bounded N h)
    (small : N ≤ 800) :
    letI := trig.scalar
    ∃ k, programHeading h = .ok k :=
  exists_roundHalfUp trig (bounded_toDegrees trig bounded.neg (by omega)) (by omega)

/-! ## Robot-oriented programs -/

namespace Robot

theorem exists_innerSample_of_bounded (lawful : trig.Lawful) {p c q : Point Float} (hp : p.Bounded N)
    (hc : c.Bounded N) (hq : q.Bounded N) (small : N ≤ 900) {samples sample : Nat}
    (among : sample ≤ samples) (some : 0 < samples) (few : samples < 2 ^ 53) :
    letI := trig.scalar
    ∃ line, innerSample p c q samples sample = .ok line := by
  let := trig.scalar
  have part := bounded_parameter trig among some few
  obtain ⟨shown, hshown⟩ := exists_amount_of_bounded trig (by decide : 2 ≤ 6) part (by decide)
  obtain ⟨degrees, hdegrees⟩ :=
    exists_roundHalfUp trig (bounded_tangent lawful part hp hc hq small) (by decide)
  exact ⟨_, bind_eq_ok.mpr ⟨shown, hshown, bind_eq_ok.mpr ⟨degrees, hdegrees, rfl⟩⟩⟩

theorem exists_arcLines_of_bounded (lawful : trig.Lawful) {start control : Point Float}
    {m : Move Float} (hstart : start.Bounded N) (hcontrol : control.Bounded N) (hm : m.Bounded N)
    (small : N ≤ 33) {samples : Int} (least : 0 < samples) (few : samples < 2 ^ 53) :
    letI := trig.scalar
    ∃ lines, arcLines start control m (.ok samples) = .ok lines := by
  let := trig.scalar
  obtain ⟨length, hlength⟩ := exists_amount_of_bounded trig (by decide : 2 ≤ 6)
    (bounded_length trig hstart hcontrol hm.pose.point (by omega)) (by omega)
  obtain ⟨speed, hspeed⟩ :=
    exists_amount_of_bounded trig (by decide : 2 ≤ 6) hm.speed (by omega)
  have sampled : ∀ sample ∈ List.range' 1 (samples.toNat - 1),
      ∃ line, innerSample start control m.point samples.toNat sample = .ok line := by
    intro sample among
    rw [List.mem_range'_1] at among
    exact exists_innerSample_of_bounded lawful hstart hcontrol hm.pose.point (by omega) (by omega)
      (by omega) (by omega)
  obtain ⟨inner, hinner⟩ := exists_mapM sampled
  obtain ⟨final, hfinal⟩ := exists_programHeading trig hm.pose.h (by omega)
  exact ⟨_, bind_eq_ok.mpr ⟨length, hlength, bind_eq_ok.mpr ⟨speed, hspeed, bind_eq_ok.mpr
    ⟨samples, rfl, bind_eq_ok.mpr ⟨inner, hinner, bind_eq_ok.mpr ⟨final, hfinal, rfl⟩⟩⟩⟩⟩⟩

theorem exists_stillLines (trig : Trigonometry) {m : Move Float} (hm : m.Bounded N)
    (small : N ≤ 800) :
    letI := trig.scalar
    ∃ lines, stillLines m = .ok lines := by
  let := trig.scalar
  rw [stillLines]
  split
  · obtain ⟨heading, hheading⟩ := exists_programHeading trig hm.pose.h small
    exact ⟨_, bind_eq_ok.mpr ⟨heading, hheading, rfl⟩⟩
  · exact ⟨[], rfl⟩

theorem exists_arrivalLines (trig : Trigonometry) {m : Move Float} (hm : m.Bounded N)
    {bearing : Float} (hbearing : Bounded 12 bearing) (small : N ≤ 800) :
    letI := trig.scalar
    ∃ lines, arrivalLines m bearing = .ok lines := by
  let := trig.scalar
  have heading := bounded_toDegrees trig hm.pose.h.neg (by omega)
  obtain ⟨turn, hturn, -⟩ := exists_bounded_normalizeDegrees trig (heading.sub hbearing (by omega))
  obtain ⟨degrees, hdegrees⟩ := exists_roundHalfUp trig heading (by omega)
  rw [arrivalLines]
  split
  · dsimp only
    rw [hturn, ok_bind]
    split
    · exact ⟨_, by rw [hdegrees]; rfl⟩
    · exact ⟨[], rfl⟩
  · exact ⟨[], rfl⟩

theorem exists_moveLines_of_bounded (circular : trig.Circular) {start : Point Float} {m : Move Float}
    (hstart : start.Bounded N) (hm : m.Bounded N) (small : N ≤ 24) {samples : Int}
    (least : 0 < samples) (few : samples < 2 ^ 53) :
    letI := trig.scalar
    ∃ lines, moveLines (.ok samples) start m = .ok lines := by
  let := trig.scalar
  have bearing := bounded_bearing circular.toLawful hstart hm.pose.point (by omega)
  obtain ⟨degrees, (hdegrees : roundHalfUp (Point.bearing start m.point) = _)⟩ :=
    exists_roundHalfUp trig bearing (by decide)
  obtain ⟨distance, hdistance⟩ := exists_amount_of_bounded trig (by decide : 2 ≤ 6)
    (bounded_distance trig hstart hm.pose.point (by omega)) (by omega)
  obtain ⟨arrival, harrival⟩ := exists_arrivalLines trig hm bearing (by omega)
  rw [moveLines]
  dsimp only
  split
  · exact exists_stillLines trig hm (by omega)
  rw [hdegrees, ok_bind]
  cases motion : m.motion with
  | arc own =>
    have drawn {control : Point Float} (hcontrol : control.Bounded (N + 9)) :
        ∃ lines, arcLines start control m (.ok samples) = .ok lines :=
      exists_arcLines_of_bounded circular.toLawful (hstart.mono (by omega)) hcontrol
        (hm.mono (by omega)) (by omega) least few
    cases own with
    | some c => exact drawn ((hm.control c motion).mono (by omega))
    | none =>
      obtain ⟨control, found, hcontrol⟩ :=
        exists_defaultControl circular hstart hm.pose.point (by omega)
      obtain ⟨lines, hlines⟩ := drawn hcontrol
      exact ⟨lines, bind_eq_ok.mpr ⟨control, found, hlines⟩⟩
  | strafe => exact ⟨_, bind_eq_ok.mpr ⟨distance, hdistance, bind_eq_ok.mpr ⟨arrival, harrival, rfl⟩⟩⟩
  | drive => exact ⟨_, bind_eq_ok.mpr ⟨distance, hdistance, bind_eq_ok.mpr ⟨arrival, harrival, rfl⟩⟩⟩

theorem exists_waypointLines (circular : trig.Circular) {l : Layout Float} {start : Point Float}
    {ws : List (Waypoint Float)} (hstart : start.Bounded N) (hws : ∀ w ∈ ws, w.Bounded N)
    (small : N ≤ 24) {samples : Int} (least : 0 < samples) (few : samples < 2 ^ 53) :
    letI := trig.scalar
    ∃ lines, waypointLines l (.ok samples) start ws = .ok lines := by
  let := trig.scalar
  induction ws generalizing start with
  | nil => exact ⟨[], rfl⟩
  | cons w rest ih =>
    obtain ⟨first, others⟩ := List.forall_mem_cons.mp hws
    cases w with
    | move m =>
      obtain ⟨lines, hlines⟩ := exists_moveLines_of_bounded circular hstart first small least few
      obtain ⟨more, hmore⟩ := ih first.pose.point others
      exact ⟨lines ++ more, bind_eq_ok.mpr ⟨lines, hlines, bind_eq_ok.mpr ⟨more, hmore, rfl⟩⟩⟩
    | action a =>
      obtain ⟨more, hmore⟩ := ih hstart others
      rw [waypointLines]
      cases l.marker? a.markerId with
      | none => exact ⟨more, bind_eq_ok.mpr ⟨more, hmore, rfl⟩⟩
      | some m => exact ⟨actionLines m ++ more, bind_eq_ok.mpr ⟨more, hmore, rfl⟩⟩

/-- A path with bounded numbers can be written as a robot-oriented program. -/
theorem exists_print_of_bounded (circular : trig.Circular) {l : Layout Float} (h : l.Bounded N)
    (small : N ≤ 24) {samples : Int} (least : 0 < samples) (few : samples < 2 ^ 53) :
    letI := trig.scalar
    ∃ text, print l (.ok samples) = .ok text := by
  let := trig.scalar
  obtain ⟨lines, hlines⟩ :=
    exists_waypointLines circular (l := l) h.start.point h.waypoints small least few
  exact ⟨_, bind_eq_ok.mpr ⟨lines, hlines, rfl⟩⟩

end Robot

/-! ## Field-oriented programs -/

namespace Field

variable {l : Layout Float}

theorem exists_centimetres (trig : Trigonometry) {x : Float} (h : Bounded N x) (small : N ≤ 60) :
    letI := trig.scalar
    ∃ text, centimetres x = .ok text := by
  have hundred : Bounded 7 (Double.ofInt 100) := bounded_ofInt (by decide) (by decide)
  exact exists_amount_of_bounded trig (by decide : 1 ≤ 6) (h.mul hundred (by omega)) (by omega)

theorem exists_poseLine (trig : Trigonometry) {p : Pose Float} (h : p.Bounded N) (small : N ≤ 60) :
    letI := trig.scalar
    ∃ line, poseLine p = .ok line := by
  let := trig.scalar
  obtain ⟨x, hx⟩ := exists_centimetres trig h.x small
  obtain ⟨y, hy⟩ := exists_centimetres trig h.y small
  obtain ⟨heading, hheading⟩ := exists_programHeading trig h.h (by omega)
  exact ⟨_, bind_eq_ok.mpr ⟨x, hx, bind_eq_ok.mpr ⟨y, hy, bind_eq_ok.mpr ⟨heading, hheading, rfl⟩⟩⟩⟩

/-- No more than all moves are done at an action. -/
theorem bounded_percentagesFrom (trig : Trigonometry) {total : Nat} (few : total < 2 ^ 53)
    {done : Nat} {ws : List (Waypoint Float)}
    (among : done + (ws.filterMap Waypoint.move?).length ≤ total) :
    letI := trig.scalar
    ∀ a ∈ percentagesFrom l total done ws, Bounded 9 a.1 := by
  let := trig.scalar
  induction ws generalizing done with
  | nil => exact fun a ha => nomatch ha
  | cons w rest ih =>
    cases w with
    | move m =>
      have counted : done + ((rest.filterMap Waypoint.move?).length + 1) ≤ total := among
      exact ih (by omega)
    | action a =>
      have others := ih (show done + (rest.filterMap Waypoint.move?).length ≤ total from among)
      rw [percentagesFrom]
      cases l.marker? a.markerId with
      | none => exact others
      | some m =>
        refine List.forall_mem_cons.mpr ⟨?_, others⟩
        by_cases none : total = 0
        · rw [if_pos none]
          exact bounded_zero 9
        · have hundred : Bounded 7 (Double.ofInt 100) := bounded_ofInt (by decide) (by decide)
          rw [if_neg none]
          exact (bounded_parameter trig (by omega : done ≤ total) (by omega) few).mul hundred (by decide)

theorem exists_markerBlock (trig : Trigonometry) {actions : List (Float × Marker Float)}
    (h : ∀ a ∈ actions, Bounded 9 a.1) :
    letI := trig.scalar
    ∃ lines, markerBlock actions = .ok lines := by
  let := trig.scalar
  have written : ∀ a ∈ actions, ∃ lines, (fun (percent, m) => markerLines percent m) a = .ok lines := by
    intro a ha
    obtain ⟨percent, hpercent⟩ :=
      exists_amount_of_bounded trig (by decide : 1 ≤ 6) (h a ha) (by decide)
    exact ⟨_, bind_eq_ok.mpr ⟨percent, hpercent, rfl⟩⟩
  obtain ⟨lines, hlines⟩ := exists_mapM written
  rw [markerBlock]
  split
  · exact ⟨_, rfl⟩
  · exact ⟨_, bind_eq_ok.mpr ⟨lines, hlines, rfl⟩⟩

/-- A path with bounded numbers can be written as a field-oriented program. -/
theorem exists_print_of_bounded (trig : Trigonometry) (h : l.Bounded N) (small : N ≤ 60)
    (few : l.moves.length < 2 ^ 53) :
    letI := trig.scalar
    ∃ text, print l = .ok text := by
  let := trig.scalar
  obtain ⟨start, hstart⟩ := exists_poseLine trig h.start small
  obtain ⟨moves, hmoves⟩ : ∃ moves, l.moves.mapM (fun m => poseLine m.pose) = .ok moves :=
    exists_mapM fun m hm => exists_poseLine trig (h.moves m hm).pose small
  obtain ⟨markers, hmarkers⟩ :=
    exists_markerBlock trig (bounded_percentagesFrom (l := l) trig few (Nat.zero_add _).le)
  exact ⟨_, bind_eq_ok.mpr ⟨start, hstart, bind_eq_ok.mpr ⟨moves, hmoves, bind_eq_ok.mpr
    ⟨markers, hmarkers, rfl⟩⟩⟩⟩

end Field

/-- A session with a path of bounded numbers is encoded in either dialect, and so is one whose mode is
no dialect. -/
theorem exists_encode (circular : trig.Circular) {s : Session Float} (h : s.toLayout.Bounded N)
    (small : N ≤ 24) (moves : s.toLayout.moves.length < 2 ^ 53) {samples : Int} (least : 0 < samples)
    (few : samples < 2 ^ 53) :
    letI := trig.scalar
    ∃ text, encode (.ok samples) s = .ok text := by
  let := trig.scalar
  rw [encode]
  split
  · exact Field.exists_print_of_bounded trig h (by omega) moves
  · exact Robot.exists_print_of_bounded circular h small least few

end PathStudio.Program
