import PathStudio.Proofs.Geometry.Angle
import PathStudio.Proofs.Program.Amount
import PathStudio.Proofs.Program.Field.Exact

/-!
# Field-oriented programs are printed again

In exact arithmetic a field-oriented program that is read and printed again is
the same text, but for a coordinate that is printed as a negative zero: it loses
its sign, and after that nothing changes any more.
-/

namespace PathStudio.Program.Field

open Text Exact

/-! ## The texts of a program -/

/-- The texts of the numbers in the line of a pose. -/
structure PoseText where
  x : List Char
  y : List Char
  heading : List Char

/-- The line of a pose. -/
def PoseText.line (t : PoseText) : List Char :=
  "    waypoints.add(new Pose2d(".toList ++ t.x ++ ", ".toList ++ t.y
    ++ ", Rotation2d.fromDegrees(".toList ++ t.heading ++ ")));".toList

/-- What is printed of a path: the texts of its poses, and the lines of its markers. -/
structure Listing where
  start : PoseText
  moves : List PoseText
  markers : List (List Char)

/-- The program that a listing stands in. -/
def Listing.text (p : Listing) : List Char :=
  unlines (opening ++ p.start.line :: [] :: p.moves.map PoseText.line ++ middle ++ p.markers)

section Printing

variable {ν : Type} [Add ν] [Sub ν] [Mul ν] [Div ν] [Neg ν] [Scalar ν]

/-- The texts that a pose is printed with. -/
def poseText (p : Pose ν) : Outcome PoseText := do
  let x ← centimetres p.x
  let y ← centimetres p.y
  let heading ← programHeading p.h
  return ⟨x, y, integerText heading⟩

/-- The texts that a path is printed with. -/
def listing (l : Layout ν) : Outcome Listing := do
  let start ← poseText l.start
  let moves ← l.moves.mapM fun m => poseText m.pose
  let markers ← markerBlock (actionPercentages l)
  return ⟨start, moves, markers⟩

/-- A program that is read and printed again. -/
def recode (text : List Char) (prior : Session ν) : Outcome (List Char) := do
  let decoded ← read text prior
  print decoded.toLayout

theorem poseText_eq_ok {p : Pose ν} {t : PoseText} : poseText p = .ok t ↔
    ∃ heading, centimetres p.x = .ok t.x ∧ centimetres p.y = .ok t.y ∧
      programHeading p.h = .ok heading ∧ integerText heading = t.heading := by
  simp only [poseText, bind_eq_ok, return_eq_ok]
  constructor
  · rintro ⟨x, hx, y, hy, heading, hh, rfl⟩
    exact ⟨heading, hx, hy, hh, rfl⟩
  · rintro ⟨heading, hx, hy, hh, same⟩
    exact ⟨_, hx, _, hy, heading, hh, by rw [same]⟩

theorem poseLine_eq_map (p : Pose ν) : poseLine p = (poseText p).map PoseText.line := by
  simp only [poseLine, poseText]
  cases centimetres p.x with
  | error fault => rfl
  | ok x =>
    cases centimetres p.y with
    | error fault => rfl
    | ok y => cases programHeading p.h <;> rfl

/-- A path is printed as the program of its listing. -/
theorem print_eq_map (l : Layout ν) : print l = (listing l).map Listing.text := by
  have lines : l.moves.mapM (fun m => poseLine m.pose) =
      (l.moves.mapM fun m => poseText m.pose).map (List.map PoseText.line) := by
    induction l.moves with
    | nil => rfl
    | cons m ms ih =>
      rw [List.mapM_cons, List.mapM_cons, ih, poseLine_eq_map]
      cases poseText m.pose with
      | error fault => rfl
      | ok t => cases ms.mapM fun m => poseText m.pose <;> rfl
  rw [print, listing, lines, poseLine_eq_map]
  cases poseText l.start with
  | error fault => rfl
  | ok start =>
    cases l.moves.mapM fun m => poseText m.pose with
    | error fault => rfl
    | ok moves => cases markerBlock (actionPercentages l) <;> rfl

end Printing

/-! ## Zeros without a sign -/

/-- A number with one place, but for the sign of a zero. -/
def unsigned (text : List Char) : List Char :=
  if text = "-0.0".toList then "0.0".toList else text

/-- The texts of a pose with no sign on a coordinate that is zero. -/
def PoseText.unsigned (t : PoseText) : PoseText :=
  { t with x := Field.unsigned t.x, y := Field.unsigned t.y }

/-- A listing with no sign on a coordinate that is zero. -/
def Listing.unsigned (p : Listing) : Listing :=
  { p with start := p.start.unsigned, moves := p.moves.map PoseText.unsigned }

@[simp] theorem unsigned_unsigned (text : List Char) : unsigned (unsigned text) = unsigned text := by
  by_cases zero : text = "-0.0".toList
  · rw [zero]
    decide
  · have kept : unsigned text = text := if_neg zero
    rw [kept, kept]

@[simp] theorem PoseText.unsigned_unsigned (t : PoseText) : t.unsigned.unsigned = t.unsigned := by
  simp [PoseText.unsigned]

@[simp] theorem Listing.unsigned_unsigned (p : Listing) : p.unsigned.unsigned = p.unsigned := by
  simp [Listing.unsigned]

/-! ## Poses -/

theorem spells_negativeZero : Spells "-0.0".toList ⟨true, 0, 1⟩ :=
  ⟨['0'], ['0'], by decide, by simp [latinDigits], by simp [latinDigits], rfl, by decide, rfl⟩

theorem unsigned_of_ne_zero {v : ℝ} {text : List Char} (h : amount v 1 = .ok text)
    (kept : unitCount v 1 ≠ 0) : unsigned text = text := by
  refine if_neg fun zero => kept ?_
  have read := numeral?_amount 1 (by decide) (by decide) h
  rw [zero, spells_negativeZero.numeral?] at read
  have nothing : |rounded v 1| = 0 := by
    rw [← Option.some.inj read]
    show |factor true * (((0 : Nat) : ℝ) * 10 ^ (-1 : Int))| = 0
    simp
  rw [abs_rounded, div_eq_zero_iff] at nothing
  exact_mod_cast nothing.resolve_right (by norm_num)

/-- An amount with one place is printed again as it was, but for the sign of a zero. -/
theorem amount_reread {v : ℝ} {text : List Char} (h : amount v 1 = .ok text) :
    amount (rounded v 1) 1 = .ok (unsigned text) := by
  by_cases zero : unitCount v 1 = 0
  · have plain : Decimal.amount? false 0 1 = some "0.0".toList := by decide +kernel
    have signed : Decimal.amount? true 0 1 = some "-0.0".toList := by decide +kernel
    have dropped : unsigned text = "0.0".toList := by
      have printed := (amount_eq_ok_iff 1 (by decide)).mp h
      rw [zero] at printed
      cases sign : decide (v < 0) with
      | true =>
        rw [sign] at printed
        rw [← Option.some.inj (signed.symm.trans printed)]
        decide
      | false =>
        rw [sign] at printed
        rw [← Option.some.inj (plain.symm.trans printed)]
        decide
    rw [dropped]
    exact amount_rounded_zero 1 (by decide) zero plain
  · rw [unsigned_of_ne_zero h zero]
    exact amount_rounded 1 (by decide) h fun _ => zero

/-- A coordinate that has been read is printed as it was, but for the sign of a zero. -/
theorem centimetres_reread {v : ℝ} {text : List Char} {X : ℝ} (h : centimetres v = .ok text)
    (hX : numeral? text = some X) : centimetres (X / Scalar.ofInt 100) = .ok (unsigned text) := by
  have read := numeral?_amount 1 (by decide) (by decide) h
  obtain rfl := Option.some.inj (hX.symm.trans read)
  have back (w : ℝ) : w / Scalar.ofInt 100 * Scalar.ofInt 100 = w := by
    have hundred : (Scalar.ofInt 100 : ℝ) = 100 := Int.cast_ofNat 100
    rw [hundred, div_mul_cancel₀ w (by norm_num)]
  rw [centimetres]
  exact (congrArg (amount · 1) (back _)).trans (amount_reread h)

theorem poseText_reread {p q : Pose ℝ} (h : RereadsPose p q) {t : PoseText}
    (ht : poseText p = .ok t) : poseText q = .ok t.unsigned := by
  obtain ⟨x, y, heading, X, Y, D, hx, hy, hh, readX, readY, readD, rfl⟩ := h
  obtain ⟨heading', hx', hy', hh', shown⟩ := poseText_eq_ok.mp ht
  obtain rfl : x = t.x := Except.ok.inj (hx.symm.trans hx')
  obtain rfl : y = t.y := Except.ok.inj (hy.symm.trans hy')
  obtain rfl : heading = heading' := Except.ok.inj (hh.symm.trans hh')
  obtain rfl : D = heading := numeral?_integerText readD
  exact poseText_eq_ok.mpr ⟨heading, centimetres_reread hx readX, centimetres_reread hy readY,
    programHeading_toRadians heading, shown⟩

theorem mapM_poseText_reread {ms ms' : List (Move ℝ)}
    (h : List.Forall₂ (fun m m' => RereadsPose m.pose m'.pose) ms ms') {ts : List PoseText}
    (hts : ms.mapM (fun m => poseText m.pose) = .ok ts) :
    ms'.mapM (fun m => poseText m.pose) = .ok (ts.map PoseText.unsigned) := by
  induction h generalizing ts with
  | nil =>
    cases hts
    rfl
  | cons first _ ih =>
    obtain ⟨t, more, ht, hmore, rfl⟩ := mapM_cons_eq_ok.mp hts
    exact mapM_cons_eq_ok.mpr ⟨_, _, poseText_reread first ht, ih hmore, rfl⟩

/-! ## Moves and markers -/

section Decoded

variable {ν : Type} [Add ν] [Sub ν] [Mul ν] [Div ν] [Neg ν] [Scalar ν]

/-- The same percentage with the same call, perhaps of another marker. -/
def SameCall (a b : ν × Marker ν) : Prop :=
  a.1 = b.1 ∧ a.2.name = b.2.name ∧ a.2.args = b.2.args

theorem markerBlock_congr {as bs : List (ν × Marker ν)} (h : List.Forall₂ SameCall as bs) :
    markerBlock as = markerBlock bs := by
  have lines : as.mapM (fun a => markerLines a.1 a.2) = bs.mapM fun b => markerLines b.1 b.2 := by
    induction h with
    | nil => rfl
    | @cons a b as bs same _ ih =>
      obtain ⟨percent, name, args⟩ := same
      have first : markerLines a.1 a.2 = markerLines b.1 b.2 := by
        rw [markerLines, markerLines, percent, name, args]
      simp only [List.mapM_cons, first, ih]
  cases h with
  | nil => rfl
  | cons same rest =>
    simp only [markerBlock, List.isEmpty_cons, Bool.false_eq_true, if_false, lines]

/-- What a waypoint is read back as: a move as a move, an action with a marker as an action with a
marker of the same call, and an action without one as nothing. -/
theorem reread_cases {l decoded : Layout ν} {w : Waypoint ν} {ws ws' : List (Waypoint ν)}
    (h : List.Forall₂ (Rereads decoded) ((w :: ws).filterMap l.entryOf?) ws') :
    (∃ m q rest, w = .move m ∧ ws' = .move ⟨.drive, q, defaultSpeed⟩ :: rest ∧
      RereadsPose m.pose q ∧ List.Forall₂ (Rereads decoded) (ws.filterMap l.entryOf?) rest) ∨
    (∃ a, w = .action a ∧ l.marker? a.markerId = none ∧
      List.Forall₂ (Rereads decoded) (ws.filterMap l.entryOf?) ws') ∨
    (∃ a a' m m' rest, w = .action a ∧ ws' = .action a' :: rest ∧
      l.marker? a.markerId = some m ∧ decoded.marker? a'.markerId = some m' ∧
        m.name = m'.name ∧ m.args = m'.args ∧
          List.Forall₂ (Rereads decoded) (ws.filterMap l.entryOf?) rest) := by
  cases w with
  | move m =>
    cases h with
    | cons first rest =>
      obtain ⟨q, reread, rfl⟩ := first
      exact .inl ⟨m, q, _, rfl, rfl, reread, rest⟩
  | action a =>
    cases found : l.marker? a.markerId with
    | none =>
      have skipped : l.entryOf? (.action a) = none := by rw [Layout.entryOf?, found, Option.map_none]
      rw [List.filterMap_cons_none skipped] at h
      exact .inr (.inl ⟨a, rfl, found, h⟩)
    | some m =>
      have called : l.entryOf? (.action a) = some (.call m.name m.args) := by
        rw [Layout.entryOf?, found, Option.map_some]
      rw [List.filterMap_cons_some called] at h
      cases h with
      | @cons _ w' _ rest first others =>
        have first : decoded.entryOf? w' = some (.call m.name m.args) := first
        cases w' with
        | move m' => cases first
        | action a' =>
          obtain ⟨m', found', same⟩ := Option.map_eq_some_iff.mp first
          obtain ⟨name, args⟩ := Entry.call.inj same
          exact .inr (.inr ⟨a, a', m, m', rest, rfl, rfl, found, found', name.symm, args.symm, others⟩)

/-- The moves of a decoded path are those of the printed one. -/
theorem moves_reread {l decoded : Layout ν} {ws ws' : List (Waypoint ν)}
    (h : List.Forall₂ (Rereads decoded) (ws.filterMap l.entryOf?) ws') :
    List.Forall₂ (fun m m' => RereadsPose m.pose m'.pose) (ws.filterMap Waypoint.move?)
      (ws'.filterMap Waypoint.move?) := by
  induction ws generalizing ws' with
  | nil =>
    cases h
    exact .nil
  | cons w ws ih =>
    obtain ⟨m, q, rest, rfl, rfl, reread, h⟩ | ⟨a, rfl, -, h⟩ |
      ⟨a, a', m, m', rest, rfl, rfl, -, -, -, -, h⟩ := reread_cases h
    · exact .cons reread (ih h)
    · exact ih h
    · exact @ih rest h

/-- The percentages of the actions in a decoded path are those of the printed one, with the same
calls. -/
theorem percentages_reread {l decoded : Layout ν} {total done : Nat} {ws ws' : List (Waypoint ν)}
    (h : List.Forall₂ (Rereads decoded) (ws.filterMap l.entryOf?) ws') :
    List.Forall₂ SameCall (percentagesFrom l total done ws)
      (percentagesFrom decoded total done ws') := by
  induction ws generalizing done ws' with
  | nil =>
    cases h
    exact .nil
  | cons w ws ih =>
    obtain ⟨m, q, rest, rfl, rfl, -, h⟩ | ⟨a, rfl, none, h⟩ |
      ⟨a, a', m, m', rest, rfl, rfl, found, found', name, args, h⟩ := reread_cases h
    · exact ih h
    · rw [percentagesFrom, none]
      exact ih h
    · rw [percentagesFrom, percentagesFrom, found, found']
      exact .cons ⟨rfl, name, args⟩ (ih h)

/-- The calls of a decoded path are those of the printed one. -/
theorem call_mem_of_reread {decoded : Layout ν} {es : List (Entry ν)} {ws : List (Waypoint ν)}
    (h : List.Forall₂ (Rereads decoded) es ws) {name args : String}
    (hc : .call name args ∈ ws.filterMap decoded.entryOf?) : .call name args ∈ es := by
  induction h with
  | nil => cases hc
  | @cons e w es ws first _ ih =>
    cases e with
    | move m =>
      obtain ⟨q, -, rfl⟩ := first
      obtain ⟨⟨⟩⟩ | others := List.mem_cons.mp hc
      exact List.mem_cons_of_mem _ (ih others)
    | call name' args' =>
      have first : decoded.entryOf? w = some (.call name' args') := first
      rw [List.filterMap_cons_some first] at hc
      obtain same | others := List.mem_cons.mp hc
      · rw [same]
        exact List.mem_cons_self
      · exact List.mem_cons_of_mem _ (ih others)

end Decoded

/-! ## The whole program -/

theorem eq_origin_of_isOrigin {p : Pose ℝ} (h : isOrigin p = true) : p = Pose.origin := by
  simp only [isOrigin, Bool.and_eq_true] at h
  obtain ⟨⟨x, y⟩, heading⟩ := h
  obtain ⟨px, py, ph⟩ := p
  obtain rfl : px = Scalar.ofInt 0 := of_decide_eq_true x
  obtain rfl : py = Scalar.ofInt 0 := of_decide_eq_true y
  obtain rfl : ph = Scalar.ofInt 0 := of_decide_eq_true heading
  rfl

/-- What is decoded from a program is printed as its listing, with no sign on a zero. -/
theorem listing_reread {l : Layout ℝ} {prior decoded : Session ℝ} (h : RereadAs l prior decoded)
    (moving : l.moves ≠ []) (origin : prior.start = Pose.origin) {shown : Listing}
    (hl : listing l = .ok shown) : listing decoded.toLayout = .ok shown.unsigned := by
  obtain ⟨start, hstart, hl⟩ := bind_eq_ok.mp hl
  obtain ⟨moves, hmoves, hl⟩ := bind_eq_ok.mp hl
  obtain ⟨markers, hmarkers, hl⟩ := bind_eq_ok.mp hl
  cases hl
  have poses := moves_reread h.waypoints
  have startAgain : poseText decoded.start = .ok start.unsigned := by
    obtain ⟨q, reread, chosen⟩ := h.start
    have same : decoded.start = q := by
      rw [chosen]
      split
      next unset => rw [origin, eq_origin_of_isOrigin (unset.resolve_left moving)]
      next => rfl
    rw [same]
    exact poseText_reread reread hstart
  have markersAgain : markerBlock (actionPercentages decoded.toLayout) = .ok markers := by
    have count : decoded.moves.length = l.moves.length := poses.length_eq.symm
    rw [← hmarkers, actionPercentages, actionPercentages, count]
    exact (markerBlock_congr (percentages_reread h.waypoints)).symm
  exact bind_eq_ok.mpr ⟨_, startAgain, bind_eq_ok.mpr ⟨_, mapM_poseText_reread poses hmoves,
    bind_eq_ok.mpr ⟨_, markersAgain, rfl⟩⟩⟩

/-- A program is read, on top of a session that starts at the origin, as a path that is printed as
the same listing with no sign on a zero, and that can be printed and read in turn. -/
theorem exists_decoded {s prior : Session ℝ} (moving : s.moves ≠ []) (short : s.moves.length ≤ 1000)
    (calls : s.CallsCarry Callable) (origin : prior.start = Pose.origin) {shown : Listing}
    (hs : listing s.toLayout = .ok shown) :
    ∃ decoded, read shown.text prior = .ok decoded ∧
      listing decoded.toLayout = .ok shown.unsigned ∧ decoded.moves ≠ [] ∧
        decoded.moves.length ≤ 1000 ∧ decoded.CallsCarry Callable := by
  have printed : print s.toLayout = .ok shown.text := by
    rw [print_eq_map, hs]
    rfl
  obtain ⟨decoded, run, reread⟩ := exists_rereadAs (hasNumbers_real _) (fun m _ => hasNumbers_real _)
    (slotsFit_real short) calls printed prior
  have count : s.moves.length = decoded.moves.length := (moves_reread reread.waypoints).length_eq
  refine ⟨decoded, run, listing_reread reread moving origin hs, ?_, count ▸ short,
    fun name args h => calls name args (call_mem_of_reread reread.waypoints h)⟩
  rw [← List.length_pos_iff, ← count]
  exact List.length_pos_iff.mpr moving

theorem recode_eq_ok {text : List Char} {prior decoded : Session ℝ} (run : read text prior = .ok decoded)
    {shown : Listing} (h : listing decoded.toLayout = .ok shown) :
    recode text prior = .ok shown.text := by
  rw [recode, run, ok_bind, print_eq_map, h]
  rfl

/-- In exact arithmetic a field-oriented program of one to a thousand moves that is read and printed
again, on top of a session that starts at the origin, is the same text, but for the sign of a
coordinate that is printed as a negative zero. Read and printed once more it does not change. -/
theorem recode_print (s prior : Session ℝ) (text : List Char) (moving : s.moves ≠ [])
    (short : s.moves.length ≤ 1000) (calls : s.CallsCarry Callable)
    (origin : prior.start = Pose.origin) (printed : print s.toLayout = .ok text) :
    ∃ shown, listing s.toLayout = .ok shown ∧ text = shown.text ∧
      recode text prior = .ok shown.unsigned.text ∧
      ∀ prior' : Session ℝ, prior'.start = Pose.origin →
        recode shown.unsigned.text prior' = .ok shown.unsigned.text := by
  rw [print_eq_map, map_eq_ok] at printed
  obtain ⟨shown, hs, rfl⟩ := printed
  obtain ⟨once, run, again, moving', short', calls'⟩ := exists_decoded moving short calls origin hs
  refine ⟨shown, hs, rfl, recode_eq_ok run again, fun prior' origin' => ?_⟩
  obtain ⟨twice, run', again', -⟩ := exists_decoded moving' short' calls' origin' again
  rw [Listing.unsigned_unsigned] at again'
  exact recode_eq_ok run' again'

/-- A path that goes a tenth of a millimetre back from the origin, makes a call and returns. -/
noncomputable def nudge : Session ℝ :=
  { emptySession with
    waypoints := [.move ⟨.drive, ⟨-1 / 10000, Scalar.ofInt 0, Scalar.ofInt 0⟩, defaultSpeed⟩,
      .action ⟨Pose.origin, 1⟩, .move ⟨.drive, Pose.origin, defaultSpeed⟩]
    markers := [⟨1, Scalar.ofInt 0, Scalar.ofInt 0, "lift", "2"⟩]
    nextMarkerId := 2 }

/-- What the path is printed as: the first coordinate of a move is a negative zero, and the call is
made half the way. -/
def nudgeListing : Listing :=
  { start := ⟨"0.0".toList, "0.0".toList, "0".toList⟩
    moves := [⟨"-0.0".toList, "0.0".toList, "0".toList⟩, ⟨"0.0".toList, "0.0".toList, "0".toList⟩]
    markers := [
      "    List<PathMarker> markers = new ArrayList<>();".toList,
      [],
      "    markers.add(new PathMarker(50.0, () -> \x7b".toList,
      "        telemetry.addData(\"Marker\", \"50.0% - lift\");".toList,
      "        telemetry.update();".toList,
      "        lift(2);".toList,
      "    \x7d));".toList,
      [],
      "    return markers;".toList,
      "\x7d".toList] }

theorem markerBlock_nudge :
    markerBlock (actionPercentages nudge.toLayout) = .ok nudgeListing.markers := by
  have half : amount (Scalar.ofInt (1 : Nat) / Scalar.ofInt (2 : Nat) * 100 : ℝ) 1 =
      .ok "50.0".toList := by
    have value : (Scalar.ofInt (1 : Nat) / Scalar.ofInt (2 : Nat) * 100 : ℝ) = 50 := by
      show (((1 : Nat) : Int) : ℝ) / (((2 : Nat) : Int) : ℝ) * ((100 : Int) : ℝ) = 50
      norm_num
    have tenths : unitCount 50 1 = 500 := by
      rw [unitCount, Nat.floor_eq_iff (by positivity)]
      norm_num
    rw [value]
    exact amount_of_count (by decide) (decide_eq_false (by norm_num)) tenths (by decide +kernel)
  have lines : markerLines (Scalar.ofInt (1 : Nat) / Scalar.ofInt (2 : Nat) * 100 : ℝ)
      ⟨1, Scalar.ofInt 0, Scalar.ofInt 0, "lift", "2"⟩ =
        .ok ((nudgeListing.markers.drop 2).take 6) := by
    rw [markerLines, half]
    rfl
  have placed : actionPercentages nudge.toLayout =
      [((Scalar.ofInt (1 : Nat) / Scalar.ofInt (2 : Nat) * 100 : ℝ),
        ⟨1, Scalar.ofInt 0, Scalar.ofInt 0, "lift", "2"⟩)] := rfl
  rw [placed, markerBlock, List.isEmpty_cons, if_neg Bool.false_ne_true]
  exact bind_eq_ok.mpr ⟨_, mapM_cons_eq_ok.mpr ⟨_, _, lines, rfl, rfl⟩, rfl⟩

theorem listing_nudge : listing nudge.toLayout = .ok nudgeListing := by
  have hundred : (Scalar.ofInt 100 : ℝ) = 100 := Int.cast_ofNat 100
  have small {w : ℝ} (h : |w| < 1 / 20) : unitCount w 1 = 0 := by
    rw [unitCount, Nat.floor_eq_zero]
    linarith
  have zero : centimetres (Scalar.ofInt 0 : ℝ) = .ok "0.0".toList := by
    have value : (Scalar.ofInt 0 : ℝ) * Scalar.ofInt 100 = 0 := by
      rw [show (Scalar.ofInt 0 : ℝ) = 0 from Int.cast_zero, zero_mul]
    refine (congrArg (amount · 1) value).trans ?_
    exact amount_of_count (by decide) (decide_eq_false (lt_irrefl 0)) (small (by norm_num))
      (by decide +kernel)
  have behind : centimetres (-1 / 10000 : ℝ) = .ok "-0.0".toList := by
    have value : (-1 / 10000 : ℝ) * Scalar.ofInt 100 = -1 / 100 := by
      rw [hundred]
      norm_num
    refine (congrArg (amount · 1) value).trans ?_
    exact amount_of_count (by decide) (decide_eq_true (by norm_num)) (small (by norm_num))
      (by decide +kernel)
  have ahead : programHeading (Scalar.ofInt 0 : ℝ) = .ok 0 := by
    have level : toDegrees (-(Scalar.ofInt 0 : ℝ)) = ((0 : Int) : ℝ) := by
      show -((0 : Int) : ℝ) * _ / _ = _
      simp
    rw [programHeading, level, roundHalfUp_intCast]
  have digit : integerText 0 = "0".toList := by decide +kernel
  have origin : poseText (Pose.origin : Pose ℝ) = .ok ⟨"0.0".toList, "0.0".toList, "0".toList⟩ :=
    poseText_eq_ok.mpr ⟨0, zero, zero, ahead, digit⟩
  have back : poseText (⟨-1 / 10000, Scalar.ofInt 0, Scalar.ofInt 0⟩ : Pose ℝ) =
      .ok ⟨"-0.0".toList, "0.0".toList, "0".toList⟩ :=
    poseText_eq_ok.mpr ⟨0, behind, zero, ahead, digit⟩
  have moves : nudge.moves.mapM (fun m => poseText m.pose) = .ok nudgeListing.moves :=
    mapM_cons_eq_ok.mpr ⟨_, _, back, mapM_cons_eq_ok.mpr ⟨_, _, origin, rfl, rfl⟩, rfl⟩
  exact bind_eq_ok.mpr ⟨_, origin, bind_eq_ok.mpr ⟨_, moves, bind_eq_ok.mpr ⟨_, markerBlock_nudge,
    rfl⟩⟩⟩

theorem recode_print_nudge :
    ∃ text, print nudge.toLayout = .ok text ∧
      recode text emptySession = .ok nudgeListing.unsigned.text ∧
      recode nudgeListing.unsigned.text nudge = .ok nudgeListing.unsigned.text := by
  have printed : print nudge.toLayout = .ok nudgeListing.text := by
    rw [print_eq_map, listing_nudge]
    rfl
  have calls : nudge.CallsCarry Callable := by
    have entries : nudge.entries = [.move ⟨.drive, ⟨-1 / 10000, Scalar.ofInt 0, Scalar.ofInt 0⟩,
        defaultSpeed⟩, .call "lift" "2", .move ⟨.drive, Pose.origin, defaultSpeed⟩] := rfl
    intro name args h
    rw [entries] at h
    obtain ⟨rfl, rfl⟩ : name = "lift" ∧ args = "2" := by simpa using h
    exact ⟨by decide, by decide, by decide, by decide, by decide, by decide, by decide⟩
  obtain ⟨shown, hs, -, once, twice⟩ := recode_print nudge emptySession nudgeListing.text
    (List.cons_ne_nil _ _) (by decide) calls rfl printed
  obtain rfl := Except.ok.inj (listing_nudge.symm.trans hs)
  exact ⟨_, printed, once, twice nudge rfl⟩

end PathStudio.Program.Field
