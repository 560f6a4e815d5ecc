import PathStudio.Proofs.Editor.Soundness

/-!
# The mouse over a sound editor

Presses in the window are carried out on a sound editor, and a movement drags the part that is held as
long as the path has it. A movement is refused when the part is gone.
-/

namespace PathStudio.Editor

open Storage Simulation Window Change Double Text

variable {trig : Trigonometry} {answers : List (Option String)} {count : Nat} {e : Editor}
  {p : Point Float}

/-- A place within the window. -/
structure InWindow (p : Point Float) : Prop where
  left : 0.0 ≤ p.x
  right : p.x ≤ 720.0
  top : 0.0 ≤ p.y
  bottom : p.y ≤ 720.0

instance (p : Point Float) : Decidable (InWindow p) :=
  decidable_of_iff (0.0 ≤ p.x ∧ p.x ≤ 720.0 ∧ 0.0 ≤ p.y ∧ p.y ≤ 720.0)
    ⟨fun ⟨left, right, top, bottom⟩ => ⟨left, right, top, bottom⟩,
      fun ⟨left, right, top, bottom⟩ => ⟨left, right, top, bottom⟩⟩

theorem InWindow.bounded (h : InWindow p) : p.Bounded 10 := by
  have side : Binary.HasValue 720.0 720 := ⟨false, 720 * 2 ^ 43, -43, by decide, by norm_num⟩
  have within {x : Float} (lower : 0.0 ≤ x) (upper : x ≤ 720.0) : Double.Bounded 10 x := by
    obtain ⟨v, hv, least, most⟩ := exists_hasValue_of_le_of_le hasValue_zero side lower upper
    exact ⟨v, hv, by rw [abs_of_nonneg least]; linarith⟩
  exact ⟨within h.left h.right, within h.top h.bottom⟩

/-! ## Actions -/

/-- A name that is not blank is not blank without the blanks at its ends either. -/
theorem trimmed_trimmed_ne {s : String} (h : Edit.trimmed s ≠ "") :
    Edit.trimmed (Edit.trimmed s) ≠ "" := by
  have some : (trimStart s.toList).reverse.dropWhile isBlank ≠ [] := by
    intro none
    exact h (by rw [Edit.trimmed, trim, none]; rfl)
  have visible := List.head_dropWhile_not isBlank some
  have kept : trim (trim s.toList) ≠ [] :=
    trim_ne_nil (List.mem_reverse.mpr (List.head_mem some)) visible
  intro none
  refine kept ?_
  simpa [Edit.trimmed] using congrArg String.toList none

/-- The user gives a name that is not blank, or none. -/
theorem exists_askAction (d : Desk) :
    ∃ answer d', Change.on askAction d = (.ok answer, d') ∧ d'.folder = d.folder ∧
      ∀ name args, answer = some (name, args) → Edit.trimmed name ≠ "" := by
  have asked (q : Question) (d : Desk) : Change.on (Work.ask q) d =
      (.ok d.answers.head?.join, { d with asked := d.asked ++ [q], answers := d.answers.tail }) := rfl
  have answered (a : Option (String × String)) (d : Desk) :
      Change.on (pure a : Work (Option (String × String))) d = (.ok a, d) := rfl
  rw [askAction, on_bind_ok (asked _ _)]
  generalize d.answers.head?.join.getD "" = given
  dsimp only
  split
  · exact ⟨none, _, rfl, rfl, nofun⟩
  next blank =>
    rw [on_bind_ok (asked _ _), answered]
    refine ⟨_, _, rfl, rfl, fun name args same => ?_⟩
    obtain ⟨rfl, -⟩ := Prod.mk.inj (Option.some.inj same)
    exact trimmed_trimmed_ne blank

theorem Sound.exists_pressAction (h : e.Sound trig answers count) (inside : InWindow p) :
    letI := trig.scalar
    ∃ e', Change.on (pressAction (.ok p)) e = (.ok (), e') ∧ e'.Sound trig answers (count + 1) ∧
      e'.drag = e.drag ∧ (e.HoldsPart → e'.HoldsPart) := by
  let := trig.scalar
  obtain ⟨answer, d, answered, folder, named⟩ := exists_askAction e.desk
  have asked := on_atDesk askAction e
  have later := keeps_askAction e.desk (.refl e.desk)
  rw [answered] at asked later
  have more := (h.with_desk later folder).mono (Nat.le_succ count)
  cases answer with
  | none =>
    exact ⟨_, on_bind_ok asked, more, rfl, fun holds => holds.congr rfl rfl⟩
  | some call =>
    obtain ⟨name, args⟩ := call
    obtain ⟨values, settings, stepped⟩ := more.settings
    have tolerance : values "markers" "reuse_tolerance_m" = .real (5.0 / Settings.pixelsPerMetre) :=
      stepped.value_eq (rfl : Settings.spec? "markers" "reuse_tolerance_m" = some _) (by decide)
        (by decide)
    have looked := on_option settings "markers" "reuse_tolerance_m" rfl
    rw [tolerance] at looked
    have place := (bounded_toMetres trig inside.bounded).mono (le_refl 16)
    obtain ⟨m, s, a, run, hs, waypoints⟩ := Edit.exists_addOrReuseMarker trig h.session place
      (named name args rfl) args (5.0 / Settings.pixelsPerMetre)
    obtain ⟨edited, added⟩ := more.on_editing run hs
    have bound (x : Float) : Operand.boundOfJson (.real x) = .number x := rfl
    rw [pressAction, on_bind_ok asked]
    dsimp only
    rw [on_bind_ok looked, on_bind_ok (on_lift_ok rfl _), bound, on_bind_ok edited]
    refine ⟨_, rfl, added, rfl, fun holds d hd => ?_⟩
    obtain ⟨hit, moved, is, grips⟩ := holds d hd
    exact ⟨hit, moved, is, grips.insertAction waypoints⟩

/-! ## Presses -/

theorem Sound.exists_pressEmpty (h : e.Sound trig answers count) (inside : InWindow p) :
    letI := trig.scalar
    ∃ e', Change.on (pressEmpty p) e = (.ok (), e') ∧ e'.Sound trig answers (count + 1) ∧
      e'.drag = e.drag ∧ (e.HoldsPart → e'.HoldsPart) := by
  let := trig.scalar
  obtain ⟨values, settings, stepped⟩ := h.settings
  have standard : values "codegen" "default_speed" = .real 0.8 :=
    stepped.value_eq (rfl : Settings.spec? "codegen" "default_speed" = some _) (by decide) (by decide)
  have looked := on_option settings "codegen" "default_speed" rfl
  rw [standard] at looked
  have speed : Double.Bounded 16 0.8 := by decide
  have heading : Double.Bounded 16 0.0 := ⟨0, hasValue_zero, by simp⟩
  have place := bounded_toMetres trig inside.bounded
  have pose : Pose.Bounded 16 ⟨(toMetres p).x, (toMetres p).y, 0.0⟩ := ⟨place.x, place.y, heading⟩
  have sound := Edit.sound_addWaypoint trig h.session pose speed
  obtain ⟨edited, added⟩ := (h.mono (Nat.le_succ count)).on_editing
    (Edit.on_addWaypoint trig ⟨(toMetres p).x, (toMetres p).y, 0.0⟩ 0.8 e.session) sound
  have number (x : Float) : Operand.ofJson (.real x) = .number x := rfl
  rw [pressEmpty, on_bind_ok looked, number, on_bind_ok edited]
  refine ⟨_, rfl, added, rfl, fun holds d hd => ?_⟩
  obtain ⟨hit, moved, is, grips⟩ := holds d hd
  exact ⟨hit, moved, is, grips.append _ rfl⟩

/-- A part that is held is one of the path. -/
theorem Sound.hold (h : e.Sound trig answers count) {hit : Hit} (grips : Grips e.session.toLayout hit) :
    Sound trig answers count { e with drag := some ⟨.ofHit hit, none⟩ } ∧
      HoldsPart { e with drag := some ⟨.ofHit hit, none⟩ } := by
  refine ⟨h.with_drag ⟨hit, false, e.session.toLayout, rfl, grips, h.session.layout.few⟩, ?_⟩
  rintro _ ⟨⟩
  exact ⟨hit, false, rfl, grips⟩

/-- Of what is shown a waypoint or an action is selected, and all but an action is held. -/
theorem Sound.exists_takeHold (h : e.Sound trig answers count) {mode : Mode} {hit : Hit}
    {pixel : Point Float}
    (shown : letI := trig.scalar; Shows mode e.session.toLayout hit pixel) :
    letI := trig.scalar
    ∃ e', Change.on (takeHold hit) e = (.ok (), e') ∧ e'.Sound trig answers count ∧
      (e.HoldsPart → e'.HoldsPart) := by
  let := trig.scalar
  have held {e : Editor} (h : e.Sound trig answers count) {hit : Hit}
      (grips : Grips e.session.toLayout hit) :
      ∃ e', Change.on (modify fun e => { e with drag := some ⟨.ofHit hit, none⟩ } : Editing Unit) e =
        (.ok (), e') ∧ e'.Sound trig answers count ∧ e'.HoldsPart :=
    ⟨_, rfl, h.hold grips⟩
  have selected {i : Nat} (inside : i < e.session.waypoints.length) :
      ∃ s, Change.on (editing (Edit.select (some (.whole i)))) e = (.ok (), { e with session := s }) ∧
        Sound trig answers count { e with session := s } ∧ s.waypoints = e.session.waypoints := by
    obtain ⟨s, run, hs, waypoints⟩ := Edit.exists_select trig h.session inside
    obtain ⟨edited, sound⟩ := h.on_editing run hs
    exact ⟨s, edited, sound, waypoints⟩
  cases shown with
  | start =>
    obtain ⟨e', run, sound, holds⟩ := held h .start
    exact ⟨e', run, sound, fun _ => holds⟩
  | startHeading =>
    obtain ⟨e', run, sound, holds⟩ := held h .startHeading
    exact ⟨e', run, sound, fun _ => holds⟩
  | heading there =>
    obtain ⟨e', run, sound, holds⟩ := held h (.heading there)
    exact ⟨e', run, sound, fun _ => holds⟩
  | control there bends =>
    obtain ⟨e', run, sound, holds⟩ := held h (.control there bends)
    exact ⟨e', run, sound, fun _ => holds⟩
  | action there =>
    obtain ⟨s, edited, sound, waypoints⟩ := selected (List.getElem?_eq_some_iff.mp there).1
    exact ⟨_, on_bind_ok edited, sound, fun holds => holds.congr rfl waypoints⟩
  | waypoint there =>
    obtain ⟨s, edited, sound, waypoints⟩ := selected (List.getElem?_eq_some_iff.mp there).1
    obtain ⟨e', run, sound, holds⟩ := held sound (.waypoint (waypoints ▸ there))
    exact ⟨e', (on_bind_ok edited).trans run, sound, fun _ => holds⟩

/-- A press in the window is carried out. -/
theorem Sound.exists_press (circular : trig.Circular) (h : e.Sound trig answers count)
    (inside : InWindow p) (withAction : Bool) :
    letI := trig.scalar
    ∃ e', Change.on (press withAction (.ok p)) e = (.ok (), e') ∧ e'.Sound trig answers (count + 1) ∧
      (e.HoldsPart → e'.HoldsPart) := by
  let := trig.scalar
  cases withAction with
  | true =>
    obtain ⟨e', run, sound, -, holds⟩ := h.exists_pressAction inside
    exact ⟨e', run, sound, holds⟩
  | false =>
    obtain ⟨found, picked⟩ := exists_pick_of_bounded circular e.session.mode pickRadius
      h.session.bounded (inside.bounded.mono (by decide : 10 ≤ 16)) (by decide) (by decide)
    rw [press, if_neg Bool.false_ne_true, on_bind_ok (on_get e), on_bind_ok (on_lift_ok rfl e),
      on_bind_ok (on_lift_ok picked e)]
    cases found with
    | none =>
      obtain ⟨e', run, sound, -, holds⟩ := h.exists_pressEmpty inside
      exact ⟨e', run, sound, holds⟩
    | some hit =>
      obtain ⟨pixel, shown, -⟩ := finds_pick picked
      obtain ⟨e', run, sound, holds⟩ := h.exists_takeHold shown
      exact ⟨e', run, sound.mono (Nat.le_succ count), holds⟩

/-! ## Movements -/

theorem holding_inj {hit hit' : Hit} {moved moved' : Bool}
    (h : holding hit moved = holding hit' moved') : hit = hit' := by
  obtain ⟨part, index⟩ := hit
  obtain ⟨part', index'⟩ := hit'
  obtain ⟨same, -⟩ := Drag.mk.inj h
  obtain ⟨parts, places, -⟩ := Gesture.mk.inj same
  obtain rfl := Option.some.inj parts
  cases index with
  | none =>
    cases index' with
    | none => rfl
    | some j => cases places
  | some i =>
    cases index' with
    | none => cases places
    | some j =>
      obtain rfl := Int.ofNat.inj (Except.ok.inj places)
      rfl

/-- A movement in the window drags what is held, or it is refused since the path does not have it any
more. -/
theorem Sound.exists_dragTo (circular : trig.Circular) (h : e.Sound trig answers count)
    (few : count < 2 ^ 52) (inside : InWindow p) :
    letI := trig.scalar
    (∃ e', Change.on (dragTo (.ok p)) e = (.ok (), e') ∧ e'.Sound trig answers count ∧ e'.HoldsPart ∧
      (e.drag = none → e'.drag = none)) ∨
    ∃ fault e', Change.on (dragTo (.ok p)) e = (.error fault, e') ∧ IsLost fault ∧
      ¬ e'.HoldsPart ∧ ¬ e.HoldsPart := by
  let := trig.scalar
  cases drag : e.drag with
  | none =>
    refine .inl ⟨e, ?_, h, .of_free drag, fun _ => drag⟩
    refine (on_bind_ok (on_get e)).trans ?_
    rw [drag]
    rfl
  | some d =>
    obtain ⟨hit, moved, l, rfl, once, bound⟩ := h.drag d drag
    have dragged : Change.on (dragTo (.ok p)) e = Change.on
        (editing (({ Gesture.ofHit hit with moved } : Gesture).move (.ok p)).1)
        { e with drag := some (holding hit true) } := by
      refine (on_bind_ok (on_get e)).trans ?_
      rw [drag]
      rfl
    rw [dragged]
    by_cases grips : Grips e.session.toLayout hit
    · obtain ⟨s, run, hs, still⟩ := exists_move circular h.session grips moved inside.bounded
        (by decide) (by decide)
      obtain ⟨edited, sound⟩ := (h.with_drag ⟨hit, true, l, rfl, once, bound⟩).on_editing run hs
      refine .inl ⟨_, edited, sound, ?_, nofun⟩
      rintro _ ⟨⟩
      exact ⟨hit, true, rfl, still⟩
    · obtain ⟨fault, s, run, lost, same⟩ := exists_move_of_not_grips trig once
        (bound.trans (by omega)) grips moved p
      refine .inr ⟨fault, _, (Editor.on_editing _ _).trans (by rw [run]), lost, fun holds => ?_,
        fun holds => ?_⟩
      · obtain ⟨hit', moved', is, there⟩ := holds _ rfl
        rw [← holding_inj is] at there
        exact grips (same ▸ there)
      · obtain ⟨hit', moved', is, there⟩ := holds _ drag
        rw [← holding_inj is] at there
        exact grips there

end PathStudio.Editor
