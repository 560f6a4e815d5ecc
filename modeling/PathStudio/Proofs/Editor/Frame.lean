import PathStudio.Proofs.Editor.Mouse
import PathStudio.Proofs.Window.Totality

/-!
# Frames of a sound editor

A sound editor handles the events of a frame, advances the run and draws. The only thing that it
refuses is a movement with a gesture whose part has been taken away from the path meanwhile. That can
happen since a gesture keeps the place of its waypoint, and it does not where no key takes a part away
while the button is down.
-/

namespace PathStudio.Editor

open Storage Simulation Window Change Double

/-! ## Events -/

/-- A place that is read and is within the window. -/
def IsInWindow : Outcome (Point Float) → Prop
  | .ok p => InWindow p
  | .error _ => False

instance : DecidablePred IsInWindow
  | .ok p => inferInstanceAs (Decidable (InWindow p))
  | .error _ => .isFalse id

theorem IsInWindow.exists_place {place : Outcome (Point Float)} (h : IsInWindow place) :
    ∃ p, place = .ok p ∧ InWindow p := by
  cases place with
  | ok p => exact ⟨p, rfl, h⟩
  | error fault => exact h.elim

/-- An event whose place, if it has one, is within the window. -/
def Event.InWindow : Event → Prop
  | .press _ place | .move place => IsInWindow place
  | .quit | .key _ | .release _ => True

instance : DecidablePred Event.InWindow
  | .press _ place | .move place => inferInstanceAs (Decidable (IsInWindow place))
  | .quit | .key _ | .release _ => .isTrue trivial

/-- Whether an event may take a part of the path away, with the control key or without. -/
def Event.rearranges (control : Bool) : Event → Bool
  | .key name => (Command.ofKey? name).any (·.rearranges control)
  | .quit | .press _ _ | .release _ | .move _ => false

/-- Whether the main button is down after an event. -/
def Event.downAfter (down : Bool) : Event → Bool
  | .press button _ => down || button = mainButton
  | .release button => down && button ≠ mainButton
  | .quit | .key _ | .move _ => down

/-- Whether events, each with or without the control key, leave all parts of the path in place while
the main button is down. -/
def undisturbed (down : Bool) : List (Bool × Event) → Bool
  | [] => true
  | (control, event) :: rest =>
    !(down && event.rearranges control) && undisturbed (event.downAfter down) rest

/-- The events of an input, each with the control key or without. -/
def Input.moments (input : Input) : List (Bool × Event) := input.events.map (input.control, ·)

/-- An editor that holds no part but one of the path, and will not while the coming events happen. -/
def Settled (coming : List (Bool × Event)) (e : Editor) : Prop :=
  ∃ down, (e.drag ≠ none → down = true) ∧ e.HoldsPart ∧ undisturbed down coming = true

section

variable {trig : Trigonometry} {answers : List (Option String)} {count : Nat} {e e' : Editor}
  {coming more : List (Bool × Event)}

theorem Settled.holdsPart (h : e.Settled coming) : e.HoldsPart := by
  obtain ⟨_, -, holds, -⟩ := h
  exact holds

theorem Settled.congr (h : e.Settled coming) (drag : e'.drag = e.drag)
    (session : e'.session = e.session) : e'.Settled coming := by
  obtain ⟨down, held, holds, calm⟩ := h
  exact ⟨down, drag ▸ held, holds.congr drag (by rw [session]), calm⟩

/-- What holds of an editor with a gesture while an event happens that takes no part away. -/
theorem Settled.next {control : Bool} {event : Event} (h : e.Settled ((control, event) :: coming))
    (held : ∀ down, (e.drag ≠ none → down = true) → e'.drag ≠ none → event.downAfter down = true)
    (holds : (e.drag ≠ none → event.rearranges control = false) → e.HoldsPart → e'.HoldsPart) :
    e'.Settled coming := by
  obtain ⟨down, holding, part, calm⟩ := h
  obtain ⟨still, calm⟩ := Bool.and_eq_true_iff.mp calm
  refine ⟨event.downAfter down, held down holding, holds (fun some => ?_) part, calm⟩
  rwa [holding some, Bool.true_and, Bool.not_eq_true'] at still

/-! ## Work that lasts -/

/-- Work that is carried out on an editor, which is sound then, and for which one property holds if
another did before; or that is refused since a gesture has lost its part, and then the other did not.
This is unless a dialog for a file is answered with a path. -/
def Lasts {α : Type} (trig : Trigonometry) (answers : List (Option String)) (count : Nat)
    (w : Editing α) (e : Editor) (before : Prop) (after : Editor → Prop) : Prop :=
  (Change.on w e).2.desk.Cancelled answers →
    (∃ a e', Change.on w e = (.ok a, e') ∧ e'.Sound trig answers count ∧ (before → after e')) ∨
    ∃ fault e', Change.on w e = (.error fault, e') ∧ IsLost fault ∧ ¬ e'.HoldsPart ∧ ¬ before

theorem Lasts.bind {α β : Type} {w : Editing α} {f : α → Editing β} {before : Prop}
    {between after : Editor → Prop} {later : Nat} (first : Lasts trig answers count w e before between)
    (asks : ∀ (d : Desk) a, Keeps (Asked d) (f a))
    (next : ∀ a e', e'.Sound trig answers count →
      Lasts trig answers later (f a) e' (between e') after) :
    Lasts trig answers later (w >>= f) e before after := by
  intro cancelled
  have started : (Change.on w e).2.desk.Cancelled answers := by
    rw [on_bind] at cancelled
    generalize Change.on w e = ended at cancelled ⊢
    obtain ⟨fault | a, e'⟩ := ended
    · exact cancelled
    · exact (asks e'.desk a e' (.refl e'.desk)).cancelled cancelled
  obtain ⟨a, e', run, sound, goes⟩ | ⟨fault, e', run, lost, gone, not⟩ := first started
  · rw [on_bind_ok run] at cancelled
    obtain ⟨b, e'', run', sound', goes'⟩ | ⟨fault, e'', run', lost, gone, not⟩ :=
      next a e' sound cancelled
    · exact .inl ⟨b, e'', (on_bind_ok run).trans run', sound', goes' ∘ goes⟩
    · exact .inr ⟨fault, e'', (on_bind_ok run).trans run', lost, gone, not ∘ goes⟩
  · exact .inr ⟨fault, e', on_bind_error run, lost, gone, not⟩

/-! ## Events of a sound editor -/

/-- A sound editor handles an event, unless it is a movement with what the path does not have any
more. -/
theorem Sound.lasts_handle (circular : trig.Circular) (h : e.Sound trig answers count)
    (few : count < 2 ^ 52) (input : Input) (event : Event) (inside : event.InWindow) :
    letI := trig.scalar
    Lasts trig answers (count + 1) (handle input event) e
      (e.Settled ((input.control, event) :: more)) (Settled more) := by
  let := trig.scalar
  intro cancelled
  have next := h.mono (Nat.le_succ count)
  cases event with
  | quit =>
    have open_ (opened : Bool) : Sound trig answers (count + 1) { e with opened } :=
      ⟨next.asked, next.takes, next.settings, next.session, next.runner, next.drag⟩
    exact .inl ⟨(), _, rfl, open_ false, fun settled =>
      settled.next (fun _ held => held) fun _ holds => holds.congr rfl rfl⟩
  | key name =>
    rw [handle] at cancelled ⊢
    cases key : Command.ofKey? name with
    | none =>
      exact .inl ⟨(), e, rfl, next, fun settled =>
        settled.next (fun _ held => held) fun _ holds => holds⟩
    | some c =>
      rw [key] at cancelled
      obtain ⟨e', run, sound, drag, holds⟩ := h.exists_perform circular few key input.control cancelled
      refine .inl ⟨(), e', run, sound, fun settled =>
        settled.next (fun _ held => drag ▸ held) fun still part => ?_⟩
      by_cases free : e.drag = none
      · exact .of_free (drag.trans free)
      · have spares := still free
        rw [Event.rearranges, key] at spares
        exact holds spares part
  | press button place =>
    obtain ⟨p, rfl, inside⟩ := IsInWindow.exists_place inside
    have pressed : Change.on (handle input (.press button (.ok p))) e = Change.on
        (if (button = mainButton && !e.runner.running : Bool) then
          press (input.held.contains actionKey) (.ok p) else pure ()) e := rfl
    rw [pressed] at cancelled ⊢
    by_cases hits : (button = mainButton && !e.runner.running : Bool) = true
    · obtain ⟨e', run, sound, holds⟩ := h.exists_press circular inside (input.held.contains actionKey)
      obtain ⟨main, -⟩ := Bool.and_eq_true_iff.mp hits
      rw [if_pos hits]
      exact .inl ⟨(), e', run, sound, fun settled =>
        settled.next (fun down _ _ => by rw [Event.downAfter, main, Bool.or_true]) fun _ => holds⟩
    · rw [if_neg hits]
      exact .inl ⟨(), e, rfl, next, fun settled =>
        settled.next (fun down held some => by rw [Event.downAfter, held some, Bool.true_or])
          fun _ holds => holds⟩
  | release button =>
    rw [handle]
    by_cases main : button = mainButton
    · rw [if_pos main]
      have free : Sound trig answers (count + 1) { e with drag := none } :=
        ⟨next.asked, next.takes, next.settings, next.session, next.runner, fun d held =>
          absurd held.symm (Option.some_ne_none d)⟩
      exact .inl ⟨(), _, rfl, free, fun settled => settled.next (fun _ _ some => absurd rfl some)
        fun _ _ => .of_free rfl⟩
    · rw [if_neg main]
      refine .inl ⟨(), e, rfl, next, fun settled =>
        settled.next (fun down held some => ?_) fun _ holds => holds⟩
      rw [Event.downAfter, held some, decide_eq_true main, Bool.and_true]
  | move place =>
    obtain ⟨p, rfl, inside⟩ := IsInWindow.exists_place inside
    obtain ⟨e', run, sound, holds, free⟩ | ⟨fault, e', run, lost, gone, not⟩ :=
      h.exists_dragTo circular few inside
    · exact .inl ⟨(), e', run, sound.mono (Nat.le_succ count), fun settled =>
        settled.next (fun _ held some => held (some ∘ free)) fun _ _ => holds⟩
    · exact .inr ⟨fault, e', run, lost, gone, not ∘ Settled.holdsPart⟩

/-! ## The run of a sound editor -/

/-- A run goes on by the increment of the settings. -/
theorem Sound.exists_advance (circular : trig.Circular) (h : e.Sound trig answers count) :
    letI := trig.scalar
    ∃ e', Change.on advance e = (.ok (), e') ∧ e'.Sound trig answers count ∧ e'.drag = e.drag ∧
      e'.session = e.session := by
  let := trig.scalar
  have unfolds : Change.on advance e = Change.on
      (if e.runner.running then tickRun (standardIncrement e.settings) else pure ()) e := rfl
  rw [unfolds]
  by_cases going : e.runner.running = true
  · obtain ⟨values, settings, stepped⟩ := h.settings
    have increment : standardIncrement e.settings = .standard (.ok 16.0) := by
      rw [standardIncrement, settings, stepped.incrementOf_eq]
    have forward : ∃ v, Binary.HasValue (16.0 / Double.ofInt 1000) v ∧ 0 < v :=
      exists_hasValue_of_pos (by decide) (by decide)
    obtain ⟨finished, r, ticked, hr⟩ := Runner.completes_tick circular forward
      (by decide : 16 ≤ 700) e.runner ⟨h.runner, going⟩
    have ran := on_running (Runner.tick (.standard (.ok 16.0))) e
    rw [ticked] at ran
    have sound := h.with_runner hr
    rw [if_pos going, increment, tickRun, on_bind_ok ran]
    cases finished with
    | false => exact ⟨_, rfl, sound, rfl, rfl⟩
    | true =>
      rw [if_pos rfl, tellEnd, on_bind_ok (on_get _)]
      cases r.state with
      | none => exact ⟨_, rfl, sound, rfl, rfl⟩
      | some s => exact sound.on_say (finishedLine s)
  · rw [if_neg going]
    exact ⟨e, rfl, h, rfl, rfl⟩

/-! ## The picture of a sound editor -/

theorem gridStride_gridSpacing (trig : Trigonometry) :
    letI := trig.scalar
    gridStride gridSpacing = .ok 120 := by
  let := trig.scalar
  have down : Double.floor gridSpacing = .ok 120 := eq_ok_of_toOption (by decide)
  have positive : ¬ Scalar.lt gridSpacing 0 = true := by
    change ¬ decide (gridSpacing < Double.ofInt 0) = true
    decide
  have truncated : Scalar.truncate gridSpacing = .ok 120 := (if_neg positive).trans down
  exact bind_eq_ok.mpr ⟨120, truncated, rfl⟩

theorem Sound.exists_plannedMotion (circular : trig.Circular) (h : e.Sound trig answers count) :
    letI := trig.scalar
    ∃ preview, plannedMotion e = .ok preview := by
  let := trig.scalar
  rw [plannedMotion]
  by_cases going : e.runner.running = true
  · obtain ⟨p, s, plan, -, bounded, -⟩ := h.runner.exists_plan going
    obtain ⟨points, drawn⟩ := bounded.exists_previewPoints trig (by decide)
    rw [if_pos going, plan]
    exact ⟨some points, bind_eq_ok.mpr ⟨points, drawn, rfl⟩⟩
  · rw [if_neg going]
    by_cases field : e.session.mode.isField = true
    · obtain ⟨p, planned, bounded⟩ := h.exists_planOf circular
      obtain ⟨points, drawn⟩ := bounded.exists_previewPoints trig (by decide)
      rw [if_pos field]
      exact ⟨some points, bind_eq_ok.mpr ⟨p, planned, bind_eq_ok.mpr ⟨points, drawn, rfl⟩⟩⟩
    · rw [if_neg field]
      exact ⟨none, rfl⟩

theorem Sound.exists_statusLine (h : e.Sound trig answers count) : ∃ line, statusLine e = .ok line := by
  obtain ⟨values, settings, stepped⟩ := h.settings
  obtain ⟨simulation, shown, value⟩ := Settings.exists_flat values "sim" "speed_multiplier" rfl
  obtain ⟨programs, listed, -⟩ := Settings.exists_flat values "codegen" "arc_samples" rfl
  obtain ⟨x, speed, -⟩ := stepped.speed
  rw [speed] at value
  rw [statusLine, settings, shown, ok_bind, value, listed]
  exact ⟨_, rfl⟩

/-- The robot is shown at a bounded place. -/
theorem Sound.bounded_shownRobot (h : e.Sound trig answers count) {pose : Pose Float}
    (shown : shownRobot e.runner = some pose) : pose.Bounded 37 := by
  rw [shownRobot] at shown
  cases state : e.runner.state with
  | none =>
    rw [state] at shown
    cases shown
  | some s =>
    rw [state] at shown
    have bounded := h.runner.bounded s state
    obtain ⟨-, shown⟩ := Option.ite_none_right_eq_some.mp shown
    obtain rfl := Option.some.inj shown
    exact ⟨bounded.x, bounded.y, bounded.heading.mono (by decide)⟩

variable [Font]

theorem Sound.drawn_paint (circular : trig.Circular) (h : e.Sound trig answers count) :
    letI := trig.scalar
    Drawn (paint e) := by
  let := trig.scalar
  obtain ⟨preview, planned⟩ := h.exists_plannedMotion circular
  obtain ⟨line, status⟩ := h.exists_statusLine
  refine (drawn_grid trig (gridStride_gridSpacing trig)).bind fun _ =>
    (drawn_layout circular e.session.mode h.session.bounded (by decide) (by decide)).bind fun _ =>
      drawn_lift_bind planned (Drawn.bind ?_ fun _ => Drawn.bind ?_ fun _ =>
        drawn_lift_bind status ((drawn_status trig _ _ _).bind fun _ => drawn_pure _))
  · cases preview with
    | none => exact drawn_pure ()
    | some points => exact drawn_preview trig points
  · cases shown : shownRobot e.runner with
    | none => exact drawn_pure ()
    | some pose =>
      have bounded := h.bounded_shownRobot shown
      exact drawn_robot circular bounded.point bounded.h (by decide) (by decide)

theorem Sound.exists_report (circular : trig.Circular) (h : e.Sound trig answers count) :
    letI := trig.scalar
    ∃ r, report e = .ok r := by
  let := trig.scalar
  obtain ⟨view, picture, painted, -⟩ := h.drawn_paint circular #[] trivial
  have drawn : (paint e).strokes = (.ok view, picture) := painted
  rw [report, drawn]
  exact ⟨_, rfl⟩

/-! ## Frames of a sound editor -/

/-- After the last event of a frame the run goes on and the picture is drawn. -/
theorem Sound.lasts_ending (circular : trig.Circular) (h : e.Sound trig answers count) (input : Input) :
    letI := trig.scalar
    Lasts trig answers count (frameFrom input []) e (e.Settled coming) (Settled coming) := by
  let := trig.scalar
  obtain ⟨e', run, sound, drag, session⟩ := h.exists_advance circular
  obtain ⟨r, drawn⟩ := sound.exists_report circular
  have unfolds : frameFrom input [] = (do advance; liftM (report (← get)) : Editing Report) := rfl
  have ends : Change.on (frameFrom input []) e = (.ok r, e') := by
    rw [unfolds, on_bind_ok run, on_bind_ok (on_get e'), on_lift_ok drawn]
  exact fun _ => .inl ⟨r, e', ends, sound, fun settled => settled.congr drag session⟩

/-- In the rest of a frame every event counts as a step. -/
theorem Sound.lasts_frameFrom (circular : trig.Circular) (h : e.Sound trig answers count)
    (coming : List (Bool × Event)) (input : Input) {events : List Event}
    (inside : ∀ event ∈ events, event.InWindow) (few : count + events.length ≤ 2 ^ 52) :
    letI := trig.scalar
    Lasts trig answers (count + events.length) (frameFrom input events) e
      (e.Settled (events.map (input.control, ·) ++ coming)) (Settled coming) := by
  let := trig.scalar
  induction events generalizing e count with
  | nil => exact h.lasts_ending circular input
  | cons event rest ih =>
    obtain ⟨first, others⟩ := List.forall_mem_cons.mp inside
    rw [List.length_cons] at few ⊢
    rw [frameFrom_cons]
    refine (h.lasts_handle circular (by omega) input event first).bind
      (fun _ _ => keeps_frameFrom input rest) fun _ e' sound => ?_
    have later := ih sound others (by omega)
    rwa [show count + 1 + rest.length = count + (rest.length + 1) by omega] at later

/-- How many events the frames have together. -/
def eventCount (inputs : List Input) : Nat := (inputs.map (·.events.length)).sum

/-- Frames come to their end, unless one moves what the path does not have any more. -/
theorem Sound.exists_runFrames (circular : trig.Circular) (h : e.Sound trig answers count)
    {inputs : List Input} (inside : ∀ input ∈ inputs, ∀ event ∈ input.events, event.InWindow)
    (few : count + eventCount inputs ≤ 2 ^ 52) (shown : List Report)
    (cancelled : letI := trig.scalar; (runFrames shown inputs e).2.2.desk.Cancelled answers) :
    letI := trig.scalar
    (∃ reports e', runFrames shown inputs e = (reports, .ok (), e') ∧ e'.Sound trig answers (2 ^ 52)) ∨
    ∃ reports fault e', runFrames shown inputs e = (reports, .error fault, e') ∧ IsLost fault ∧
      ¬ e'.HoldsPart ∧ ¬ e.Settled (inputs.flatMap Input.moments) := by
  let := trig.scalar
  induction inputs generalizing e count shown with
  | nil => exact .inl ⟨shown, e, rfl, h.mono few⟩
  | cons input rest ih =>
    obtain ⟨first, others⟩ := List.forall_mem_cons.mp inside
    have all : eventCount (input :: rest) = input.events.length + eventCount rest := rfl
    have lasts := h.lasts_frameFrom circular (rest.flatMap Input.moments) input first (by omega)
    have framed : after (frame input) e = Change.on (frameFrom input input.events) e := rfl
    rw [runFrames, framed] at cancelled ⊢
    rw [Lasts] at lasts
    generalize Change.on (frameFrom input input.events) e = ended at cancelled lasts ⊢
    obtain ⟨fault | r, e'⟩ := ended
    · obtain ⟨r, e'', run, -⟩ | ⟨fault, e'', run, lost, gone, not⟩ := lasts cancelled
      · cases run
      · obtain ⟨same, rfl⟩ := Prod.mk.inj run
        obtain rfl := Except.error.inj same
        exact .inr ⟨shown, _, _, rfl, lost, gone, not⟩
    · dsimp only at cancelled ⊢
      have asked : e'.desk.Cancelled answers := by
        split at cancelled
        · exact (asked_runFrames (r :: shown) rest (.refl e'.desk)).cancelled cancelled
        · exact cancelled
      obtain ⟨r', e'', run, sound, goes⟩ | ⟨fault, e'', run, -⟩ := lasts asked
      · obtain ⟨-, rfl⟩ := Prod.mk.inj run
        cases opened : e'.opened with
        | false => exact .inl ⟨_, e', rfl, sound.mono (by omega)⟩
        | true =>
          rw [opened] at cancelled
          obtain ended | ⟨reports, fault, e'', ended, lost, gone, not⟩ :=
            ih sound others (by omega) (r :: shown) cancelled
          · exact .inl ended
          · exact .inr ⟨reports, fault, e'', ended, lost, gone, fun settled => not (goes settled)⟩
      · cases run

end

end PathStudio.Editor
