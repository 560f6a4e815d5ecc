import PathStudio.Proofs.Editor.Asking
import PathStudio.Proofs.Program.Totality
import PathStudio.Proofs.Settings.Stepping
import PathStudio.Proofs.Simulation.Totality
import PathStudio.Proofs.Window.Grip

/-!
# Sound editors

An editor is sound if its settings differ from the defaults by steps only, if the numbers of its
session and of its run are bounded, and if its gesture began on a part of a path. The commands of the
keyboard and the presses of the mouse are carried out on a sound editor, and it stays sound, unless a
dialog for a file is answered with a path.
-/

namespace PathStudio.Editor

open Storage Simulation Window Change Double

/-- A gesture on a part of the editor's own session. -/
def holding (hit : Hit) (moved : Bool) : Drag := ⟨{ Gesture.ofHit hit with moved }, none⟩

/-- A gesture that began on a part of a path with so many waypoints at most. -/
def Drag.Began (count : Nat) (d : Drag) : Prop :=
  ∃ (hit : Hit) (moved : Bool) (l : Layout Float),
    d = holding hit moved ∧ Grips l hit ∧ l.waypoints.length ≤ count

/-- The gesture under way, if there is one, holds a part that the path has. -/
def HoldsPart (e : Editor) : Prop :=
  ∀ d, e.drag = some d → ∃ hit moved, d = holding hit moved ∧ Grips e.session.toLayout hit

/-- An editor that no work has to be refused to. The numbers of the path are bounded by the size of the
field, and as many waypoints as steps can have been added. -/
structure Sound (trig : Trigonometry) (answers : List (Option String)) (count : Nat) (e : Editor) :
    Prop where
  asked : (Desk.new .empty answers).Later e.desk
  takes : Filing.Takes e.desk.folder (Settings.pathOr none)
  settings : ∃ values : Settings.Values, e.settings = Settings.settingsOf values ∧
    values.Stepped (count + 5)
  session : e.session.Sound 16 count
  runner : e.runner.Sound trig 16
  drag : ∀ d, e.drag = some d → d.Began count

section

variable {trig : Trigonometry} {answers : List (Option String)} {count : Nat} {e e' : Editor}

/-- Where there is no gesture, none has lost its part. -/
theorem HoldsPart.of_free (free : e.drag = none) : e.HoldsPart :=
  fun d held => absurd (held.symm.trans free) (Option.some_ne_none d)

/-- What is held stays held while the waypoints do. -/
theorem HoldsPart.congr (h : e.HoldsPart) (drag : e'.drag = e.drag)
    (waypoints : e'.session.waypoints = e.session.waypoints) : e'.HoldsPart := by
  intro d hd
  obtain ⟨hit, moved, holds, grips⟩ := h d (drag ▸ hd)
  exact ⟨hit, moved, holds, grips.append [] (waypoints.trans (List.append_nil _).symm)⟩

namespace Sound

theorem mono (h : e.Sound trig answers count) {more : Nat} (le : count ≤ more) :
    e.Sound trig answers more := by
  obtain ⟨values, settings, stepped⟩ := h.settings
  refine ⟨h.asked, h.takes, ⟨values, settings, stepped.mono (by omega)⟩, h.session.mono le, h.runner,
    fun d hd => ?_⟩
  obtain ⟨hit, moved, l, holds, grips, few⟩ := h.drag d hd
  exact ⟨hit, moved, l, holds, grips, few.trans le⟩

theorem with_desk (h : e.Sound trig answers count) {d : Desk} (later : e.desk.Later d)
    (folder : d.folder = e.desk.folder) : Sound trig answers count { e with desk := d } :=
  ⟨h.asked.trans later, folder ▸ h.takes, h.settings, h.session, h.runner, h.drag⟩

theorem with_session (h : e.Sound trig answers count) {s : Session Float} (hs : s.Sound 16 count) :
    Sound trig answers count { e with session := s } :=
  ⟨h.asked, h.takes, h.settings, hs, h.runner, h.drag⟩

theorem with_runner (h : e.Sound trig answers count) {r : Runner Float} (hr : r.Sound trig 16) :
    Sound trig answers count { e with runner := r } :=
  ⟨h.asked, h.takes, h.settings, h.session, hr, h.drag⟩

theorem with_settings (h : e.Sound trig answers count) {values : Settings.Values}
    (stepped : values.Stepped (count + 5)) :
    Sound trig answers count { e with settings := Settings.settingsOf values } :=
  ⟨h.asked, h.takes, ⟨values, rfl, stepped⟩, h.session, h.runner, h.drag⟩

theorem with_drag (h : e.Sound trig answers count) {d : Drag} (began : d.Began count) :
    Sound trig answers count { e with drag := some d } := by
  refine ⟨h.asked, h.takes, h.settings, h.session, h.runner, ?_⟩
  rintro _ ⟨⟩
  exact began

theorem with_log (h : e.Sound trig answers count) (log : List String) :
    Sound trig answers count { e with log } :=
  ⟨h.asked, h.takes, h.settings, h.session, h.runner, h.drag⟩

end Sound

/-! ## Work that leaves the path alone -/

/-- Work that a sound editor carries out and is sound after, unless a dialog for a file is answered
with a path. The gesture and the waypoints stay. -/
def Spares (trig : Trigonometry) (answers : List (Option String)) (w : Editing Unit) : Prop :=
  ∀ count e, count < 2 ^ 52 → e.Sound trig answers count →
    (Change.on w e).2.desk.Cancelled answers →
    ∃ e', Change.on w e = (.ok (), e') ∧ e'.Sound trig answers (count + 1) ∧ e'.drag = e.drag ∧
      e'.session.waypoints = e.session.waypoints

theorem Sound.on_say (h : e.Sound trig answers count) (line : String) :
    ∃ e', Change.on (say line) e = (.ok (), e') ∧ e'.Sound trig answers count ∧ e'.drag = e.drag ∧
      e'.session = e.session :=
  ⟨_, rfl, (h.with_log _).with_desk (keeps_print line e.desk (.refl _)) rfl, rfl, rfl⟩

/-- An option is looked up in the settings. -/
theorem on_option {values : Settings.Values} {s : Settings.Spec}
    (settings : e.settings = Settings.settingsOf values) (group key : String)
    (found : Settings.spec? group key = some s) :
    Change.on (option group key) e = (.ok (values group key), e) := by
  obtain ⟨view, flat, value⟩ := Settings.exists_flat values group key found
  rw [← value]
  refine (on_bind_ok (on_get e)).trans ?_
  rw [settings, flat]
  rfl

/-- A value that is offered is taken or turned down, and the log says so. -/
theorem Sound.on_offer (h : e.Sound trig answers count) (group key : String) {value : Json}
    (set : (∃ cause, Settings.setOption group key value e.settings = .error (.rejected cause)) ∨
      ∃ (after : Settings.Values) (taken : Json), after.Stepped (count + 1 + 5) ∧
        Settings.setOption group key value e.settings = .ok (Settings.settingsOf after, taken)) :
    ∃ e', Change.on (offer group key value) e = (.ok (), e') ∧ e'.Sound trig answers (count + 1) ∧
      e'.drag = e.drag ∧ e'.session = e.session := by
  have more := h.mono (Nat.le_succ count)
  obtain ⟨cause, set⟩ | ⟨after, taken, stepped, set⟩ := set
  · obtain ⟨e', said, sound, drag, session⟩ :=
      more.on_say ("Rejected " ++ (group ++ "." ++ key) ++ ": " ++ cause.message)
    refine ⟨e', (on_bind_ok (on_get e)).trans ?_, sound, drag, session⟩
    rw [set]
    exact said
  · obtain ⟨e', said, sound, drag, session⟩ := (more.with_settings stepped).on_say
      (group ++ "." ++ key ++ " = " ++ String.ofList value.plain)
    refine ⟨e', (on_bind_ok (on_get e)).trans ?_, sound, drag, session⟩
    rw [set]
    exact said

theorem spares_changeSpeed (step : Float) : Spares trig answers (changeSpeed step) := by
  intro count e few h _
  obtain ⟨values, settings, stepped⟩ := h.settings
  obtain ⟨x, speed, -⟩ := stepped.speed
  have looked := on_option settings "sim" "speed_multiplier" rfl
  rw [speed] at looked
  obtain ⟨e', offered, sound, drag, session⟩ := h.on_offer "sim" "speed_multiplier" (by
    rw [settings]
    exact (stepped.mono (by omega)).setOption_speed (x + step))
  exact ⟨e', (on_bind_ok looked).trans ((on_bind_ok (on_lift_ok rfl e)).trans offered), sound, drag,
    by rw [session]⟩

theorem spares_changeSamples {step : Int} (least : -1 ≤ step) (most : step ≤ 1) :
    Spares trig answers (changeSamples step) := by
  intro count e few h _
  obtain ⟨values, settings, stepped⟩ := h.settings
  obtain ⟨n, samples, lower, upper⟩ := stepped.samples
  have looked := on_option settings "codegen" "arc_samples" rfl
  rw [samples] at looked
  obtain ⟨e', offered, sound, drag, session⟩ := h.on_offer "codegen" "arc_samples" (by
    rw [settings]
    exact (stepped.mono (by omega)).setOption_samples (by omega : 0 ≤ n + step)
      (by push_cast at upper ⊢; omega) (by omega))
  exact ⟨e', (on_bind_ok looked).trans ((on_bind_ok (on_lift_ok rfl e)).trans offered), sound, drag,
    by rw [session]⟩

theorem spares_toggleMode : Spares trig answers toggleMode := by
  intro count e _ h _
  have more := h.mono (Nat.le_succ count)
  exact ⟨_, rfl, more.with_session ⟨more.session.layouts, more.session.anchored, _, rfl⟩, rfl, rfl⟩

/-! ### Files -/

/-- A document whose dialog is cancelled leaves the editor as it was. -/
theorem Sound.on_document (h : e.Sound trig answers count) {α : Type} {w : Work (Option α)}
    {g : Option α → Editing Unit} (document : IsDocument none w)
    (asks : ∀ (d : Desk) answer, Keeps (Asked d) (g answer))
    (cancelled : (Change.on (atDesk w >>= g) e).2.desk.Cancelled answers) :
    ∃ e', Change.on (atDesk w >>= g) e = Change.on (g none) e' ∧ e'.Sound trig answers count ∧
      e'.drag = e.drag ∧ e'.session = e.session := by
  have first : (Change.on w e.desk).2.Cancelled answers := by
    rw [on_bind, on_atDesk] at cancelled
    generalize Change.on w e.desk = asked at cancelled ⊢
    obtain ⟨fault | answer, d⟩ := asked
    · exact cancelled
    · exact (asks d answer { e with desk := d } (.refl d)).cancelled cancelled
  obtain ⟨d, nothing, later, folder⟩ := document.on_of_cancelled h.asked first
  have asked := on_atDesk w e
  rw [nothing] at asked
  exact ⟨_, on_bind_ok asked, h.with_desk later folder, rfl, rfl⟩

/-- A command for a document that does nothing without a path spares the path. -/
theorem spares_document {α : Type} {w : Editor → Work (Option α)} {g : Option α → Editing Unit}
    (document : ∀ e, IsDocument none (w e)) (asks : ∀ (d : Desk) answer, Keeps (Asked d) (g answer))
    (nothing : g none = pure ()) : Spares trig answers (do g (← atDesk (w (← get)))) := by
  intro count e _ h cancelled
  obtain ⟨e', run, sound, drag, session⟩ := h.on_document (document e) asks cancelled
  refine ⟨e', run.trans ?_, sound.mono (Nat.le_succ count), drag, by rw [session]⟩
  rw [nothing]
  rfl

theorem spares_save : Spares trig answers save := by
  refine spares_document (fun e => isDocument_saveRoutine e.session none) (fun d answer => ?_) rfl
  cases answer with
  | none => exact keeps_pure _
  | some path => exact keeps_say_asked _

theorem spares_load : Spares trig answers load := by
  refine spares_document (fun _ => isDocument_loadRoutine none) (fun d answer => ?_) rfl
  cases answer with
  | none => exact keeps_pure _
  | some session => exact Leads.keeps_bind (leads_modify fun _ h => h) fun _ => keeps_say_asked _

theorem spares_exportLog : Spares trig answers exportLog := by
  refine spares_document (fun e => isDocument_exportLog (e.log.map .ok) none) (fun d answer => ?_) rfl
  split
  · exact leads_modify fun _ h => h
  · exact keeps_pure _

/-! ## Work with the path -/

/-- Work that a sound editor carries out and is sound after. -/
def Goes (trig : Trigonometry) (answers : List (Option String)) (count : Nat) (e : Editor)
    (w : Editing Unit) : Prop :=
  ∃ e', Change.on w e = (.ok (), e') ∧ e'.Sound trig answers count ∧ e'.drag = e.drag

theorem Sound.exists_planOf (circular : trig.Circular) (h : e.Sound trig answers count) :
    letI := trig.scalar
    ∃ p, planOf e.settings e.session = .ok p ∧ p.Bounded 16 := by
  let := trig.scalar
  obtain ⟨values, settings, stepped⟩ := h.settings
  obtain ⟨speeds, found, sound⟩ := stepped.sound_speedsOf
  obtain ⟨p, built, -, bounded⟩ :=
    exists_buildPlan circular sound e.session.mode h.session.bounded (by decide)
  exact ⟨p, by rw [planOf, settings, found, ok_bind, built], bounded⟩

theorem spares_decode :
    letI := trig.scalar
    Spares trig answers decode := by
  let := trig.scalar
  refine spares_document (fun _ => isDocument_readProgram none) (fun d answer => ?_) rfl
  cases answer with
  | none => exact keeps_pure _
  | some text => exact (steady_later d).keeps_decodeText text

theorem spares_exportProgram (circular : trig.Circular) :
    letI := trig.scalar
    Spares trig answers exportProgram := by
  let := trig.scalar
  intro count e few h cancelled
  obtain ⟨values, settings, stepped⟩ := h.settings
  obtain ⟨samples, asked, least, most⟩ := stepped.exists_samplesOf
  have moves : e.session.toLayout.moves.length < 2 ^ 53 :=
    (List.length_filterMap_le _ _).trans_lt (h.session.layout.few.trans_lt (by omega))
  obtain ⟨text, encoded⟩ := Program.exists_encode circular h.session.bounded (by decide) moves
    (by omega : 0 < samples) (by push_cast at most; omega)
  have generated : Program.generate e.settings e.session = .ok (String.ofList text) := by
    rw [Program.generate, settings, asked, ok_bind, encoded]
    rfl
  have exporting : Change.on exportProgram e =
      Change.on (do let _ ← atDesk (Storage.exportProgram (.ok (String.ofList text)) none)) e := by
    refine (on_bind_ok (on_get e)).trans ?_
    rw [generated]
    rfl
  rw [exporting] at cancelled ⊢
  obtain ⟨e', run, sound, drag, session⟩ := h.on_document
    (isDocument_exportProgram (.ok (String.ofList text)) none) (fun _ _ => keeps_pure ()) cancelled
  exact ⟨e', run, sound.mono (Nat.le_succ count), drag, by rw [session]⟩

theorem spares_toggleRun (circular : trig.Circular) :
    letI := trig.scalar
    Spares trig answers toggleRun := by
  let := trig.scalar
  intro count e few h _
  have more := h.mono (Nat.le_succ count)
  have unfolds : Change.on toggleRun e = Change.on (if e.runner.running then do
      set { e with runner := e.runner.halt }
      say "Simulation halted"
    else startRun (planOf e.settings e.session) (shownMode e.session)) e := rfl
  rw [unfolds]
  by_cases going : e.runner.running = true
  · obtain ⟨e', said, sound, drag, session⟩ :=
      (more.with_runner more.runner.halt).on_say "Simulation halted"
    rw [if_pos going]
    exact ⟨e', said, sound, drag, by rw [session]⟩
  · obtain ⟨p, planned, bounded⟩ := h.exists_planOf circular
    obtain ⟨begun, r, started, hr⟩ :=
      Runner.completes_start trig ⟨p, planned, bounded⟩ e.runner h.runner
    have ran := on_running (Runner.start (planOf e.settings e.session)) e
    rw [started] at ran
    have sound := more.with_runner hr
    rw [if_neg going, startRun, on_bind_ok ran]
    cases begun with
    | true =>
      obtain ⟨e', said, sound, drag, session⟩ := sound.on_say (startedLine (shownMode e.session))
      exact ⟨e', said, sound, drag, by rw [session]⟩
    | false => exact ⟨_, rfl, sound, rfl, rfl⟩

/-! ## Edits of the path -/

theorem on_editing {α : Type} (edit : Edit Float α) (e : Editor) :
    Change.on (editing edit) e =
      ((Change.on edit e.session).1, { e with session := (Change.on edit e.session).2 }) := by
  rw [editing, on_bind]
  rfl

/-- An edit that is carried out. -/
theorem Sound.on_editing (h : e.Sound trig answers count) {α : Type} {edit : Edit Float α} {a : α}
    {s : Session Float} (run : Change.on edit e.session = (.ok a, s)) (hs : s.Sound 16 count) :
    Change.on (editing edit) e = (.ok a, { e with session := s }) ∧
      Sound trig answers count { e with session := s } := by
  refine ⟨?_, h.with_session hs⟩
  rw [Editor.on_editing, run]

theorem goes_undo (h : e.Sound trig answers count) :
    letI := trig.scalar
    Goes trig answers count e (perform true .undo) := by
  let := trig.scalar
  obtain ⟨b, s, run, hs⟩ := Edit.exists_undo h.session
  obtain ⟨edited, sound⟩ := h.on_editing run hs
  exact ⟨_, on_bind_ok edited, sound, rfl⟩

theorem goes_deleteSelected (h : e.Sound trig answers count) :
    letI := trig.scalar
    Goes trig answers count e deleteSelected := by
  let := trig.scalar
  rw [Goes, deleteSelected, on_bind_ok (on_get e), selectedIndex]
  cases selected : e.session.selection with
  | none => exact ⟨e, rfl, h, rfl⟩
  | some j =>
    obtain ⟨s, run, hs⟩ := Edit.exists_deleteWaypoint trig h.session _ selected
    obtain ⟨edited, sound⟩ := h.on_editing run hs
    exact ⟨_, edited, sound, rfl⟩

theorem goes_retypeSelected (h : e.Sound trig answers count) (kind : MoveKind) :
    letI := trig.scalar
    Goes trig answers count e (retypeSelected kind) := by
  let := trig.scalar
  rw [Goes, retypeSelected, on_bind_ok (on_get e), selectedIndex]
  cases selected : e.session.selection with
  | none => exact ⟨e, rfl, h, rfl⟩
  | some j =>
    obtain ⟨w, looked, retypes⟩ := Edit.exists_retypeWaypoint trig h.session _ selected kind
    obtain ⟨found, -⟩ := h.on_editing looked h.session
    dsimp only [Option.map_some]
    rw [on_bind_ok found]
    cases w with
    | action a => exact ⟨e, rfl, h, rfl⟩
    | move m =>
      obtain ⟨s, run, hs⟩ := retypes m rfl
      obtain ⟨edited, sound⟩ := h.on_editing run hs
      exact ⟨_, edited, sound, rfl⟩

/-! ## Commands -/

/-- Whether a command may take a part of the path away, with the control key or without. -/
def Command.rearranges (control : Bool) : Command → Bool
  | .undo => control
  | .retype _ | .delete => true
  | _ => false

/-- The keys ask for at most one sample more or less. -/
theorem step_of_ofKey? {name : String} {step : Int}
    (h : Command.ofKey? name = some (.changeSamples step)) : -1 ≤ step ∧ step ≤ 1 := by
  have all : ∀ c ∈ commands, c.2 = .changeSamples step → -1 ≤ step ∧ step ≤ 1 := by
    simp [commands]
    omega
  obtain ⟨c, found, is⟩ := Option.map_eq_some_iff.mp h
  exact all c (List.mem_of_find?_eq_some found) is

/-- A sound editor carries out the command of a key, and if that takes no part away, it holds what it
held. -/
theorem Sound.exists_perform (circular : trig.Circular) (h : e.Sound trig answers count)
    (few : count < 2 ^ 52) {name : String} {c : Command} (key : Command.ofKey? name = some c)
    (control : Bool)
    (cancelled : letI := trig.scalar; (Change.on (perform control c) e).2.desk.Cancelled answers) :
    letI := trig.scalar
    ∃ e', Change.on (perform control c) e = (.ok (), e') ∧ e'.Sound trig answers (count + 1) ∧
      e'.drag = e.drag ∧ (c.rearranges control = false → e.HoldsPart → e'.HoldsPart) := by
  let := trig.scalar
  have spared (spares : Spares trig answers (perform control c)) :
      ∃ e', Change.on (perform control c) e = (.ok (), e') ∧ e'.Sound trig answers (count + 1) ∧
        e'.drag = e.drag ∧ (c.rearranges control = false → e.HoldsPart → e'.HoldsPart) := by
    obtain ⟨e', run, sound, drag, waypoints⟩ := spares count e few h cancelled
    exact ⟨e', run, sound, drag, fun _ holds => holds.congr drag waypoints⟩
  have edited (goes : Goes trig answers count e (perform control c))
      (rearranges : c.rearranges control = true) :
      ∃ e', Change.on (perform control c) e = (.ok (), e') ∧ e'.Sound trig answers (count + 1) ∧
        e'.drag = e.drag ∧ (c.rearranges control = false → e.HoldsPart → e'.HoldsPart) := by
    obtain ⟨e', run, sound, drag⟩ := goes
    exact ⟨e', run, sound.mono (Nat.le_succ count), drag, fun none =>
      absurd (rearranges.symm.trans none) (by decide)⟩
  cases c with
  | toggleRun => exact spared (spares_toggleRun circular)
  | toggleMode => exact spared spares_toggleMode
  | changeSpeed step => exact spared (spares_changeSpeed step)
  | changeSamples step =>
    obtain ⟨least, most⟩ := step_of_ofKey? key
    exact spared (spares_changeSamples least most)
  | save => exact spared spares_save
  | load => exact spared spares_load
  | exportProgram => exact spared (spares_exportProgram circular)
  | decode => exact spared spares_decode
  | exportLog => exact spared spares_exportLog
  | undo =>
    cases control with
    | false => exact ⟨e, rfl, h.mono (Nat.le_succ count), rfl, fun _ holds => holds⟩
    | true => exact edited (goes_undo h) rfl
  | retype kind => exact edited (goes_retypeSelected h kind) rfl
  | delete => exact edited (goes_deleteSelected h) rfl

end

end PathStudio.Editor
