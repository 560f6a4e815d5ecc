import PathStudio.Proofs.Editor.Frame
import PathStudio.Proofs.Settings.Reload

/-!
# Visits that come to their end

A visit without a path to an empty folder starts with a sound editor, so its frames can only be refused
to a gesture that has lost its part. Otherwise the visit comes to its end and the settings are saved.
-/

namespace PathStudio.Editor

open Storage Simulation Window Change Double

section

variable {trig : Trigonometry} {answers : List (Option String)} {e e' : Editor}

/-! ## Starting -/

/-- A folder with the default settings in their file. -/
def defaultFolder : Folder :=
  Folder.empty.put [Settings.defaultPath] (.file (.text (Settings.defaults.write (.indented 2))))

theorem takes_defaultFolder : Filing.Takes defaultFolder (Settings.pathOr none) :=
  Filing.takes_of_find rfl (rfl : defaultFolder.find (Settings.pathOr none) =
    .ok (.file (.text (Settings.defaults.write (.indented 2)))))

/-- In an empty folder the settings are the defaults, and they are written to their file. -/
theorem on_load_empty (answers : List (Option String)) :
    Change.on (Settings.load none) (.new .empty answers) =
      (.ok Settings.defaults, .new defaultFolder answers) := by
  have written := Json.written_write (.indented 2) Settings.defaults
  have opens : Change.on (Filing.openFile (Settings.pathOr none)) Folder.empty =
      (.ok [Settings.defaultPath], Folder.empty.put [Settings.defaultPath] (.file (.text ""))) := rfl
  have extended (text : String) :
      (Folder.empty.put [Settings.defaultPath] (.file (.text ""))).extend [Settings.defaultPath] text =
        Folder.empty.put [Settings.defaultPath] (.file (.text ("" ++ text))) := rfl
  have filed : Change.on (Filing.write (Settings.pathOr none)
      [.ok (Settings.defaults.write (.indented 2))]) Folder.empty = (.ok (), defaultFolder) := by
    rw [Filing.on_write written, opens]
    dsimp only
    rw [extended, String.empty_append]
    rfl
  have wrote : Change.on (Settings.writeFile (Settings.pathOr none) Settings.defaults)
      (.new .empty answers) = (.ok (), .new defaultFolder answers) := by
    rw [Settings.writeFile]
    dsimp only
    rw [if_neg (by decide), Work.write, Json.pieces_of_hasLong _ Settings.hasLong_defaults,
      Work.on_filing, show (Desk.new .empty answers).folder = Folder.empty from rfl, filed]
    rfl
  have missing : Change.on (Settings.readFile (Settings.pathOr none)) (.new .empty answers) =
      (.ok none, .new .empty answers) := rfl
  have tried : Change.on (Work.outcome (Settings.writeFile (Settings.pathOr none) Settings.defaults))
      (.new .empty answers) = (.ok (.ok ()), .new defaultFolder answers) := by
    rw [Work.on_outcome, wrote]
  rw [Settings.load, on_bind_ok missing]
  exact on_bind_ok tried

/-- The editor says what it is and what it can be told. -/
def welcome : Work Unit := do
  Work.print title
  controls.forM fun c => Work.print (controlLine c)

theorem completes_welcome (d : Desk) :
    Completes (fun e => d.Later e ∧ e.folder = d.folder) welcome
      fun _ e => d.Later e ∧ e.folder = d.folder := by
  have prints (line : String) : Completes (fun e => d.Later e ∧ e.folder = d.folder)
      (Work.print line) fun _ e => d.Later e ∧ e.folder = d.folder :=
    completes_modify fun _ ⟨later, folder⟩ => ⟨later.congr rfl rfl, folder⟩
  exact (prints title).bind fun _ => completes_forM fun c _ => prints (controlLine c)

/-- A desk with the default settings and the welcome that has been printed. -/
def welcomed (answers : List (Option String)) : Desk :=
  (Change.on welcome (.new defaultFolder answers)).2

/-- A visit without a path to an empty folder starts with the default settings. -/
theorem after_start_empty (trig : Trigonometry) (answers : List (Option String)) :
    letI := trig.scalar
    after (start none) (new (.new .empty answers)) = (.ok (), new (welcomed answers)) := by
  let := trig.scalar
  have asked := on_atDesk (Settings.load none) (new (.new .empty answers))
  rw [show (new (.new .empty answers)).desk = Desk.new .empty answers from rfl, on_load_empty] at asked
  have kept (cfg : Json) (e : Editor) :
      Change.on (modify fun e => { e with settings := cfg } : Editing Unit) e =
        (.ok (), { e with settings := cfg }) := rfl
  have mode : Change.on (option "codegen" "mode") (new (.new defaultFolder answers)) =
      (.ok (.str "robot"), new (.new defaultFolder answers)) :=
    (on_option Settings.defaults_eq "codegen" "mode" rfl).trans rfl
  have opened : Change.on (openSession none) (new (.new defaultFolder answers)) =
      (.ok (), new (.new defaultFolder answers)) := on_bind_ok mode
  obtain ⟨_, d, run, -⟩ := completes_welcome (.new defaultFolder answers) _ ⟨.refl _, rfl⟩
  have told := on_atDesk welcome (new (.new defaultFolder answers))
  rw [show (new (.new defaultFolder answers)).desk = .new defaultFolder answers from rfl, run] at told
  rw [after_eq_on, start, on_bind_ok asked, on_bind_ok (kept _ _), welcomed, run]
  exact (on_bind_ok opened).trans told

theorem sound_welcomed (trig : Trigonometry) (answers : List (Option String)) :
    letI := trig.scalar
    (new (welcomed answers)).Sound trig answers 0 := by
  let := trig.scalar
  have started := keeps_load none (Desk.new .empty answers) (.refl _)
  rw [on_load_empty] at started
  obtain ⟨_, d, run, later, folder⟩ := completes_welcome (.new defaultFolder answers) _ ⟨.refl _, rfl⟩
  have same : welcomed answers = d := by rw [welcomed, run]
  rw [same]
  refine ⟨started.trans later, ?_, ⟨_, Settings.defaults_eq, Settings.stepped_defaults⟩,
    Session.sound_empty trig .robot, Runner.sound_idle trig 16,
    fun d held => absurd held.symm (Option.some_ne_none d)⟩
  rw [show (new d).desk.folder = d.folder from rfl, folder]
  exact takes_defaultFolder

/-- When a sound editor is closed the settings are saved. -/
theorem Sound.exists_close (h : e.Sound trig answers (2 ^ 52)) :
    ∃ e', after close e = (.ok (), e') ∧ e'.desk.folder.find Settings.defaultPath =
      .ok (.file (.text (e'.settings.write (.indented 2)))) := by
  obtain ⟨values, settings, stepped⟩ := h.settings
  have short : e.settings.hasLong = false := by
    rw [settings]
    exact stepped.hasLong_eq_false (by decide)
  obtain ⟨d, saved⟩ := Settings.exists_save h.takes short
  obtain ⟨-, there⟩ := Settings.takes_of_save short saved
  have asked := on_atDesk (Settings.save e.settings none) e
  rw [saved] at asked
  refine ⟨{ e with desk := d }, ?_, there⟩
  rw [after_eq_on, close, on_bind_ok (on_get e), on_bind_ok asked]
  rfl

section Visits

variable {scalar : Scalar Float} [Font] {path : Option String} {inputs : List Input} {desk : Desk}
  {fault : Fault} {reports : List Report} {e'' : Editor}

theorem visit_of_ok (started : after (start path) (new desk) = (.ok (), e))
    (ran : runFrames [] inputs e = (reports, .ok (), e')) (closed : after close e' = (.ok (), e'')) :
    visit path inputs desk = ⟨reports.reverse, none, e''⟩ := by
  rw [visit, started]
  dsimp only
  rw [ran]
  dsimp only
  rw [closed]

theorem visit_of_error (started : after (start path) (new desk) = (.ok (), e))
    (ran : runFrames [] inputs e = (reports, .error fault, e')) :
    visit path inputs desk = ⟨reports.reverse, some fault, e'⟩ := by
  rw [visit, started]
  dsimp only
  rw [ran]

theorem fault_visit (started : after (start path) (new desk) = (.ok (), e))
    (refused : (runFrames [] inputs e).2.1 = .error fault) :
    (visit path inputs desk).fault = some fault := by
  rcases ran : runFrames [] inputs e with ⟨reports, result, e'⟩
  rw [ran] at refused
  obtain rfl : result = .error fault := refused
  rw [visit_of_error started ran]

theorem later_visit (started : after (start path) (new desk) = (.ok (), e)) (inputs : List Input) :
    (runFrames [] inputs e).2.2.desk.Later (visit path inputs desk).editor.desk := by
  rw [visit, started]
  dsimp only
  generalize runFrames [] inputs e = ended
  obtain ⟨shown, fault | _, e'⟩ := ended
  · exact .refl e'.desk
  · have closes : Asked e'.desk (after close e').2 := keeps_close e' (.refl e'.desk)
    dsimp only
    generalize after close e' = closed at closes
    obtain ⟨fault | _, e''⟩ := closed <;> exact closes

end Visits

/-- A visit to an empty folder in which the mouse stays in the window and all dialogs for files are
cancelled. It comes to its end with the settings saved, or it is refused when the mouse moves with a
gesture whose part the path does not have any more; and if no key takes a part of the path away while
the main button is down, it comes to its end. -/
theorem visit_refused_only_for_lost_part [Font] (circular : trig.Circular) {inputs : List Input}
    (inside : ∀ input ∈ inputs, ∀ event ∈ input.events, event.InWindow)
    (few : eventCount inputs ≤ 2 ^ 52) (answers : List (Option String)) :
    letI := trig.scalar
    let v := visit none inputs (.new .empty answers)
    v.editor.desk.Cancelled answers →
      (v.fault = none ∧ v.editor.desk.folder.find Settings.defaultPath =
          .ok (.file (.text (v.editor.settings.write (.indented 2)))) ∨
        ∃ fault, v.fault = some fault ∧ IsLost fault ∧ ¬ v.editor.HoldsPart) ∧
      (undisturbed false (inputs.flatMap Input.moments) = true → v.fault = none) := by
  dsimp only
  intro cancelled
  have sound := sound_welcomed trig answers
  have begun := after_start_empty trig answers
  have settled (calm : undisturbed false (inputs.flatMap Input.moments) = true) :
      Settled (inputs.flatMap Input.moments) (new (welcomed answers)) :=
    ⟨false, fun held => absurd rfl held, .of_free rfl, calm⟩
  obtain ⟨reports, e', ran, sound⟩ | ⟨reports, fault, e', ran, lost, gone, not⟩ :=
    sound.exists_runFrames circular inside (by omega) []
      ((later_visit begun inputs).cancelled cancelled)
  · obtain ⟨e'', closed, saved⟩ := sound.exists_close
    rw [visit_of_ok begun ran closed]
    exact ⟨.inl ⟨rfl, saved⟩, fun _ => rfl⟩
  · rw [visit_of_error begun ran]
    exact ⟨.inr ⟨fault, rfl, lost, gone⟩, fun calm => absurd (settled calm) not⟩

end

/-! ## Two visits -/

theorem circular_axes : Program.Robot.axes.Circular where
  toLawful := Program.Robot.lawful_axes
  cos_bounds x _ := by
    rw [Program.Robot.axes]
    dsimp only
    split <;> exact ⟨by decide, by decide⟩
  sin_bounds x _ := by
    rw [Program.Robot.axes]
    dsimp only
    split <;> exact ⟨by decide, by decide⟩

/-- An input without the control key. -/
def plainInput (events : List Event) (held : List String) : Input := ⟨events, false, held⟩

/-- A press of the main button at a pixel. -/
def pressAt (x y : Float) : Event := .press mainButton (.ok ⟨x, y⟩)

/-- A waypoint is added, dragged, released and then deleted, an action is named, the speed is changed
in field mode, and the routine is not saved after all. -/
def deletedAfterRelease : List Input :=
  [plainInput [pressAt 450.0 300.0, .release mainButton, pressAt 450.0 300.0,
      .move (.ok ⟨460.0, 300.0⟩), .release mainButton, .key "DELETE"] [],
    plainInput [pressAt 200.0 500.0, .release mainButton] [actionKey],
    plainInput [.key "m", .key "PLUS", .key "s"] [], .closing]

/-- A waypoint is deleted while it is held, and then the mouse moves. -/
def deletedWhileHeld : List Input :=
  [[pressAt 450.0 300.0], [.release mainButton], [pressAt 450.0 300.0], [.key "DELETE"],
    [.move (.ok ⟨460.0, 300.0⟩)]].map fun events => plainInput events []

theorem visit_refused_only_for_lost_part_deletedAfterRelease :
    letI := Program.Robot.axes.scalar
    let v := visit none deletedAfterRelease (.new .empty [])
    (∀ input ∈ deletedAfterRelease, ∀ event ∈ input.events, event.InWindow) ∧
      eventCount deletedAfterRelease ≤ 2 ^ 52 ∧ v.editor.desk.Cancelled [] ∧
      undisturbed false (deletedAfterRelease.flatMap Input.moments) = true ∧ v.fault = none ∧
      v.editor.desk.folder.find Settings.defaultPath =
        .ok (.file (.text (v.editor.settings.write (.indented 2)))) := by
  have inside : ∀ input ∈ deletedAfterRelease, ∀ event ∈ input.events, event.InWindow := by
    decide
  have few : eventCount deletedAfterRelease ≤ 2 ^ 52 := by decide
  have calm : undisturbed false (deletedAfterRelease.flatMap Input.moments) = true := by decide
  have cancelled (d : Desk) : d.Cancelled [] := fun _ _ _ _ => rfl
  obtain ⟨ends, calmly⟩ :=
    visit_refused_only_for_lost_part circular_axes inside few [] (cancelled _)
  have complete := calmly calm
  obtain ⟨-, saved⟩ | ⟨fault, refused, -⟩ := ends
  · dsimp only
    exact ⟨inside, few, cancelled _, calm, complete, saved⟩
  · cases complete.symm.trans refused

/-- The movement of what has been deleted while it was held ends the visit. -/
theorem visit_refused_deletedWhileHeld :
    letI := Program.Robot.axes.scalar
    let v := visit none deletedWhileHeld (.new .empty [])
    (∀ input ∈ deletedWhileHeld, ∀ event ∈ input.events, event.InWindow) ∧
      v.editor.desk.Cancelled [] ∧ v.fault = some .listIndex := by
  have cancelled (d : Desk) : d.Cancelled [] := fun _ _ _ _ => rfl
  dsimp only
  refine ⟨by decide, cancelled _, ?_⟩
  exact fault_visit (after_start_empty Program.Robot.axes []) (by decide +kernel)

end PathStudio.Editor
