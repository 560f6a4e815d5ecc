import PathStudio.Editor.Frame
import PathStudio.Proofs.Storage.Asking
import PathStudio.Proofs.Text.Scanning

/-!
# Messages about the run

The log says when a run has been started, halted or finished. All work of the editor but the toggling
of a run, its advance and the export of the log leaves the run alone and says nothing of it. So
whatever does not depend on the other parts of the editor is kept by that work.
-/

namespace PathStudio.Editor

open Storage Change

/-! ## Messages -/

/-- What a line of the log may say of the run. -/
inductive RunMessage where
  | started
  | halted
  | finished
  deriving DecidableEq, Repr

namespace RunMessage

/-- The words that a message begins with. -/
def words : RunMessage → String
  | started => "Simulation started"
  | halted => "Simulation halted"
  | finished => "Simulation finished"

/-- All messages. -/
def all : List RunMessage := [started, halted, finished]

/-- What a line says of the run, if it does. -/
def ofLine? (line : String) : Option RunMessage :=
  all.find? fun m => Text.startsWith m.words.toList line.toList

/-- What lines say of the run. -/
def ofLines (lines : List String) : List RunMessage := lines.filterMap ofLine?

/-- A word that no message begins with, however it goes on. -/
def Apart (word : String) : Prop :=
  ∀ m ∈ all, ¬ m.words.toList <+: word.toList ∧ ¬ word.toList <+: m.words.toList

instance (word : String) : Decidable (Apart word) := inferInstanceAs (Decidable (∀ m ∈ all, _))

theorem ofLine?_of_apart {word : String} (h : Apart word) (rest : String) :
    ofLine? (word ++ rest) = none := by
  refine List.find?_eq_none.mpr fun m hm begins => ?_
  rw [Text.startsWith_iff_isPrefix, String.toList_append] at begins
  obtain ⟨longer, shorter⟩ := h m hm
  obtain within | within := List.prefix_or_prefix_of_prefix begins (List.prefix_append ..)
  · exact longer within
  · exact shorter within

theorem eq_of_isPrefix {m other : RunMessage} (h : other.words.toList <+: m.words.toList) :
    other = m := by
  cases other <;> cases m <;> revert h <;> decide

theorem ofLine?_of_isPrefix {m : RunMessage} {word : String} (h : m.words.toList <+: word.toList)
    (rest : String) : ofLine? (word ++ rest) = some m := by
  have begins (other : RunMessage) :
      Text.startsWith other.words.toList (word ++ rest).toList = decide (other = m) := by
    rw [Bool.eq_iff_iff, Text.startsWith_iff_isPrefix, String.toList_append, decide_eq_true_iff]
    have within : m.words.toList <+: word.toList ++ rest.toList := h.trans (List.prefix_append ..)
    constructor
    · intro begins
      obtain shorter | longer := List.prefix_or_prefix_of_prefix begins within
      · exact eq_of_isPrefix shorter
      · exact (eq_of_isPrefix longer).symm
    · rintro rfl
      exact within
  rw [ofLine?, funext begins]
  cases m <;> rfl

end RunMessage

/-! ## Steady properties -/

/-- A property of editors that stays when the parts of the editor beside the run change: when the desk
becomes a later one, and when lines are logged that are not about the run. -/
structure Steady (P : Editor → Prop) : Prop where
  desk : ∀ {e : Editor} {d : Desk}, P e → e.desk.Later d → P { e with desk := d }
  settings : ∀ {e : Editor} (settings : Json), P e → P { e with settings }
  session : ∀ {e : Editor} (session : Session Float), P e → P { e with session }
  drag : ∀ {e : Editor} (drag : Option Drag), P e → P { e with drag }
  said : ∀ {e : Editor} {line : String}, P e → RunMessage.ofLine? line = none →
    P { e with log := e.log ++ [line] }

namespace Steady

variable {P : Editor → Prop} (steady : Steady P)

include steady

theorem keeps_atDesk {α : Type} {w : Work α} (asks : ∀ d : Desk, Keeps d.Later w) :
    Keeps P (atDesk w) := by
  intro s hs
  rw [atDesk, on_bind]
  exact steady.desk hs (asks s.desk s.desk (.refl _))

theorem keeps_editing {α : Type} (edit : Edit Float α) : Keeps P (editing edit) := by
  intro s hs
  rw [editing, on_bind]
  exact steady.session _ hs

omit steady in
theorem keeps_option (group key : String) : Keeps P (option group key) := by
  refine leads_get_bind fun s hs => (keeps_lift _).keeps_bind (fun view => ?_) s hs
  exact keeps_pure _

theorem keeps_say {line : String} (other : RunMessage.ofLine? line = none) : Keeps P (say line) :=
  Leads.keeps_bind (leads_modify fun _ hs => steady.said hs other) fun _ =>
    steady.keeps_atDesk fun _ => keeps_print line

theorem keeps_offer {group : String} (apart : RunMessage.Apart group) (key : String) (value : Json) :
    Keeps P (offer group key value) := by
  refine leads_get_bind fun s hs => ?_
  cases Settings.setOption group key value s.settings with
  | ok changed =>
    refine (Leads.keeps_bind (leads_modify fun _ ht => steady.settings _ ht) fun _ =>
      steady.keeps_say ?_) s hs
    simp only [String.append_assoc]
    exact RunMessage.ofLine?_of_apart apart _
  | error fault =>
    cases fault with
    | rejected cause =>
      refine steady.keeps_say ?_ s hs
      simp only [String.append_assoc]
      exact RunMessage.ofLine?_of_apart (by decide) _
    | _ => exact keeps_throw _ s hs

theorem keeps_changeSpeed (step : Float) : Keeps P (changeSpeed step) :=
  (keeps_option _ _).keeps_bind fun _ => (keeps_lift _).keeps_bind fun _ =>
    steady.keeps_offer (by decide) _ _

theorem keeps_changeSamples (step : Int) : Keeps P (changeSamples step) :=
  (keeps_option _ _).keeps_bind fun _ => (keeps_lift _).keeps_bind fun _ =>
    steady.keeps_offer (by decide) _ _

theorem keeps_toggleMode : Keeps P toggleMode := leads_modify fun _ hs => steady.session _ hs

theorem keeps_save : Keeps P save := by
  refine leads_get_bind fun s hs =>
    (steady.keeps_atDesk fun _ => (isDocument_saveRoutine _ _).keeps).keeps_bind (fun path => ?_) s hs
  cases path with
  | none => exact keeps_pure _
  | some path => exact steady.keeps_say (RunMessage.ofLine?_of_apart (by decide) _)

theorem keeps_load : Keeps P load := by
  refine (steady.keeps_atDesk fun _ => (isDocument_loadRoutine _).keeps).keeps_bind fun loaded => ?_
  cases loaded with
  | none => exact keeps_pure _
  | some session =>
    have put : Keeps P (modify fun e : Editor =>
        { e with session, drag := e.drag.map (·.detach e.session) } : Editing Unit) :=
      leads_modify fun e hs => steady.session session (steady.drag (e.drag.map (·.detach e.session)) hs)
    exact put.keeps_bind fun _ => steady.keeps_say (by decide)

theorem keeps_release : Keeps P release := leads_modify fun _ hs => steady.drag _ hs

variable [Scalar Float]

theorem keeps_exportProgram : Keeps P exportProgram := by
  refine leads_get_bind fun s hs => (keeps_lift _).keeps_bind (fun text => ?_) s hs
  exact (steady.keeps_atDesk fun _ => (isDocument_exportProgram _ _).keeps).keeps_bind
    fun _ => keeps_pure _

theorem keeps_decodeText (text : String) : Keeps P (decodeText text) := by
  refine leads_get_bind fun s hs => ?_
  obtain ⟨result, session⟩ := StateT.run (ExceptT.run (Program.decodeInto text.toList)) s.session
  have put : Keeps P (set { s with session } : Editing Unit) := fun _ _ => steady.session _ hs
  refine put.keeps_bind (fun _ => ?_) s hs
  cases result with
  | ok d =>
    refine steady.keeps_say ?_
    simp only [String.append_assoc]
    exact RunMessage.ofLine?_of_apart (by decide) _
  | error fault =>
    dsimp only
    split
    · refine steady.keeps_say ?_
      simp only [String.append_assoc]
      exact RunMessage.ofLine?_of_apart (by decide) _
    · exact steady.keeps_say (RunMessage.ofLine?_of_apart (by decide) _)
    · exact steady.keeps_say (RunMessage.ofLine?_of_apart (by decide) _)
    · exact keeps_throw _

theorem keeps_decode : Keeps P decode := by
  refine (steady.keeps_atDesk fun _ => (isDocument_readProgram _).keeps).keeps_bind fun text => ?_
  cases text with
  | none => exact keeps_pure _
  | some text => exact steady.keeps_decodeText text

theorem keeps_retypeSelected (kind : MoveKind) : Keeps P (retypeSelected kind) := by
  refine leads_get_bind fun s hs => ?_
  cases selectedIndex s.session with
  | none => exact hs
  | some index =>
    refine (steady.keeps_editing _).keeps_bind (fun w => ?_) s hs
    cases w with
    | action a => exact keeps_pure _
    | move m => exact steady.keeps_editing _

theorem keeps_deleteSelected : Keeps P deleteSelected := by
  refine leads_get_bind fun s hs => ?_
  cases selectedIndex s.session with
  | none => exact hs
  | some index => exact steady.keeps_editing _ s hs

theorem keeps_pressAction (place : Outcome (Point Float)) : Keeps P (pressAction place) := by
  refine (steady.keeps_atDesk fun _ => keeps_askAction).keeps_bind fun asked => ?_
  cases asked with
  | none => exact keeps_pure _
  | some call =>
    refine (keeps_option _ _).keeps_bind fun tolerance => (keeps_lift _).keeps_bind fun p => ?_
    exact (steady.keeps_editing _).keeps_bind fun _ => keeps_pure _

theorem keeps_pressEmpty (place : Point Float) : Keeps P (pressEmpty place) :=
  (keeps_option _ _).keeps_bind fun _ => (steady.keeps_editing _).keeps_bind fun _ => keeps_pure _

theorem keeps_takeHold (hit : Window.Hit) : Keeps P (takeHold hit) := by
  have hold : Keeps P (if hit.part ≠ .action then
      modify fun e => { e with drag := some ⟨.ofHit hit, none⟩ } else pure () : Editing Unit) := by
    split
    · exact leads_modify fun _ hs => steady.drag _ hs
    · exact keeps_pure _
  rw [takeHold]
  split
  · exact (steady.keeps_editing _).keeps_bind fun _ => hold
  · exact (steady.keeps_editing _).keeps_bind fun _ => hold
  · exact hold

theorem keeps_press (withAction : Bool) (place : Outcome (Point Float)) :
    Keeps P (press withAction place) := by
  rw [press]
  split
  · exact steady.keeps_pressAction place
  · refine leads_get_bind fun s hs => (keeps_lift _).keeps_bind (fun p => ?_) s hs
    refine (keeps_lift _).keeps_bind fun hit => ?_
    cases hit with
    | none => exact steady.keeps_pressEmpty p
    | some hit => exact steady.keeps_takeHold hit

theorem keeps_dragTo (place : Outcome (Point Float)) : Keeps P (dragTo place) := by
  refine leads_get_bind fun s hs => ?_
  cases s.drag with
  | none => exact hs
  | some d =>
    dsimp only
    obtain ⟨edit, gesture⟩ := d.gesture.move place
    have put (drag : Option Drag) : Keeps P (set { s with drag } : Editing Unit) :=
      fun _ _ => steady.drag _ hs
    cases d.detached with
    | none => exact (put _).keeps_bind (fun _ => steady.keeps_editing edit) s hs
    | some session => exact (put _).keeps_bind (fun _ => keeps_lift _) s hs

theorem keeps_openSession (path : Option String) : Keeps P (openSession path) := by
  cases path with
  | none => exact (keeps_option _ _).keeps_bind fun _ => leads_modify fun _ hs => steady.session _ hs
  | some path =>
    rw [openSession]
    split
    · refine (steady.keeps_atDesk fun _ => (isDocument_loadRoutine _).keeps).keeps_bind fun session => ?_
      cases session with
      | none => exact keeps_pure _
      | some session => exact leads_modify fun _ hs => steady.session _ hs
    · exact (steady.keeps_atDesk fun _ => keeps_readText _).keeps_bind fun text =>
        steady.keeps_decodeText text

theorem keeps_start (path : Option String) : Keeps P (start path) := by
  refine (steady.keeps_atDesk fun _ => Storage.keeps_load _).keeps_bind fun settings => ?_
  refine Leads.keeps_bind (leads_modify fun _ hs => steady.settings _ hs) fun _ => ?_
  refine (steady.keeps_openSession path).keeps_bind fun _ => steady.keeps_atDesk fun _ => ?_
  exact (keeps_print _).keeps_bind fun _ => keeps_prints _ _

/-- Only the toggling of a run and the export of the log need not keep a steady property. -/
theorem keeps_perform (control : Bool) {c : Command} (run : c ≠ .toggleRun) (log : c ≠ .exportLog) :
    Keeps P (perform control c) := by
  cases c with
  | toggleRun => exact absurd rfl run
  | exportLog => exact absurd rfl log
  | undo =>
    rw [perform]
    split
    · exact (steady.keeps_editing _).keeps_bind fun _ => keeps_pure _
    · exact keeps_pure _
  | toggleMode => exact steady.keeps_toggleMode
  | retype kind => exact steady.keeps_retypeSelected kind
  | delete => exact steady.keeps_deleteSelected
  | changeSpeed step => exact steady.keeps_changeSpeed step
  | changeSamples step => exact steady.keeps_changeSamples step
  | save => exact steady.keeps_save
  | load => exact steady.keeps_load
  | exportProgram => exact steady.keeps_exportProgram
  | decode => exact steady.keeps_decode

end Steady

/-! ## Quiet work -/

/-- A later state of the editor with the same run, and nothing more in the log about runs. -/
def Quiet (e e' : Editor) : Prop :=
  e'.runner = e.runner ∧ ∃ lines, e'.log = e.log ++ lines ∧ RunMessage.ofLines lines = []

theorem Quiet.refl (e : Editor) : Quiet e e := ⟨rfl, [], (List.append_nil _).symm, rfl⟩

theorem steady_quiet (e : Editor) : Steady (Quiet e) where
  desk h _ := h
  settings _ h := h
  session _ h := h
  drag _ h := h
  said := by
    rintro s line ⟨runner, lines, log, silent⟩ other
    refine ⟨runner, lines ++ [line], ?_, ?_⟩
    · rw [← List.append_assoc, ← log]
    · rw [RunMessage.ofLines, List.filterMap_append, ← RunMessage.ofLines, silent]
      simp [other]

/-! ## Questions -/

/-- Any work of the editor only adds to the questions that have been asked. -/
theorem steady_later (d : Desk) : Steady fun e => d.Later e.desk where
  desk h later := h.trans later
  settings _ h := h
  session _ h := h
  drag _ h := h
  said h _ := h

end PathStudio.Editor
