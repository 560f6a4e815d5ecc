import PathStudio.Proofs.Editor.Bracketing

/-!
# The questions of a visit

Whatever the editor does, it only adds to the questions that it has asked. So if all dialogs for files
have been cancelled in the end, they had been at any time before.
-/

namespace PathStudio.Editor

open Storage Simulation Change

/-- Editors that have not asked less than a desk. -/
abbrev Asked (d : Desk) (e : Editor) : Prop := d.Later e.desk

variable {d : Desk}

theorem keeps_exportLog_asked : Keeps (Asked d) exportLog := by
  refine leads_get_bind fun s hs =>
    ((steady_later d).keeps_atDesk fun _ => (isDocument_exportLog _ _).keeps).keeps_bind
      (fun path => ?_) s hs
  split
  · exact leads_modify fun _ h => h
  · exact keeps_pure _

theorem keeps_running {α : Type} (change : Running Float α) : Keeps (Asked d) (running change) := by
  intro e h
  rw [on_running]
  exact h

theorem keeps_close : Keeps (Asked d) close :=
  leads_get_bind fun s hs =>
    (((steady_later d).keeps_atDesk fun _ => Storage.keeps_save _ _).keeps_bind
      fun _ => keeps_pure _) s hs

/-- The line on the end of a run is said like any other. -/
theorem keeps_say_asked (line : String) : Keeps (Asked d) (say line) :=
  Leads.keeps_bind (leads_modify fun _ h => h) fun _ =>
    (steady_later d).keeps_atDesk fun _ => keeps_print line

variable [Scalar Float]

theorem keeps_toggleRun : Keeps (Asked d) toggleRun := by
  refine leads_get_bind fun s hs => ?_
  split
  · have put : Keeps (Asked d) (set { s with runner := s.runner.halt } : Editing Unit) :=
      fun _ _ => hs
    exact (put.keeps_bind fun _ => keeps_say_asked _) s hs
  · refine (Leads.keeps_bind (keeps_running _) fun begun => ?_) s hs
    split
    · exact keeps_say_asked _
    · exact keeps_pure _

theorem keeps_perform_asked (control : Bool) (c : Command) : Keeps (Asked d) (perform control c) := by
  by_cases run : c = .toggleRun
  · exact run ▸ keeps_toggleRun
  by_cases log : c = .exportLog
  · exact log ▸ keeps_exportLog_asked
  · exact (steady_later d).keeps_perform control run log

theorem keeps_handle (input : Input) (event : Event) : Keeps (Asked d) (handle input event) := by
  cases event with
  | quit => exact leads_modify fun _ h => h
  | key name =>
    rw [handle]
    cases Command.ofKey? name with
    | none => exact keeps_pure _
    | some c => exact keeps_perform_asked input.control c
  | press button place =>
    refine leads_get_bind fun s hs => ?_
    split
    · exact (steady_later d).keeps_press _ _ s hs
    · exact hs
  | release button =>
    rw [handle]
    split
    · exact (steady_later d).keeps_release
    · exact keeps_pure _
  | move place => exact (steady_later d).keeps_dragTo place

theorem keeps_advance : Keeps (Asked d) advance := by
  refine leads_get_bind fun s hs => ?_
  split
  · refine (Leads.keeps_bind (keeps_running _) fun ended => ?_) s hs
    split
    · refine leads_get_bind fun t ht => ?_
      cases t.runner.state with
      | none => exact ht
      | some state => exact keeps_say_asked _ t ht
    · exact keeps_pure _
  · exact hs

variable [Font]

theorem keeps_frameFrom (input : Input) (events : List Event) :
    Keeps (Asked d) (frameFrom input events) := by
  induction events with
  | nil =>
    exact keeps_advance.keeps_bind fun _ => leads_get_bind fun s hs => keeps_lift (report s) s hs
  | cons event rest ih =>
    rw [frameFrom_cons]
    exact (keeps_handle input event).keeps_bind fun _ => ih

theorem asked_runFrames (shown : List Report) (inputs : List Input) {e : Editor} (h : Asked d e) :
    Asked d (runFrames shown inputs e).2.2 := by
  induction inputs generalizing shown e with
  | nil => exact h
  | cons input rest ih =>
    have next : Asked d (after (frame input) e).2 := keeps_frameFrom input input.events e h
    rw [runFrames]
    generalize after (frame input) e = ended at next
    obtain ⟨fault | r, e'⟩ := ended
    · exact next
    · dsimp only
      split
      · exact ih _ next
      · exact next

end PathStudio.Editor
