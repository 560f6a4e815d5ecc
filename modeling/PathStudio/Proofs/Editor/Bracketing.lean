import PathStudio.Proofs.Editor.RunMessages
import PathStudio.Proofs.Simulation.Protocol

/-!
# Bracketed runs

In all that the editor says, each start of a run is followed by one end of it before the next start,
and a run is going on just as long as the last message is a start: toggling and advancing say what
they have done, and nothing else touches the run.
-/

namespace PathStudio.Editor

open Storage Simulation Change

/-! ## Brackets -/

/-- Messages that bracket runs, and whether the last run is going on. -/
inductive Bracketed : List RunMessage → Bool → Prop
  | nil : Bracketed [] false
  | start {messages : List RunMessage} (before : Bracketed messages false) :
      Bracketed (messages ++ [.started]) true
  | halt {messages : List RunMessage} (before : Bracketed messages true) :
      Bracketed (messages ++ [.halted]) false
  | finish {messages : List RunMessage} (before : Bracketed messages true) :
      Bracketed (messages ++ [.finished]) false

namespace Bracketed

variable {messages : List RunMessage} {running : Bool}

theorem running_iff_getLast? (h : Bracketed messages running) :
    running = true ↔ messages.getLast? = some .started := by
  cases h with
  | nil => simp
  | start | halt | finish => simp

theorem running_iff_length (h : Bracketed messages running) :
    running = true ↔ messages.length % 2 = 1 := by
  induction h with
  | nil => simp
  | start _ ih | halt _ ih | finish _ ih =>
    rw [List.length_append, List.length_singleton]
    simp at ih ⊢
    omega

/-- Starts and ends take turns. -/
theorem started_iff (h : Bracketed messages running) {i : Nat} {m : RunMessage}
    (at_ : messages[i]? = some m) : m = .started ↔ i % 2 = 0 := by
  induction h with
  | nil => cases at_
  | start before ih | halt before ih | finish before ih =>
    rw [List.getElem?_append] at at_
    split at at_
    · exact ih at_
    next beyond =>
      rw [List.getElem?_singleton] at at_
      split at at_
      next here =>
        cases at_
        have length := before.running_iff_length
        simp at length ⊢
        omega
      next => cases at_

end Bracketed

/-! ## Lines -/

theorem after_eq_on {α : Type} (w : Editing α) (e : Editor) : after w e = Change.on w e := rfl

theorem after_bind {α β : Type} (w : Editing α) (f : α → Editing β) (e : Editor) :
    after (w >>= f) e =
      match after w e with
      | (.ok a, e) => after (f a) e
      | (.error fault, e) => (.error fault, e) := by
  rw [after_eq_on, on_bind, after_eq_on]
  obtain ⟨fault | a, e'⟩ := Change.on w e <;> rfl

/-- The lines that some work adds to the log. -/
def linesOf {α : Type} (w : Editing α) (e : Editor) : List String :=
  (after w e).2.log.drop e.log.length

/-- An editor that has said all the lines so far: what they say of the run is how it stands, and the
log has kept the last of them. -/
structure HasSaid (lines : List String) (e : Editor) : Prop where
  bracketed : Bracketed (RunMessage.ofLines lines) e.runner.running
  planned : e.runner.running = true → ∃ p, e.runner.plan = some p
  logged : e.log <:+ lines

/-- Work after which the editor has said the lines that the work adds to the log. -/
def Tells {α : Type} (w : Editing α) : Prop :=
  ∀ lines e, HasSaid lines e → HasSaid (lines ++ linesOf w e) (after w e).2

theorem isSuffix_append {kept lines : List String} (h : kept <:+ lines) (more : List String) :
    kept ++ more <:+ lines ++ more := by
  obtain ⟨before, rfl⟩ := h
  exact ⟨before, (List.append_assoc ..).symm⟩

theorem Quiet.hasSaid {lines : List String} {e e' : Editor} (quiet : Quiet e e')
    (h : HasSaid lines e) : HasSaid (lines ++ e'.log.drop e.log.length) e' := by
  obtain ⟨runner, more, log, silent⟩ := quiet
  rw [log, List.drop_left]
  refine ⟨?_, runner ▸ h.planned, ?_⟩
  · rw [runner, RunMessage.ofLines, List.filterMap_append]
    rw [RunMessage.ofLines] at silent
    rw [silent, List.append_nil]
    exact h.bracketed
  · rw [log]
    exact isSuffix_append h.logged more

theorem tells_of_quiet {α : Type} {w : Editing α} (h : ∀ e, Keeps (Quiet e) w) : Tells w :=
  fun _ e said => (h e e (.refl e)).hasSaid said

/-- A line about the run, said where the run is already as the line says. -/
theorem HasSaid.tell {lines : List String} {e e' : Editor} (h : HasSaid lines e) (line : String)
    (m : RunMessage) (log : e'.log = e.log ++ [line]) (message : RunMessage.ofLine? line = some m)
    (bracketed : Bracketed (RunMessage.ofLines lines ++ [m]) e'.runner.running)
    (planned : e'.runner.running = true → ∃ p, e'.runner.plan = some p) :
    HasSaid (lines ++ e'.log.drop e.log.length) e' := by
  rw [log, List.drop_left]
  refine ⟨?_, planned, ?_⟩
  · rw [RunMessage.ofLines, List.filterMap_append, ← RunMessage.ofLines]
    simpa [message] using bracketed
  · rw [log]
    exact isSuffix_append h.logged [line]

theorem on_running {α : Type} (change : Running Float α) (e : Editor) :
    Change.on (running change) e =
      ((Change.on change e.runner).1, { e with runner := (Change.on change e.runner).2 }) := by
  rw [running, on_bind]
  rfl

@[simp] theorem on_atDesk {α : Type} (w : Work α) (e : Editor) :
    Change.on (atDesk w) e = ((Change.on w e.desk).1, { e with desk := (Change.on w e.desk).2 }) := by
  rw [atDesk, on_bind]
  rfl

theorem HasSaid.keep {lines : List String} {e e' : Editor} (h : HasSaid lines e)
    (log : e'.log = e.log) (running : e'.runner.running = e.runner.running)
    (planned : e'.runner.running = true → ∃ p, e'.runner.plan = some p) :
    HasSaid (lines ++ e'.log.drop e.log.length) e' := by
  rw [log, List.drop_length, List.append_nil]
  exact ⟨running.symm ▸ h.bracketed, planned, log.symm ▸ h.logged⟩

/-- The export of the log says nothing, and what it takes out of the log has been said. -/
theorem tells_exportLog : Tells exportLog := by
  intro lines e said
  let exporting := atDesk (Storage.exportLog (e.log.map .ok) none)
  have exported : (after exportLog e).2 = (Change.on exporting e).2 ∨
      (after exportLog e).2 = { (Change.on exporting e).2 with log := [] } := by
    have unfolds : after exportLog e = Change.on (exporting >>= fun path =>
        if path.isSome then modify fun e => { e with log := [] } else pure ()) e := rfl
    rw [unfolds, on_bind]
    obtain ⟨result, e'⟩ := Change.on exporting e
    cases result with
    | error fault => exact .inl rfl
    | ok path =>
      cases path with
      | none => exact .inl rfl
      | some path => exact .inr rfl
  rw [on_atDesk] at exported
  rw [linesOf]
  obtain same | emptied := exported
  · rw [same]
    exact said.keep rfl rfl said.planned
  · rw [emptied, List.drop_nil, List.append_nil]
    exact ⟨said.bracketed, said.planned, List.nil_suffix⟩

/-- The line on the start of a run. -/
def startedLine (mode : String) : String := "Simulation started (" ++ mode ++ " mode)"

@[simp] theorem ofLine?_startedLine (mode : String) :
    RunMessage.ofLine? (startedLine mode) = some .started := by
  have begins : RunMessage.started.words.toList <+: "Simulation started (".toList := by decide
  have line : startedLine mode = "Simulation started (" ++ (mode ++ " mode)") := String.append_assoc ..
  exact line ▸ RunMessage.ofLine?_of_isPrefix begins _

/-- The line on the end of a run. -/
def finishedLine (s : State Float) : String :=
  "Simulation finished after " ++ String.ofList (Decimal.status (s.time / 1000.0) 2) ++ " s"

@[simp] theorem ofLine?_finishedLine (s : State Float) :
    RunMessage.ofLine? (finishedLine s) = some .finished := by
  have begins : RunMessage.finished.words.toList <+: "Simulation finished after ".toList := by decide
  have line : finishedLine s = "Simulation finished after " ++
      (String.ofList (Decimal.status (s.time / 1000.0) 2) ++ " s") := String.append_assoc ..
  exact line ▸ RunMessage.ofLine?_of_isPrefix begins _

theorem HasSaid.close {lines : List String} {e : Editor} (h : HasSaid lines e) :
    HasSaid lines (after Editor.close e).2 := by
  have kept : Keeps (HasSaid lines) Editor.close := by
    refine leads_get_bind fun s hs => Leads.keeps_bind (fun t ht => ?_) (fun _ => keeps_pure _) s hs
    rw [on_atDesk]
    exact ⟨ht.bracketed, ht.planned, ht.logged⟩
  exact kept e h

section

variable [Scalar Float]

/-- Starts the run of a plan and tells of it, unless there is nothing to do. -/
def startRun (plan : Outcome (Plan Float)) (mode : String) : Editing Unit := do
  if ← running (Runner.start plan) then say (startedLine mode)

theorem HasSaid.start {lines : List String} {e : Editor} (h : HasSaid lines e)
    (stopped : e.runner.running = false) (plan : Outcome (Plan Float)) (mode : String) :
    HasSaid (lines ++ linesOf (startRun plan mode) e) (after (startRun plan mode) e).2 := by
  have started := on_running (Runner.start plan) e
  rw [Runner.on_start, stopped] at started
  rw [linesOf]
  cases plan with
  | error fault =>
    have refused : after (startRun (.error fault) mode) e = (.error fault, e) :=
      on_bind_error started
    rw [refused]
    exact h.keep rfl rfl h.planned
  | ok p =>
    have goes : after (startRun (.ok p) mode) e = after
        (if (Runner.begun p).running then say (startedLine mode) else pure ())
        { e with runner := Runner.begun p } := on_bind_ok started
    rw [goes]
    cases begins : (Runner.begun p).running with
    | false => exact h.keep rfl (begins.trans stopped.symm) fun _ => ⟨p, rfl⟩
    | true =>
      have before : Bracketed (RunMessage.ofLines lines) false := stopped ▸ h.bracketed
      exact h.tell (startedLine mode) .started rfl (ofLine?_startedLine mode)
        (begins.symm ▸ before.start) fun _ => ⟨p, rfl⟩

/-- A run is started where none is going on, and halted where one is. -/
theorem tells_toggleRun : Tells toggleRun := by
  intro lines e said
  have unfolds : after toggleRun e = after (if e.runner.running then do
      set { e with runner := e.runner.halt }
      say "Simulation halted"
    else startRun (planOf e.settings e.session) (shownMode e.session)) e := rfl
  rw [linesOf, unfolds]
  cases going : e.runner.running with
  | true =>
    have before : Bracketed (RunMessage.ofLines lines) true := going ▸ said.bracketed
    have stopped := Runner.running_halt e.runner
    refine said.tell "Simulation halted" .halted rfl (by decide) ?_ ?_
    · exact stopped.symm ▸ before.halt
    · exact fun on => absurd (stopped.symm.trans on) (by decide)
  | false => exact said.start going _ _

/-- Tells of the end of the run. -/
def tellEnd : Editing Unit := do
  match (← get).runner.state with
  | some s => say (finishedLine s)
  | none => pure ()

/-- Ticks the run and tells of its end. -/
def tickRun (increment : Increment Float) : Editing Unit := do
  if ← running (Runner.tick increment) then tellEnd

theorem HasSaid.tick {lines : List String} {e : Editor} (h : HasSaid lines e)
    (going : e.runner.running = true) (increment : Increment Float) :
    HasSaid (lines ++ linesOf (tickRun increment) e) (after (tickRun increment) e).2 := by
  obtain ⟨p, plan⟩ := h.planned going
  obtain ⟨s, state, on⟩ := (Option.any_eq_true ..).mp going
  have ticked := on_running (Runner.tick increment) e
  rw [linesOf]
  obtain ⟨fault, -, refused⟩ | ⟨ms, next, -, -, -, advanced⟩ :=
    Runner.on_tick_of_running plan state on increment
  · rw [refused] at ticked
    have stays : after (tickRun increment) e = (.error fault, e) := on_bind_error ticked
    rw [stays]
    exact h.keep rfl rfl h.planned
  · rw [advanced] at ticked
    have goes : after (tickRun increment) e =
        after (if !next.running then tellEnd else pure ()) _ := on_bind_ok ticked
    cases running : next.running with
    | true =>
      rw [goes, running]
      exact h.keep rfl (running.trans going.symm) fun _ => ⟨p, plan⟩
    | false =>
      rw [goes, running]
      have before : Bracketed (RunMessage.ofLines lines) true := going ▸ h.bracketed
      refine h.tell (finishedLine next) .finished rfl (ofLine?_finishedLine next) ?_ fun _ => ⟨p, plan⟩
      change Bracketed _ next.running
      exact running.symm ▸ before.finish

theorem tells_advance : Tells advance := by
  intro lines e said
  have unfolds : after advance e =
    after (if e.runner.running then tickRun (standardIncrement e.settings) else pure ()) e := rfl
  rw [linesOf, unfolds]
  cases going : e.runner.running with
  | false => exact said.keep rfl rfl said.planned
  | true => exact said.tick going _

theorem tells_perform (control : Bool) (c : Command) : Tells (perform control c) := by
  by_cases run : c = .toggleRun
  · exact run ▸ tells_toggleRun
  by_cases log : c = .exportLog
  · exact log ▸ tells_exportLog
  · exact tells_of_quiet fun e => (steady_quiet e).keeps_perform control run log

theorem tells_handle (input : Input) (event : Event) : Tells (handle input event) := by
  cases event with
  | quit => exact tells_of_quiet fun _ => leads_modify fun _ hs => hs
  | key name =>
    rw [handle]
    cases Command.ofKey? name with
    | none => exact tells_of_quiet fun _ => keeps_pure _
    | some c => exact tells_perform input.control c
  | press button place =>
    refine tells_of_quiet fun e => leads_get_bind fun s hs => ?_
    split
    · exact (steady_quiet e).keeps_press _ _ s hs
    · exact hs
  | release button =>
    refine tells_of_quiet fun e => ?_
    rw [handle]
    split
    · exact (steady_quiet e).keeps_release
    · exact keeps_pure _
  | move place => exact tells_of_quiet fun e => (steady_quiet e).keeps_dragTo place

/-! ## Frames -/

theorem hasSaid_start (path : Option String) (desk : Desk) :
    HasSaid (linesOf (start path) (new desk)) (after (start path) (new desk)).2 := by
  have nothing : HasSaid [] (new desk) := ⟨.nil, fun on => (nomatch on), List.nil_suffix⟩
  exact tells_of_quiet (fun e => (steady_quiet e).keeps_start path) [] (new desk) nothing

variable [Font]

/-- The rest of a frame when some events are still to come. -/
def frameFrom (input : Input) (events : List Event) : Editing Report := do
  events.forM (handle input)
  advance
  report (← get)

theorem frameFrom_cons (input : Input) (event : Event) (rest : List Event) :
    frameFrom input (event :: rest) = (do handle input event; frameFrom input rest) := by
  change ((do handle input event; rest.forM (handle input)) >>= fun _ => _) = _
  rw [bind_assoc]
  rfl

/-- The lines that are said in the rest of a frame: by each event in turn, and by the advance of the
run if no event ends the work. -/
def linesFrom (input : Input) : List Event → Editor → List String
  | [], e => linesOf advance e
  | event :: rest, e =>
    linesOf (handle input event) e ++
      match after (handle input event) e with
      | (.error _, _) => []
      | (.ok (), e) => linesFrom input rest e

theorem HasSaid.frameFrom {lines : List String} {e : Editor} (h : HasSaid lines e) (input : Input)
    (events : List Event) :
    HasSaid (lines ++ linesFrom input events e) (after (frameFrom input events) e).2 := by
  induction events generalizing lines e with
  | nil =>
    have told := tells_advance lines e h
    have unfolds : Editor.frameFrom input [] = (do advance; report (← get)) := rfl
    rw [unfolds, linesFrom, after_bind]
    generalize linesOf advance e = said at told
    generalize after advance e = ended at told
    obtain ⟨fault | _, e'⟩ := ended
    · exact told
    · exact told
  | cons event rest ih =>
    have told := tells_handle input event lines e h
    rw [frameFrom_cons, linesFrom, after_bind, ← List.append_assoc]
    generalize linesOf (handle input event) e = said at told
    generalize after (handle input event) e = ended at told
    obtain ⟨fault | _, e'⟩ := ended
    · exact (List.append_nil _).symm ▸ told
    · exact ih told

/-- What the frames say and how each leaves the editor, frame by frame until the window is closed or a
fault ends the work. -/
def framesFrom : List Input → Editor → List (List String × Editor)
  | [], _ => []
  | input :: rest, e =>
    (linesFrom input input.events e, (after (frame input) e).2) ::
      match after (frame input) e with
      | (.error _, _) => []
      | (.ok _, e) => if e.opened then framesFrom rest e else []

/-- The frames of a visit. -/
def framesOf (path : Option String) (inputs : List Input) (desk : Desk) :
    List (List String × Editor) :=
  match after (start path) (new desk) with
  | (.error _, _) => []
  | (.ok (), e) => framesFrom inputs e

/-- The lines that are said up to a place among frames. -/
def linesUpTo (k : Nat) (frames : List (List String × Editor)) : List String :=
  (frames.take k).flatMap (·.1)

theorem HasSaid.framesFrom {lines : List String} {e : Editor} (h : HasSaid lines e)
    (inputs : List Input) {k : Nat} {f : List String × Editor}
    (at_ : (Editor.framesFrom inputs e)[k]? = some f) :
    HasSaid (lines ++ linesUpTo (k + 1) (Editor.framesFrom inputs e)) f.2 := by
  induction inputs generalizing lines e k with
  | nil => cases at_
  | cons input rest ih =>
    have first : HasSaid (lines ++ linesFrom input input.events e) (after (frame input) e).2 :=
      h.frameFrom input input.events
    rw [Editor.framesFrom] at at_ ⊢
    generalize linesFrom input input.events e = said at at_ first ⊢
    generalize after (frame input) e = ended at at_ first ⊢
    cases k with
    | zero =>
      cases at_
      simpa [linesUpTo] using first
    | succ k =>
      rw [List.getElem?_cons_succ] at at_
      rw [linesUpTo, List.take_succ_cons, List.flatMap_cons, ← List.append_assoc]
      obtain ⟨fault | r, e'⟩ := ended
      · cases at_
      · dsimp only at at_ first ⊢
        split at at_
        next opened =>
          rw [if_pos opened]
          exact ih first at_
        next => cases at_

/-- The editor is left as by the last frame. -/
theorem runFrames_snd_snd (shown : List Report) (inputs : List Input) (e : Editor) :
    (runFrames shown inputs e).2.2 = ((framesFrom inputs e).getLast?.map (·.2)).getD e := by
  induction inputs generalizing shown e with
  | nil => rfl
  | cons input rest ih =>
    rw [runFrames, framesFrom, List.getLast?_cons]
    obtain ⟨fault | r, e'⟩ := after (frame input) e
    · rfl
    · dsimp only
      cases e'.opened with
      | false => rfl
      | true =>
        rw [if_pos rfl, if_pos rfl, ih]
        cases (framesFrom rest e').getLast? <;> rfl

/-- Frames leave the editor having said all their lines. -/
theorem HasSaid.runFrames {lines : List String} {e : Editor} (h : HasSaid lines e)
    (shown : List Report) (inputs : List Input) :
    HasSaid (lines ++ (Editor.framesFrom inputs e).flatMap (·.1))
      (Editor.runFrames shown inputs e).2.2 := by
  rw [runFrames_snd_snd]
  cases last : (Editor.framesFrom inputs e).getLast? with
  | none =>
    rw [List.getLast?_eq_none_iff.mp last]
    exact (List.append_nil lines).symm ▸ h
  | some f =>
    rw [List.getLast?_eq_getElem?] at last
    have said := h.framesFrom inputs last
    obtain ⟨within, -⟩ := List.getElem?_eq_some_iff.mp last
    rwa [linesUpTo, List.take_of_length_le (by omega)] at said

/-- A visit leaves the editor having said all its lines. -/
theorem hasSaid_visit (path : Option String) (inputs : List Input) (desk : Desk) :
    HasSaid (linesOf (start path) (new desk) ++ (framesOf path inputs desk).flatMap (·.1))
      (visit path inputs desk).editor := by
  have opening := hasSaid_start path desk
  rw [framesOf, visit]
  generalize linesOf (start path) (new desk) = lines at opening
  generalize after (start path) (new desk) = started at opening
  obtain ⟨fault | _, e⟩ := started
  · exact (List.append_nil lines).symm ▸ opening
  · have ran := opening.runFrames [] inputs
    dsimp only at ran ⊢
    generalize runFrames [] inputs e = ended at ran
    obtain ⟨shown, fault | _, e'⟩ := ended
    · exact ran
    · have closed := ran.close
      dsimp only at closed ⊢
      generalize after close e' = left at closed
      obtain ⟨fault | _, e''⟩ := left <;> exact closed

/-- The messages of a visit about the run. Starts and ends take turns, beginning with a start; the
run is going on at the end of a frame just if the last message up to there is a start, and so it is
at the end of the visit. The log has kept the last of all the lines. -/
theorem visit_brackets_runs (path : Option String) (inputs : List Input) (desk : Desk) :
    let opening := linesOf (start path) (new desk)
    let frames := framesOf path inputs desk
    let lines := opening ++ frames.flatMap (·.1)
    let e := (visit path inputs desk).editor
    (∀ i m, (RunMessage.ofLines lines)[i]? = some m → (m = .started ↔ i % 2 = 0)) ∧
    (∀ k f, frames[k]? = some f → (f.2.runner.running = true ↔
      (RunMessage.ofLines (opening ++ linesUpTo (k + 1) frames)).getLast? = some .started)) ∧
    (e.runner.running = true ↔ (RunMessage.ofLines lines).getLast? = some .started) ∧
    e.log <:+ lines := by
  have whole := hasSaid_visit path inputs desk
  refine ⟨fun i m at_ => whole.bracketed.started_iff at_, fun k f at_ => ?_,
    whole.bracketed.running_iff_getLast?, whole.logged⟩
  have opening := hasSaid_start path desk
  rw [framesOf] at at_ ⊢
  generalize linesOf (start path) (new desk) = lines at opening ⊢
  generalize after (start path) (new desk) = started at opening at_ ⊢
  obtain ⟨fault | _, e⟩ := started
  · cases at_
  · exact (opening.framesFrom inputs at_).bracketed.running_iff_getLast?

end

end PathStudio.Editor
