import PathStudio.Proofs.Program.Robot.Line
import PathStudio.Proofs.Program.Robot.Double
import PathStudio.Proofs.Text.Scanning

/-!
# Joined programs

A program whose lines leave no arc open can be cut behind them: the second part is read from where
the first has brought the robot. Of the first part only that point goes over the cut. Its headings
and turns do not, and its markers, which calls of the second part may share, change no entry of the
path.
-/

namespace PathStudio

variable {ν : Type}

/-- A session that starts where the path of another one ends. -/
def Session.restartedAfter (prior first : Session ν) : Session ν :=
  { prior with start := Layout.walkBack prior.start first.waypoints.reverse }

namespace Program

namespace Draft

/-- The entries of the path that has been read. -/
def entries (d : Draft ν) (start : Pose ν) : List (Entry ν) :=
  Layout.entries ⟨start, d.waypoints, d.markers, none⟩

variable {d : Draft ν} {first : Int} (start : Pose ν)

@[simp] theorem entries_add_move (d : Draft ν) (m : Move ν) :
    (d.add (.move m)).entries start = d.entries start ++ [.move m] := by
  simp only [entries, Layout.entries, add, List.filterMap_append]
  rfl

/-- More markers behind those of a path leave its entries as they were. -/
theorem entries_of_markers_prefix (h : d.Registers first) {d' : Draft ν}
    (same : d'.waypoints = d.waypoints) (grown : d.markers <+: d'.markers) :
    d'.entries start = d.entries start := by
  obtain ⟨more, grown⟩ := grown
  simp only [entries, Layout.entries, same]
  apply List.filterMap_congr
  intro w hw
  cases w with
  | move m => rfl
  | action a =>
    obtain ⟨m, hm, named⟩ := List.mem_map.mp (h.runs _ hw)
    have found := h.numbered.find?_id hm
    rw [named] at found
    simp only [Layout.entryOf?, Layout.marker?, ← grown, List.find?_append, found, Option.some_or]

variable [Add ν] [Sub ν] [Mul ν] [Div ν] [Neg ν] [Scalar ν]

/-- Whichever marker a call gets, its entry is the call. -/
theorem entries_addCall (h : d.Registers first) (name args : List Char) (at_ : Point ν) :
    ((d.markerFor name args at_).2.add (markerAction (d.markerFor name args at_).1)).entries start =
      d.entries start ++ [.call (String.ofList name) (String.ofList args)] := by
  have earlier : (d.markerFor name args at_).2.entries start = d.entries start :=
    entries_of_markers_prefix start h (waypoints_markerFor ..) (markers_markerFor ..)
  have call := (h.numbered.markerFor name args at_).entryOf?_markerAction
    (l := ⟨start, (d.markerFor name args at_).2.waypoints, (d.markerFor name args at_).2.markers, none⟩)
    rfl (d.markerFor_mem name args at_)
  rw [markerFor_name, markerFor_args] at call
  rw [← earlier]
  simp only [entries, Layout.entries, add, List.filterMap_append]
  exact congrArg (_ ++ ·) (List.filterMap_cons_some call)

end Draft

namespace Robot

open Text

variable [Add ν] [Sub ν] [Mul ν] [Div ν] [Neg ν] [Scalar ν]

namespace Trail

/-- One trail goes on from where another began with nothing read: it has the same cursor and the same
open arc, and its entries are those read before and those of the other. -/
structure Continues (earlier : List (Entry ν)) (start : Pose ν) (t u : Trail ν) : Prop where
  cursor : t.cursor = u.cursor
  pending : t.pending = u.pending
  entries : t.draft.entries start = earlier ++ u.draft.entries start
  registered : ∃ first, t.draft.Registers first
  registered' : ∃ first, u.draft.Registers first

variable {earlier : List (Entry ν)} {start : Pose ν} {t u : Trail ν}

namespace Continues

omit [Add ν] [Sub ν] [Mul ν] [Div ν] [Neg ν] [Scalar ν] in
theorem settled (h : Continues earlier start t u) :
    Continues earlier start { t with pending := none } { u with pending := none } :=
  ⟨h.cursor, rfl, h.entries, h.registered, h.registered'⟩

omit [Add ν] [Sub ν] [Mul ν] [Div ν] [Neg ν] [Scalar ν] in
theorem opened (h : Continues earlier start t u) (a : OpenArc) :
    Continues earlier start { t with pending := some a } { u with pending := some a } :=
  ⟨h.cursor, rfl, h.entries, h.registered, h.registered'⟩

theorem move (h : Continues earlier start t u) (motion : Motion ν) (p : Point ν)
    (degrees speed : ν) :
    Continues earlier start (t.move motion p degrees speed) (u.move motion p degrees speed) where
  cursor := rfl
  pending := h.pending
  entries := by
    simp only [Trail.move, Draft.entries_add_move, h.entries, List.append_assoc]
  registered := h.registered.imp fun first r => registers_move r motion p degrees speed
  registered' := h.registered'.imp fun first r => registers_move r motion p degrees speed

theorem addCall (h : Continues earlier start t u) (name args : List Char) :
    Continues earlier start (t.addCall name args) (u.addCall name args) where
  cursor := h.cursor
  pending := h.pending
  entries := by
    obtain ⟨first, r⟩ := h.registered
    obtain ⟨first', r'⟩ := h.registered'
    have here := Draft.entries_addCall start r name args t.cursor
    have there := Draft.entries_addCall start r' name args u.cursor
    rw [h.entries, List.append_assoc, ← there] at here
    exact here
  registered := h.registered.imp fun first r => registers_addCall r name args
  registered' := h.registered'.imp fun first r => registers_addCall r name args

/-- Both trails get the same move, or both fail to find its end. -/
theorem travel (h : Continues earlier start t u) (length degrees : ν)
    (motion : Motion ν) (heading speed : ν) :
    Corresponds (Continues earlier start)
      (t.ahead length degrees >>= fun p => .ok (t.move motion p heading speed))
      (u.ahead length degrees >>= fun p => .ok (u.move motion p heading speed)) := by
  have same : t.ahead length degrees = u.ahead length degrees := by
    rw [ahead, ahead, h.cursor]
  rw [same]
  cases u.ahead length degrees with
  | error fault => exact .error fault
  | ok p => exact .ok (h.move motion p heading speed)

theorem addArc (h : Continues earlier start t u) (a : OpenArc) :
    Corresponds (Continues earlier start) (t.addArc a) (u.addArc a) :=
  h.settled.travel _ _ _ _ _

theorem extendArc (h : Continues earlier start t u) (a : OpenArc) (line : List Char) :
    Corresponds (Continues earlier start) (t.extendArc a line) (u.extendArc a line) := by
  simp only [Trail.extendArc]
  split
  · exact h.addArc _
  · exact .ok (h.opened _)

/-- A line does the same to both trails. -/
theorem readLine (h : Continues earlier start t u) (line : List Char) :
    Corresponds (Continues earlier start) (t.readLine line) (u.readLine line) := by
  rw [Trail.readLine, Trail.readLine, h.pending]
  cases u.pending with
  | some a => exact h.extendArc a line
  | none =>
    cases Command.ofLine line with
    | turn | nothing => exact .ok h
    | travel kind length degrees => exact h.travel length.value degrees.value _ _ _
    | arc length speed => exact h.extendArc _ line
    | call name args => exact .ok (h.addCall name args)

theorem readLines (h : Continues earlier start t u) (ls : List (List Char)) :
    Corresponds (Continues earlier start) (t.readLines ls) (u.readLines ls) :=
  Corresponds.foldlM (fun _ _ line h => h.readLine line) _ h

theorem finish (h : Continues earlier start t u) :
    Corresponds (Continues earlier start) t.finish u.finish := by
  rw [Trail.finish, Trail.finish, h.pending]
  cases u.pending with
  | some a => exact h.addArc a
  | none => exact .ok h

end Continues

omit [Add ν] [Sub ν] [Mul ν] [Div ν] [Neg ν] [Scalar ν] in
/-- The reading of a program that begins where a trail ends goes on from it. -/
theorem continues_start {prior : Session ν} {first : Int} (h : t.draft.Registers first)
    (outside : t.pending = none) (atEnd : t.AtEnd prior.start) :
    Continues (t.draft.entries prior.start) prior.start t
      (Trail.start (prior.restartedAfter (t.draft.toSession prior.start prior))) where
  cursor := atEnd
  pending := outside
  entries := (List.append_nil _).symm
  registered := ⟨first, h⟩
  registered' := ⟨_, .after _⟩

/-- Where no arc is open, turns leave a trail as it is. -/
theorem readLines_turns (outside : t.pending = none) {turns : List (List Char)}
    (turn : ∀ l ∈ turns, Command.ofLine (trim l) = .turn) (ls : List (List Char)) :
    t.readLines (turns ++ ls) = t.readLines ls := by
  induction turns with
  | nil => rfl
  | cons l turns ih =>
    obtain ⟨here, later⟩ := List.forall_mem_cons.mp turn
    rw [List.cons_append, readLines_idle outside (.inl here)]
    exact ih later

end Trail

theorem atEnd_readLines {t : Trail ν} {prior : Session ν} {lines : List (List Char)}
    (h : (Trail.start prior).readLines lines = .ok t) : t.AtEnd prior.start :=
  foldlM_keeps (P := fun t : Trail ν => t.AtEnd prior.start)
    (fun _ _ _ ht run => ht.step (Trail.step_of_readLine run)) (Trail.atEnd_start prior) h

theorem registers_readLines {t : Trail ν} {prior : Session ν} {lines : List (List Char)}
    (h : (Trail.start prior).readLines lines = .ok t) : t.draft.Registers prior.nextMarkerId :=
  foldlM_keeps (P := fun t : Trail ν => t.draft.Registers prior.nextMarkerId)
    (fun _ _ _ ht run => Trail.registers_readLine ht run) (.after prior) h

/-- Every waypoint of a path that is read has an entry. -/
theorem length_entries {text : List Char} {prior decoded : Session ν}
    (h : read text prior = .ok decoded) : decoded.entries.length = decoded.waypoints.length := by
  obtain ⟨d, start, registered, rfl⟩ := exists_registers h
  apply List.filterMap_length_eq_length.mpr
  intro w hw
  cases w with
  | move m => rfl
  | action a =>
    obtain ⟨m, hm, named⟩ := List.mem_map.mp (registered.runs _ hw)
    have found := registered.numbered.find?_id hm
    rw [named] at found
    simp only [Layout.entryOf?, Layout.marker?, Draft.toSession, found]
    rfl

/-- A program that leaves no arc open, with another one behind it, is read as the first program and
then the other from where the first has ended. -/
theorem entries_read_append {before : List Char} (closed : arcOpenAfter (splitLines before) = false)
    (after : List Char) (prior : Session ν) :
    (read (before ++ '\n' :: after) prior).map (·.entries) = (do
      let first ← read before prior
      let second ← read after (prior.restartedAfter first)
      return first.entries ++ second.entries) := by
  rw [Trail.read_eq_conclude, splitLines_append_lineFeed, Trail.read_eq_conclude]
  cases reached : (Trail.start prior).readLines (splitLines before) with
  | error fault =>
    rw [Trail.conclude, Trail.conclude, Trail.readLines_append, reached]
    rfl
  | ok t =>
    have outside := Trail.pending_readLines_eq_none rfl closed reached
    have read_first : (Trail.start prior).conclude (splitLines before) prior =
        .ok (t.draft.toSession prior.start prior) := by
      have finished : t.finish = .ok t := by rw [Trail.finish, outside]
      rw [Trail.conclude, reached, ok_bind, finished]
      rfl
    have goesOn := Trail.continues_start (registers_readLines reached) outside
      (atEnd_readLines reached)
    have sessions : Corresponds (fun joined second =>
        joined.entries = (t.draft.toSession prior.start prior).entries ++ second.entries)
        (t.conclude (splitLines after) prior)
        (read after (prior.restartedAfter (t.draft.toSession prior.start prior))) :=
      (goesOn.readLines (splitLines after)).bind fun t' u' step =>
        step.finish.bind fun t'' u'' last => .ok last.entries
    rw [read_first, Trail.conclude_append reached, ok_bind]
    exact sessions.map_eq.trans (bind_pure_comp (m := Outcome) _ _).symm

/-- Turns where no arc is open change nothing that is read behind them. -/
theorem read_turns {before : List Char} (closed : arcOpenAfter (splitLines before) = false)
    {turns : List Char} (turn : ∀ l ∈ splitLines turns, Command.ofLine (trim l) = .turn)
    (after : List Char) (prior : Session ν) :
    read (before ++ '\n' :: (turns ++ '\n' :: after)) prior = read (before ++ '\n' :: after) prior := by
  have same : (Trail.start prior).readLines
        (splitLines before ++ (splitLines turns ++ splitLines after)) =
      (Trail.start prior).readLines (splitLines before ++ splitLines after) := by
    apply Trail.readLines_append_congr
    intro t reached
    exact Trail.readLines_turns (Trail.pending_readLines_eq_none rfl closed reached) turn _
  rw [Trail.read_eq_conclude, Trail.read_eq_conclude, splitLines_append_lineFeed,
    splitLines_append_lineFeed, splitLines_append_lineFeed, Trail.conclude, Trail.conclude, same]

/-- Reading is compositional. Behind a program that leaves no arc open another one is read, or
refused, as on its own from where the first has ended: the moves of both and the calls of their
actions follow one another, and no waypoint is without its entry. Turns between the two programs are
as if they were not there. -/
theorem read_append {before : List Char} (closed : arcOpenAfter (splitLines before) = false)
    (after : List Char) (prior : Session ν) :
    (read (before ++ '\n' :: after) prior).map (·.entries) = (do
        let first ← read before prior
        let second ← read after (prior.restartedAfter first)
        return first.entries ++ second.entries) ∧
      (∀ (text : List Char) (prior decoded : Session ν), read text prior = .ok decoded →
        decoded.entries.length = decoded.waypoints.length) ∧
      ∀ turns : List Char, (∀ l ∈ splitLines turns, Command.ofLine (trim l) = .turn) →
        read (before ++ '\n' :: (turns ++ '\n' :: after)) prior =
          read (before ++ '\n' :: after) prior :=
  ⟨entries_read_append closed after prior, fun _ _ _ => length_entries,
    fun _ turn => read_turns closed turn after prior⟩

/-- An arc over four lines, a call behind it and a turn. -/
def arcAndCall : List Char :=
  "arc(2.0, 0.5, path\n  .at(0.0, 0.0)\n  .at(1.0, 0.0)\n);\nlift(2);\nturnPID(90);".toList

/-- The same call, with a drive before and a strafe behind it. -/
def drivesAroundCall : List Char := "drivePID(1.5, 0.0);\nlift(2);\nstrafePID(1.0, 0.0);".toList

/-- Two turns. -/
def twoTurns : List Char := "turnPID(45);\n  turnPID(-90.5);".toList

theorem read_append_arcAndCall :
    letI := axes.scalar
    arcOpenAfter (splitLines arcAndCall) = false ∧
      (∀ l ∈ splitLines twoTurns, Command.ofLine (trim l) = .turn) ∧
      (read arcAndCall (Session.empty : Session Float)).map (·.entries.length) = .ok 2 ∧
      (read (arcAndCall ++ '\n' :: drivesAroundCall) (Session.empty : Session Float)).map (·.entries) =
        (do
          let first ← read arcAndCall Session.empty
          let second ← read drivesAroundCall (Session.empty.restartedAfter first)
          return first.entries ++ second.entries) ∧
      read (arcAndCall ++ '\n' :: (twoTurns ++ '\n' :: drivesAroundCall))
          (Session.empty : Session Float) =
        read (arcAndCall ++ '\n' :: drivesAroundCall) Session.empty := by
  let := axes.scalar
  have closed : arcOpenAfter (splitLines arcAndCall) = false := by decide
  have turns : ∀ l ∈ splitLines twoTurns, Command.ofLine (trim l) = .turn := by
    have lines : splitLines twoTurns = ["turnPID(45);".toList, "  turnPID(-90.5);".toList] := by decide
    rw [lines]
    rintro l (_ | ⟨_, _ | ⟨_, ⟨⟩⟩⟩)
    · rfl
    · rfl
  obtain ⟨composed, -, turnsLost⟩ :=
    read_append closed drivesAroundCall (Session.empty : Session Float)
  exact ⟨closed, turns, by decide, composed, turnsLost twoTurns turns⟩

end Robot

end Program

end PathStudio
