import PathStudio.Program.Decode
import PathStudio.Proofs.Outcome
import PathStudio.Proofs.Program.Draft
import Mathlib.Data.List.Nodup

/-!
# The markers of a decoded program

A reader numbers its markers one after another from the next free number on, and
every action that it adds runs a marker that it has. Both are kept by each marker
of a field-oriented program and by each line of a robot-oriented one, and so they
hold of every session that is read.
-/

namespace PathStudio

variable {ν : Type}

/-- A waypoint runs nothing, or the marker of a number that is among the given ones. -/
def Waypoint.RunsAmong (ids : List Int) : Waypoint ν → Prop
  | .move _ => True
  | .action a => a.markerId ∈ ids

theorem Waypoint.RunsAmong.mono {ids more : List Int} {w : Waypoint ν} (h : w.RunsAmong ids)
    (subset : ids ⊆ more) : w.RunsAmong more := by
  cases w with
  | move m => trivial
  | action a => exact subset h

/-- The numbers of a layout's markers. -/
def Layout.markerIds (l : Layout ν) : List Int := l.markers.map Marker.id

/-- The markers of a layout have different numbers, and every action runs one of them. -/
structure Layout.Consistent (l : Layout ν) : Prop where
  distinct : l.markerIds.Nodup
  runs : ∀ w ∈ l.waypoints, w.RunsAmong l.markerIds

namespace Program

namespace Draft

variable {d : Draft ν} {first : Int}

/-- The numbers of a draft's markers. -/
def markerIds (d : Draft ν) : List Int := d.markers.map Marker.id

theorem Numbered.markerIds_eq (h : d.Numbered first) :
    d.markerIds = (List.range d.markers.length).map fun (i : Nat) => first + i := by
  apply List.ext_getElem (by simp [markerIds])
  intro i hi hj
  have bound : i < d.markers.length := by simpa [markerIds] using hi
  simpa [markerIds] using h.id_eq i _ (List.getElem?_eq_getElem bound)

theorem Numbered.nodup (h : d.Numbered first) : d.markerIds.Nodup := by
  rw [h.markerIds_eq]
  refine List.nodup_range.map (fun i j same => ?_)
  have : first + (i : Int) = first + j := same
  omega

/-- A number of a draft is none of those given before, and none that is free. -/
theorem Numbered.mem_bounds (h : d.Numbered first) {m : Marker ν} (hm : m ∈ d.markers) :
    first ≤ m.id ∧ m.id < d.nextMarkerId := by
  obtain ⟨i, bound, rfl⟩ := List.getElem_of_mem hm
  have here := h.id_eq i _ (List.getElem?_eq_getElem bound)
  have next := h.next_eq
  omega

theorem markerIds_markerFor (d : Draft ν) (name args : List Char) (at_ : Point ν) :
    d.markerIds ⊆ (d.markerFor name args at_).2.markerIds := by
  obtain ⟨more, grown⟩ := markers_markerFor d name args at_
  rw [markerIds, markerIds, ← grown, List.map_append]
  exact List.subset_append_left _ _

variable [Add ν] [Sub ν] [Mul ν] [Div ν] [Neg ν] [Scalar ν]

theorem runsAmong_markerFor (d : Draft ν) (name args : List Char) (at_ : Point ν) :
    (markerAction (d.markerFor name args at_).1).RunsAmong
      (d.markerFor name args at_).2.markerIds :=
  List.mem_map_of_mem (markerFor_mem d name args at_)

end Draft

/-- What is read so far has its markers numbered from the given number on, and its waypoints run
nothing else. -/
structure Draft.Registers (first : Int) (d : Draft ν) : Prop where
  numbered : d.Numbered first
  runs : ∀ w ∈ d.waypoints, w.RunsAmong d.markerIds

namespace Draft.Registers

variable {d : Draft ν} {first : Int}

theorem after (prior : Session ν) : (Draft.after prior).Registers prior.nextMarkerId where
  numbered := numbered_after prior
  runs w h := by simp [Draft.after] at h

theorem add (h : d.Registers first) {w : Waypoint ν} (hw : w.RunsAmong d.markerIds) :
    (d.add w).Registers first where
  numbered := h.numbered.add w
  runs v hv := by
    obtain hv | hv := List.mem_append.mp hv
    · exact h.runs v hv
    · rw [List.mem_singleton.mp hv]
      exact hw

theorem markerFor (h : d.Registers first) (name args : List Char) (at_ : Point ν) :
    (d.markerFor name args at_).2.Registers first where
  numbered := h.numbered.markerFor name args at_
  runs w hw := by
    rw [waypoints_markerFor] at hw
    exact (h.runs w hw).mono (markerIds_markerFor d name args at_)

/-- The session of such a draft has its numbers between the first one and the next free one. -/
theorem consistent (h : d.Registers first) (start : Pose ν) (prior : Session ν) :
    (d.toSession start prior).Consistent where
  distinct := h.numbered.nodup
  runs := h.runs

end Draft.Registers

variable [Add ν] [Sub ν] [Mul ν] [Div ν] [Neg ν] [Scalar ν]

/-! ## Robot-oriented programs -/

namespace Robot.Trail

variable {t next : Trail ν} {first : Int}

theorem registers_move (h : t.draft.Registers first) (motion : Motion ν) (p : Point ν)
    (degrees speed : ν) : (t.move motion p degrees speed).draft.Registers first :=
  h.add trivial

theorem registers_addArc (h : t.draft.Registers first) {a : OpenArc}
    (run : t.addArc a = .ok next) : next.draft.Registers first := by
  obtain ⟨p, -, run⟩ := bind_eq_ok.mp run
  cases run
  exact registers_move (t := { t with pending := none }) h _ _ _ _

theorem registers_extendArc (h : t.draft.Registers first) {a : OpenArc} {line : List Char}
    (run : t.extendArc a line = .ok next) : next.draft.Registers first := by
  simp only [extendArc] at run
  split at run
  · exact registers_addArc h run
  · cases run
    exact h

theorem registers_addCall (h : t.draft.Registers first) (name args : List Char) :
    (t.addCall name args).draft.Registers first :=
  (h.markerFor name args t.cursor).add (Draft.runsAmong_markerFor t.draft name args t.cursor)

theorem registers_readLine (h : t.draft.Registers first) {line : List Char}
    (run : t.readLine line = .ok next) : next.draft.Registers first := by
  rw [readLine] at run
  split at run
  · exact registers_extendArc h run
  · cases command : Command.ofLine line with
    | turn | nothing =>
      rw [command] at run
      cases run
      exact h
    | travel kind length degrees =>
      rw [command] at run
      obtain ⟨p, -, run⟩ := bind_eq_ok.mp run
      cases run
      exact registers_move h _ _ _ _
    | arc length speed =>
      rw [command] at run
      exact registers_extendArc h run
    | call name args =>
      rw [command] at run
      cases run
      exact registers_addCall h name args

theorem registers_finish (h : t.draft.Registers first) (run : t.finish = .ok next) :
    next.draft.Registers first := by
  rw [finish] at run
  split at run
  · exact registers_addArc h run
  · cases run
    exact h

end Robot.Trail

theorem Robot.exists_registers {text : List Char} {prior decoded : Session ν}
    (h : Robot.read text prior = .ok decoded) :
    ∃ (d : Draft ν) (start : Pose ν), d.Registers prior.nextMarkerId ∧
      decoded = d.toSession start prior := by
  obtain ⟨trail, lines, h⟩ := bind_eq_ok.mp h
  obtain ⟨last, finished, h⟩ := bind_eq_ok.mp h
  cases h
  have read : trail.draft.Registers prior.nextMarkerId :=
    foldlM_keeps (P := fun t : Robot.Trail ν => t.draft.Registers prior.nextMarkerId)
      (fun t line next ht run => Robot.Trail.registers_readLine ht run) (.after prior) lines
  exact ⟨last.draft, _, Robot.Trail.registers_finish read finished, rfl⟩

/-! ## Field-oriented programs -/

namespace Field

/-- The actions that have been read run the markers of the draft. -/
structure Slots.Registers (first : Int) (slots : Slots ν) : Prop where
  draft : slots.draft.Registers first
  runs : ∀ a ∈ slots.actions, a.2.RunsAmong slots.draft.markerIds

theorem registers_addMarker {start : Pose ν} {moves : List (Pose ν)} {slots next : Slots ν}
    {written : WrittenNumber × List Char} {first : Int} (h : slots.Registers first)
    (run : addMarker start moves slots written = .ok next) : next.Registers first := by
  rw [addMarker] at run
  split at run
  · cases run
    exact h
  · rename_i name args _
    obtain ⟨k, -, run⟩ := bind_eq_ok.mp run
    cases run
    refine ⟨h.draft.markerFor name args _, fun a ha => ?_⟩
    obtain ha | ha := List.mem_append.mp ha
    · exact (h.runs a ha).mono (Draft.markerIds_markerFor _ name args _)
    · rw [List.mem_singleton.mp ha]
      exact Draft.runsAmong_markerFor slots.draft name args _

omit [Add ν] [Sub ν] [Mul ν] [Div ν] [Neg ν] [Scalar ν] in
theorem mem_actionsAt {actions : List (Nat × Waypoint ν)} {k : Nat} {w : Waypoint ν}
    (h : w ∈ actionsAt actions k) : ∃ a ∈ actions, a.2 = w := by
  obtain ⟨a, ha, rfl⟩ := List.mem_map.mp h
  exact ⟨a, List.mem_of_mem_filter ha, rfl⟩

/-- What stands between the moves of a decoded path is an action that has been read. -/
theorem runsAmong_of_mem_interleave {ids : List Int} {actions : List (Nat × Waypoint ν)}
    (h : ∀ a ∈ actions, a.2.RunsAmong ids) {moves : List (Pose ν)} {k : Nat} {w : Waypoint ν}
    (hw : w ∈ interleave actions k moves) : w.RunsAmong ids := by
  induction moves generalizing k with
  | nil => cases hw
  | cons p rest ih =>
    obtain rfl | hw := List.mem_cons.mp hw
    · trivial
    · obtain hw | hw := List.mem_append.mp hw
      · obtain ⟨a, ha, rfl⟩ := mem_actionsAt hw
        exact h a ha
      · exact ih hw

theorem exists_registers {text : List Char} {prior decoded : Session ν}
    (h : read text prior = .ok decoded) :
    ∃ (d : Draft ν) (start : Pose ν), d.Registers prior.nextMarkerId ∧
      decoded = d.toSession start prior := by
  obtain ⟨slots, found, h⟩ := bind_eq_ok.mp h
  cases h
  have empty : Slots.Registers prior.nextMarkerId (⟨.after prior, []⟩ : Slots ν) :=
    ⟨.after prior, by simp⟩
  have read : slots.Registers prior.nextMarkerId :=
    foldlM_keeps (fun s written next hs run => registers_addMarker hs run) empty found
  refine ⟨_, _, ?_, rfl⟩
  refine ⟨⟨read.draft.numbered.id_eq, read.draft.numbered.next_eq⟩, fun w hw => ?_⟩
  obtain hw | hw := List.mem_append.mp hw
  · obtain ⟨a, ha, rfl⟩ := mem_actionsAt hw
    exact read.runs a ha
  · exact runsAmong_of_mem_interleave read.runs hw

end Field

/-- A decoded session is that of a draft whose markers go on after those of the earlier session. -/
theorem exists_registers {text : List Char} {prior decoded : Session ν} {d : Dialect}
    (h : decode text prior = .ok (d, decoded)) :
    ∃ (draft : Draft ν) (start : Pose ν), draft.Registers prior.nextMarkerId ∧
      decoded = draft.toSession start prior := by
  obtain ⟨d', -, h⟩ := bind_eq_ok.mp h
  split at h
  next s read =>
    cases h
    cases d with
    | field => exact Field.exists_registers read
    | robot => exact Robot.exists_registers read
  next => split at h <;> cases h

end Program

end PathStudio
