import PathStudio.Proofs.Session.Registry
import PathStudio.Proofs.Json.RoundTrip

/-!
# Storing sessions

A session that is stored and read again is the same, but for the history and the
selection. Reading puts the next marker number above the markers, and above zero:
that leaves the number of a session with markers as it is, because it was above
them before, and one without markers may have come below zero by losing them.
-/

namespace PathStudio

theorem Waypoint.ofJson_toJson (w : Waypoint Float) : Waypoint.ofJson w.toJson = .ok w := by
  cases w with
  | action a => rfl
  | move m =>
    obtain ⟨motion, pose, speed⟩ := m
    cases motion with
    | drive => rfl
    | strafe => rfl
    | arc control => cases control <;> rfl

@[simp] theorem Marker.ofJson_toJson (m : Marker Float) : Marker.ofJson m.toJson = .ok m := by
  have read : Marker.ofJson m.toJson =
      .ok ⟨m.id, m.x, m.y, String.ofList m.name.toList, String.ofList m.args.toList⟩ := rfl
  rw [read, String.ofList_toList, String.ofList_toList]

/-- A mode that has been read is read again as the same, also if it is neither dialect. -/
@[simp] theorem Mode.ofJson_toJson_ofJson (data : Json) :
    Mode.ofJson (Mode.ofJson data).toJson = Mode.ofJson data := by
  cases data with
  | str name =>
    cases named : Dialect.ofName? name with
    | none => simp only [Mode.ofJson, named, Mode.toJson]
    | some d => simp only [Mode.ofJson, named, Mode.toJson, Dialect.ofName?_name]
  | _ => rfl

@[simp] theorem Mode.ofJson_toJson_dialect (d : Dialect) :
    Mode.ofJson (Mode.dialect d).toJson = .dialect d := by
  cases d <;> rfl

/-! ## The shape of a stored session -/

namespace Json

theorem itemsHaveDistinctKeys_map {α : Type} {f : α → Json} (h : ∀ a, (f a).HasDistinctKeys)
    (xs : List α) : ItemsHaveDistinctKeys (xs.map f) := by
  induction xs with
  | nil => trivial
  | cons x xs ih => exact ⟨h x, ih⟩

theorem itemsDepth_map_le {α : Type} {f : α → Json} {n : Nat} (h : ∀ a, (f a).depth ≤ n)
    (xs : List α) : itemsDepth (xs.map f) ≤ n := by
  induction xs with
  | nil => exact Nat.zero_le n
  | cons x xs ih => exact Nat.max_le.mpr ⟨h x, ih⟩

end Json

namespace Waypoint

open Json in
theorem hasDistinctKeys_toJson (w : Waypoint Float) : w.toJson.HasDistinctKeys := by
  match w with
  | .action a => simp [toJson, HasDistinctKeys, MembersHaveDistinctKeys]
  | .move ⟨motion, pose, speed⟩ =>
    cases motion with
    | drive | strafe => simp [toJson, Move.toJson, HasDistinctKeys, MembersHaveDistinctKeys]
    | arc control =>
      cases control with
      | none => simp [toJson, Move.toJson, HasDistinctKeys, MembersHaveDistinctKeys]
      | some c =>
        simp [toJson, Move.toJson, Point.toJson, HasDistinctKeys, MembersHaveDistinctKeys,
          ItemsHaveDistinctKeys]

/-- Only the control point of an arc is a value in a waypoint that is no number or text. -/
theorem depth_toJson_le (w : Waypoint Float) : w.toJson.depth ≤ 2 := by
  match w with
  | .action a => exact Nat.le_succ 1
  | .move ⟨motion, pose, speed⟩ =>
    cases motion with
    | drive | strafe => exact Nat.le_succ 1
    | arc control =>
      cases control with
      | none => exact Nat.le_succ 1
      | some c => exact Nat.le_refl 2

end Waypoint

namespace Session

open Json in
theorem hasDistinctKeys_toJson {s : Session Float} (h : s.mode.toJson.HasDistinctKeys) :
    s.toJson.HasDistinctKeys := by
  have waypoints := itemsHaveDistinctKeys_map Waypoint.hasDistinctKeys_toJson s.waypoints
  have marker (m : Marker Float) : m.toJson.HasDistinctKeys := by
    simp [Marker.toJson, HasDistinctKeys, MembersHaveDistinctKeys]
  have markers := itemsHaveDistinctKeys_map marker s.markers
  simp [toJson, HasDistinctKeys, MembersHaveDistinctKeys, waypoints, markers, h]

open Json in
/-- Nothing in a session is deeper than the control point of an arc, unless it is the mode. -/
theorem depth_toJson_le (s : Session Float) : s.toJson.depth ≤ max 4 (s.mode.toJson.depth + 1) := by
  have waypoints := itemsDepth_map_le Waypoint.depth_toJson_le s.waypoints
  have marker (m : Marker Float) : m.toJson.depth ≤ 1 := Nat.le_refl 1
  have markers := itemsDepth_map_le marker s.markers
  simp only [toJson, depth, membersDepth]
  omega

/-- What reading makes of a stored session. -/
theorem ofJson_toJson (s : Session Float) :
    ofJson s.toJson = .ok
      { s with
        selection := none
        mode := Mode.ofJson s.mode.toJson
        nextMarkerId := max s.nextMarkerId ((largest (s.markers.map Marker.id)).getD 0 + 1)
        past := .empty } := by
  have read : ofJson s.toJson = (do
      let markers ← (s.markers.map Marker.toJson).mapM Marker.ofJson
      let waypoints ← (s.waypoints.map Waypoint.toJson).mapM Waypoint.ofJson
      return {
        start := s.start, waypoints, markers, selection := none, mode := Mode.ofJson s.mode.toJson
        nextMarkerId := max s.nextMarkerId ((largest (markers.map Marker.id)).getD 0 + 1)
        past := .empty }) := rfl
  rw [read, mapM_map_of_inverse Marker.ofJson_toJson, mapM_map_of_inverse Waypoint.ofJson_toJson]
  rfl

/-! ## Sessions that can be stored -/

/-- The next number of a session is above those of all its markers, saved ones included, and its mode
is one that can be read. -/
structure Storable (s : Session Float) : Prop where
  lt_next : ∀ m ∈ s.keptMarkers, m.id < s.nextMarkerId
  mode_eq : Mode.ofJson s.mode.toJson = s.mode

/-- A step only adds markers that take numbers, and the next number is above those. -/
theorem Step.lt_next {ν : Type} [Add ν] [Sub ν] [Mul ν] [Div ν] [Neg ν] [Scalar ν]
    {s t : Session ν} (step : Step s t) (h : ∀ m ∈ s.keptMarkers, m.id < s.nextMarkerId) :
    ∀ m ∈ t.keptMarkers, m.id < t.nextMarkerId := by
  intro m hm
  cases step with
  | reshape l markers _ =>
    exact h m (keptMarkers_replaced (t := { s with toLayout := l }) markers rfl hm)
  | save => exact h m (keptMarkers_saved hm)
  | restore history => exact h m (keptMarkers_restored history hm)
  | switch d => exact h m hm
  | register next =>
    show m.id < s.nextMarkerId + 1
    obtain old | new := mem_keptMarkers_of_register hm
    · have := h m old
      omega
    · rw [List.mem_singleton.mp new]
      omega
  | @adopt d draft registers start =>
    show m.id < draft.nextMarkerId
    obtain old | new := mem_keptMarkers_of_adopt hm
    · have := h m old
      have := registers.numbered.next_eq
      omega
    · exact (registers.numbered.mem_bounds new).2

theorem Storable.step {s t : Session Float} (step : Step s t) (h : s.Storable) : t.Storable where
  lt_next := step.lt_next h.lt_next
  mode_eq := by
    cases step with
    | switch d => exact Mode.ofJson_toJson_dialect d
    | adopt d registers start => exact Mode.ofJson_toJson_dialect d
    | reshape | save | restore | register => exact h.mode_eq

/-- The mode of a session that has been read has been read. -/
theorem mode_of_ofJson {data : Json} {s : Session Float} (h : ofJson data = .ok s) :
    ∃ mode, s.mode = Mode.ofJson mode := by
  simp only [ofJson, bind_eq_ok] at h
  obtain ⟨_, -, _, -, _, -, _, -, _, -, _, -, _, -, mode, -, _, -, _, -, _, -, _, -, _, -, _, -, _, -,
    _, -, h⟩ := h
  cases return_eq_ok.mp h
  exact ⟨_, rfl⟩

theorem IsInitial.storable {s : Session Float} (h : s.IsInitial) : s.Storable := by
  have kept : s.keptMarkers = s.markers := by simp [keptMarkers, layouts, h.history_eq_nil]
  obtain rfl | ⟨data, read⟩ := h
  · exact ⟨by rw [kept]; simp [empty], rfl⟩
  · obtain ⟨mode, same⟩ := mode_of_ofJson read
    refine ⟨kept ▸ lt_next_of_ofJson read, ?_⟩
    rw [same, Mode.ofJson_toJson_ofJson]

theorem Reachable.storable {s : Session Float} (h : s.Reachable) : s.Storable := by
  induction h with
  | initial h => exact h.storable
  | step op _ ih => exact (Operation.steps_run op _).keeps (fun _ _ => Storable.step) ih

/-- A session as it is after it has been stored and read. -/
def reopened (s : Session Float) : Session Float :=
  { start := s.start
    waypoints := s.waypoints
    markers := s.markers
    selection := none
    mode := s.mode
    nextMarkerId := if s.markers.isEmpty then max s.nextMarkerId 1 else s.nextMarkerId
    past := .empty }

theorem largest_lt {ids : List Int} {top bound : Int} (h : ∀ id ∈ ids, id < bound)
    (largest_eq : largest ids = some top) : top < bound := by
  have bounded : ∀ (rest : List Int) (n : Int), n < bound → (∀ id ∈ rest, id < bound) →
      rest.foldl max n < bound := by
    intro rest
    induction rest with
    | nil => exact fun n hn _ => hn
    | cons k rest ih =>
      intro n hn hrest
      obtain ⟨hk, hrest⟩ := List.forall_mem_cons.mp hrest
      exact ih (max n k) (by omega) hrest
  cases ids with
  | nil => cases largest_eq
  | cons n rest =>
    cases largest_eq
    obtain ⟨hn, hrest⟩ := List.forall_mem_cons.mp h
    exact bounded rest n hn hrest

/-- The next number that reading gives to a session that can be stored. -/
theorem Storable.next_eq {s : Session Float} (h : s.Storable) :
    max s.nextMarkerId ((largest (s.markers.map Marker.id)).getD 0 + 1) =
      s.reopened.nextMarkerId := by
  have below : ∀ id ∈ s.markers.map Marker.id, id < s.nextMarkerId := by
    intro id hid
    obtain ⟨m, hm, rfl⟩ := List.mem_map.mp hid
    exact h.lt_next m (mem_keptMarkers.mpr (.inl hm))
  rw [reopened]
  cases hs : s.markers with
  | nil => rfl
  | cons m rest =>
    rw [hs] at below
    have top := largest_lt below rfl
    simp only [List.map_cons, largest, Option.getD_some, List.isEmpty_cons, Bool.false_eq_true, if_false]
    omega

theorem Storable.ofJson_toJson {s : Session Float} (h : s.Storable) :
    ofJson s.toJson = .ok s.reopened := by
  rw [Session.ofJson_toJson, h.next_eq, h.mode_eq]
  rfl

end Session

end PathStudio
