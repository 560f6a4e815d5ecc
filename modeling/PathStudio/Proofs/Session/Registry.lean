import PathStudio.Proofs.Session.Steps

/-!
# The registry of markers

Markers are numbered by a counter that undoing does not bring back. The layouts
of a session, the present one and the saved ones, may each have markers of their
own, and what keeps them apart is one invariant: all their numbers are below the
counter, and where two of them have the same number they are the same marker. The
invariant also remembers which markers there were at an earlier moment, so that a
number given later is none of theirs.
-/

namespace PathStudio

variable {ν : Type}

namespace Session

/-- The layouts of a session: the present one and those that undoing restores. -/
def layouts (s : Session ν) : List (Layout ν) := s.toLayout :: s.history

/-- The markers of all layouts of a session. -/
def keptMarkers (s : Session ν) : List (Marker ν) := s.layouts.flatMap Layout.markers

theorem mem_keptMarkers {s : Session ν} {m : Marker ν} :
    m ∈ s.keptMarkers ↔ m ∈ s.markers ∨ ∃ l ∈ s.history, m ∈ l.markers := by
  simp [keptMarkers, layouts, List.mem_flatMap]

section Kept

variable {s t : Session ν} {l : Layout ν} {rest : List (Layout ν)} {m m' : Marker ν}

theorem keptMarkers_saved : s.saved.keptMarkers ⊆ s.keptMarkers := by
  intro m hm
  obtain hm | ⟨l, hl, hm⟩ := mem_keptMarkers.mp hm
  · exact mem_keptMarkers.mpr (.inl hm)
  · exact List.mem_flatMap.mpr ⟨l, List.mem_of_mem_take hl, hm⟩

theorem keptMarkers_replaced (markers : t.markers ⊆ s.markers) (history : t.history = s.history) :
    t.keptMarkers ⊆ s.keptMarkers := by
  intro m hm
  obtain hm | hm := mem_keptMarkers.mp hm
  · exact mem_keptMarkers.mpr (.inl (markers hm))
  · exact mem_keptMarkers.mpr (.inr (history ▸ hm))

theorem keptMarkers_restored (hs : s.history = l :: rest) :
    ({ s with toLayout := l, past := s.past.tail } : Session ν).keptMarkers ⊆ s.keptMarkers := by
  intro m hm
  obtain ⟨k, hk : k ∈ l :: s.past.tail.layouts, hm⟩ := List.mem_flatMap.mp hm
  rw [cons_layouts_tail hs] at hk
  exact List.mem_flatMap.mpr ⟨k, List.mem_cons_of_mem _ hk, hm⟩

theorem mem_keptMarkers_of_register
    (hm : m ∈ ({ s with nextMarkerId := s.nextMarkerId + 1, markers := s.markers ++ [m'] } :
      Session ν).keptMarkers) : m ∈ s.keptMarkers ∨ m ∈ [m'] := by
  obtain hm | hm := mem_keptMarkers.mp hm
  · obtain hm | hm := List.mem_append.mp hm
    · exact .inl (mem_keptMarkers.mpr (.inl hm))
    · exact .inr hm
  · exact .inl (mem_keptMarkers.mpr (.inr hm))

theorem mem_keptMarkers_of_adopt [Add ν] [Sub ν] [Mul ν] [Div ν] [Neg ν] [Scalar ν] {d : Dialect}
    {decoded : Session ν} (hm : m ∈ (Program.adopt s d decoded).keptMarkers) :
    m ∈ s.keptMarkers ∨ m ∈ decoded.markers := by
  obtain hm | ⟨l, hl, hm⟩ := mem_keptMarkers.mp hm
  · exact .inr hm
  · exact .inl (List.mem_flatMap.mpr ⟨l, List.mem_of_mem_take hl, hm⟩)

end Kept

/-- The markers of a session are kept apart by their numbers, in each layout and from one layout to
another, and each of them is either one of the known markers or has a number from the given one on. -/
structure Registered (known : List (Marker ν)) (first : Int) (s : Session ν) : Prop where
  first_le : first ≤ s.nextMarkerId
  consistent : ∀ l ∈ s.layouts, l.Consistent
  lt_next : ∀ m ∈ s.keptMarkers, m.id < s.nextMarkerId
  agree : ∀ m ∈ s.keptMarkers, ∀ m' ∈ s.keptMarkers, m.id = m'.id → m = m'
  known_or_later : ∀ m ∈ s.keptMarkers, m ∈ known ∨ first ≤ m.id

namespace Registered

variable {s t : Session ν} {known : List (Marker ν)} {first : Int}

/-- Markers may be lost, and others added with numbers that were free. -/
theorem grow (h : s.Registered known first) (added : List (Marker ν))
    (le : s.nextMarkerId ≤ t.nextMarkerId) (consistent : ∀ l ∈ t.layouts, l.Consistent)
    (kept : ∀ m ∈ t.keptMarkers, m ∈ s.keptMarkers ∨ m ∈ added)
    (free : ∀ m ∈ added, s.nextMarkerId ≤ m.id ∧ m.id < t.nextMarkerId)
    (distinct : (added.map Marker.id).Nodup) : t.Registered known first where
  first_le := Int.le_trans h.first_le le
  consistent := consistent
  lt_next m hm := by
    obtain old | new := kept m hm
    · exact Int.lt_of_lt_of_le (h.lt_next m old) le
    · exact (free m new).2
  agree m hm m' hm' same := by
    -- a number that was free is none of the old ones
    have apart : ∀ a ∈ s.keptMarkers, ∀ b ∈ added, a.id ≠ b.id := by
      intro a ha b hb
      have := h.lt_next a ha
      have := (free b hb).1
      omega
    obtain old | new := kept m hm <;> obtain old' | new' := kept m' hm'
    · exact h.agree m old m' old' same
    · exact absurd same (apart m old m' new')
    · exact absurd same.symm (apart m' old' m new)
    · exact List.inj_on_of_nodup_map distinct new new' same
  known_or_later m hm := by
    obtain old | new := kept m hm
    · exact h.known_or_later m old
    · exact .inr (Int.le_trans h.first_le (free m new).1)

theorem of_kept (h : s.Registered known first) (next : t.nextMarkerId = s.nextMarkerId)
    (consistent : ∀ l ∈ t.layouts, l.Consistent)
    (kept : ∀ m ∈ t.keptMarkers, m ∈ s.keptMarkers) : t.Registered known first :=
  h.grow [] (Int.le_of_eq next.symm) consistent (fun m hm => .inl (kept m hm)) (by simp) (by simp)

theorem layout (h : s.Registered known first) : s.toLayout.Consistent :=
  h.consistent _ List.mem_cons_self

theorem saved (h : s.Registered known first) : s.saved.Registered known first := by
  refine h.of_kept rfl (fun l hl => ?_) keptMarkers_saved
  obtain rfl | hl := List.mem_cons.mp hl
  · exact h.layout
  · exact h.consistent l (List.mem_of_mem_take hl)

/-- A change of the present layout that loses markers at most. -/
theorem replaced (h : s.Registered known first) (consistent : t.toLayout.Consistent)
    (markers : t.markers ⊆ s.markers) (history : t.history = s.history)
    (next : t.nextMarkerId = s.nextMarkerId) : t.Registered known first := by
  refine h.of_kept next (fun l hl => ?_) (keptMarkers_replaced markers history)
  obtain rfl | hl := List.mem_cons.mp hl
  · exact consistent
  · exact h.consistent l (List.mem_cons_of_mem _ (history ▸ hl))

theorem undone (h : s.Registered known first) (hs : s.history = l :: rest) :
    ({ s with toLayout := l, past := s.past.tail } : Session ν).Registered known first := by
  have sub : l :: s.past.tail.layouts ⊆ s.layouts := by
    rw [layouts, ← cons_layouts_tail hs]
    exact List.subset_cons_self _ _
  exact h.of_kept rfl (fun k hk => h.consistent k (sub hk)) (keptMarkers_restored hs)

variable [Add ν] [Sub ν] [Mul ν] [Div ν] [Neg ν] [Scalar ν]

omit [Add ν] [Sub ν] [Mul ν] [Div ν] [Neg ν] [Scalar ν] in
/-- Adding a marker takes the next number. -/
theorem addMarker (h : s.Registered known first) {m : Marker ν} (hm : m.id = s.nextMarkerId) :
    ({ s with nextMarkerId := s.nextMarkerId + 1, markers := s.markers ++ [m] } :
      Session ν).Registered known first := by
  refine h.grow [m] (Int.le_of_lt (Int.lt_succ _)) (fun l hl => ?_)
    (fun _ hm' => mem_keptMarkers_of_register hm') ?_ (by simp)
  · obtain rfl | hl := List.mem_cons.mp hl
    · refine ⟨?_, fun w hw => (h.layout.runs w hw).mono ?_⟩
      · have unused : ∀ a ∈ s.markers, a.id ≠ m.id := by
          intro a ha
          have := h.lt_next a (mem_keptMarkers.mpr (.inl ha))
          omega
        have distinct : (s.markers.map Marker.id).Nodup := h.layout.distinct
        simpa [Layout.markerIds, List.nodup_append, distinct] using unused
      · simp [Layout.markerIds]
    · exact h.consistent l (List.mem_cons_of_mem _ hl)
  · intro m' hm'
    rw [List.mem_singleton.mp hm', hm]
    exact ⟨Int.le_refl _, Int.lt_succ _⟩

theorem adopt (h : s.Registered known first) (d : Dialect) {draft : Program.Draft ν}
    (hd : draft.Registers s.nextMarkerId) (start : Pose ν) :
    (Program.adopt s d (draft.toSession start s)).Registered known first := by
  refine h.grow draft.markers ?_ (fun l hl => ?_) (fun _ hm => mem_keptMarkers_of_adopt hm)
    (fun m hm => hd.numbered.mem_bounds hm) hd.numbered.nodup
  · have next : draft.nextMarkerId = s.nextMarkerId + draft.markers.length := hd.numbered.next_eq
    show s.nextMarkerId ≤ draft.nextMarkerId
    omega
  · obtain rfl | hl := List.mem_cons.mp hl
    · exact ⟨hd.numbered.nodup, hd.runs⟩
    · exact h.saved.consistent l (List.mem_cons_of_mem _ hl)

theorem step (h : s.Registered known first) (hst : Step s t) : t.Registered known first := by
  cases hst with
  | reshape l markers consistent => exact h.replaced (consistent h.layout) markers rfl rfl
  | save => exact h.saved
  | restore history => exact h.undone history
  | register next => exact h.addMarker next
  | switch d => exact h.replaced h.layout (List.Subset.refl _) rfl rfl
  | adopt d registers start => exact h.adopt d registers start

end Registered

end Session

/-! ## Operations -/

namespace Operation

variable {known : List (Marker ν)} {first : Int} [Add ν] [Sub ν] [Mul ν] [Div ν] [Neg ν] [Scalar ν]

theorem registered_run (op : Operation ν) {s : Session ν} (hs : s.Registered known first) :
    (op.run s).Registered known first :=
  (steps_run op s).keeps (fun _ _ step h => h.step step) hs

theorem registered_runAll (ops : List (Operation ν)) {s : Session ν}
    (hs : s.Registered known first) : (runAll ops s).Registered known first := by
  induction ops generalizing s with
  | nil => exact hs
  | cons op ops ih => exact ih (registered_run op hs)

end Operation

namespace Session

/-- Seen from now on, the known markers are those that there are. -/
theorem Registered.renew {s : Session ν} {known : List (Marker ν)} {first : Int}
    (h : s.Registered known first) : s.Registered s.keptMarkers s.nextMarkerId :=
  { h with first_le := Int.le_refl _, known_or_later := fun _ hm => .inl hm }

theorem le_largest {ids : List Int} {top id : Int} (h : largest ids = some top) (hid : id ∈ ids) :
    id ≤ top := by
  have bounded : ∀ (rest : List Int) (n : Int), n ≤ rest.foldl max n ∧
      ∀ k ∈ rest, k ≤ rest.foldl max n := by
    intro rest
    induction rest with
    | nil => simp
    | cons k rest ih =>
      intro n
      obtain ⟨first, others⟩ := ih (max n k)
      rw [List.foldl_cons]
      refine ⟨by omega, fun j hj => ?_⟩
      obtain rfl | hj := List.mem_cons.mp hj
      · omega
      · exact others j hj
  cases ids with
  | nil => cases hid
  | cons n rest =>
    cases h
    obtain rfl | hid := List.mem_cons.mp hid
    · exact (bounded rest id).1
    · exact (bounded rest n).2 id hid

/-- The next number of a session that has been read is above those of its markers. -/
theorem lt_next_of_ofJson {data : Json} {s : Session Float} (h : ofJson data = .ok s) :
    ∀ m ∈ s.markers, m.id < s.nextMarkerId := by
  simp only [ofJson, bind_eq_ok] at h
  obtain ⟨_, -, _, -, _, -, _, -, _, -, _, -, _, -, _, -, _, -, _, -, markers, -, _, -, _, -, _, -,
    _, -, next, -, h⟩ := h
  cases return_eq_ok.mp h
  intro m hm
  have bounded : m.id ≤ (largest (markers.map (·.id))).getD 0 := by
    have hid : m.id ∈ markers.map (·.id) := List.mem_map_of_mem hm
    cases top : largest (markers.map (·.id)) with
    | none =>
      cases markers with
      | nil => cases hid
      | cons => cases top
    | some n => exact le_largest top hid
  show m.id < max next _
  omega

/-- A session to start from whose markers have different numbers, all its actions running one. -/
def IsSound (s : Session Float) : Prop := s = empty ∨ (∃ data, ofJson data = .ok s) ∧ s.Consistent

theorem IsSound.registered {s : Session Float} (h : s.IsSound) :
    s.Registered s.keptMarkers s.nextMarkerId := by
  have fresh : s.history = [] ∧ s.Consistent ∧ ∀ m ∈ s.markers, m.id < s.nextMarkerId := by
    obtain rfl | ⟨⟨data, read⟩, consistent⟩ := h
    · exact ⟨rfl, ⟨by simp [Layout.markerIds, empty], by simp [empty]⟩, by simp [empty]⟩
    · exact ⟨(fresh_of_ofJson read).2, consistent, lt_next_of_ofJson read⟩
  obtain ⟨history, consistent, below⟩ := fresh
  have kept : s.keptMarkers = s.markers := by simp [keptMarkers, layouts, history]
  refine ⟨Int.le_refl _, fun l hl => ?_, fun m hm => below m (kept ▸ hm), ?_, fun m hm => .inl hm⟩
  · rw [layouts, history, List.mem_singleton] at hl
    rwa [hl]
  · intro m hm m' hm' same
    rw [kept] at hm hm'
    exact List.inj_on_of_nodup_map consistent.distinct hm hm' same

end Session

open Operation

/-- Whatever is done to a session, in each of its layouts, saved ones included, the markers have
different numbers below the next one, and every action runs one of them. The next number never goes
back, and of two markers that there are at any two moments, those with the same number are the same
marker, also if the first had been discarded meanwhile. -/
theorem markers_keep_numbers {s₀ : Session Float} (h : s₀.IsSound) (before after : List (Operation Float)) :
    let s := runAll before s₀
    let t := runAll after s
    (∀ l ∈ s.layouts, l.Consistent ∧ ∀ m ∈ l.markers, m.id < s.nextMarkerId) ∧
      s.nextMarkerId ≤ t.nextMarkerId ∧
      ∀ m ∈ s.keptMarkers, ∀ m' ∈ t.keptMarkers, m.id = m'.id → m = m' := by
  intro s t
  have now := registered_runAll before h.registered
  have later : t.Registered s.keptMarkers s.nextMarkerId := registered_runAll after now.renew
  refine ⟨fun l hl => ⟨now.consistent l hl, fun m hm => ?_⟩, later.first_le, fun m hm m' hm' same => ?_⟩
  · exact now.lt_next m (List.mem_flatMap.mpr ⟨l, hl, hm⟩)
  · obtain known | fresh := later.known_or_later m' hm'
    · exact now.agree m hm m' known same
    · have below : m.id < s.nextMarkerId := now.lt_next m hm
      omega

/-- Adds an action at the origin for a call without arguments. -/
def addCallAtOrigin (name : String) : Operation Float :=
  addOrReuseMarker (.ofPoint ⟨0.0, 0.0⟩) (.ok name) (.ok "") (.number 0.025)

/-- The marker that is added after another one has been undone has the second number. -/
theorem markers_keep_numbers_past_undo :
    (Session.empty : Session Float).IsSound ∧
      let s := runAll [addCallAtOrigin "intake"] Session.empty
      let t := runAll [undo, addCallAtOrigin "release"] s
      s.markerIds = [1] ∧ t.markerIds = [2] ∧ s.nextMarkerId ≤ t.nextMarkerId ∧ t.Consistent := by
  have sound : (Session.empty : Session Float).IsSound := .inl rfl
  have kept := markers_keep_numbers sound [addCallAtOrigin "intake"]
    [undo, addCallAtOrigin "release"]
  have after := markers_keep_numbers sound
    [addCallAtOrigin "intake", undo, addCallAtOrigin "release"] []
  exact ⟨sound, rfl, rfl, kept.2.1, (after.1 _ List.mem_cons_self).1⟩

end PathStudio
