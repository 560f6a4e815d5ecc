import PathStudio.Program.Draft
import PathStudio.Proofs.Program.Entry

/-!
# Drafts keep their markers apart

The markers of a draft are numbered one after another, so a number names one
marker. A draft only grows: the marker of an earlier action stays what it was.
-/

namespace PathStudio.Program.Draft

variable {ν : Type} {d : Draft ν} {first : Int}

/-- The markers of a draft are numbered one after another from the given number on. -/
structure Numbered (first : Int) (d : Draft ν) : Prop where
  id_eq : ∀ (i : Nat) (m : Marker ν), d.markers[i]? = some m → m.id = first + i
  next_eq : d.nextMarkerId = first + d.markers.length

theorem numbered_after (prior : Session ν) : (after prior).Numbered prior.nextMarkerId where
  id_eq i m h := by simp [after] at h
  next_eq := by simp [after]

/-- What the marker of a call is, as an earlier one or as a new one. -/
theorem markerFor_cases (d : Draft ν) (name args : List Char) (at_ : Point ν) :
    (∃ m ∈ d.markers, m.name = String.ofList name ∧ m.args = String.ofList args ∧
      d.markerFor name args at_ = (m, d)) ∨
    (∀ m ∈ d.markers, m.name = String.ofList name → m.args ≠ String.ofList args) ∧
      d.markerFor name args at_ =
        (⟨d.nextMarkerId, at_.x, at_.y, String.ofList name, String.ofList args⟩,
          { d with
            markers := d.markers ++
              [⟨d.nextMarkerId, at_.x, at_.y, String.ofList name, String.ofList args⟩]
            nextMarkerId := d.nextMarkerId + 1 }) := by
  simp only [markerFor]
  split
  next m found =>
    have same := List.find?_some found
    simp only [Bool.and_eq_true, decide_eq_true_eq] at same
    exact .inl ⟨m, List.mem_of_find?_eq_some found, same.1, same.2, rfl⟩
  next missing =>
    have unlike : ∀ m ∈ d.markers, m.name = String.ofList name → m.args ≠ String.ofList args := by
      simpa using List.find?_eq_none.mp missing
    exact .inr ⟨unlike, rfl⟩

@[simp] theorem markerFor_name (d : Draft ν) (name args : List Char) (at_ : Point ν) :
    (d.markerFor name args at_).1.name = String.ofList name := by
  obtain ⟨m, -, hname, -, h⟩ | ⟨-, h⟩ := markerFor_cases d name args at_
  · rw [h, hname]
  · rw [h]

@[simp] theorem markerFor_args (d : Draft ν) (name args : List Char) (at_ : Point ν) :
    (d.markerFor name args at_).1.args = String.ofList args := by
  obtain ⟨m, -, -, hargs, h⟩ | ⟨-, h⟩ := markerFor_cases d name args at_
  · rw [h, hargs]
  · rw [h]

theorem markerFor_mem (d : Draft ν) (name args : List Char) (at_ : Point ν) :
    (d.markerFor name args at_).1 ∈ (d.markerFor name args at_).2.markers := by
  obtain ⟨m, hm, -, -, h⟩ | ⟨-, h⟩ := markerFor_cases d name args at_
  · rw [h]
    exact hm
  · rw [h]
    simp

@[simp] theorem waypoints_markerFor (d : Draft ν) (name args : List Char) (at_ : Point ν) :
    (d.markerFor name args at_).2.waypoints = d.waypoints := by
  obtain ⟨m, -, -, -, h⟩ | ⟨-, h⟩ := markerFor_cases d name args at_ <;> rw [h]

theorem markers_markerFor (d : Draft ν) (name args : List Char) (at_ : Point ν) :
    d.markers <+: (d.markerFor name args at_).2.markers := by
  obtain ⟨m, -, -, -, h⟩ | ⟨-, h⟩ := markerFor_cases d name args at_
  · simp only [h, List.prefix_rfl]
  · rw [h]
    exact List.prefix_append _ _

theorem Numbered.markerFor (h : d.Numbered first) (name args : List Char) (at_ : Point ν) :
    (d.markerFor name args at_).2.Numbered first := by
  obtain ⟨m, -, -, -, eq⟩ | ⟨-, eq⟩ := markerFor_cases d name args at_
  · rw [eq]
    exact h
  · rw [eq]
    constructor
    · intro i m hm
      rw [List.getElem?_append] at hm
      split at hm
      next => exact h.id_eq i m hm
      next beyond =>
        rw [List.getElem?_singleton] at hm
        split at hm
        next last =>
          rw [← Option.some.inj hm]
          have next := h.next_eq
          simp only
          omega
        next => cases hm
    · have next := h.next_eq
      simp only [List.length_append, List.length_singleton]
      omega

theorem Numbered.add (h : d.Numbered first) (w : Waypoint ν) : (d.add w).Numbered first := ⟨h.1, h.2⟩

/-- A marker is found by its number. -/
theorem Numbered.find?_id (h : d.Numbered first) {m : Marker ν} (hm : m ∈ d.markers) :
    d.markers.find? (fun other => other.id = m.id) = some m := by
  obtain ⟨i, bound, rfl⟩ := List.getElem_of_mem hm
  rw [List.find?_eq_some_iff_getElem]
  refine ⟨by simp, i, bound, rfl, fun j hj => ?_⟩
  have here := h.id_eq i _ (List.getElem?_eq_getElem bound)
  have there := h.id_eq j _ (List.getElem?_eq_getElem (Nat.lt_trans hj bound))
  have apart : d.markers[j].id ≠ d.markers[i].id := by omega
  simpa using apart

/-- A path with the markers of a draft finds them by their numbers. -/
theorem Numbered.marker?_id (h : d.Numbered first) {l : Layout ν} (same : l.markers = d.markers)
    {m : Marker ν} (hm : m ∈ d.markers) : l.marker? m.id = some m := by
  rw [Layout.marker?, same]
  exact h.find?_id hm

variable [Add ν] [Sub ν] [Mul ν] [Div ν] [Neg ν] [Scalar ν]

/-- In a path with the markers of a draft, the action for a marker is a call of the marker. -/
theorem Numbered.entryOf?_markerAction (h : d.Numbered first) {l : Layout ν}
    (same : l.markers = d.markers) {m : Marker ν} (hm : m ∈ d.markers) :
    l.entryOf? (markerAction m) = some (.call m.name m.args) := by
  rw [markerAction, Layout.entryOf?, h.marker?_id same hm, Option.map_some]

theorem Numbered.callOf?_markerAction (h : d.Numbered first) {l : Layout ν}
    (same : l.markers = d.markers) {m : Marker ν} (hm : m ∈ d.markers) :
    l.callOf? (markerAction m) = some (some (m.name, m.args)) := by
  rw [markerAction, Layout.callOf?, h.marker?_id same hm, Option.map_some]

end PathStudio.Program.Draft
