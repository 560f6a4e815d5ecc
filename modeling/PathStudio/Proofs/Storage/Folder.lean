import PathStudio.Storage.Folder
import PathStudio.Proofs.Change
import PathStudio.Proofs.Json.Written

/-!
# Writing to folders

A file that has been written is found again where it was written, with what was
written in it. Its place does not matter to the path that leads there, as all
that a path passes on its way is folders.
-/

namespace PathStudio.Storage

namespace Folder

variable {f : Folder} {p q : Place} {node : Node}

/-! ## Nodes -/

theorem find?_putEntry_self (entries : List (Place × Node)) :
    (putEntry p node entries).find? (fun e => e.1 = p) = some (p, node) := by
  induction entries with
  | nil => simp [putEntry]
  | cons e rest ih =>
    rw [putEntry]
    split
    · simp
    next other => simp [other, ih]

theorem find?_putEntry_of_ne (h : q ≠ p) (entries : List (Place × Node)) :
    (putEntry p node entries).find? (fun e => e.1 = q) = entries.find? fun e => e.1 = q := by
  induction entries with
  | nil => simp [putEntry, Ne.symm h]
  | cons e rest ih =>
    rw [putEntry]
    split
    next same => simp [same, Ne.symm h]
    next other => rw [List.find?_cons, List.find?_cons, ih]

theorem node?_put_self (h : isAround p = false) : (f.put p node).node? p = some node := by
  rw [node?, h, put, find?_putEntry_self]
  rfl

theorem node?_put_of_ne (h : q ≠ p) : (f.put p node).node? q = f.node? q := by
  rw [node?, node?, put, find?_putEntry_of_ne h]

/-- What is no folder is at a place of its own. -/
theorem isAround_of_node? (h : f.node? p ≠ some .folder) : isAround p = false := by
  by_contra around
  exact h (by rw [node?, if_pos (Bool.not_eq_false _ ▸ around)])

/-! ## Ways -/

/-- A way leads past no place where there is not a folder. -/
theorem walk_put (h : f.node? p ≠ some .folder) {q : Place} {parts : List String} {r : Place}
    (leads : f.walk q parts = .ok r) : (f.put p node).walk q parts = .ok r := by
  induction parts generalizing q with
  | nil => exact leads
  | cons part rest ih =>
    rw [walk] at leads ⊢
    have passes : f.node? q = some .folder := by
      split at leads
      · cases leads
      · cases leads
      next found => exact found
    have same : q ≠ p := by
      rintro rfl
      exact h passes
    rw [node?_put_of_ne same, passes]
    rw [passes] at leads
    dsimp only at leads ⊢
    split at leads
    · cases leads
    next short =>
      rw [if_neg short]
      exact ih leads

theorem locate_put (h : f.node? p ≠ some .folder) {path : String} {r : Place}
    (leads : f.locate path = .ok r) : (f.put p node).locate path = .ok r := by
  rw [locate] at leads ⊢
  split at leads
  · cases leads
  · split at leads
    · cases leads
    next some short =>
      rw [if_neg some, if_neg short]
      exact walk_put h leads

/-- A file is found where a path leads. -/
theorem readText_of_node? {path : String} (text : String) (allowed : checkPath path = .ok ())
    (leads : f.locate path = .ok p) (there : f.node? p = some (.file (.text text)))
    (slash : endsInSlash path = false) :
    f.readText path = .ok (String.ofList (Text.normalizeLineEnds text.toList)) := by
  have found : f.find path = .ok (.file (.text text)) := by
    simp only [find, leads, bind, Except.bind, there, slash]
    rfl
  rw [readText, allowed, found]
  rfl

end Folder

/-! ## Files -/

namespace Filing

open Change

variable {f g : Folder} {p : Place} {path : String}

theorem on_locate (path : String) (f : Folder) :
    Change.on (locate path) f =
      match checkPath path, f.locate path with
      | .error fault, _ => (.error fault, f)
      | .ok (), .ok p => (.ok p, f)
      | .ok (), .error problem => (.error (pathFault problem path), f) := by
  have checked : Change.on (liftM (checkPath path) : Filing Unit) f = (checkPath path, f) := rfl
  rw [locate, on_bind, checked]
  cases checkPath path with
  | error fault => rfl
  | ok allowed =>
    have looked : Change.on (get : Filing Folder) f = (.ok f, f) := rfl
    dsimp only
    rw [on_bind, looked]
    dsimp only
    cases f.locate path <;> rfl

theorem on_openFile (path : String) (f : Folder) :
    Change.on (openFile path) f =
      match Change.on (locate path) f with
      | (.error fault, f) => (.error fault, f)
      | (.ok p, f) =>
        match f.node? p with
        | some .folder => (.error (pathFault .isFolder path), f)
        | _ =>
          if endsInSlash path then (.error (pathFault .isFolder path), f)
          else (.ok p, f.put p (.file (.text ""))) := by
  rw [openFile, on_bind]
  match Change.on (locate path) f with
  | (.error fault, g) => rfl
  | (.ok p, g) =>
    have looked : Change.on (get : Filing Folder) g = (.ok g, g) := rfl
    dsimp only
    rw [on_bind, looked]
    dsimp only
    match g.node? p with
    | some .folder => rfl
    | none | some (.file content) => cases endsInSlash path <;> rfl

/-- What opening a file has found, and what it has left. -/
theorem opened_of_openFile (h : Change.on (openFile path) f = (.ok p, g)) :
    checkPath path = .ok () ∧ f.locate path = .ok p ∧ f.node? p ≠ some .folder ∧
      endsInSlash path = false ∧ g = f.put p (.file (.text "")) := by
  rw [on_openFile, on_locate] at h
  cases allowed : checkPath path with
  | error fault =>
    rw [allowed] at h
    cases h
  | ok =>
    cases leads : f.locate path with
    | error problem =>
      rw [allowed, leads] at h
      cases h
    | ok q =>
      rw [allowed, leads] at h
      dsimp only at h
      split at h
      · cases h
      next other =>
        split at h
        · cases h
        next slash =>
          cases h
          exact ⟨rfl, rfl, other, Bool.eq_false_iff.mpr slash, rfl⟩

theorem on_writePiece {text : String} (h : Written text.toList) (p : Place) (f : Folder) :
    Change.on (writePiece p (.ok text)) f = (.ok (), f.extend p text) := by
  have read : Change.on (liftM (.ok text : Outcome String) : Filing String) f = (.ok text, f) := rfl
  rw [writePiece, on_bind_ok read, h.unencodable?]
  rfl

/-- A written text is in the file once the file has been opened, whatever there was before. -/
theorem on_write {text : String} (h : Written text.toList) (path : String) (f : Folder) :
    Change.on (write path [.ok text]) f =
      match Change.on (openFile path) f with
      | (.error fault, g) => (.error fault, g)
      | (.ok p, g) => (.ok (), g.extend p text) := by
  rw [write, on_bind]
  match Change.on (openFile path) f with
  | (.error fault, g) => rfl
  | (.ok p, g) =>
    have one : [Except.ok text].forM (writePiece p) =
        (writePiece p (.ok text) >>= fun _ => pure ()) := rfl
    dsimp only
    rw [one, on_bind, on_writePiece h]
    rfl

/-- What has been written is read back, and nothing keeps it from being written once the file is
open. -/
theorem readText_of_write {text : String} (h : Written text.toList)
    (opened : Change.on (openFile path) f = (.ok p, g)) :
    ∃ g', Change.on (write path [.ok text]) f = (.ok (), g') ∧ g'.readText path = .ok text := by
  obtain ⟨allowed, leads, free, slash, rfl⟩ := opened_of_openFile opened
  have apart := Folder.isAround_of_node? free
  refine ⟨_, (on_write h path f).trans (by rw [opened]), ?_⟩
  rw [Folder.extend, Folder.node?_put_self apart]
  dsimp only
  rw [Folder.readText_of_node? ("" ++ text) allowed ?_ (Folder.node?_put_self apart) slash]
  · rw [String.empty_append, h.normalizeLineEnds, String.ofList_toList]
  · have present : (f.put p (.file (.text ""))).node? p ≠ some .folder := by
      rw [Folder.node?_put_self apart]
      rintro ⟨⟩
    exact Folder.locate_put present (Folder.locate_put free leads)

end Filing

end PathStudio.Storage
