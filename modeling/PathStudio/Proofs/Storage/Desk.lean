import PathStudio.Storage.Document
import PathStudio.Proofs.Change

/-!
# Work on a desk

What work on a desk does, part by part: it passes on what happens in the folder,
and a dialog takes one of the answers.
-/

namespace PathStudio.Storage

open Change

/-- The path that an operation on a file works with: the given one, or else the answer of the user. -/
def Desk.pathFor (d : Desk) (path : Option String) : Option String :=
  match nonEmpty? path with
  | some path => some path
  | none => nonEmpty? d.answers.head?.join

namespace Work

@[simp] theorem on_readText (path : String) (d : Desk) :
    Change.on (readText path) d = (d.folder.readText path, d) := by
  rw [readText, on_bind]
  rfl

theorem on_filing {α : Type} (w : Filing α) (d : Desk) :
    Change.on (filing w) d =
      ((Change.on w d.folder).1, { d with folder := (Change.on w d.folder).2 }) := by
  rw [filing, on_bind]
  rfl

/-- The outcome of work that is refused is that refusal, and what has been done stays done. -/
@[simp] theorem on_outcome {α : Type} (w : Work α) (d : Desk) :
    Change.on (outcome w) d = (.ok (Change.on w d).1, (Change.on w d).2) := by
  rfl

end Work

theorem on_pathOrAnswer (path : Option String) (q : Question) (d : Desk) :
    ∃ d', Change.on (pathOrAnswer path q) d = (.ok (d.pathFor path), d') ∧ d'.folder = d.folder := by
  rw [pathOrAnswer, Desk.pathFor]
  cases nonEmpty? path with
  | some path => exact ⟨d, rfl, rfl⟩
  | none => exact ⟨_, rfl, rfl⟩

end PathStudio.Storage
