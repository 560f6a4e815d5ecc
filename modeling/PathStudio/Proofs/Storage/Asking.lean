import PathStudio.Editor.Mouse
import PathStudio.Proofs.Storage.Desk
import PathStudio.Settings.File
import PathStudio.Storage.Document

/-!
# Questions and answers

Work at a desk only adds to the questions that have been asked, and each question uses up the next
answer. So which dialogs for files have been cancelled can be told from the questions in the end.
-/

namespace PathStudio.Storage

open Change

/-! ## Later desks -/

/-- A later state of a desk: more questions may have been asked, and as many answers been used up. -/
def Desk.Later (d d' : Desk) : Prop :=
  ∃ more, d'.asked = d.asked ++ more ∧ d'.answers = d.answers.drop more.length

theorem Desk.Later.refl (d : Desk) : d.Later d := ⟨[], (List.append_nil _).symm, rfl⟩

theorem Desk.Later.trans {d e f : Desk} (h : d.Later e) (next : e.Later f) : d.Later f := by
  obtain ⟨first, asked, answers⟩ := h
  obtain ⟨more, asked', answers'⟩ := next
  refine ⟨first ++ more, ?_, ?_⟩
  · rw [asked', asked, List.append_assoc]
  · rw [answers', answers, List.drop_drop, List.length_append]

/-- What is the same in questions and answers is as late. -/
theorem Desk.Later.congr {d e f : Desk} (h : d.Later e) (asked : f.asked = e.asked)
    (answers : f.answers = e.answers) : d.Later f :=
  h.trans ⟨[], asked.trans (List.append_nil _).symm, answers⟩

/-- Whether a dialog asks for a file. -/
def Question.isForFile : Question → Bool
  | .saveFile _ _ _ | .openFile _ _ _ => true
  | .text _ _ _ => false

section Asks

variable {α : Type} {d : Desk}

theorem keeps_print (line : String) : Keeps d.Later (Work.print line) :=
  leads_modify fun _ h => h.congr rfl rfl

theorem keeps_ask (q : Question) : Keeps d.Later (Work.ask q) := by
  intro e h
  exact h.trans ⟨[q], rfl, List.drop_one.symm⟩

theorem keeps_readText (path : String) : Keeps d.Later (Work.readText path) := by
  intro e h
  rw [Work.on_readText]
  exact h

theorem keeps_filing (w : Filing α) : Keeps d.Later (Work.filing w) := by
  intro e h
  rw [Work.on_filing]
  exact h.congr rfl rfl

theorem keeps_outcome {w : Work α} (h : Keeps d.Later w) : Keeps d.Later (Work.outcome w) := h

theorem keeps_pathOrAnswer (path : Option String) (q : Question) :
    Keeps d.Later (pathOrAnswer path q) := by
  rw [pathOrAnswer]
  cases nonEmpty? path with
  | some path => exact keeps_pure _
  | none => exact (keeps_ask q).keeps_bind fun _ => keeps_pure _

/-- Work on a document: a path is asked for by a dialog for a file if none is given, and without one
nothing is done. -/
def IsDocument (path : Option String) (w : Work (Option α)) : Prop :=
  ∃ (q : Question) (f : String → Work (Option α)), q.isForFile = true ∧
    (∀ (d : Desk) path, Keeps d.Later (f path)) ∧ w = do
      match ← pathOrAnswer path q with
      | none => return none
      | some path => f path

theorem isDocument_saveRoutine (s : Session Float) (path : Option String) :
    IsDocument path (saveRoutine s path) :=
  ⟨_, _, rfl, fun _ _ => (keeps_filing _).keeps_bind fun _ => keeps_pure _, rfl⟩

theorem isDocument_loadRoutine (path : Option String) : IsDocument path (loadRoutine path) :=
  ⟨_, _, rfl, fun _ _ => (keeps_readText _).keeps_bind fun _ => (keeps_lift _).keeps_bind fun _ =>
    (keeps_lift _).keeps_bind fun _ => keeps_pure _, rfl⟩

theorem isDocument_readProgram (path : Option String) : IsDocument path (readProgram path) :=
  ⟨_, _, rfl, fun _ _ => (keeps_readText _).keeps_bind fun _ => keeps_pure _, rfl⟩

theorem isDocument_exportProgram (text : Outcome String) (path : Option String) :
    IsDocument path (exportProgram text path) :=
  ⟨_, _, rfl, fun _ _ => (keeps_filing _).keeps_bind fun _ => (keeps_print _).keeps_bind fun _ =>
    keeps_pure _, rfl⟩

theorem isDocument_exportLog (lines : List (Outcome String)) (path : Option String) :
    IsDocument path (exportLog lines path) :=
  ⟨_, _, rfl, fun _ _ => (keeps_filing _).keeps_bind fun _ => keeps_pure _, rfl⟩

theorem IsDocument.keeps {path : Option String} {w : Work (Option α)} (h : IsDocument path w) :
    Keeps d.Later w := by
  obtain ⟨q, f, -, named, rfl⟩ := h
  refine (keeps_pathOrAnswer path q).keeps_bind fun answer => ?_
  cases answer with
  | none => exact keeps_pure none
  | some path => exact named d path

theorem keeps_askAction : Keeps d.Later Editor.askAction := by
  refine (keeps_ask _).keeps_bind fun name => ?_
  dsimp only
  split
  · exact keeps_pure _
  · exact (keeps_ask _).keeps_bind fun _ => keeps_pure _

theorem keeps_writeFile (path : String) (value : Json) :
    Keeps d.Later (Settings.writeFile path value) := by
  rw [Settings.writeFile]
  dsimp only
  split
  · exact (keeps_filing _).keeps_bind fun _ => keeps_filing _
  · exact keeps_filing _

theorem keeps_readFile (path : String) : Keeps d.Later (Settings.readFile path) := by
  refine (keeps_outcome ((keeps_readText path).keeps_bind fun _ => keeps_lift _)).keeps_bind
    fun read => ?_
  split
  · exact keeps_pure _
  · exact keeps_pure _
  · split
    · exact (keeps_print _).keeps_bind fun _ => keeps_pure _
    · exact keeps_throw _

theorem keeps_save (cfg : Json) (path : Option String) : Keeps d.Later (Settings.save cfg path) := by
  refine (keeps_outcome (keeps_writeFile _ _)).keeps_bind fun written => ?_
  cases written with
  | ok => exact (keeps_print _).keeps_bind fun _ => keeps_pure _
  | error fault =>
    dsimp only
    split
    · exact (keeps_print _).keeps_bind fun _ => keeps_pure _
    · exact keeps_throw _

theorem keeps_prints (xs : List α) (line : α → String) :
    Keeps d.Later (xs.forM fun x => Work.print (line x)) := by
  induction xs with
  | nil => exact keeps_pure _
  | cons x rest ih => exact (keeps_print (line x)).keeps_bind fun _ => ih

theorem keeps_load (path : Option String) : Keeps d.Later (Settings.load path) := by
  refine (keeps_readFile _).keeps_bind fun read => ?_
  split
  case h_3 => exact (keeps_prints _ id).keeps_bind fun _ => keeps_pure _
  -- The defaults are written in place of a missing file and of one that says nothing.
  all_goals
    refine (keeps_outcome (keeps_writeFile _ _)).keeps_bind fun written => ?_
    cases written with
    | ok => exact keeps_pure _
    | error fault =>
      dsimp only
      split
      · exact (keeps_print _).keeps_bind fun _ => keeps_pure _
      · exact keeps_throw _

end Asks

/-! ## Cancelled dialogs -/

/-- The answers have left every dialog for a file without a path. -/
def Desk.Cancelled (answers : List (Option String)) (d : Desk) : Prop :=
  ∀ (i : Nat) (q : Question), d.asked[i]? = some q → q.isForFile = true →
    nonEmpty? answers[i]?.join = none

variable {answers : List (Option String)} {folder : Folder} {d e : Desk}

theorem Desk.Later.cancelled (h : d.Later e) (cancelled : e.Cancelled answers) :
    d.Cancelled answers := by
  obtain ⟨more, asked, -⟩ := h
  intro i q at_ file
  refine cancelled i q ?_ file
  rw [asked, List.getElem?_append_left (List.getElem?_eq_some_iff.mp at_).1, at_]

/-- A dialog for a file that has been cancelled gives no path. -/
theorem on_pathOrAnswer_of_cancelled {q : Question} (begun : (Desk.new folder answers).Later d)
    (file : q.isForFile = true)
    (cancelled : (Change.on (pathOrAnswer none q) d).2.Cancelled answers) :
    ∃ d', Change.on (pathOrAnswer none q) d = (.ok none, d') ∧ d.Later d' ∧ d'.folder = d.folder := by
  have asked : Change.on (pathOrAnswer none q) d =
      (.ok (nonEmpty? d.answers.head?.join),
        { d with asked := d.asked ++ [q], answers := d.answers.tail }) := rfl
  obtain ⟨before, earlier, left⟩ := begun
  have next : d.answers.head? = answers[d.asked.length]? := by
    rw [left, earlier, List.head?_drop]
    rfl
  rw [asked] at cancelled
  have nothing := cancelled d.asked.length q (by simp) file
  rw [← next] at nothing
  rw [nothing] at asked
  exact ⟨_, asked, ⟨[q], rfl, List.drop_one.symm⟩, rfl⟩

/-- Of a document whose dialog has been cancelled nothing happens. -/
theorem IsDocument.on_of_cancelled {α : Type} {w : Work (Option α)} (h : IsDocument none w)
    (begun : (Desk.new folder answers).Later d) (cancelled : (Change.on w d).2.Cancelled answers) :
    ∃ d', Change.on w d = (.ok none, d') ∧ d.Later d' ∧ d'.folder = d.folder := by
  obtain ⟨q, f, file, named, rfl⟩ := h
  have first : (Change.on (pathOrAnswer none q) d).2.Cancelled answers := by
    rw [on_bind] at cancelled
    generalize Change.on (pathOrAnswer none q) d = asked at cancelled ⊢
    obtain ⟨fault | answer, e⟩ := asked
    · exact cancelled
    · cases answer with
      | none => exact cancelled
      | some path => exact (named e path e (.refl e)).cancelled cancelled
  obtain ⟨d', nothing, later, folder⟩ := on_pathOrAnswer_of_cancelled begun file first
  exact ⟨d', on_bind_ok nothing, later, folder⟩

end PathStudio.Storage
