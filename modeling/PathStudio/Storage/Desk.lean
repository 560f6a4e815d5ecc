import PathStudio.Storage.Folder

/-!
# Desks

What surrounds a session: the folder with the files, the answers that the user
gives to dialogs, the questions asked so far and the text printed so far. Work on a
desk keeps what it has done if it is refused later.
-/

namespace PathStudio.Storage

/-- A dialog: a file to save, a file to open or a line of text. -/
inductive Question where
  | saveFile (title extension kind : String)
  | openFile (title extension kind : String)
  | text (title prompt : String) (initial : Option String)
  deriving DecidableEq, Repr

/-- What surrounds a session. -/
structure Desk where
  folder : Folder
  answers : List (Option String)
  asked : List Question
  printed : String

/-- A desk with a folder and the answers to come. -/
def Desk.new (folder : Folder) (answers : List (Option String)) : Desk := ⟨folder, answers, [], ""⟩

/-- Work on a desk that can be refused part of the way. -/
abbrev Work (α : Type) := ExceptT Fault (StateM Desk) α

namespace Work

/-- Prints a line. -/
def print (line : String) : Work Unit := modify fun d => { d with printed := d.printed ++ line ++ "\n" }

/-- Asks a question; without an answer left, nothing is answered. -/
def ask (q : Question) : Work (Option String) := do
  let d ← get
  set { d with asked := d.asked ++ [q], answers := d.answers.tail }
  return d.answers.head?.join

/-- The text of a file. -/
def readText (path : String) : Work String := do (← get).folder.readText path

/-- Work on the folder. -/
def filing {α : Type} (w : Filing α) : Work α := do
  let d ← get
  let (result, folder) := StateT.run (ExceptT.run w) d.folder
  set { d with folder }
  result

/-- Writes a file piece by piece. -/
def write (path : String) (pieces : List (Outcome String)) : Work Unit :=
  filing (Filing.write path pieces)

/-- Makes a folder and the folders on the way to it. -/
def makeFolders (path : String) : Work Unit := filing (Filing.makeFolders path.length path)

/-- The outcome of some work; the desk keeps what has been done in any case. -/
def outcome {α : Type} (w : Work α) : Work (Outcome α) := ExceptT.lift w.run

end Work

end PathStudio.Storage
