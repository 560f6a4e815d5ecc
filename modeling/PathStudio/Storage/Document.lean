import PathStudio.Storage.Desk
import PathStudio.Session.Stored
import PathStudio.Json.Parser
import PathStudio.Json.Writable

/-!
# Documents

Routines, programs and logs as files. Each operation takes a path; where none is
given the user is asked for one, and nothing happens if the answer is empty.
-/

namespace PathStudio.Storage

/-- A path that is not empty. -/
def nonEmpty? : Option String → Option String
  | none | some "" => none
  | some path => some path

/-- The given path, or the one that the user answers a question with. -/
def pathOrAnswer (path : Option String) (q : Question) : Work (Option String) := do
  match nonEmpty? path with
  | some path => return some path
  | none => return nonEmpty? (← Work.ask q)

/-- Saves a session as a routine; answers with the path. -/
def saveRoutine (s : Session Float) (path : Option String) : Work (Option String) := do
  match ← pathOrAnswer path (.saveFile "Save routine" ".json" "JSON files") with
  | none => return none
  | some path =>
    Work.write path (s.toJson.pieces (.indented 4))
    return some path

/-- Loads a routine. -/
def loadRoutine (path : Option String) : Work (Option (Session Float)) := do
  match ← pathOrAnswer path (.openFile "Load routine" ".json" "JSON files") with
  | none => return none
  | some path =>
    let data ← Json.parse (← Work.readText path)
    return some (← Session.ofJson data)

/-- Reads the text of a program. -/
def readProgram (path : Option String) : Work (Option String) := do
  match ← pathOrAnswer path (.openFile "Decode program" ".java" "Java files") with
  | none => return none
  | some path => return some (← Work.readText path)

/-- Writes the text of a program; answers with the path. -/
def exportProgram (text : Outcome String) (path : Option String) : Work (Option String) := do
  match ← pathOrAnswer path (.saveFile "Export program" ".java" "Java files") with
  | none => return none
  | some path =>
    Work.write path [text]
    Work.print ("Exported program to: " ++ path)
    return some path

/-- Writes the lines of a log, which has to be emptied then; answers with the path. -/
def exportLog (lines : List (Outcome String)) (path : Option String) : Work (Option String) := do
  match ← pathOrAnswer path (.saveFile "Export log" ".txt" "Text files") with
  | none => return none
  | some path =>
    Work.write path (lines.map fun line => line.map (· ++ "\n"))
    return some path

end PathStudio.Storage
