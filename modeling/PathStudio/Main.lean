import PathStudio.Editor.Frame
import PathStudio.Editor.Script
import PathStudio.SelfCheck

/-!
# The command line

Without a window the editor takes its events from a script on the standard
input, one frame a line, and works on the files of the current folder. It may be
given the path of a routine or of a program to start with. With `--check` it
checks itself instead.
-/

namespace PathStudio.CommandLine

open Storage

/-- The paths that a visit may open. -/
def paths (path : Option String) (answers : List (Option String)) : List String :=
  (Settings.defaultPath :: path.toList ++ answers.filterMap id).eraseDups

/-- The bytes of a file, if it can be read. -/
def readBytes (path : String) : IO (Option (List UInt8)) := do
  try
    let bytes ← IO.FS.readBinFile path
    return some bytes.toList
  catch _ => return none

/-- Whether a path leads to a folder. -/
def isFolder (path : String) : IO Bool := do
  try
    let place ← IO.FS.realPath path
    place.isDir
  catch _ => return false

/-- The files at some paths, and the folders that they are in. -/
def loadFolder (paths : List String) : IO Folder := do
  let mut folder := Folder.empty
  for path in paths do
    let parent := parentPath path
    if parent ≠ "" && (← isFolder parent) then
      folder := folder.plant (placeOf parent) .folder
    if let some bytes ← readBytes path then
      folder := folder.plant (placeOf path) (.file (.bytes bytes))
  return folder

/-- Writes the files that hold texts, which are those that have been written to. -/
def storeFolder (paths : List String) (folder : Folder) : IO Unit := do
  for path in paths do
    match folder.node? (placeOf path) with
    | some (.file (.text s)) =>
      let parent := parentPath path
      if parent ≠ "" then IO.FS.createDirAll parent
      IO.FS.writeFile path s
    | _ => pure ()

/-- The lines of the standard input. -/
partial def readLines (input : IO.FS.Stream) : IO (List String) := do
  let line ← input.getLine
  if line.isEmpty then return []
  return line :: (← readLines input)

/-- Reports a fault. -/
def complain (fault : Fault) : IO UInt32 := do
  IO.eprintln (fault.family.name ++ ": " ++ fault.message)
  return 1

/-- Runs the self checks. -/
def check : IO UInt32 := do
  let (lines, passed) := SelfCheck.report SelfCheck.own
  lines.forM (fun line => IO.println line)
  return if passed then 0 else 1

/-- Runs the editor on the script of the standard input. -/
def edit (path : Option String) : IO UInt32 := do
  let lines ← readLines (← IO.getStdin)
  match Editor.Script.ofLines lines with
  | .error fault => complain fault
  | .ok script =>
    let paths := paths path script.answers
    let folder ← loadFolder paths
    let visit := Editor.visit path (script.inputs ++ [.closing]) (.new folder script.answers)
    let desk := visit.editor.desk
    storeFolder paths desk.folder
    IO.print desk.printed
    match visit.fault with
    | some fault => complain fault
    | none => return 0

end PathStudio.CommandLine

/-- Starts the editor, or checks it. -/
def main (arguments : List String) : IO UInt32 :=
  match arguments with
  | ["--check"] => PathStudio.CommandLine.check
  | path :: _ => PathStudio.CommandLine.edit (some path)
  | [] => PathStudio.CommandLine.edit none
