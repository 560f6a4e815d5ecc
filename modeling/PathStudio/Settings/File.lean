import PathStudio.Settings.Basic
import PathStudio.Storage.Desk
import PathStudio.Json.Parser
import PathStudio.Json.Writable

/-!
# The settings file

Settings are kept in a JSON file. A missing file is written with the defaults;
a file that cannot be read is reported and written anew as well.
-/

namespace PathStudio.Settings

open Storage

/-- Where the settings are kept if nothing else is asked. -/
def defaultPath : String := "config.json"

/-- The path that is meant by one that may be left out or empty. -/
def pathOr (path : Option String) : String :=
  match path with
  | none | some "" => defaultPath
  | some p => p

/-- Reads a JSON file; `none` if it is missing or cannot be read, which is reported. -/
def readFile (path : String) : Work (Option Json) := do
  match ← Work.outcome do Json.parse (← Work.readText path) with
  | .ok value => return some value
  | .error (.path .missing _) => return none
  | .error f =>
    if f.isPathFault || f.isValueFault then
      Work.print ("Warning: could not read config " ++ path ++ ": " ++ f.message)
      return none
    else throw f

/-- Writes a JSON file, with the folders on the way to it. -/
def writeFile (path : String) (value : Json) : Work Unit := do
  let parent := parentPath path
  if parent ≠ "" then Work.makeFolders parent
  Work.write path (value.pieces (.indented 2))

/-- Loads the settings, the defaults if there are none to read. -/
def load (path : Option String) : Work Json := do
  let path := pathOr path
  match ← readFile path with
  | none | some .null =>
    match ← Work.outcome (writeFile path defaults) with
    | .ok () => return defaults
    | .error f =>
      if f.isPathFault then
        Work.print ("Warning: could not write default config " ++ path ++ ": " ++ f.message)
        return defaults
      else throw f
  | some loaded =>
    let (cfg, warnings) := merge loaded
    warnings.forM Work.print
    return cfg

/-- Saves the settings; tells whether they could be written. -/
def save (cfg : Json) (path : Option String) : Work Bool := do
  let path := pathOr path
  match ← Work.outcome (writeFile path cfg) with
  | .ok () =>
    Work.print ("Config saved to " ++ path)
    return true
  | .error f =>
    if f.isPathFault then
      Work.print ("Failed to save config: " ++ f.message)
      return false
    else throw f

end PathStudio.Settings
