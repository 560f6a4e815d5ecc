import PathStudio.Json.Writable
import PathStudio.Settings.Option

/-!
# Settings

Settings are a JSON object with a group per area and a leaf per option; a leaf
holds its value under the key `value`. Settings may come from elsewhere and hold
anything. The flat view of a group has the defaults with what is set put over
them.
-/

namespace PathStudio.Settings

/-- The leaf of a value. -/
def leaf (value : Json) : Json := .obj [("value", value)]

/-- The group of all defaults of an area. -/
def defaultGroup (group : String) : Json :=
  .obj ((specsOf group).map fun s => (s.key, leaf s.default))

/-- The settings where nothing is set. -/
def defaults : Json := .obj (groups.map fun g => (g, defaultGroup g))

/-- The value of a leaf; what has no member for one stands for itself. -/
def leafValue (entry : Json) : Json := (entry.member? "value").getD entry

/-- The values of a group by key. -/
def flatten : Json → Outcome (List (String × Json))
  | .obj members => .ok (members.map fun m => (m.1, leafValue m.2))
  | _ => .error .noMember

/-- Settings that count as nothing are taken as empty. -/
def orEmpty (cfg : Json) : Json := if cfg.isTruthy then cfg else .obj []

/-- The values of a group, defaults included. -/
def flat (group : String) (cfg : Json) : Outcome (List (String × Json)) := do
  let given ← flatten ((← cfg.get group).getD (.obj []))
  let base := (specsOf group).map fun s => (s.key, s.default)
  return given.foldl (fun all m => Json.insert m.1 m.2 all) base

/-- The value of an option in a flat view. -/
def valueOf (key : String) (view : List (String × Json)) : Json :=
  (Json.lookup key view).getD .null

/-- The settings with a value stored in a group, which is made if it is missing. -/
def store (group key : String) (value : Json) (cfg : Json) : Outcome Json := do
  match cfg with
  | .obj members =>
    match (Json.lookup group members).getD (.obj []) with
    | .obj inner =>
      return .obj (Json.insert group (.obj (Json.insert key (leaf value) inner)) members)
    | _ => throw .wrongType
  | _ => throw .noMember

/-- Sets an option: the settings with the accepted value, and the value. Settings stay as they are
when the value is turned down. -/
def setOption (group key : String) (raw : Json) (cfg : Json) : Outcome (Json × Json) := do
  match spec? group key with
  | none => throw (.rejected (.unknownOption group key))
  | some s =>
    raw.requireText
    match s.check.accept raw with
    | .error cause => throw (.rejected cause)
    | .ok value => return (← store group key value cfg, value)

/-- Whether a value can be looked up among names; lists and objects cannot. -/
def canName : Json → Bool
  | .arr _ | .obj _ => false
  | _ => true

/-- Sets an option whose group and key are given as values. A key that cannot be looked up matters
only in a group that exists. -/
def setNamedOption (group key raw cfg : Json) : Outcome (Json × Json) := do
  let groupName := String.ofList group.plain
  if !canName group then throw .wrongType
  if groups.contains groupName && !canName key then throw .wrongType
  setOption groupName (String.ofList key.plain) raw cfg

/-- What a loaded group says about an option, if anything: a leaf without a value says null. -/
def offered (loaded : Json) (s : Spec) : Option Json :=
  match loaded.member? s.group with
  | some (.obj members) =>
    (Json.lookup s.key members).map fun entry =>
      match entry with
      | .obj inner => (Json.lookup "value" inner).getD .null
      | other => other
  | _ => none

/-- The warning about a loaded value that is turned down. -/
def ignoring (s : Spec) (cause : Rejection) : String :=
  "Warning: ignoring " ++ s.group ++ "." ++ s.key ++ " from config: " ++ cause.message

/-- The value of an option after loading, with the warning if what was loaded is turned down. -/
def mergedValue (loaded : Json) (s : Spec) : Json × Option String :=
  match offered loaded s with
  | none => (s.default, none)
  | some raw =>
    match s.check.accept raw with
    | .ok value => (value, none)
    | .error cause => (s.default, some (ignoring s cause))

/-- Complete settings from loaded ones: known options that are accepted, defaults for the others. -/
def merge (loaded : Json) : Json × List String :=
  let group (g : String) : Json :=
    .obj ((specsOf g).map fun s => (s.key, leaf (mergedValue loaded s).1))
  (.obj (groups.map fun g => (g, group g)), specs.filterMap fun s => (mergedValue loaded s).2)

end PathStudio.Settings
