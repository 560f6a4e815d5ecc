import PathStudio.Session.Basic

/-!
# Entries of a path

What programs keep of a path is a list of entries: its moves, and the calls of
its actions. An action whose marker is gone has no entry.
-/

namespace PathStudio

/-- What a program keeps of a waypoint. -/
inductive Entry (ν : Type) where
  | move (m : Move ν)
  | call (name args : String)

namespace Layout

variable {ν : Type}

/-- The entry of a waypoint. -/
def entryOf? (l : Layout ν) : Waypoint ν → Option (Entry ν)
  | .move m => some (.move m)
  | .action a => (l.marker? a.markerId).map fun m => .call m.name m.args

/-- The entries of a path, in order. -/
def entries (l : Layout ν) : List (Entry ν) := l.waypoints.filterMap l.entryOf?

/-- The calls of a path are ones that a program can carry, by what it takes of a name and its
arguments. -/
def CallsCarry (l : Layout ν) (callable : List Char → List Char → Prop) : Prop :=
  ∀ name args, .call name args ∈ l.entries → callable name.toList args.toList

/-- What an action calls, which is nothing where its marker is gone; moves are no actions. -/
def callOf? (l : Layout ν) : Waypoint ν → Option (Option (String × String))
  | .move _ => none
  | .action a => some ((l.marker? a.markerId).map fun m => (m.name, m.args))

/-- What the actions of a path call, in order. -/
def calls (l : Layout ν) : List (Option (String × String)) := l.waypoints.filterMap l.callOf?

end Layout

end PathStudio
