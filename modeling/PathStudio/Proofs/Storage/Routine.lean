import PathStudio.Proofs.Json.Writable
import PathStudio.Proofs.Session.Stored
import PathStudio.Proofs.Storage.Desk
import PathStudio.Proofs.Storage.Folder

/-!
# Saving and loading routines

What has been saved is loaded again, through the text of the file: the session is
written as one value, its text stays what it is in the file, and the value is read
back from it. What has to be assumed is about the numbers and texts of a session
alone, and about a mode that was not one to begin with.
-/

namespace PathStudio

open Change Storage

/-- The numbers and texts of a session are read back from what they are written as, and its mode is a
value that the reader takes. -/
structure Session.IsWritable (s : Session Float) : Prop where
  reads : ∀ a ∈ s.toJson.atoms, Json.ReadsBack a
  keys : s.mode.toJson.HasDistinctKeys
  depth : s.mode.toJson.depth < Json.nestingLimit

namespace Session.IsWritable

variable {s : Session Float}

theorem parse_write (h : s.IsWritable) (layout : Json.Layout) :
    Json.parse (s.toJson.write layout) = .ok s.toJson := by
  refine Json.parse_write layout s.toJson h.reads (hasDistinctKeys_toJson h.keys) ?_
  have shallow := depth_toJson_le s
  have limit : 4 ≤ Json.nestingLimit := by decide
  have := h.depth
  omega

theorem pieces (h : s.IsWritable) (layout : Json.Layout) :
    s.toJson.pieces layout = [.ok (s.toJson.write layout)] :=
  Json.pieces_of_hasLong layout (Json.hasLong_eq_false s.toJson h.reads)

end Session.IsWritable

namespace Storage

variable {s : Session Float} {path : Option String} {name : String} {d e : Desk} {f g : Folder}

theorem saveRoutine_of_none (named : d.pathFor path = none) :
    (Change.on (saveRoutine s path) d).1 = .ok none := by
  obtain ⟨e, asked, -⟩ := on_pathOrAnswer path (.saveFile "Save routine" ".json" "JSON files") d
  rw [saveRoutine, on_bind_ok asked, named]
  rfl

theorem on_saveRoutine_of_some (h : s.IsWritable) (named : d.pathFor path = some name) :
    ∃ e : Desk, e.folder = d.folder ∧ Change.on (saveRoutine s path) d =
      Change.on (do
        Work.write name [.ok (s.toJson.write (.indented 4))]
        return some name) e := by
  obtain ⟨e, asked, same⟩ := on_pathOrAnswer path (.saveFile "Save routine" ".json" "JSON files") d
  refine ⟨e, same, ?_⟩
  rw [saveRoutine, on_bind_ok asked, named, ← h.pieces]

/-- Saving is refused where the file cannot be opened. -/
theorem saveRoutine_of_error (h : s.IsWritable) (named : d.pathFor path = some name)
    {fault : Fault} (closed : Change.on (Filing.openFile name) d.folder = (.error fault, g)) :
    (Change.on (saveRoutine s path) d).1 = .error fault := by
  obtain ⟨e, same, saves⟩ := on_saveRoutine_of_some h named
  have refused := Filing.on_write (Json.written_write (.indented 4) s.toJson) name e.folder
  rw [same, closed] at refused
  rw [saves, on_bind, Work.write, Work.on_filing, same, refused]

/-- A file that can be opened has the text of the session after saving. -/
theorem on_saveRoutine_of_ok (h : s.IsWritable) (named : d.pathFor path = some name) {p : Place}
    (opened : Change.on (Filing.openFile name) d.folder = (.ok p, g)) :
    ∃ d', Change.on (saveRoutine s path) d = (.ok (some name), d') ∧
      d'.folder.readText name = .ok (s.toJson.write (.indented 4)) := by
  obtain ⟨e, same, saves⟩ := on_saveRoutine_of_some h named
  obtain ⟨g', written, reads⟩ :=
    Filing.readText_of_write (Json.written_write (.indented 4) s.toJson) opened
  refine ⟨{ e with folder := g' }, ?_, reads⟩
  rw [saves, on_bind, Work.write, Work.on_filing, same, written]
  rfl

/-- Loading reads the file that has been named. -/
theorem loadRoutine_of_readText {text : String} {data : Json} (named : d.pathFor path = some name)
    (there : d.folder.readText name = .ok text) (parsed : Json.parse text = .ok data) :
    (Change.on (loadRoutine path) d).1 = (Session.ofJson data).map some := by
  obtain ⟨e, asked, same⟩ := on_pathOrAnswer path (.openFile "Load routine" ".json" "JSON files") d
  have read : Change.on (Work.readText name) e = (.ok text, e) := by rw [Work.on_readText, same, there]
  rw [loadRoutine, on_bind_ok asked, named]
  dsimp only
  rw [on_bind_ok read, parsed]
  change (Change.on (do
    let t ← liftM (Session.ofJson data)
    return some t : Work (Option (Session Float))) e).1 = _
  rw [on_bind]
  cases Session.ofJson data <;> rfl

end Storage

open Storage

/-- However a session has come about, it is read back from its stored value with its start, its
waypoints, its markers and its mode, without history and selection, and with its next marker number,
unless it has no markers and that number is below one; it is one then. Where its numbers and texts are
read back from what they are written as, saving it fails only as opening the file does, and what has
been saved is loaded as the same session. -/
theorem routine_reads_back {s : Session Float} (hs : s.Reachable) :
    Session.ofJson s.toJson = .ok s.reopened ∧
      (s.IsWritable → ∀ (d : Desk) (path : Option String),
        ((Change.on (saveRoutine s path) d).1 = match d.pathFor path with
          | none => .ok none
          | some name => (Change.on (Filing.openFile name) d.folder).1.map fun _ => some name) ∧
        ∀ name d', Change.on (saveRoutine s path) d = (.ok (some name), d') →
          ∀ (e : Desk) (given : Option String), e.folder = d'.folder → e.pathFor given = some name →
            (Change.on (loadRoutine given) e).1 = .ok (some s.reopened)) := by
  have reads := hs.storable.ofJson_toJson
  refine ⟨reads, fun h d path => ?_⟩
  cases named : d.pathFor path with
  | none =>
    have unnamed := saveRoutine_of_none (s := s) named
    refine ⟨unnamed, fun name d' saved => ?_⟩
    rw [saved] at unnamed
    cases unnamed
  | some name =>
    match opened : Change.on (Filing.openFile name) d.folder with
    | (.error fault, g) =>
      have refused := saveRoutine_of_error h named opened
      refine ⟨by dsimp only; rw [refused, opened]; rfl, fun name' d' saved => ?_⟩
      rw [saved] at refused
      cases refused
    | (.ok p, g) =>
      obtain ⟨d₁, saved, there⟩ := on_saveRoutine_of_ok h named opened
      refine ⟨by dsimp only; rw [saved, opened]; rfl, fun name' d' again e given same named' => ?_⟩
      cases saved.symm.trans again
      have loaded := loadRoutine_of_readText named' (same ▸ there) (h.parse_write (.indented 4))
      rw [loaded, reads]
      rfl

/-- A session with one call. -/
def oneCall : Session Float := (addCallAtOrigin "intake").run Session.empty

theorem isWritable_oneCall : oneCall.IsWritable := by
  have one : Json.ReadsBack (.int 1) := Json.readsBack_digit (by decide : 1 < 10)
  have two : Json.ReadsBack (.int 2) := Json.readsBack_digit (by decide : 2 < 10)
  have atoms : oneCall.toJson.atoms =
      [.str "start", .str "x", .real 0.0, .str "y", .real 0.0, .str "h", .real 0.0,
       .str "waypoints", .str "x", .real 0.0, .str "y", .real 0.0, .str "marker_id", .int 1,
       .str "h", .real 0.0, .str "kind", .str "action",
       .str "markers", .str "id", .int 1, .str "x", .real 0.0, .str "y", .real 0.0,
       .str "name", .str "intake", .str "args", .str "",
       .str "next_marker_id", .int 2, .str "mode", .str "robot"] := rfl
  refine ⟨?_, trivial, by decide⟩
  simp only [atoms, List.forall_mem_cons, one, two, true_and]
  exact ⟨rfl, rfl, rfl, rfl, rfl, rfl, rfl, rfl, rfl, rfl, rfl, rfl, rfl, rfl, rfl, rfl, rfl, rfl,
    rfl, rfl, rfl, rfl, rfl, rfl, rfl, rfl, rfl, rfl, rfl, rfl, by simp⟩

/-- The session with one call is loaded as it was from a file in a folder that was empty. -/
theorem routine_reads_back_oneCall :
    oneCall.Reachable ∧ oneCall.IsWritable ∧ oneCall.reopened.markerIds = [1] ∧
      ∃ d, Change.on (saveRoutine oneCall (some "routine.json")) (Desk.new .empty []) =
          (.ok (some "routine.json"), d) ∧
        (Change.on (loadRoutine (some "routine.json")) d).1 = .ok (some oneCall.reopened) := by
  have reachable : oneCall.Reachable := .step _ (.initial (.inl rfl))
  have writable := isWritable_oneCall
  obtain ⟨saves, loads⟩ :=
    (routine_reads_back reachable).2 writable (Desk.new .empty []) (some "routine.json")
  generalize run : Change.on (saveRoutine oneCall (some "routine.json")) (Desk.new .empty []) = done
    at saves loads
  obtain ⟨result, d⟩ := done
  have saved : result = .ok (some "routine.json") := saves
  subst saved
  exact ⟨reachable, writable, rfl, d, rfl, loads _ _ rfl d (some "routine.json") rfl rfl⟩

/-- A stored session whose markers are numbered below zero. -/
def numberedBelowZero : Json :=
  .obj
    [("markers", .arr [.obj [("id", .int (-5)), ("x", .real 0.0), ("y", .real 0.0), ("name", .str "a")]]),
     ("next_marker_id", .int (-4))]

/-- After its markers have been cleared away the next number is still below one, and it is not read
back. -/
theorem not_every_nextMarkerId_reads_back :
    ¬ ∀ s : Session Float, s.Reachable →
      ∃ t, Session.ofJson s.toJson = .ok t ∧ t.nextMarkerId = s.nextMarkerId := by
  intro all
  obtain ⟨s₀, read, next⟩ : ∃ s₀, Session.ofJson numberedBelowZero = .ok s₀ ∧
      s₀.nextMarkerId = -4 := ⟨_, rfl, rfl⟩
  let s := Operation.clear.run s₀
  have reachable : s.Reachable := .step _ (.initial (.inr ⟨_, read⟩))
  obtain ⟨t, again, same⟩ := all s reachable
  cases again.symm.trans reachable.storable.ofJson_toJson
  have cleared : s.reopened.nextMarkerId = max s₀.nextMarkerId 1 := rfl
  have kept : s.nextMarkerId = s₀.nextMarkerId := rfl
  rw [cleared, kept, next] at same
  cases same

end PathStudio
