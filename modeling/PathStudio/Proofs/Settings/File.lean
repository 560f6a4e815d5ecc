import PathStudio.Settings.File
import PathStudio.Proofs.Json.Writable
import PathStudio.Proofs.Settings.Basic
import PathStudio.Proofs.Storage.Desk
import PathStudio.Proofs.Storage.Refusal

/-!
# Loading settings

Loading always gives settings: whatever can go wrong with the file is caught and
reported. So settings that begin with the defaults stay sound, however they are
set and loaded.
-/

namespace PathStudio

open Change Storage

/-- A text is misread as a wrong value, unless it is nested too deeply. -/
theorem Json.fault_of_parse {text : String} {fault : Fault} (h : parse text = .error fault) :
    fault.isValueFault = true ∨ ∃ container, fault = .tooNested container := by
  rw [parse] at h
  split at h
  · cases h
  next m _ =>
    cases h
    cases m with
    | tooNested container => exact .inr ⟨container, rfl⟩
    | _ => exact .inl rfl

/-- A file is not read because of its path or of what is in it. -/
theorem Storage.Folder.failsOnly_readText (f : Folder) (path : String) :
    FailsOnly (fun fault => (fault.isPathFault || fault.isValueFault) = true) (f.readText path) := by
  have checked : FailsOnly (fun fault => (fault.isPathFault || fault.isValueFault) = true)
      (checkPath path) := by
    rw [checkPath]
    split
    · exact .error rfl
    · split
      · exact .error rfl
      · exact .ok ()
  refine checked.bind fun _ => ?_
  split
  · exact .error rfl
  · exact .error rfl
  · exact .ok _
  · split
    · exact .ok _
    · exact .error rfl

namespace Settings

variable {path : String} {d : Desk}

/-! ## Writing the defaults -/

theorem hasLong_settingsOf {values : Values}
    (h : ∀ s ∈ specs, (values s.group s.key).hasLong = false) :
    (settingsOf values).hasLong = false := by
  simp only [specs, List.forall_mem_cons] at h
  simp [settingsOf, groups, groupOf, keysOf, specsOf, specs, leaf, Json.hasLong, Json.anyMemberLong, h]

theorem hasLong_default : ∀ s ∈ specs, s.default.hasLong = false := by
  simp [specs, Json.hasLong, Json.isLong_of_lt]

@[simp] theorem hasLong_defaults : defaults.hasLong = false := by
  rw [defaults_eq]
  exact hasLong_settingsOf fun s hs => valuesOf_spec Spec.default hs ▸ hasLong_default s hs

theorem refusedOnly_filing {α : Type} {w : Filing α} (h : Filing.Troubled w) :
    RefusedOnly (·.isPathFault = true) (Work.filing w) := by
  intro d
  rw [Work.on_filing]
  exact h d.folder

/-- The defaults fail to be written only as there is something the matter with the path. -/
theorem refusedOnly_writeDefaults (h : checkPath path = .ok ()) :
    RefusedOnly (·.isPathFault = true) (writeFile path defaults) := by
  have written : RefusedOnly (·.isPathFault = true)
      (Work.write path (defaults.pieces (.indented 2))) := by
    rw [Json.pieces_of_hasLong _ hasLong_defaults]
    exact refusedOnly_filing (Filing.troubled_write h (Json.written_write _ defaults))
  rw [writeFile]
  dsimp only
  split
  · have made := Filing.troubled_makeFolders (checkPath_parentPath h) (parentPath path).length
    exact (refusedOnly_filing made).bind fun _ => written
  · exact written

/-! ## Loading -/

theorem on_forM_print (lines : List String) (d : Desk) :
    ∃ e, Change.on (lines.forM Work.print) d = (.ok (), e) ∧ e.folder = d.folder := by
  induction lines generalizing d with
  | nil => exact ⟨d, rfl, rfl⟩
  | cons line rest ih =>
    obtain ⟨e, later, kept⟩ := ih { d with printed := d.printed ++ line ++ "\n" }
    have first : (line :: rest).forM Work.print = (Work.print line >>= fun _ => rest.forM Work.print) :=
      rfl
    exact ⟨e, by rw [first, on_bind_ok (by rfl), later], kept⟩

/-- The file at a path is not nested more deeply than is read. -/
def Readable (path : String) (d : Desk) : Prop :=
  ∀ text, d.folder.readText path = .ok text → ∀ container, Json.parse text ≠ .error (.tooNested container)

/-- The value of a file, or what keeps it from being read. -/
def valueAt (f : Folder) (path : String) : Outcome Json := f.readText path >>= Json.parse

theorem on_outcome_value (path : String) (d : Desk) :
    Change.on (Work.outcome do Json.parse (← Work.readText path)) d =
      (.ok (valueAt d.folder path), d) := by
  have inner : Change.on (do Json.parse (← Work.readText path) : Work Json) d =
      (valueAt d.folder path, d) := by
    rw [on_bind, Work.on_readText, valueAt]
    cases d.folder.readText path <;> rfl
  rw [Work.on_outcome, inner]

theorem on_readFile_ok {value : Json} (found : valueAt d.folder path = .ok value) :
    Change.on (readFile path) d = (.ok (some value), d) := by
  rw [readFile, on_bind_ok (on_outcome_value path d), found]
  rfl

/-- A file that cannot be read is reported, and taken for none. -/
theorem on_readFile_error {fault : Fault} (found : valueAt d.folder path = .error fault)
    (reported : (fault.isPathFault || fault.isValueFault) = true) :
    ∃ e, Change.on (readFile path) d = (.ok none, e) ∧ e.folder = d.folder := by
  rw [readFile, on_bind_ok (on_outcome_value path d), found]
  split
  next unread => cases unread
  next => exact ⟨d, rfl, rfl⟩
  next same =>
    cases same
    rw [if_pos reported]
    exact ⟨_, rfl, rfl⟩

theorem on_readFile_tooNested {container : Container}
    (found : valueAt d.folder path = .error (.tooNested container)) :
    Change.on (readFile path) d = (.error (.tooNested container), d) := by
  rw [readFile, on_bind_ok (on_outcome_value path d), found]
  rfl

/-- What keeps a file from being read is in its path or in its value, unless it is nested more deeply
than is read. -/
theorem cause_of_unread {f : Folder} {fault : Fault} (unread : valueAt f path = .error fault) :
    (fault.isPathFault || fault.isValueFault) = true ∨ ∃ text container,
      f.readText path = .ok text ∧ Json.parse text = .error (.tooNested container) ∧
        fault = .tooNested container := by
  obtain unread | ⟨text, there, misread⟩ := bind_eq_error.mp unread
  · exact .inl (f.failsOnly_readText path fault unread)
  · obtain wrong | ⟨container, rfl⟩ := Json.fault_of_parse misread
    · exact .inl (by rw [wrong, Bool.or_true])
    · exact .inr ⟨text, container, there, misread, rfl⟩

/-- What keeps a file from being read is reported. -/
theorem readFile_answers (readable : Readable path d) :
    ∃ found e, Change.on (readFile path) d = (.ok found, e) := by
  cases read : valueAt d.folder path with
  | ok value => exact ⟨some value, d, on_readFile_ok read⟩
  | error fault =>
    obtain reported | ⟨text, container, there, misread, -⟩ := cause_of_unread read
    · obtain ⟨e, answered, -⟩ := on_readFile_error read reported
      exact ⟨none, e, answered⟩
    · exact absurd misread (readable text there container)

/-- Where there is nothing to load the defaults are given, also if writing them is reported as
refused. -/
theorem defaults_answer (named : checkPath path = .ok ()) {report : Outcome Unit → Work Json}
    (written : report (.ok ()) = pure defaults)
    (refused : ∀ fault : Fault, fault.isPathFault = true → ∃ warning,
      report (.error fault) = Work.print warning >>= fun _ => pure defaults) (d : Desk) :
    ∃ values : Values, values.Sound ∧ ∃ e,
      Change.on (Work.outcome (writeFile path defaults) >>= report) d = (.ok (settingsOf values), e) := by
  refine ⟨valuesOf Spec.default, sound_valuesOf admits_default, ?_⟩
  rw [← defaults_eq, on_bind, Work.on_outcome]
  have troubled := refusedOnly_writeDefaults named d
  cases wrote : (Change.on (writeFile path defaults) d).1 with
  | ok done =>
    dsimp only
    rw [written]
    exact ⟨_, rfl⟩
  | error fault =>
    obtain ⟨warning, reported⟩ := refused fault (troubled fault wrote)
    dsimp only
    rw [reported]
    exact ⟨_, rfl⟩

/-- What is merged is given, after the warnings, and no file is touched. -/
theorem merge_answers (loaded : Json) (d : Desk) :
    ∃ values : Values, values.Sound ∧ ∃ e,
      Change.on ((merge loaded).2.forM Work.print >>= fun _ => pure (merge loaded).1) d =
        (.ok (settingsOf values), e) ∧ e.folder = d.folder := by
  refine ⟨_, sound_valuesOf (admits_mergedValue loaded), ?_⟩
  obtain ⟨e, printed, kept⟩ := on_forM_print (merge loaded).2 d
  refine ⟨e, ?_, kept⟩
  rw [on_bind_ok printed, merge_eq]
  rfl

/-- Loading gives sound settings, whatever the file holds. -/
theorem load_answers {path : Option String} (named : checkPath (pathOr path) = .ok ())
    (readable : Readable (pathOr path) d) :
    ∃ values : Values, values.Sound ∧ ∃ e, Change.on (load path) d = (.ok (settingsOf values), e) := by
  obtain ⟨found, e, read⟩ := readFile_answers readable
  rw [load, on_bind_ok read]
  cases found with
  | none => exact defaults_answer named rfl (fun _ trouble => ⟨_, if_pos trouble⟩) e
  | some loaded =>
    cases loaded with
    | null => exact defaults_answer named rfl (fun _ trouble => ⟨_, if_pos trouble⟩) e
    | bool | int | real | str | arr | obj =>
      obtain ⟨values, sound, e', answered, -⟩ := merge_answers _ e
      exact ⟨values, sound, e', answered⟩

/-! ## Runs -/

/-- A call that may change the settings: an option is set, or settings are loaded from a desk. -/
inductive Use where
  | set (group key : String) (raw : Json)
  | load (path : Option String) (desk : Desk)

namespace Use

/-- The settings after a call. -/
def run : Use → Json → Json
  | set group key raw, cfg =>
    match setOption group key raw cfg with
    | .ok (changed, _) => changed
    | .error _ => cfg
  | load path desk, cfg =>
    match (Change.on (Settings.load path) desk).1 with
    | .ok loaded => loaded
    | .error _ => cfg

/-- The settings after calls one after the other. -/
def runAll (uses : List Use) (cfg : Json) : Json := uses.foldl (fun cfg u => u.run cfg) cfg

/-- A value that is offered has a text; a path can name a file, and what is in the file is not nested
more deeply than is read. -/
def WithinLimits : Use → Prop
  | set _ _ raw => raw.hasLong = false
  | load path desk => checkPath (pathOr path) = .ok () ∧ Readable (pathOr path) desk

/-- A call keeps the settings complete and sound. -/
theorem sound_run {u : Use} (h : u.WithinLimits) {values : Values} (sound : values.Sound) :
    ∃ after : Values, after.Sound ∧ u.run (settingsOf values) = settingsOf after := by
  cases u with
  | set group key raw =>
    obtain ⟨cause, rejected⟩ | ⟨s, value, found, accepted, changed⟩ :=
      setOption_settingsOf values group key h
    · exact ⟨values, sound, by rw [run, rejected]⟩
    · exact ⟨values.set group key value, sound.set found accepted, by rw [run, changed]⟩
  | load path desk =>
    obtain ⟨loaded, sound, e, answered⟩ := load_answers h.1 h.2
    exact ⟨loaded, sound, by rw [run, answered]⟩

theorem sound_runAll {uses : List Use} (h : ∀ u ∈ uses, u.WithinLimits) {values : Values}
    (sound : values.Sound) :
    ∃ after : Values, after.Sound ∧ runAll uses (settingsOf values) = settingsOf after := by
  induction uses generalizing values with
  | nil => exact ⟨values, sound, rfl⟩
  | cons u uses ih =>
    obtain ⟨first, later⟩ := List.forall_mem_cons.mp h
    obtain ⟨next, sound, ran⟩ := sound_run first sound
    obtain ⟨after, sound, rest⟩ := ih later sound
    exact ⟨after, sound, by rw [runAll, List.foldl_cons, ran, ← rest, runAll]⟩

end Use

open Use

/-- From the defaults on, whatever is set and loaded, the settings are complete and their flat views
are sound. Setting an option is rejected and leaves them as they are, or changes the value of that
option to what is accepted and nothing else, and loading gives settings. -/
theorem settings_stay_sound {uses : List Use} (h : ∀ u ∈ uses, u.WithinLimits) :
    let cfg := runAll uses defaults
    SoundViews cfg ∧ ∃ values : Values, cfg = settingsOf values ∧
      (∀ group key raw, raw.hasLong = false →
        (∃ cause, setOption group key raw cfg = .error (.rejected cause) ∧
          (Use.set group key raw).run cfg = cfg) ∨
        ∃ s value, spec? group key = some s ∧ s.check.accept raw = .ok value ∧
          setOption group key raw cfg = .ok (settingsOf (values.set group key value), value)) ∧
      ∀ path desk, (Use.load path desk).WithinLimits →
        ∃ loaded e, Change.on (load path) desk = (.ok loaded, e) := by
  intro cfg
  obtain ⟨values, sound, ran⟩ : ∃ values : Values, values.Sound ∧ cfg = settingsOf values := by
    rw [show cfg = runAll uses defaults from rfl, defaults_eq]
    exact sound_runAll h (sound_valuesOf admits_default)
  refine ⟨ran ▸ sound.views, values, ran, fun group key raw short => ?_, fun path desk limits => ?_⟩
  · rw [ran]
    obtain ⟨cause, rejected⟩ | accepted := setOption_settingsOf values group key short
    · exact .inl ⟨cause, rejected, by rw [run, rejected]⟩
    · exact .inr accepted
  · obtain ⟨loaded, -, e, answered⟩ := load_answers limits.1 limits.2
    exact ⟨_, e, answered⟩

/-- Settings of which one is no value for its option. -/
def mixedSettings : Json :=
  .obj [("sim", .obj [("step_ms", .str "nan"), ("drive_speed_mps", .real 2.0)])]

/-- A desk with a file of these settings. -/
def mixedDesk : Desk :=
  .new ⟨[(["config.json"], .file (.text (mixedSettings.write .oneLine)))]⟩ []

/-- What is not a number is in a file, and a number is set that comes as a text. -/
theorem settings_stay_sound_mixed :
    let uses : List Use := [.load none mixedDesk, .set "codegen" "arc_samples" (.str " 7 ")]
    (∀ u ∈ uses, u.WithinLimits) ∧ SoundViews (runAll uses defaults) := by
  intro uses
  have parsed : (mixedDesk.folder.readText (pathOr none) >>= Json.parse).toBool = true := by
    decide +kernel
  have readable : Readable (pathOr none) mixedDesk := by
    intro text there container nested
    rw [there, ok_bind, nested] at parsed
    cases parsed
  have limits : ∀ u ∈ uses, u.WithinLimits := by
    simp only [uses, List.forall_mem_cons]
    exact ⟨⟨rfl, readable⟩, rfl, by simp⟩
  exact ⟨limits, (settings_stay_sound limits).1⟩

end Settings

end PathStudio
