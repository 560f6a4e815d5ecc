import PathStudio.Proofs.Settings.Reached
import PathStudio.Proofs.Storage.Rewriting

/-!
# Settings that are loaded again

Where settings have been saved they can be saved again, and from their file they are loaded without
a warning.
-/

namespace PathStudio.Settings

open Change Storage

/-! ## Saving and loading -/

variable {d d' : Desk} {path : String} {value : Json}

/-- A file that has been written has the text of the value, and it can be written again. -/
theorem takes_of_writeFile (short : value.hasLong = false)
    (wrote : Change.on (writeFile path value) d = (.ok (), d')) :
    Filing.Takes d'.folder path ∧
      d'.folder.find path = .ok (.file (.text (value.write (.indented 2)))) := by
  have written := Json.written_write (.indented 2) value
  have writes : ∀ e : Desk,
      Change.on (Work.write path (value.pieces (.indented 2))) e = (.ok (), d') →
      Filing.Takes d'.folder path ∧
        d'.folder.find path = .ok (.file (.text (value.write (.indented 2)))) := by
    intro e ran
    rw [Json.pieces_of_hasLong _ short, Work.write, Work.on_filing] at ran
    obtain ⟨result, rfl⟩ := Prod.mk.inj ran
    exact Filing.takes_of_write written (Prod.ext result rfl)
  rw [writeFile] at wrote
  dsimp only at wrote
  split at wrote
  · obtain ⟨_, e, -, ran⟩ := exists_of_on_bind wrote
    exact writes e ran
  · exact writes d wrote

/-- Where a file can be written, settings are written, and nothing else is. -/
theorem exists_writeFile (takes : Filing.Takes d.folder path) (short : value.hasLong = false) :
    ∃ p d', d.folder.locate path = .ok p ∧ Change.on (writeFile path value) d = (.ok (), d') ∧
      ∀ q ≠ p, d'.folder.node? q = d.folder.node? q := by
  have written := Json.written_write (.indented 2) value
  obtain ⟨p, g, leads, wrote, apart⟩ := takes.exists_write written
  have writes : Change.on (Work.write path (value.pieces (.indented 2))) d =
      (.ok (), { d with folder := g }) := by
    rw [Json.pieces_of_hasLong _ short, Work.write, Work.on_filing, wrote]
  refine ⟨p, { d with folder := g }, leads, ?_, apart⟩
  rw [writeFile]
  dsimp only
  split
  next named =>
    have made : Change.on (Work.makeFolders (parentPath path)) d = (.ok (), d) := by
      rw [Work.makeFolders, Work.on_filing,
        Filing.on_makeFolders_parentPath takes.allowed leads takes.slash named]
    rw [on_bind_ok made, writes]
  next => exact writes

/-- Whether a file can be written does not depend on the value. -/
theorem exists_writeFile_of_writeFile {other : Json} (short : value.hasLong = false)
    (short' : other.hasLong = false) (wrote : Change.on (writeFile path other) d = (.ok (), d')) :
    ∃ e, Change.on (writeFile path value) d = (.ok (), e) := by
  have written := Json.written_write (.indented 2) value
  have written' := Json.written_write (.indented 2) other
  have writes : ∀ e : Desk,
      Change.on (Work.write path (other.pieces (.indented 2))) e = (.ok (), d') →
      ∃ e', Change.on (Work.write path (value.pieces (.indented 2))) e = (.ok (), e') := by
    intro e ran
    rw [Json.pieces_of_hasLong _ short', Work.write, Work.on_filing] at ran
    obtain ⟨g, wrote⟩ :=
      Filing.exists_write_of_write written written' (Prod.ext (Prod.mk.inj ran).1 rfl)
    refine ⟨{ e with folder := g }, ?_⟩
    rw [Json.pieces_of_hasLong _ short, Work.write, Work.on_filing, wrote]
  rw [writeFile] at wrote ⊢
  dsimp only at wrote ⊢
  split at wrote
  next named =>
    obtain ⟨_, e, made, ran⟩ := exists_of_on_bind wrote
    rw [if_pos named, on_bind_ok made]
    exact writes e ran
  next bare =>
    rw [if_neg bare]
    exact writes d wrote

/-- Settings are saved if their file is written. -/
theorem save_of_writeFile {given : Option String}
    (wrote : Change.on (writeFile (pathOr given) value) d = (.ok (), d')) :
    ∃ e, Change.on (save value given) d = (.ok true, e) := by
  refine ⟨{ d' with printed := d'.printed ++ ("Config saved to " ++ pathOr given) ++ "\n" }, ?_⟩
  rw [save, on_bind, Work.on_outcome, wrote]
  rfl

theorem writeFile_of_save {given : Option String}
    (saved : Change.on (save value given) d = (.ok true, d')) :
    ∃ e, Change.on (writeFile (pathOr given) value) d = (.ok (), e) ∧ d'.folder = e.folder := by
  rw [save, on_bind, Work.on_outcome] at saved
  generalize Change.on (writeFile (pathOr given) value) d = wrote at saved ⊢
  obtain ⟨fault | done, e⟩ := wrote
  · dsimp only at saved
    split at saved <;> cases saved
  · have same := (Prod.mk.inj saved).2
    exact ⟨e, rfl, same ▸ rfl⟩

theorem takes_of_save {given : Option String} (short : value.hasLong = false)
    (saved : Change.on (save value given) d = (.ok true, d')) :
    Filing.Takes d'.folder (pathOr given) ∧
      d'.folder.find (pathOr given) = .ok (.file (.text (value.write (.indented 2)))) := by
  obtain ⟨e, wrote, kept⟩ := writeFile_of_save saved
  rw [kept]
  exact takes_of_writeFile short wrote

theorem exists_save {given : Option String} (takes : Filing.Takes d.folder (pathOr given))
    (short : value.hasLong = false) : ∃ d', Change.on (save value given) d = (.ok true, d') := by
  obtain ⟨-, e, -, wrote, -⟩ := exists_writeFile takes short
  exact save_of_writeFile wrote

/-- Whether settings can be saved does not depend on them. -/
theorem exists_save_of_save {given : Option String} {other : Json} (short : value.hasLong = false)
    (short' : other.hasLong = false) (saved : Change.on (save other given) d = (.ok true, d')) :
    ∃ e, Change.on (save value given) d = (.ok true, e) := by
  obtain ⟨e, wrote, -⟩ := writeFile_of_save saved
  obtain ⟨e', wrote'⟩ := exists_writeFile_of_writeFile short short' wrote
  exact save_of_writeFile wrote'

/-- Settings that are read from a file are merged, and nothing else happens if there is nothing to
warn of. -/
theorem on_load {given : Option String} {text : String} {members : List (String × Json)} {cfg : Json}
    (there : d.folder.readText (pathOr given) = .ok text)
    (parsed : Json.parse text = .ok (.obj members)) (merged : merge (.obj members) = (cfg, [])) :
    Change.on (load given) d = (.ok cfg, d) := by
  have read : Change.on (readFile (pathOr given)) d = (.ok (some (.obj members)), d) :=
    on_readFile_ok (by rw [valueAt, there, ok_bind, parsed])
  rw [load, on_bind_ok read]
  dsimp only
  rw [merged]
  rfl

/-! ## Loading what has been saved -/

/-- Settings with values that are taken are loaded from their file as settings with what these are
taken as. -/
theorem on_load_settingsOf {values after : Values} {given : Option String} (sound : values.Sound)
    (precise : values.Exact) (takes : Filing.Takes d.folder (pathOr given))
    (there : d.folder.find (pathOr given) =
      .ok (.file (.text ((settingsOf values).write (.indented 2)))))
    (taken : ∀ s ∈ specs, s.check.accept (values s.group s.key) = .ok (after s.group s.key)) :
    Change.on (load given) d = (.ok (settingsOf after), d) := by
  have read := readText_of_find takes.allowed (Json.written_write (.indented 2) _) there
  exact on_load read (sound.parse_write precise _) (merge_settingsOf taken)

/-- Settings that have been saved are loaded, whatever has been set of them, with nothing to warn of.
They have the same groups and keys with the same values, except that the default number of
milliseconds becomes a real. Saving and loading these once more gives them as they are, and the file
has the same text again. -/
theorem settings_reload {given : List Setting} {path : Option String} {d d' : Desk}
    (precise : ∀ a ∈ (setAll given).atoms, ReadsExactly a)
    (saved : Change.on (save (setAll given) path) d = (.ok true, d')) :
    ∃ values loaded : Values, setAll given = settingsOf values ∧
      (∀ s ∈ specs, loaded s.group s.key = values s.group s.key ∨
        values s.group s.key = .int 16 ∧ loaded s.group s.key = .real 16.0) ∧
      Change.on (load path) d' = (.ok (settingsOf loaded), d') ∧
      ∃ d₁ d₂ text,
        Change.on (save (settingsOf loaded) path) d' = (.ok true, d₁) ∧
        d₁.folder.find (pathOr path) = .ok (.file (.text text)) ∧
        Change.on (load path) d₁ = (.ok (settingsOf loaded), d₁) ∧
        Change.on (save (settingsOf loaded) path) d₁ = (.ok true, d₂) ∧
        d₂.folder.find (pathOr path) = .ok (.file (.text text)) := by
  obtain ⟨values, reached, set⟩ := exists_setAll given
  rw [set] at precise saved ⊢
  have precise := reached.sound.exact precise
  have sound := reached.sound_loaded precise
  have precise' := reached.exact_loaded precise
  have short := sound.hasLong_eq_false precise'
  obtain ⟨takes, there⟩ := takes_of_save (reached.sound.hasLong_eq_false precise) saved
  have loads := on_load_settingsOf reached.sound precise takes there fun s hs =>
    reached.accept_loaded precise hs
  obtain ⟨d₁, again⟩ := exists_save takes short
  obtain ⟨takes₁, there₁⟩ := takes_of_save short again
  have loads₁ := on_load_settingsOf sound precise' takes₁ there₁ fun s hs =>
    reached.accept_loaded_loaded precise hs
  obtain ⟨d₂, last⟩ := exists_save takes₁ short
  obtain ⟨-, there₂⟩ := takes_of_save short last
  refine ⟨values, values.loaded, rfl, fun s hs => ?_, loads, d₁, d₂, _, again, there₁, loads₁, last,
    there₂⟩
  obtain ⟨-, sixteen, becomes⟩ | ⟨same, -⟩ := reached.loaded_cases hs
  · exact .inr ⟨sixteen, becomes⟩
  · exact .inl same

/-- A number of samples that comes as a text, and a number of milliseconds that is turned down. -/
def sevenSamples : List Setting :=
  [⟨"codegen", "arc_samples", .str " 7 "⟩, ⟨"sim", "step_ms", .int 0⟩]

/-- The default values with seven samples. -/
def sevenValues : Values := (valuesOf Spec.default).set "codegen" "arc_samples" (.int 7)

theorem accept_sevenSamples : Check.countFromTwo.accept (.str " 7 ") = .ok (.int 7) := by
  have text : textOf (.str " 7 ") = "7".toList := by decide +kernel
  rw [Check.accept, checkCount, text]
  rfl

theorem reached_sevenValues : sevenValues.Reached :=
  reached_defaults.set (s := ⟨"codegen", "arc_samples", .countFromTwo, .int 5⟩) rfl
    accept_sevenSamples

theorem exact_sevenValues : sevenValues.Exact := by
  have seven : ReadsExactly (.int 7) := by
    have text : textOf (.int 7) = "7".toList := by decide +kernel
    refine ⟨Json.readsBack_digit (by decide : 7 < 10), ?_⟩
    rw [text]
    rfl
  have sixteen : ReadsExactly (.int 16) := by
    have text : textOf (.int 16) = "16".toList := by decide +kernel
    have written : (Json.int 16).write .oneLine = "16" := by decide +kernel
    rw [ReadsExactly, Json.ReadsBack, text, written]
    exact ⟨rfl, rfl⟩
  have real {x : Float}
      (read : (Json.parse ((Json.real x).write .oneLine)).toOption.bind Json.real? = some x)
      (text : (Decimal.readReal? (textOf (.real x))).map Double.ofNumeral = some x) :
      ReadsExactly (.real x) :=
    ⟨Json.readsBack_real read, text⟩
  simp only [Values.Exact, specs, List.forall_mem_cons]
  exact ⟨trivial, seven, real (by decide +kernel) (by decide +kernel),
    real (by decide +kernel) (by decide +kernel), sixteen,
    real (by decide +kernel) (by decide +kernel), real (by decide +kernel) (by decide +kernel),
    real (by decide +kernel) (by decide +kernel), by simp⟩

theorem setAll_sevenSamples : setAll sevenSamples = settingsOf sevenValues := by
  let samples : Spec := ⟨"codegen", "arc_samples", .countFromTwo, .int 5⟩
  let step : Spec := ⟨"sim", "step_ms", .positive, .int 16⟩
  have zero : step.check.accept (.int 0) = .error (.notPositive (shown (.int 0))) := by
    have read : (Decimal.readReal? (textOf (.int 0))).map Double.ofNumeral = some 0.0 := by
      decide +kernel
    obtain ⟨numeral, found, nothing⟩ := Option.map_eq_some_iff.mp read
    have refused : (!decide (0.0 < (0.0 : Float)) || (0.0 : Float).isInf) = true := by
      decide +kernel
    rw [Check.accept, checkPositive, found]
    dsimp only
    rw [nothing, if_pos refused]
    rfl
  have first := Use.run_set_of_ok (valuesOf Spec.default) (s := samples)
    (by simp [specs, samples]) (by rfl) accept_sevenSamples
  have second := Use.run_set_of_error sevenValues (s := step) (by simp [specs, step]) zero
  rw [setAll, defaults_eq, sevenSamples, Use.runAll, List.map_cons, List.map_cons, List.map_nil,
    List.foldl_cons, List.foldl_cons, List.foldl_nil, first]
  exact second

/-- These settings are saved in a folder that is made for them, and loaded. -/
theorem settings_reload_sevenSamples :
    let path := some "team/config.json"
    (∀ a ∈ (setAll sevenSamples).atoms, ReadsExactly a) ∧
      ∃ d, Change.on (save (setAll sevenSamples) path) (Desk.new .empty []) = (.ok true, d) ∧
        ∃ loaded : Values, Change.on (load path) d = (.ok (settingsOf loaded), d) := by
  intro path
  have sound := reached_sevenValues.sound
  have blank : (Change.on (save .null path) (Desk.new .empty [])).1.toOption = some true := by
    decide +kernel
  have precise : ∀ a ∈ (setAll sevenSamples).atoms, ReadsExactly a :=
    setAll_sevenSamples ▸ sound.readsExactly_atoms exact_sevenValues
  have short : (setAll sevenSamples).hasLong = false :=
    setAll_sevenSamples ▸ sound.hasLong_eq_false exact_sevenValues
  generalize ran : Change.on (save .null path) (Desk.new .empty []) = done at blank
  obtain ⟨fault | result, e⟩ := done
  · cases blank
  · cases blank
    obtain ⟨d, saved⟩ := exists_save_of_save short rfl ran
    obtain ⟨values, loaded, -, -, loads, -⟩ := settings_reload precise saved
    exact ⟨precise, d, saved, loaded, loads⟩

end PathStudio.Settings
