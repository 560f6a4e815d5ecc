import PathStudio.Proofs.Settings.Reload

/-!
# Loading settings from a file that is there

A file whose value can be read is left alone, whatever the value is, unless it is the one that stands
for nothing. A file that cannot be read is taken for a missing one: it is reported, and then the
defaults are written over it.
-/

namespace PathStudio.Settings

open Change Storage

variable {given : Option String} {d : Desk}

/-- Where a value is loaded, the folder stays as it is. -/
theorem load_keeps_folder {value : Json} (found : valueAt d.folder (pathOr given) = .ok value)
    (some : value ≠ .null) :
    ∃ values : Values, values.Sound ∧ ∃ e, Change.on (load given) d = (.ok (settingsOf values), e) ∧
      e.folder = d.folder := by
  rw [load, on_bind_ok (on_readFile_ok found)]
  cases value with
  | null => exact absurd rfl some
  | bool | int | real | str | arr | obj => exact merge_answers _ d

/-- What keeps a file that is there from being read is in its value, unless it is nested more deeply
than is read. -/
theorem cause_of_unread_file {content : Content} {fault : Fault}
    (allowed : checkPath (pathOr given) = .ok ())
    (there : d.folder.find (pathOr given) = .ok (.file content))
    (unread : valueAt d.folder (pathOr given) = .error fault) :
    fault.isValueFault = true ∨ ∃ container, fault = .tooNested container := by
  obtain unread | ⟨text, -, misread⟩ := bind_eq_error.mp unread
  · rw [Folder.readText, allowed, there] at unread
    cases content with
    | text s => cases unread
    | bytes raw =>
      simp only [ok_bind] at unread
      split at unread
      · cases unread
      · cases unread
        exact .inl rfl
  · exact Json.fault_of_parse misread

/-- Where nothing is found, the defaults are written to a file that takes them, and given. -/
theorem load_writes_defaults {e : Desk} {found : Option Json}
    (read : Change.on (readFile (pathOr given)) d = (.ok found, e)) (folder : e.folder = d.folder)
    (none : found = none ∨ found = some .null) (takes : Filing.Takes d.folder (pathOr given)) :
    ∃ p d', d.folder.locate (pathOr given) = .ok p ∧ Change.on (load given) d = (.ok defaults, d') ∧
      d'.folder.find (pathOr given) = .ok (.file (.text (defaults.write (.indented 2)))) ∧
      ∀ q ≠ p, d'.folder.node? q = d.folder.node? q := by
  rw [← folder] at takes ⊢
  obtain ⟨p, d', leads, wrote, apart⟩ := exists_writeFile takes hasLong_defaults
  have written : Change.on (Work.outcome (writeFile (pathOr given) defaults)) e = (.ok (.ok ()), d') := by
    rw [Work.on_outcome, wrote]
  refine ⟨p, d', leads, ?_, (takes_of_writeFile hasLong_defaults wrote).2, apart⟩
  rw [load, on_bind_ok read]
  obtain rfl | rfl := none
  · exact on_bind_ok written
  · exact on_bind_ok written

/-- Loading from a path at which a file is. If the file has a value, the value is merged into the
defaults and the folder stays as it is. If the value is nested too deeply, loading fails and changes
nothing. But if the file cannot be read, or says `null`, then the defaults are given, the file has
them afterwards in place of what was in it, and nothing else in the folder has changed. Every file
of a folder can be written: one that may only be read would keep what is in it. -/
theorem load_existing {content : Content} (allowed : checkPath (pathOr given) = .ok ())
    (there : d.folder.find (pathOr given) = .ok (.file content)) :
    (∃ value, valueAt d.folder (pathOr given) = .ok value ∧ value ≠ .null ∧
      ∃ values : Values, values.Sound ∧ ∃ e,
        Change.on (load given) d = (.ok (settingsOf values), e) ∧ e.folder = d.folder) ∨
    (∃ container, valueAt d.folder (pathOr given) = .error (.tooNested container) ∧
      Change.on (load given) d = (.error (.tooNested container), d)) ∨
    ((valueAt d.folder (pathOr given) = .ok .null ∨
        ∃ fault, valueAt d.folder (pathOr given) = .error fault ∧ fault.isValueFault = true) ∧
      ∃ p d', d.folder.locate (pathOr given) = .ok p ∧
        Change.on (load given) d = (.ok defaults, d') ∧
        d'.folder.find (pathOr given) = .ok (.file (.text (defaults.write (.indented 2)))) ∧
        ∀ q ≠ p, d'.folder.node? q = d.folder.node? q) := by
  have takes := Filing.takes_of_find allowed there
  cases found : valueAt d.folder (pathOr given) with
  | ok value =>
    by_cases null : value = .null
    · subst null
      exact .inr (.inr ⟨.inl rfl, load_writes_defaults (on_readFile_ok found) rfl (.inr rfl) takes⟩)
    · exact .inl ⟨value, rfl, null, load_keeps_folder found null⟩
  | error fault =>
    obtain wrong | ⟨container, rfl⟩ := cause_of_unread_file allowed there found
    · have reported : (fault.isPathFault || fault.isValueFault) = true := by rw [wrong, Bool.or_true]
      obtain ⟨e, read, kept⟩ := on_readFile_error found reported
      exact .inr (.inr ⟨.inr ⟨fault, rfl, wrong⟩, load_writes_defaults read kept (.inl rfl) takes⟩)
    · exact .inr (.inl ⟨container, rfl, on_bind_error (on_readFile_tooNested found)⟩)

/-- A desk with a file that is broken off behind its first brace. -/
def brokenDesk : Desk := .new ⟨[(["config.json"], .file (.text "\x7bnot json"))]⟩ []

theorem find_brokenDesk :
    brokenDesk.folder.find (pathOr none) = .ok (.file (.text "\x7bnot json")) := rfl

theorem valueAt_brokenDesk :
    ∃ fault, valueAt brokenDesk.folder (pathOr none) = .error fault ∧ fault.isValueFault = true := by
  have misread : (match valueAt brokenDesk.folder (pathOr none) with
      | .error fault => fault.isValueFault
      | .ok _ => false) = true := by
    decide
  split at misread
  next fault unread => exact ⟨fault, unread, misread⟩
  next => cases misread

theorem load_existing_brokenDesk :
    checkPath (pathOr none) = .ok () ∧
      brokenDesk.folder.find (pathOr none) = .ok (.file (.text "\x7bnot json")) ∧
      ∃ d', Change.on (load none) brokenDesk = (.ok defaults, d') ∧
        d'.folder.find (pathOr none) = .ok (.file (.text (defaults.write (.indented 2)))) := by
  obtain ⟨fault, misread, wrong⟩ := valueAt_brokenDesk
  obtain ⟨value, read, -⟩ | ⟨container, read, -⟩ | ⟨-, p, d', -, answered, written, -⟩ :=
    load_existing (by rfl) find_brokenDesk
  · cases misread.symm.trans read
  · cases misread.symm.trans read
    cases wrong
  · exact ⟨rfl, find_brokenDesk, d', answered, written⟩

/-- The broken file is no longer what it was once the settings have been loaded. -/
theorem load_overwrites_brokenDesk :
    ∃ d', Change.on (load none) brokenDesk = (.ok defaults, d') ∧
      brokenDesk.folder.find (pathOr none) = .ok (.file (.text "\x7bnot json")) ∧
      d'.folder.find (pathOr none) ≠ .ok (.file (.text "\x7bnot json")) := by
  obtain ⟨fault, misread, wrong⟩ := valueAt_brokenDesk
  have reported : (fault.isPathFault || fault.isValueFault) = true := by rw [wrong, Bool.or_true]
  obtain ⟨e, read, kept⟩ := on_readFile_error misread reported
  obtain ⟨p, d', -, answered, written, -⟩ := load_writes_defaults read kept (.inl rfl)
    (Filing.takes_of_find rfl find_brokenDesk)
  have other : defaults.write (.indented 2) ≠ "\x7bnot json" := by decide +kernel
  refine ⟨d', answered, find_brokenDesk, ?_⟩
  rw [written]
  intro same
  exact other (Content.text.inj (Node.file.inj (Except.ok.inj same)))

end PathStudio.Settings
