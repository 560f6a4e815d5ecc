import PathStudio.Settings.Basic
import PathStudio.Proofs.Settings.Option

/-!
# Complete settings

Complete settings have every option and nothing else, and so they are given by the
values of the options. The defaults are such settings, and what is made of loaded
ones is. Setting an option changes one of the values or none.
-/

namespace PathStudio

namespace Json

variable {keys : List String} {key : String} {value : Json}

theorem lookup_map (f : String → Json) (h : key ∈ keys) :
    lookup key (keys.map fun k => (k, f k)) = some (f key) := by
  induction keys with
  | nil => cases h
  | cons first rest ih =>
    by_cases same : first = key
    · simp [lookup, same]
    · obtain rfl | later := List.mem_cons.mp h
      · exact absurd rfl same
      · simpa [lookup, same] using ih later

theorem insert_map (f : String → Json) (h : key ∈ keys) (distinct : keys.Nodup) :
    insert key value (keys.map fun k => (k, f k)) =
      keys.map fun k => (k, if k = key then value else f k) := by
  induction keys with
  | nil => cases h
  | cons first rest ih =>
    obtain ⟨fresh, distinct⟩ := List.nodup_cons.mp distinct
    by_cases same : first = key
    · subst same
      have others : ∀ k ∈ rest, (k, f k) = (k, if k = first then value else f k) := by
        intro k hk
        rw [if_neg (ne_of_mem_of_not_mem hk fresh)]
      simpa [insert] using others
    · obtain rfl | later := List.mem_cons.mp h
      · exact absurd rfl same
      · simpa [insert, same] using ih later distinct

/-- Of values put one after the other, those that are put are found. -/
theorem lookup_foldl_insert (f : String → Json) (h : key ∈ keys) (base : List (String × Json)) :
    lookup key ((keys.map fun k => (k, f k)).foldl (fun all m => insert m.1 m.2 all) base) =
      some (f key) := by
  have kept : ∀ (rest : List String) (base : List (String × Json)), lookup key base = some (f key) →
      lookup key ((rest.map fun k => (k, f k)).foldl (fun all m => insert m.1 m.2 all) base) =
        some (f key) := by
    intro rest
    induction rest with
    | nil => exact fun base there => there
    | cons k rest ih =>
      intro base there
      apply ih
      by_cases same : key = k
      · rw [same, lookup_insert_self]
      · rw [lookup_insert_of_ne same, there]
  induction keys generalizing base with
  | nil => cases h
  | cons first rest ih =>
    obtain rfl | later := List.mem_cons.mp h
    · exact kept rest _ (lookup_insert_self key (f key) base)
    · exact ih later _

end Json

namespace Settings

/-! ## The table of options -/

/-- The keys of a group. -/
def keysOf (group : String) : List String := (specsOf group).map Spec.key

theorem groups_nodup : groups.Nodup := by decide

theorem keys_nodup : (specs.map Spec.key).Nodup := by decide

theorem keysOf_nodup (group : String) : (keysOf group).Nodup :=
  (List.filter_sublist.map Spec.key).nodup keys_nodup

theorem group_mem {s : Spec} (h : s ∈ specs) : s.group ∈ groups := by
  have all : ∀ s ∈ specs, s.group ∈ groups := by simp [specs, groups]
  exact all s h

theorem key_mem {s : Spec} (h : s ∈ specs) : s.key ∈ keysOf s.group :=
  List.mem_map_of_mem (List.mem_filter.mpr ⟨h, by simp⟩)

theorem of_spec? {group key : String} {s : Spec} (h : spec? group key = some s) :
    s ∈ specs ∧ s.group = group ∧ s.key = key := by
  have named := List.find?_some h
  simp only [Bool.and_eq_true, decide_eq_true_eq] at named
  exact ⟨List.mem_of_find?_eq_some h, named⟩

/-- An option is found by its group and key. -/
theorem spec?_eq_some {s : Spec} (h : s ∈ specs) : spec? s.group s.key = some s := by
  cases found : spec? s.group s.key with
  | none =>
    have other := List.find?_eq_none.mp found s h
    simp at other
  | some t =>
    obtain ⟨ht, -, key⟩ := of_spec? found
    rw [List.inj_on_of_nodup_map keys_nodup ht h key]

/-! ## Settings by values -/

/-- The values of options by group and key. -/
abbrev Values := String → String → Json

/-- The values with another one for an option. -/
def Values.set (values : Values) (group key : String) (value : Json) : Values :=
  fun g k => if g = group ∧ k = key then value else values g k

/-- A group with the given values. -/
def groupOf (values : Values) (group : String) : Json :=
  .obj ((keysOf group).map fun k => (k, leaf (values group k)))

/-- The settings with the given values. -/
def settingsOf (values : Values) : Json := .obj (groups.map fun g => (g, groupOf values g))

/-- The values that belong to the options. -/
def valuesOf (value : Spec → Json) : Values := fun g k => ((spec? g k).map value).getD .null

theorem valuesOf_spec (value : Spec → Json) {s : Spec} (h : s ∈ specs) :
    valuesOf value s.group s.key = value s := by
  rw [valuesOf, spec?_eq_some h]
  rfl

theorem settingsOf_valuesOf (value : Spec → Json) :
    settingsOf (valuesOf value) =
      .obj (groups.map fun g => (g, .obj ((specsOf g).map fun s => (s.key, leaf (value s))))) := by
  have group (g : String) : groupOf (valuesOf value) g =
      .obj ((specsOf g).map fun s => (s.key, leaf (value s))) := by
    rw [groupOf, keysOf, List.map_map]
    congr 1
    refine List.map_congr_left fun s hs => ?_
    obtain ⟨hs, of_group⟩ := List.mem_filter.mp hs
    rw [Function.comp_apply, ← of_decide_eq_true of_group, valuesOf_spec value hs]
  rw [settingsOf]
  simp only [group]

theorem defaults_eq : defaults = settingsOf (valuesOf Spec.default) :=
  (settingsOf_valuesOf Spec.default).symm

theorem merge_eq (loaded : Json) :
    (merge loaded).1 = settingsOf (valuesOf fun s => (mergedValue loaded s).1) :=
  (settingsOf_valuesOf _).symm

/-! ## Setting an option -/

@[simp] theorem groupOf_set_self (values : Values) (group key : String) (value : Json) :
    groupOf (values.set group key value) group =
      .obj ((keysOf group).map fun k => (k, if k = key then leaf value else leaf (values group k))) := by
  rw [groupOf]
  congr 1
  refine List.map_congr_left fun k _ => ?_
  by_cases same : k = key <;> simp [Values.set, same]

theorem groupOf_set_of_ne (values : Values) {group g : String} (h : g ≠ group) (key : String)
    (value : Json) : groupOf (values.set group key value) g = groupOf values g := by
  simp [groupOf, Values.set, h]

/-- Storing the value of an option changes that value and nothing else. -/
theorem store_settingsOf (values : Values) {s : Spec} (h : s ∈ specs) (value : Json) :
    store s.group s.key value (settingsOf values) =
      .ok (settingsOf (values.set s.group s.key value)) := by
  have group := Json.lookup_map (groupOf values) (group_mem h)
  have stored : store s.group s.key value (settingsOf values) =
      .ok (.obj (Json.insert s.group
        (.obj (Json.insert s.key (leaf value)
          ((keysOf s.group).map fun k => (k, leaf (values s.group k)))))
        (groups.map fun g => (g, groupOf values g)))) := by
    simp only [store, settingsOf]
    rw [group]
    rfl
  rw [stored, Json.insert_map (fun k => leaf (values s.group k)) (key_mem h) (keysOf_nodup s.group),
    Json.insert_map (groupOf values) (group_mem h) groups_nodup, ← groupOf_set_self]
  congr 2
  refine List.map_congr_left fun g _ => ?_
  by_cases same : g = s.group
  · rw [if_pos same, same]
  · rw [if_neg same, groupOf_set_of_ne values same]

/-- Setting an option is refused as a rejection, or changes the value of that option to what is
accepted and nothing else. -/
theorem setOption_settingsOf (values : Values) (group key : String) {raw : Json}
    (short : raw.hasLong = false) :
    (∃ cause, setOption group key raw (settingsOf values) = .error (.rejected cause)) ∨
      ∃ s value, spec? group key = some s ∧ s.check.accept raw = .ok value ∧
        setOption group key raw (settingsOf values) =
          .ok (settingsOf (values.set group key value), value) := by
  have text : raw.requireText = .ok () := by rw [Json.requireText, short]; rfl
  cases found : spec? group key with
  | none => exact .inl ⟨.unknownOption group key, by rw [setOption, found]; rfl⟩
  | some s =>
    obtain ⟨hs, rfl, rfl⟩ := of_spec? found
    cases accepted : s.check.accept raw with
    | error cause =>
      refine .inl ⟨cause, ?_⟩
      simp only [setOption, found, text, accepted, ok_bind]
      rfl
    | ok value =>
      refine .inr ⟨s, value, rfl, accepted, ?_⟩
      simp only [setOption, found, text, accepted, ok_bind, store_settingsOf values hs]
      rfl

/-! ## Views -/

theorem flat_settingsOf (values : Values) {group : String} (h : group ∈ groups) :
    ∃ view, flat group (settingsOf values) = .ok view ∧
      ∀ key ∈ keysOf group, valueOf key view = values group key := by
  have there : (settingsOf values).get group = .ok (some (groupOf values group)) :=
    congrArg Except.ok (Json.lookup_map (groupOf values) h)
  have flattened : flatten (groupOf values group) =
      .ok ((keysOf group).map fun k => (k, values group k)) := by
    rw [groupOf, flatten, List.map_map]
    rfl
  refine ⟨((keysOf group).map fun k => (k, values group k)).foldl
    (fun all m => Json.insert m.1 m.2 all) ((specsOf group).map fun s => (s.key, s.default)), ?_,
    fun key hk => ?_⟩
  · simp only [flat, there, ok_bind, Option.getD_some, flattened]
    rfl
  · rw [valueOf, Json.lookup_foldl_insert (values group) hk, Option.getD_some]

/-- What the flat views of settings give: values that the options may have. -/
structure SoundViews (cfg : Json) : Prop where
  codegen : ∃ view, flat "codegen" cfg = .ok view ∧ Check.mode.Admits (valueOf "mode" view) ∧
    Check.countFromTwo.Admits (valueOf "arc_samples" view) ∧
    Check.fraction.Admits (valueOf "default_speed" view)
  sim : ∃ view, flat "sim" cfg = .ok view ∧
    ∀ key ∈ ["speed_multiplier", "step_ms", "drive_speed_mps", "turn_speed_dps"],
      Check.positive.Admits (valueOf key view)
  markers : ∃ view, flat "markers" cfg = .ok view ∧
    Check.positive.Admits (valueOf "reuse_tolerance_m" view)

/-- Each option has a value that it may have. -/
def Values.Sound (values : Values) : Prop := ∀ s ∈ specs, s.check.Admits (values s.group s.key)

namespace Values.Sound

variable {values : Values}

theorem views (h : values.Sound) : SoundViews (settingsOf values) := by
  have all := h
  simp only [Values.Sound, specs, List.forall_mem_cons] at all
  obtain ⟨mode, samples, speed, multiplier, step, drive, turn, tolerance, -⟩ := all
  refine ⟨?_, ?_, ?_⟩
  · obtain ⟨view, flat, value⟩ := flat_settingsOf values (by decide : "codegen" ∈ groups)
    refine ⟨view, flat, ?_, ?_, ?_⟩
    · rwa [value "mode" (by decide)]
    · rwa [value "arc_samples" (by decide)]
    · rwa [value "default_speed" (by decide)]
  · obtain ⟨view, flat, value⟩ := flat_settingsOf values (by decide : "sim" ∈ groups)
    refine ⟨view, flat, ?_⟩
    simp only [List.forall_mem_cons]
    refine ⟨?_, ?_, ?_, ?_, by simp⟩
    · rwa [value "speed_multiplier" (by decide)]
    · rwa [value "step_ms" (by decide)]
    · rwa [value "drive_speed_mps" (by decide)]
    · rwa [value "turn_speed_dps" (by decide)]
  · obtain ⟨view, flat, value⟩ := flat_settingsOf values (by decide : "markers" ∈ groups)
    refine ⟨view, flat, ?_⟩
    rwa [value "reuse_tolerance_m" (by decide)]

theorem set (h : values.Sound) {group key : String} {s : Spec} {raw value : Json}
    (found : spec? group key = some s) (accepted : s.check.accept raw = .ok value) :
    (values.set group key value).Sound := by
  intro t ht
  obtain ⟨hs, rfl, rfl⟩ := of_spec? found
  rw [Values.set]
  split
  next same =>
    rw [List.inj_on_of_nodup_map keys_nodup ht hs same.2]
    exact Check.admits_of_accept accepted
  next => exact h t ht

end Values.Sound

theorem sound_valuesOf {value : Spec → Json} (h : ∀ s ∈ specs, s.check.Admits (value s)) :
    (valuesOf value).Sound := by
  intro s hs
  rw [valuesOf_spec value hs]
  exact h s hs

/-- What is loaded is accepted or replaced by the default. -/
theorem admits_mergedValue (loaded : Json) :
    ∀ s ∈ specs, s.check.Admits (mergedValue loaded s).1 := by
  intro s hs
  rw [mergedValue]
  split
  · exact admits_default s hs
  next raw _ =>
    split
    next value accepted => exact Check.admits_of_accept accepted
    next => exact admits_default s hs

end Settings

end PathStudio
