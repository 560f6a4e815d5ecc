import PathStudio.Proofs.Settings.File

/-!
# Values that are taken again

A value that an option has taken is taken again, as itself; of the defaults the whole number of
milliseconds alone becomes a real of the same value. So settings that have been reached from the
defaults are read back from their text and merged with nothing to warn of, and what they are loaded
as stays as it is.
-/

namespace PathStudio

/-! ## Objects of atoms -/

namespace Json

theorem mem_memberAtoms {a : Json} {members : List (String × Json)} :
    a ∈ memberAtoms members ↔ ∃ m ∈ members, a = .str m.1 ∨ a ∈ m.2.atoms := by
  induction members with
  | nil => simp [memberAtoms]
  | cons m rest ih =>
    obtain ⟨key, value⟩ := m
    simp [memberAtoms, ih, or_and_right, exists_or, or_assoc]

theorem membersHaveDistinctKeys {members : List (String × Json)}
    (h : ∀ m ∈ members, m.2.HasDistinctKeys) : MembersHaveDistinctKeys members := by
  induction members with
  | nil => exact trivial
  | cons m rest ih =>
    obtain ⟨first, others⟩ := List.forall_mem_cons.mp h
    exact ⟨first, ih others⟩

theorem membersDepth_le {members : List (String × Json)} {limit : Nat}
    (h : ∀ m ∈ members, m.2.depth ≤ limit) : membersDepth members ≤ limit := by
  induction members with
  | nil => exact Nat.zero_le _
  | cons m rest ih =>
    obtain ⟨first, others⟩ := List.forall_mem_cons.mp h
    exact max_le first (ih others)

/-- The number that a real is. -/
def real? : Json → Option Float
  | .real x => some x
  | _ => none

/-- A real is read back if the text of it is read as that real. -/
theorem readsBack_real {x : Float}
    (h : (parse ((real x).write .oneLine)).toOption.bind real? = some x) : ReadsBack (.real x) := by
  rw [ReadsBack]
  generalize parse ((real x).write .oneLine) = read at h
  cases read with
  | error fault => cases h
  | ok value =>
    cases value with
    | real y =>
      cases h
      rfl
    | _ => cases h

end Json

namespace Double

open Binary Float.Model

theorem isInf_of_isFinite {x : Float} (h : x.isFinite = true) : x.isInf = false := by
  rw [isFinite_eq] at h
  rw [isInf_eq]
  generalize unpacked (ofFloat x) = u at h
  cases u with
  | infinity s => cases h
  | notANumber | zero s | finite s => rfl

theorem isInf_of_fraction {x : Float} (positive : 0.0 < x) (most : x ≤ 1.0) : x.isInf = false := by
  have above := decide_lt_eq 0.0 x
  have zero : ofFloat 0.0 = .finite false 0 (-1074) := by decide
  have one : ofFloat 1.0 = .finite false (2 ^ 52) (-52) := by decide
  rw [decide_eq_true positive, zero] at above
  rw [le_iff, one] at most
  rw [isInf_eq]
  generalize unpacked (ofFloat x) = u at above most
  cases u with
  | infinity s =>
    cases s with
    | negative => cases above
    | positive => cases most
  | notANumber | zero s | finite s => rfl

end Double

namespace Settings

/-! ## Values that are taken again -/

/-- A number that is read back exactly from what it is written as, in a JSON text and as the text of
an offered value. -/
def ReadsExactly : Json → Prop
  | .int n => Json.ReadsBack (.int n) ∧ Decimal.readInteger (textOf (.int n)) [] = .ok n
  | .real x => Json.ReadsBack (.real x) ∧
      (Decimal.readReal? (textOf (.real x))).map Double.ofNumeral = some x
  | _ => True

theorem checkPositive_of_read {raw : Json} {x : Float}
    (read : (Decimal.readReal? (textOf raw)).map Double.ofNumeral = some x) (positive : 0.0 < x)
    (finite : x.isInf = false) : checkPositive raw = .ok x := by
  obtain ⟨numeral, found, rfl⟩ := Option.map_eq_some_iff.mp read
  rw [checkPositive, found]
  dsimp only
  rw [decide_eq_true positive, finite]
  rfl

/-- What an option may have is taken again, unless it is a whole number for a real. -/
theorem Check.accept_of_admits {check : Check} {value : Json} (h : check.Admits value)
    (precise : ReadsExactly value) (whole : check = .positive → ∀ n, value ≠ .int n) :
    check.accept value = .ok value := by
  cases check with
  | mode =>
    obtain ⟨d, rfl⟩ := h
    cases d <;> rfl
  | countFromTwo =>
    obtain ⟨n, rfl, large⟩ := h
    rw [accept, checkCount, precise.2]
    exact if_neg (Int.not_lt.mpr large)
  | positive =>
    obtain ⟨n, rfl, -⟩ | ⟨x, rfl, bounds⟩ := h
    · exact absurd rfl (whole rfl n)
    · rw [accept, checkPositive_of_read precise.2 bounds.1 (Double.isInf_of_isFinite bounds.2)]
      rfl
  | fraction =>
    obtain ⟨x, rfl, positive, most⟩ := h
    have above : ¬ 1.0 < x := fun above => Double.not_le_of_lt above most
    rw [accept, checkFraction,
      checkPositive_of_read precise.2 positive (Double.isInf_of_fraction positive most)]
    simp only [bind, Except.bind, if_neg above]
    rfl

theorem accept_sixteen : Check.positive.accept (.int 16) = .ok (.real 16.0) := by
  have read : (Decimal.readReal? (textOf (.int 16))).map Double.ofNumeral = some 16.0 := by
    decide +kernel
  rw [Check.accept, checkPositive_of_read read (by decide) (by decide)]
  rfl

theorem readsExactly_sixteen : ReadsExactly (.real 16.0) :=
  ⟨Json.readsBack_real (by decide +kernel), by decide +kernel⟩

/-- What an option may have is an atom. -/
theorem Check.Admits.isAtom {check : Check} {value : Json} (h : check.Admits value) :
    value.atoms = [value] ∧ value.HasDistinctKeys ∧ value.depth = 0 := by
  cases check with
  | mode =>
    obtain ⟨d, rfl⟩ := h
    exact ⟨rfl, trivial, rfl⟩
  | countFromTwo =>
    obtain ⟨n, rfl, -⟩ := h
    exact ⟨rfl, trivial, rfl⟩
  | positive =>
    obtain ⟨n, rfl, -⟩ | ⟨x, rfl, -⟩ := h
    · exact ⟨rfl, trivial, rfl⟩
    · exact ⟨rfl, trivial, rfl⟩
  | fraction =>
    obtain ⟨x, rfl, -⟩ := h
    exact ⟨rfl, trivial, rfl⟩

theorem Check.Admits.readsBack {check : Check} {value : Json} (h : check.Admits value)
    (precise : ReadsExactly value) : Json.ReadsBack value := by
  cases check with
  | mode =>
    obtain ⟨d, rfl⟩ := h
    cases d <;> rfl
  | countFromTwo =>
    obtain ⟨n, rfl, -⟩ := h
    exact precise.1
  | positive =>
    obtain ⟨n, rfl, -⟩ | ⟨x, rfl, -⟩ := h
    · exact precise.1
    · exact precise.1
  | fraction =>
    obtain ⟨x, rfl, -⟩ := h
    exact precise.1

/-! ## Reached values -/

/-- The values of settings that have been reached from the defaults: options have values that they
may have, and a real is a whole number only as the default number of milliseconds. -/
structure Values.Reached (values : Values) : Prop where
  sound : values.Sound
  whole : ∀ s ∈ specs, s.check = .positive → ∀ n, values s.group s.key = .int n → n = 16

theorem Check.accept_positive_ne_int {raw : Json} (n : Int) :
    Check.positive.accept raw ≠ .ok (.int n) := by
  rw [accept]
  cases checkPositive raw <;> simp [Except.map]

theorem reached_defaults : (valuesOf Spec.default).Reached := by
  refine ⟨sound_valuesOf admits_default, fun s hs => ?_⟩
  rw [valuesOf_spec _ hs]
  revert s
  simp [specs]

theorem Use.run_set_of_ok (values : Values) {s : Spec} {raw value : Json} (hs : s ∈ specs)
    (short : raw.hasLong = false) (accepted : s.check.accept raw = .ok value) :
    (Use.set s.group s.key raw).run (settingsOf values) =
      settingsOf (values.set s.group s.key value) := by
  have text : raw.requireText = .ok () := by rw [Json.requireText, short]; rfl
  simp only [run, setOption, spec?_eq_some hs, text, accepted, ok_bind, store_settingsOf values hs]
  rfl

theorem Use.run_set_of_error (values : Values) {s : Spec} {raw : Json} {cause : Rejection}
    (hs : s ∈ specs) (rejected : s.check.accept raw = .error cause) :
    (Use.set s.group s.key raw).run (settingsOf values) = settingsOf values := by
  simp only [run, setOption, spec?_eq_some hs, rejected]
  cases raw.requireText <;> rfl

namespace Values.Reached

variable {values : Values}

theorem set (h : values.Reached) {group key : String} {s : Spec} {raw value : Json}
    (found : spec? group key = some s) (accepted : s.check.accept raw = .ok value) :
    (values.set group key value).Reached := by
  refine ⟨h.sound.set found accepted, fun t ht positive n is => ?_⟩
  obtain ⟨hs, rfl, rfl⟩ := of_spec? found
  rw [Values.set] at is
  split at is
  next same =>
    obtain rfl := List.inj_on_of_nodup_map keys_nodup ht hs same.2
    rw [positive, is] at accepted
    exact absurd accepted (Check.accept_positive_ne_int n)
  next => exact h.whole t ht positive n is

/-- Setting an option leads from reached values to reached values, whatever is offered. -/
theorem exists_run_set (h : values.Reached) (group key : String) (raw : Json) :
    ∃ after : Values, after.Reached ∧
      (Use.set group key raw).run (settingsOf values) = settingsOf after := by
  cases short : raw.hasLong with
  | true =>
    have refused : ∃ fault, setOption group key raw (settingsOf values) = .error fault := by
      rw [setOption]
      split
      · exact ⟨_, rfl⟩
      · rw [Json.requireText, short]
        exact ⟨_, rfl⟩
    obtain ⟨fault, refused⟩ := refused
    exact ⟨values, h, by rw [Use.run, refused]⟩
  | false =>
    obtain ⟨cause, rejected⟩ | ⟨s, value, found, accepted, changed⟩ :=
      setOption_settingsOf values group key short
    · exact ⟨values, h, by rw [Use.run, rejected]⟩
    · exact ⟨values.set group key value, h.set found accepted, by rw [Use.run, changed]⟩

end Values.Reached

/-- What is set of which option. -/
structure Setting where
  group : String
  key : String
  raw : Json

/-- The settings after options have been set one after the other, from the defaults on. -/
def setAll (given : List Setting) : Json :=
  Use.runAll (given.map fun g => .set g.group g.key g.raw) defaults

theorem exists_setAll (given : List Setting) :
    ∃ values : Values, values.Reached ∧ setAll given = settingsOf values := by
  have reaches : ∀ values : Values, values.Reached → ∃ after : Values, after.Reached ∧
      Use.runAll (given.map fun g => .set g.group g.key g.raw) (settingsOf values) =
        settingsOf after := by
    induction given with
    | nil => exact fun values h => ⟨values, h, rfl⟩
    | cons g rest ih =>
      intro values h
      obtain ⟨next, h, ran⟩ := h.exists_run_set g.group g.key g.raw
      obtain ⟨after, h, later⟩ := ih next h
      refine ⟨after, h, ?_⟩
      rw [Use.runAll, List.map_cons, List.foldl_cons, ran]
      exact later
  rw [setAll, defaults_eq]
  exact reaches _ reached_defaults

/-! ## Merging -/

theorem offered_settingsOf (values : Values) {s : Spec} (h : s ∈ specs) :
    offered (settingsOf values) s = some (values s.group s.key) := by
  have group : (settingsOf values).member? s.group = some (groupOf values s.group) :=
    Json.lookup_map (groupOf values) (group_mem h)
  rw [offered, group, groupOf]
  dsimp only
  rw [Json.lookup_map (fun k => leaf (values s.group k)) (key_mem h)]
  rfl

theorem exists_of_mem_keysOf {group key : String} (h : key ∈ keysOf group) :
    ∃ s ∈ specs, s.group = group ∧ s.key = key := by
  obtain ⟨s, hs, rfl⟩ := List.mem_map.mp h
  obtain ⟨hs, named⟩ := List.mem_filter.mp hs
  exact ⟨s, hs, of_decide_eq_true named, rfl⟩

/-- Settings are given by the values of the options alone. -/
theorem settingsOf_congr {values after : Values}
    (h : ∀ s ∈ specs, values s.group s.key = after s.group s.key) :
    settingsOf values = settingsOf after := by
  have group (g : String) : groupOf values g = groupOf after g := by
    rw [groupOf, groupOf]
    congr 1
    refine List.map_congr_left fun k hk => ?_
    obtain ⟨s, hs, rfl, rfl⟩ := exists_of_mem_keysOf hk
    rw [h s hs]
  simp only [settingsOf, group]

/-- Settings whose values are all taken are merged without a warning. -/
theorem merge_settingsOf {values after : Values}
    (h : ∀ s ∈ specs, s.check.accept (values s.group s.key) = .ok (after s.group s.key)) :
    merge (settingsOf values) = (settingsOf after, []) := by
  have merged : ∀ s ∈ specs, mergedValue (settingsOf values) s = (after s.group s.key, none) := by
    intro s hs
    rw [mergedValue, offered_settingsOf values hs]
    dsimp only
    rw [h s hs]
  refine Prod.ext ?_ ?_
  · rw [merge_eq]
    refine settingsOf_congr fun s hs => ?_
    rw [valuesOf_spec _ hs, merged s hs]
  · refine List.filterMap_eq_nil_iff.mpr fun s hs => ?_
    rw [merged s hs]

/-! ## Texts -/

/-- The numbers among the values are read back exactly. -/
def Values.Exact (values : Values) : Prop := ∀ s ∈ specs, ReadsExactly (values s.group s.key)

theorem mem_atoms_groupOf {values : Values} {group : String} {a : Json} :
    a ∈ (groupOf values group).atoms ↔
      ∃ k ∈ keysOf group, a = .str k ∨ a = .str "value" ∨ a ∈ (values group k).atoms := by
  rw [groupOf, Json.atoms, Json.mem_memberAtoms]
  simp [leaf, Json.atoms, Json.memberAtoms]

theorem mem_atoms_settingsOf {values : Values} {a : Json} :
    a ∈ (settingsOf values).atoms ↔ ∃ g ∈ groups, a = .str g ∨ a ∈ (groupOf values g).atoms := by
  rw [settingsOf, Json.atoms, Json.mem_memberAtoms]
  simp

theorem Values.Sound.exact {values : Values} (sound : values.Sound)
    (h : ∀ a ∈ (settingsOf values).atoms, ReadsExactly a) : values.Exact := by
  intro s hs
  have atom := (sound s hs).isAtom.1
  have within : values s.group s.key ∈ (groupOf values s.group).atoms :=
    mem_atoms_groupOf.mpr ⟨s.key, key_mem hs, .inr (.inr (by simp [atom]))⟩
  exact h _ (mem_atoms_settingsOf.mpr ⟨s.group, group_mem hs, .inr within⟩)

theorem Values.Sound.readsExactly_atoms {values : Values} (sound : values.Sound)
    (precise : values.Exact) : ∀ a ∈ (settingsOf values).atoms, ReadsExactly a := by
  intro a ha
  obtain ⟨g, -, rfl | within⟩ := mem_atoms_settingsOf.mp ha
  · exact trivial
  obtain ⟨k, hk, rfl | rfl | inside⟩ := mem_atoms_groupOf.mp within
  · exact trivial
  · exact trivial
  · obtain ⟨s, hs, rfl, rfl⟩ := exists_of_mem_keysOf hk
    rw [(sound s hs).isAtom.1, List.mem_singleton] at inside
    exact inside ▸ precise s hs

theorem readsBack_names :
    (∀ g ∈ groups, Json.ReadsBack (.str g)) ∧ (∀ s ∈ specs, Json.ReadsBack (.str s.key)) ∧
      Json.ReadsBack (.str "value") := by
  refine ⟨?_, ?_, rfl⟩
  · simp only [groups, List.forall_mem_cons]
    exact ⟨rfl, rfl, rfl, by simp⟩
  · simp only [specs, List.forall_mem_cons]
    exact ⟨rfl, rfl, rfl, rfl, rfl, rfl, rfl, rfl, by simp⟩

namespace Values.Sound

variable {values : Values} (sound : values.Sound) (precise : values.Exact)

include sound precise

theorem readsBack_atoms : ∀ a ∈ (settingsOf values).atoms, Json.ReadsBack a := by
  obtain ⟨ofGroup, ofKey, word⟩ := readsBack_names
  intro a ha
  obtain ⟨g, hg, rfl | within⟩ := mem_atoms_settingsOf.mp ha
  · exact ofGroup g hg
  obtain ⟨k, hk, named⟩ := mem_atoms_groupOf.mp within
  obtain ⟨s, hs, rfl, rfl⟩ := exists_of_mem_keysOf hk
  obtain rfl | rfl | inside := named
  · exact ofKey s hs
  · exact word
  · rw [(sound s hs).isAtom.1, List.mem_singleton] at inside
    exact inside ▸ (sound s hs).readsBack (precise s hs)

omit precise in
theorem hasDistinctKeys : (settingsOf values).HasDistinctKeys := by
  have names : (groups.map fun g => (g, groupOf values g)).map Prod.fst = groups := by
    rw [List.map_map]
    exact List.map_id _
  refine ⟨(congrArg List.Nodup names).mpr groups_nodup, Json.membersHaveDistinctKeys fun m hm => ?_⟩
  obtain ⟨g, -, rfl⟩ := List.mem_map.mp hm
  have keys : ((keysOf g).map fun k => (k, leaf (values g k))).map Prod.fst = keysOf g := by
    rw [List.map_map]
    exact List.map_id _
  refine ⟨(congrArg List.Nodup keys).mpr (keysOf_nodup g), Json.membersHaveDistinctKeys fun m hm => ?_⟩
  obtain ⟨k, hk, rfl⟩ := List.mem_map.mp hm
  obtain ⟨s, hs, rfl, rfl⟩ := exists_of_mem_keysOf hk
  exact ⟨List.nodup_singleton _, (sound s hs).isAtom.2.1, trivial⟩

omit precise in
theorem depth_le : (settingsOf values).depth ≤ 3 := by
  refine Nat.succ_le_succ (Json.membersDepth_le fun m hm => ?_)
  obtain ⟨g, -, rfl⟩ := List.mem_map.mp hm
  refine Nat.succ_le_succ (Json.membersDepth_le fun m hm => ?_)
  obtain ⟨k, hk, rfl⟩ := List.mem_map.mp hm
  obtain ⟨s, hs, rfl, rfl⟩ := exists_of_mem_keysOf hk
  have flat := (sound s hs).isAtom.2.2
  simp [leaf, Json.depth, Json.membersDepth, flat]

/-- Settings are read back from their text. -/
theorem parse_write (layout : Json.Layout) :
    Json.parse ((settingsOf values).write layout) = .ok (settingsOf values) := by
  have limit : 3 ≤ Json.nestingLimit := by decide
  exact Json.parse_write layout _ (sound.readsBack_atoms precise) sound.hasDistinctKeys
    (sound.depth_le.trans limit)

theorem hasLong_eq_false : (settingsOf values).hasLong = false :=
  Json.hasLong_eq_false _ (sound.readsBack_atoms precise)

end Values.Sound

/-! ## What values are loaded as -/

/-- What a value of an option is loaded as: the whole number of milliseconds that is the default is
loaded as a real. -/
def loadedAs (s : Spec) (value : Json) : Json :=
  match s.check, value with
  | .positive, .int n => .real (Double.ofInt n)
  | _, _ => value

/-- What the values of settings are loaded as. -/
def Values.loaded (values : Values) : Values := valuesOf fun s => loadedAs s (values s.group s.key)

namespace Values.Reached

variable {values : Values} (h : values.Reached)

include h

theorem loaded_cases {s : Spec} (hs : s ∈ specs) :
    (s.check = .positive ∧ values s.group s.key = .int 16 ∧ values.loaded s.group s.key = .real 16.0) ∨
      values.loaded s.group s.key = values s.group s.key ∧
        (s.check = .positive → ∀ n, values s.group s.key ≠ .int n) := by
  have sixteen : Double.ofInt 16 = 16.0 := by decide
  have whole := h.whole s hs
  rw [loaded, valuesOf_spec _ hs]
  generalize values s.group s.key = value at whole ⊢
  unfold loadedAs
  split
  next n positive =>
    obtain rfl := whole positive n rfl
    exact .inl ⟨positive, rfl, by rw [sixteen]⟩
  next other =>
    refine .inr ⟨rfl, fun positive n is => ?_⟩
    exact other n positive is

variable (precise : values.Exact)

include precise

theorem accept_loaded {s : Spec} (hs : s ∈ specs) :
    s.check.accept (values s.group s.key) = .ok (values.loaded s.group s.key) := by
  obtain ⟨positive, sixteen, becomes⟩ | ⟨same, whole⟩ := h.loaded_cases hs
  · rw [positive, sixteen, becomes, accept_sixteen]
  · rw [same, Check.accept_of_admits (h.sound s hs) (precise s hs) whole]

theorem sound_loaded : values.loaded.Sound := fun _ hs =>
  Check.admits_of_accept (h.accept_loaded precise hs)

theorem exact_loaded : values.loaded.Exact := by
  intro s hs
  obtain ⟨-, -, becomes⟩ | ⟨same, -⟩ := h.loaded_cases hs
  · exact becomes ▸ readsExactly_sixteen
  · exact same ▸ precise s hs

/-- What has been loaded is taken as itself. -/
theorem accept_loaded_loaded {s : Spec} (hs : s ∈ specs) :
    s.check.accept (values.loaded s.group s.key) = .ok (values.loaded s.group s.key) := by
  refine Check.accept_of_admits (h.sound_loaded precise s hs) (h.exact_loaded precise s hs) ?_
  obtain ⟨-, -, becomes⟩ | ⟨same, whole⟩ := h.loaded_cases hs
  · rw [becomes]
    simp
  · rwa [same]

end Values.Reached

end Settings

end PathStudio
