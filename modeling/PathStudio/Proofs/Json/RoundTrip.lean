import PathStudio.Proofs.Json.Locality
import PathStudio.Proofs.Json.Written

/-!
# Written values are read back

A value is read back from its text, in whatever layout, if each number and each
text in it is. Objects have to have different keys, as the reader keeps one value
for a key, and no more arrays and objects may be open at once than the reader
opens.
-/

namespace PathStudio.Json

open Text

/-! ## What has to be read back -/

mutual

/-- The numbers and texts in a value, keys included. -/
def atoms : Json → List Json
  | .null | .bool _ => []
  | .int n => [.int n]
  | .real x => [.real x]
  | .str s => [.str s]
  | .arr items => itemAtoms items
  | .obj members => memberAtoms members

def itemAtoms : List Json → List Json
  | [] => []
  | value :: rest => atoms value ++ itemAtoms rest

def memberAtoms : List (String × Json) → List Json
  | [] => []
  | (key, value) :: rest => .str key :: (atoms value ++ memberAtoms rest)

end

mutual

/-- How many arrays and objects of a value are open at once. -/
def depth : Json → Nat
  | .null | .bool _ | .int _ | .real _ | .str _ => 0
  | .arr items => itemsDepth items + 1
  | .obj members => membersDepth members + 1

def itemsDepth : List Json → Nat
  | [] => 0
  | value :: rest => max (depth value) (itemsDepth rest)

def membersDepth : List (String × Json) → Nat
  | [] => 0
  | (_, value) :: rest => max (depth value) (membersDepth rest)

end

mutual

/-- Each object of a value has different keys. -/
def HasDistinctKeys : Json → Prop
  | .null | .bool _ | .int _ | .real _ | .str _ => True
  | .arr items => ItemsHaveDistinctKeys items
  | .obj members => (members.map Prod.fst).Nodup ∧ MembersHaveDistinctKeys members

def ItemsHaveDistinctKeys : List Json → Prop
  | [] => True
  | value :: rest => HasDistinctKeys value ∧ ItemsHaveDistinctKeys rest

def MembersHaveDistinctKeys : List (String × Json) → Prop
  | [] => True
  | (_, value) :: rest => HasDistinctKeys value ∧ MembersHaveDistinctKeys rest

end

/-- A value that its own text is read as. -/
def ReadsBack (value : Json) : Prop := parse (value.write .oneLine) = .ok value

/-! ## Members -/

theorem insert_of_not_mem {key : String} {members : List (String × Json)}
    (h : key ∉ members.map Prod.fst) (value : Json) :
    insert key value members = members ++ [(key, value)] := by
  induction members with
  | nil => rfl
  | cons m rest ih =>
    rw [List.map_cons, List.mem_cons, not_or] at h
    rw [insert, if_neg (Ne.symm h.1), ih h.2]
    rfl

/-- Members with different keys are kept as they are. -/
theorem collectMembers_of_nodup {members : List (String × Json)}
    (h : (members.map Prod.fst).Nodup) : collectMembers members = members := by
  have kept : ∀ rest done : List (String × Json), ((done ++ rest).map Prod.fst).Nodup →
      rest.foldl (fun all m => insert m.1 m.2 all) done = done ++ rest := by
    intro rest
    induction rest with
    | nil => simp
    | cons m rest ih =>
      intro done distinct
      have fresh : m.1 ∉ done.map Prod.fst := by
        rw [List.map_append, List.nodup_append] at distinct
        exact fun there => distinct.2.2 _ there _ (by simp) rfl
      rw [List.foldl_cons, insert_of_not_mem fresh, ih _ (by simpa using distinct)]
      simp
  exact kept members [] (by simpa using h)

/-! ## Results of the reader -/

theorem read_bind_eq_ok {α β : Type} {x : Except Misread α} {f : α → Except Misread β} {b : β} :
    x >>= f = .ok b ↔ ∃ a, x = .ok a ∧ f a = .ok b := by
  cases x with
  | error e => simp [bind, Except.bind]
  | ok a => simp [bind, Except.bind]

theorem exists_of_readDocument {s : List Char} {value : Json} (h : readDocument s = .ok value) :
    ∃ rest, readValue nestingLimit (s.length + 1) (skipGap s) = .ok (value, rest) ∧
      skipGap rest = [] := by
  rw [readDocument] at h
  split at h
  · cases h
  · obtain ⟨⟨read, rest⟩, first, h⟩ := read_bind_eq_ok.mp h
    dsimp only at h
    split at h
    next finished =>
      cases h
      exact ⟨rest, first, List.isEmpty_iff.mp finished⟩
    next => cases h

theorem exists_of_readsBack {value : Json} (h : ReadsBack value) :
    ∃ fuel rest, readValue nestingLimit (fuel + 1) (skipGap (writeAt .oneLine 0 value)) =
      .ok (value, rest) ∧ skipGap rest = [] := by
  rw [ReadsBack, parse] at h
  cases read : readDocument (value.write .oneLine).toList with
  | error m =>
    rw [read] at h
    cases h
  | ok v =>
    rw [read] at h
    cases h
    obtain ⟨rest, first, finished⟩ := exists_of_readDocument read
    rw [write, String.toList_ofList] at first
    exact ⟨_, rest, first, finished⟩

/-- Items that are read are read as a list. -/
theorem exists_of_readItems {levels fuel : Nat} {done : List Json} {s rest : List Char} {value : Json}
    (h : readItems levels fuel done s = .ok (value, rest)) : ∃ items, value = .arr items := by
  induction fuel generalizing done s with
  | zero => cases h
  | succ fuel ih =>
    obtain ⟨⟨item, after⟩, -, h⟩ := read_bind_eq_ok.mp h
    dsimp only at h
    split at h
    · cases h
      exact ⟨_, rfl⟩
    · exact ih h
    · cases h

/-- Members that are read are read as an object. -/
theorem exists_of_readMembers {levels fuel : Nat} {done : List (String × Json)} {s rest : List Char}
    {value : Json} (h : readMembers levels fuel done s = .ok (value, rest)) :
    ∃ members, value = .obj members := by
  induction fuel generalizing done s with
  | zero => cases h
  | succ fuel ih =>
    rw [readMembers.eq_def] at h
    dsimp only at h
    split at h
    · obtain ⟨⟨key, after⟩, -, h⟩ := read_bind_eq_ok.mp h
      dsimp only at h
      split at h
      · obtain ⟨⟨item, after⟩, -, h⟩ := read_bind_eq_ok.mp h
        dsimp only at h
        split at h
        · cases h
          exact ⟨_, rfl⟩
        · exact ih h
        · cases h
      · cases h
    · cases h

theorem readValue_of_head {c : Char} (quote : c ≠ '"') (brace : c ≠ '\x7b') (bracket : c ≠ '[')
    (levels fuel : Nat) (s : List Char) :
    readValue levels (fuel + 1) (c :: s) = readAtom (c :: s) := by
  rw [readValue.eq_def]
  dsimp only
  split
  next heq => exact absurd (List.cons.inj heq).1 quote
  next heq => exact absurd (List.cons.inj heq).1 brace
  next heq => exact absurd (List.cons.inj heq).1 bracket
  next => rfl

/-- A value that is no text, list or object is read as a number or a word, and so is whatever begins
with the same character. -/
theorem readAtom_of_readValue {levels fuel : Nat} {s rest : List Char} {value : Json}
    (simple : ∀ text items members, value ≠ .str text ∧ value ≠ .arr items ∧ value ≠ .obj members)
    (h : readValue levels (fuel + 1) s = .ok (value, rest)) :
    readAtom s = .ok (value, rest) ∧ ∃ c tail, s = c :: tail ∧
      ∀ levels' fuel' t, readValue levels' (fuel' + 1) (c :: t) = readAtom (c :: t) := by
  rw [readValue.eq_def] at h
  dsimp only at h
  split at h
  · obtain ⟨⟨text, after⟩, -, h⟩ := read_bind_eq_ok.mp h
    cases h
    exact absurd rfl (simple text [] []).1
  · split at h
    · cases h
    · split at h
      · cases h
        exact absurd rfl (simple "" [] []).2.2
      · obtain ⟨members, rfl⟩ := exists_of_readMembers h
        exact absurd rfl (simple "" [] members).2.2
  · split at h
    · cases h
    · split at h
      · cases h
        exact absurd rfl (simple "" [] []).2.1
      · obtain ⟨items, rfl⟩ := exists_of_readItems h
        exact absurd rfl (simple "" items []).2.1
  next quote brace bracket =>
    cases s with
    | nil => cases h
    | cons c tail =>
      refine ⟨h, c, tail, rfl, fun levels' fuel' t => readValue_of_head ?_ ?_ ?_ levels' fuel' t⟩
      · rintro rfl
        exact quote tail rfl
      · rintro rfl
        exact brace tail rfl
      · rintro rfl
        exact bracket tail rfl

section Steps

variable {levels fuel : Nat} {s : List Char}

theorem readValue_quote :
    readValue levels (fuel + 1) ('"' :: s) =
      (readText (s.length + 1) (s.length + 1) [] s).map fun r => (.str r.1, r.2) := by
  have step : readValue levels (fuel + 1) ('"' :: s) =
      Except.bind (readText (s.length + 1) (s.length + 1) [] s) fun r => .ok (.str r.1, r.2) := rfl
  rw [step]
  cases readText (s.length + 1) (s.length + 1) [] s <;> rfl

theorem readValue_bracket {c : Char} {inner : List Char} (h : skipGap s = c :: inner) (other : c ≠ ']') :
    readValue (levels + 1) (fuel + 1) ('[' :: s) = readItems levels fuel [] (c :: inner) := by
  rw [readValue, if_neg (Nat.succ_ne_zero levels), h]
  split
  next heq => exact absurd (List.cons.inj heq).1 other
  next => rfl

theorem readValue_brace {c : Char} {inner : List Char} (h : skipGap s = c :: inner)
    (other : c ≠ '\x7d') :
    readValue (levels + 1) (fuel + 1) ('\x7b' :: s) = readMembers levels fuel [] (c :: inner) := by
  rw [readValue, if_neg (Nat.succ_ne_zero levels), h]
  split
  next heq => exact absurd (List.cons.inj heq).1 other
  next => rfl

variable {value : Json} {rest after : List Char}

theorem readItems_close {done : List Json} (h : readValue levels fuel s = .ok (value, rest))
    (close : skipGap rest = ']' :: after) :
    readItems levels (fuel + 1) done s = .ok (.arr (value :: done).reverse, after) := by
  simp only [readItems, h, bind, Except.bind, close]

theorem readItems_comma {done : List Json} (h : readValue levels fuel s = .ok (value, rest))
    (comma : skipGap rest = ',' :: after) :
    readItems levels (fuel + 1) done s = readItems levels fuel (value :: done) (skipGap after) := by
  simp only [readItems, h, bind, Except.bind, comma]

section Member

variable {key : String} {inner last : List Char} {done : List (String × Json)}
  (text : readText (s.length + 1) (s.length + 1) [] s = .ok (key, inner))
  (colon : skipGap inner = ':' :: after)
  (h : readValue levels fuel (skipGap after) = .ok (value, rest))

include text colon h

theorem readMembers_close (close : skipGap rest = '\x7d' :: last) :
    readMembers levels (fuel + 1) done ('"' :: s) =
      .ok (.obj (collectMembers ((key, value) :: done).reverse), last) := by
  rw [readMembers.eq_def]
  simp only [List.length_cons, text, bind, Except.bind, colon, h, close]

theorem readMembers_comma (comma : skipGap rest = ',' :: last) :
    readMembers levels (fuel + 1) done ('"' :: s) =
      readMembers levels fuel ((key, value) :: done) (skipGap last) := by
  rw [readMembers.eq_def]
  simp only [List.length_cons, text, bind, Except.bind, colon, h, comma]

end Member

end Steps

/-! ## Reading what is written -/

/-- A text is read as a value, up to gaps, whatever text follows. -/
def ReadsAs (levels fuel : Nat) (s : List Char) (value : Json) : Prop :=
  ∀ more, Separate more → ∃ rest,
    readValue levels fuel (skipGap (s ++ more)) = .ok (value, rest) ∧ skipGap rest = skipGap more

/-- A number that reads back is read in any place. -/
theorem readsAs_of_readsBack {value : Json} (h : ReadsBack value)
    (simple : ∀ text items members, value ≠ .str text ∧ value ≠ .arr items ∧ value ≠ .obj members)
    (levels fuel : Nat) : ReadsAs levels (fuel + 1) (writeAt .oneLine 0 value) value := by
  obtain ⟨fuel', rest, read, finished⟩ := exists_of_readsBack h
  obtain ⟨first, c, tail, begins, atom⟩ := readAtom_of_readValue simple read
  intro more separate
  rw [skipGap_append_of_cons begins, List.cons_append, atom, ← List.cons_append, ← begins,
    readAtom_append separate first]
  exact ⟨_, rfl, skipGap_append_of_nil finished more⟩

theorem skipGap_of_not_gap {c : Char} (h : isGap c = false) (s : List Char) :
    skipGap (c :: s) = c :: s := List.dropWhile_cons_of_neg (by simp [h])

/-- A text that reads back is read after its opening quote in any place. -/
theorem readText_of_readsBack {text : String} (h : ReadsBack (.str text)) (more : List Char) :
    ∃ body rest, writeText text = '"' :: body ∧ skipGap rest = skipGap more ∧
      ∀ opening, readText opening ((body ++ more).length + 1) [] (body ++ more) = .ok (text, rest) := by
  obtain ⟨fuel, rest, read, finished⟩ := exists_of_readsBack h
  rw [writeAt, writeText, skipGap_of_not_gap (by decide), readValue_quote] at read
  refine ⟨_, rest ++ more, rfl, skipGap_append_of_nil finished more, fun opening => ?_⟩
  cases first : readText _ _ [] (text.toList.flatMap writeChar ++ ['"']) with
  | error e =>
    rw [first] at read
    cases read
  | ok found =>
    rw [first] at read
    cases read
    exact readText_append first more opening (by simp)

theorem readsAs_text {text : String} (h : ReadsBack (.str text)) (levels fuel : Nat) :
    ReadsAs levels (fuel + 1) (writeText text) (.str text) := by
  intro more _
  obtain ⟨body, rest, begins, after, read⟩ := readText_of_readsBack h more
  refine ⟨rest, ?_, after⟩
  rw [begins, List.cons_append, skipGap_of_not_gap (by decide), readValue_quote, read]
  rfl

theorem gap_lineBreak (layout : Layout) (depth : Nat) : ∀ c ∈ layout.lineBreak depth, isGap c = true := by
  cases layout with
  | oneLine => simp [Layout.lineBreak]
  | indented step =>
    intro c hc
    obtain rfl | hc := List.mem_cons.mp hc
    · rfl
    · rw [List.eq_of_mem_replicate hc]
      rfl

/-- What follows the last part of a list or an object. -/
theorem closing (close : Char) (gap : isGap close = false) (separates : close ∈ separators)
    (layout : Layout) (depth : Nat) (more : List Char) :
    skipGap (layout.lineBreak depth ++ close :: more) = close :: more ∧
      Separate (layout.lineBreak depth ++ close :: more) := by
  constructor
  · rw [skipGap_append_of_gap (gap_lineBreak layout depth), skipGap_of_not_gap gap]
  · cases layout with
    | oneLine => exact .of_cons separates
    | indented step => exact .of_cons (by decide)

theorem readsBack_word {value : Json} (h : value = .null ∨ ∃ b, value = .bool b) : ReadsBack value := by
  obtain rfl | ⟨b, rfl⟩ := h
  · rfl
  · cases b <;> rfl

/-- No value is read at the end of a text or where a list is closed. -/
theorem exists_head_of_readValue {levels fuel : Nat} {s : List Char} {r : Json × List Char}
    (h : readValue levels fuel s = .ok r) : ∃ c inner, s = c :: inner ∧ c ≠ ']' := by
  cases fuel with
  | zero => cases h
  | succ fuel =>
    cases s with
    | nil =>
      rw [readValue.eq_def] at h
      cases h
    | cons c inner =>
      refine ⟨c, inner, rfl, ?_⟩
      rintro rfl
      have none : readWord? (']' :: inner) = none := rfl
      rw [readValue_of_head (by decide) (by decide) (by decide), readAtom, ← readWord?, none] at h
      cases h

theorem exists_head_of_readItems {levels fuel : Nat} {done : List Json} {s : List Char}
    {r : Json × List Char} (h : readItems levels fuel done s = .ok r) :
    ∃ c inner, s = c :: inner ∧ c ≠ ']' := by
  cases fuel with
  | zero => cases h
  | succ fuel =>
    obtain ⟨first, read, -⟩ := read_bind_eq_ok.mp h
    exact exists_head_of_readValue read

variable (layout : Layout)

theorem exists_colon : ∃ gap, layout.colon = ':' :: gap ∧ ∀ c ∈ gap, isGap c = true := by
  cases layout with
  | oneLine => exact ⟨[], rfl, by simp⟩
  | indented step => exact ⟨[' '], rfl, by simp [isGap]⟩

/-- A member is read up to what follows its value: the end of the object or another member. -/
theorem readMembers_member {levels fuel : Nat} {key : String} {value : Json} {s : List Char}
    (text : ReadsBack (.str key)) (read : ReadsAs levels fuel s value) (done : List (String × Json))
    {more : List Char} (separate : Separate more) (last : List Char) :
    (skipGap more = '\x7d' :: last →
      readMembers levels (fuel + 1) done (writeText key ++ layout.colon ++ s ++ more) =
        .ok (.obj (collectMembers ((key, value) :: done).reverse), last)) ∧
    (skipGap more = ',' :: last →
      readMembers levels (fuel + 1) done (writeText key ++ layout.colon ++ s ++ more) =
        readMembers levels fuel ((key, value) :: done) (skipGap last)) := by
  obtain ⟨gap, colon, blank⟩ := exists_colon layout
  obtain ⟨body, inner, begins, gone, name⟩ := readText_of_readsBack text (':' :: (gap ++ (s ++ more)))
  obtain ⟨rest, found, left⟩ := read more separate
  rw [← skipGap_append_of_gap blank] at found
  have shape : writeText key ++ layout.colon ++ s ++ more =
      '"' :: (body ++ ':' :: (gap ++ (s ++ more))) := by
    rw [begins, colon]
    simp
  have separator := gone.trans (skipGap_of_not_gap (by decide) _)
  rw [shape, ← left]
  exact ⟨readMembers_close (name _) separator found, readMembers_comma (name _) separator found⟩

theorem exists_writeMembers (d : Nat) (m : String × Json) (rest : List (String × Json)) :
    ∃ inner, writeMembers layout d (m :: rest) = '"' :: inner := by
  cases rest <;> exact ⟨_, rfl⟩

mutual

/-- A value that may be read back is read from its text in any place. -/
theorem readsAs_writeAt {levels fuel : Nat} (d : Nat) (value : Json)
    (reads : ∀ a ∈ value.atoms, ReadsBack a) (keys : value.HasDistinctKeys)
    (deep : value.depth ≤ levels) (enough : (writeAt layout d value).length < fuel) :
    ReadsAs levels fuel (writeAt layout d value) value := by
  obtain ⟨fuel, rfl⟩ : ∃ n, fuel = n + 1 := ⟨fuel - 1, by omega⟩
  match value with
  | .null => exact readsAs_of_readsBack (readsBack_word (.inl rfl)) (by simp) levels fuel
  | .bool b =>
    have word := readsAs_of_readsBack (readsBack_word (.inr ⟨b, rfl⟩)) (by simp) levels fuel
    cases b <;> exact word
  | .int n =>
    have back : ReadsBack (.int n) := reads _ (List.mem_singleton_self _)
    exact readsAs_of_readsBack back (by simp) levels fuel
  | .real x =>
    have back : ReadsBack (.real x) := reads _ (List.mem_singleton_self _)
    exact readsAs_of_readsBack back (by simp) levels fuel
  | .str s => exact readsAs_text (reads _ (List.mem_singleton_self _)) levels fuel
  | .arr [] | .obj [] =>
    intro more _
    obtain ⟨levels, rfl⟩ : ∃ n, levels = n + 1 := ⟨levels - 1, by simp [depth] at deep; omega⟩
    exact ⟨more, rfl, rfl⟩
  | .arr (v :: rest) =>
    intro more separate
    simp only [depth] at deep
    obtain ⟨levels, rfl⟩ : ∃ n, levels = n + 1 := ⟨levels - 1, by omega⟩
    simp only [writeAt, List.length_cons, List.length_append, List.length_nil] at enough
    have room : (writeItems layout (d + 1) (v :: rest)).length + 1 < fuel := by omega
    obtain ⟨close, apart⟩ := closing ']' (by decide) (by decide) layout d more
    have items := readItems_writeItems (d + 1) [] (v :: rest) (by simp) reads keys
      (Nat.le_of_succ_le_succ deep) room close apart
    obtain ⟨c, inner, begins, other⟩ := exists_head_of_readItems items
    have shape : writeAt layout d (.arr (v :: rest)) ++ more =
        '[' :: (layout.lineBreak (d + 1) ++ (writeItems layout (d + 1) (v :: rest) ++
          (layout.lineBreak d ++ ']' :: more))) := by simp [writeAt]
    rw [shape, skipGap_of_not_gap (by decide), readValue_bracket
      ((skipGap_append_of_gap (gap_lineBreak layout _) _).trans begins) other, ← begins]
    exact ⟨more, items, rfl⟩
  | .obj (m :: rest) =>
    intro more separate
    simp only [depth] at deep
    obtain ⟨levels, rfl⟩ : ∃ n, levels = n + 1 := ⟨levels - 1, by omega⟩
    simp only [writeAt, List.length_cons, List.length_append, List.length_nil] at enough
    have room : (writeMembers layout (d + 1) (m :: rest)).length + 1 < fuel := by omega
    obtain ⟨close, apart⟩ := closing '\x7d' (by decide) (by decide) layout d more
    have members := readMembers_writeMembers (d + 1) [] (m :: rest) (by simp) reads keys.2
      (Nat.le_of_succ_le_succ deep) room close apart
    obtain ⟨inner, begins⟩ := exists_writeMembers layout (d + 1) m rest
    have shape : writeAt layout d (.obj (m :: rest)) ++ more =
        '\x7b' :: (layout.lineBreak (d + 1) ++ (writeMembers layout (d + 1) (m :: rest) ++
          (layout.lineBreak d ++ '\x7d' :: more))) := by simp [writeAt]
    have first : skipGap (layout.lineBreak (d + 1) ++ (writeMembers layout (d + 1) (m :: rest) ++
        (layout.lineBreak d ++ '\x7d' :: more))) =
          '"' :: (inner ++ (layout.lineBreak d ++ '\x7d' :: more)) := by
      rw [skipGap_append_of_gap (gap_lineBreak layout _), begins, List.cons_append,
        skipGap_of_not_gap (by decide)]
    rw [begins, List.cons_append, List.reverse_nil, List.nil_append,
      collectMembers_of_nodup keys.1] at members
    rw [shape, skipGap_of_not_gap (by decide), readValue_brace first (by decide)]
    exact ⟨more, members, rfl⟩

theorem readItems_writeItems {levels fuel : Nat} (d : Nat) (done items : List Json)
    (nonempty : items ≠ []) (reads : ∀ a ∈ itemAtoms items, ReadsBack a)
    (keys : ItemsHaveDistinctKeys items) (deep : itemsDepth items ≤ levels)
    (enough : (writeItems layout d items).length + 1 < fuel) {more after : List Char}
    (close : skipGap more = ']' :: after) (separate : Separate more) :
    readItems levels fuel done (skipGap (writeItems layout d items ++ more)) =
      .ok (.arr (done.reverse ++ items), after) := by
  obtain ⟨fuel, rfl⟩ : ∃ n, fuel = n + 1 := ⟨fuel - 1, by omega⟩
  match items with
  | [] => exact absurd rfl nonempty
  | [v] =>
    simp only [itemAtoms, List.append_nil, ItemsHaveDistinctKeys, and_true, itemsDepth,
      Nat.max_zero, writeItems] at reads keys deep enough ⊢
    have room : (writeAt layout d v).length < fuel := by omega
    obtain ⟨rest, read, gone⟩ := readsAs_writeAt d v reads keys deep room more separate
    rw [readItems_close read (gone.trans close), List.reverse_cons]
  | v :: w :: others =>
    rw [itemAtoms, List.forall_mem_append] at reads
    rw [ItemsHaveDistinctKeys] at keys
    rw [itemsDepth, Nat.max_le] at deep
    simp only [writeItems, List.length_append, List.length_cons] at enough
    have room : (writeAt layout d v).length < fuel := by omega
    have room' : (writeItems layout d (w :: others)).length + 1 < fuel := by omega
    have later := readItems_writeItems d (v :: done) (w :: others) (by simp) reads.2 keys.2 deep.2
      room' close separate
    have shape : writeItems layout d (v :: w :: others) ++ more = writeAt layout d v ++
        ',' :: (layout.lineBreak d ++ (writeItems layout d (w :: others) ++ more)) := by
      simp [writeItems]
    obtain ⟨rest, read, gone⟩ := readsAs_writeAt d v reads.1 keys.1 deep.1 room
      (',' :: (layout.lineBreak d ++ (writeItems layout d (w :: others) ++ more)))
      (.of_cons (by decide))
    rw [shape, readItems_comma read (gone.trans (skipGap_of_not_gap (by decide) _)),
      skipGap_append_of_gap (gap_lineBreak layout d), later, List.reverse_cons, List.append_assoc]
    rfl

theorem readMembers_writeMembers {levels fuel : Nat} (d : Nat) (done members : List (String × Json))
    (nonempty : members ≠ []) (reads : ∀ a ∈ memberAtoms members, ReadsBack a)
    (keys : MembersHaveDistinctKeys members) (deep : membersDepth members ≤ levels)
    (enough : (writeMembers layout d members).length + 1 < fuel) {more after : List Char}
    (close : skipGap more = '\x7d' :: after) (separate : Separate more) :
    readMembers levels fuel done (writeMembers layout d members ++ more) =
      .ok (.obj (collectMembers (done.reverse ++ members)), after) := by
  obtain ⟨fuel, rfl⟩ : ∃ n, fuel = n + 1 := ⟨fuel - 1, by omega⟩
  match members with
  | [] => exact absurd rfl nonempty
  | [(key, v)] =>
    simp only [memberAtoms, List.append_nil, MembersHaveDistinctKeys, and_true, membersDepth,
      Nat.max_zero, List.forall_mem_cons] at reads keys deep
    simp only [writeMembers, List.length_append] at enough ⊢
    have room : (writeAt layout d v).length < fuel := by omega
    have member := readMembers_member layout reads.1 (readsAs_writeAt d v reads.2 keys deep room) done
      separate after
    rw [member.1 close, List.reverse_cons]
  | (key, v) :: m :: others =>
    rw [memberAtoms, List.forall_mem_cons, List.forall_mem_append] at reads
    rw [MembersHaveDistinctKeys] at keys
    rw [membersDepth, Nat.max_le] at deep
    simp only [writeMembers, List.length_append, List.length_cons] at enough
    have room : (writeAt layout d v).length < fuel := by omega
    have room' : (writeMembers layout d (m :: others)).length + 1 < fuel := by omega
    have later := readMembers_writeMembers d ((key, v) :: done) (m :: others) (by simp) reads.2.2
      keys.2 deep.2 room' close separate
    obtain ⟨inner, begins⟩ := exists_writeMembers layout d m others
    have shape : writeMembers layout d ((key, v) :: m :: others) ++ more =
        writeText key ++ layout.colon ++ writeAt layout d v ++
          ',' :: (layout.lineBreak d ++ (writeMembers layout d (m :: others) ++ more)) := by
      simp [writeMembers]
    have next : skipGap (layout.lineBreak d ++ (writeMembers layout d (m :: others) ++ more)) =
        writeMembers layout d (m :: others) ++ more := by
      rw [skipGap_append_of_gap (gap_lineBreak layout d), begins, List.cons_append,
        skipGap_of_not_gap (by decide)]
    have value := readsAs_writeAt d v reads.2.1 keys.1 deep.1 room
    rw [shape, (readMembers_member layout reads.1 value done (.of_cons (by decide)) _).2
      (skipGap_of_not_gap (by decide) _), next, later, List.reverse_cons, List.append_assoc]
    rfl

end

/-- Whatever the layout, a value is read back from its text if its numbers and texts are. -/
theorem parse_write (value : Json) (reads : ∀ a ∈ value.atoms, ReadsBack a)
    (keys : value.HasDistinctKeys) (deep : value.depth ≤ nestingLimit) :
    parse (value.write layout) = .ok value := by
  obtain ⟨rest, read, gone⟩ := readsAs_writeAt layout 0 value reads keys deep
    (Nat.lt_succ_self _) [] (by simp [Separate])
  rw [List.append_nil] at read
  have plain : (writeAt layout 0 value).head? ≠ some (Char.ofNat 0xFEFF) := by
    intro mark
    have written := written_writeAt layout 0 value _ (List.mem_of_head? mark)
    exact absurd written (by decide)
  have document : readDocument (writeAt layout 0 value) = .ok value := by
    rw [readDocument, if_neg plain]
    refine read_bind_eq_ok.mpr ⟨_, read, ?_⟩
    dsimp only
    rw [gone]
    rfl
  rw [parse, write, String.toList_ofList, document]

end PathStudio.Json
