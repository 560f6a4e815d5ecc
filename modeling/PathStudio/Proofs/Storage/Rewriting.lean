import PathStudio.Proofs.Storage.Refusal

/-!
# Writing a file again

Where a file has been written it can be written again, with the folders on the way to it asked for
once more: a path has led through its folder part, so that part leads to a folder, and asking for a
folder that is there changes nothing.
-/

namespace PathStudio

/-- The front of a text takes no more bytes than the whole. -/
theorem Text.Utf8.size_le_append (s more : List Char) : size s ≤ size (s ++ more) := by
  have grows : ∀ (more : List Char) (bytes : Nat),
      bytes ≤ more.foldl (fun bytes c => bytes + charSize c) bytes := by
    intro more
    induction more with
    | nil => exact fun bytes => Nat.le_refl bytes
    | cons c rest ih => exact fun bytes => (Nat.le_add_right bytes _).trans (ih _)
  rw [size, size, List.foldl_append]
  exact grows more _

namespace Storage

open Change

variable {path : String} {f g : Folder} {p q : Place}

/-! ## The parts of a path -/

/-- The parts between slashes that are not empty. -/
def partsOf (s : List Char) : List (List Char) := (splitPath s).filter fun part => !part.isEmpty

theorem pathParts_eq (path : String) : pathParts path = (partsOf path.toList).map String.ofList := rfl

theorem splitPath_cons {c : Char} (h : c ≠ '/') (rest : List Char) :
    splitPath (c :: rest) =
      match splitPath rest with
      | [] => [[c]]
      | part :: more => (c :: part) :: more :=
  splitPath.eq_3 c rest h

theorem splitPath_ne_nil (s : List Char) : splitPath s ≠ [] := by
  match s with
  | [] => simp [splitPath]
  | c :: rest =>
    by_cases h : c = '/'
    · subst h
      simp [splitPath]
    · rw [splitPath_cons h]
      split <;> simp

theorem splitPath_append_slash (s rest : List Char) :
    splitPath (s ++ '/' :: rest) = splitPath s ++ splitPath rest := by
  induction s with
  | nil => rfl
  | cons c s ih =>
    by_cases h : c = '/'
    · subst h
      exact congrArg ([] :: ·) ih
    · rw [List.cons_append, splitPath_cons h, splitPath_cons h, ih]
      cases parts : splitPath s with
      | nil => exact absurd parts (splitPath_ne_nil s)
      | cons part more => rfl

theorem partsOf_append_slash (s rest : List Char) :
    partsOf (s ++ '/' :: rest) = partsOf s ++ partsOf rest := by
  rw [partsOf, splitPath_append_slash, List.filter_append]
  rfl

/-- A text without parts is all slashes. -/
theorem eq_slash_of_partsOf {s : List Char} (h : partsOf s = []) : ∀ c ∈ s, c = '/' := by
  induction s with
  | nil => simp
  | cons c s ih =>
    by_cases slash : c = '/'
    · subst slash
      exact List.forall_mem_cons.mpr ⟨rfl, ih h⟩
    · rw [partsOf, splitPath_cons slash] at h
      split at h
      · simp at h
      · simp at h

/-- Two texts with a slash between them, at the end of one or at the front of the other. -/
theorem partsOf_append {s rest : List Char}
    (h : s.getLast? = some '/' ∨ rest.head? = some '/') :
    partsOf (s ++ rest) = partsOf s ++ partsOf rest := by
  obtain last | first := h
  · obtain ⟨front, rfl⟩ := List.getLast?_eq_some_iff.mp last
    have ends : partsOf (front ++ ['/']) = partsOf front := by
      rw [partsOf_append_slash]
      exact List.append_nil _
    rw [ends, List.append_assoc]
    exact partsOf_append_slash front rest
  · obtain ⟨back, rfl⟩ := List.head?_eq_some_iff.mp first
    exact partsOf_append_slash s back

/-! ## The folder part of a path -/

/-- The front of a path up to its last slash, from the back. -/
def slashedFront (path : String) : List Char := path.toList.reverse.dropWhile (· ≠ '/')

/-- The last name of a path. -/
def lastName (path : String) : List Char := (path.toList.reverse.takeWhile (· ≠ '/')).reverse

theorem toList_eq_append_lastName (path : String) :
    path.toList = (slashedFront path).reverse ++ lastName path := by
  rw [lastName, ← List.reverse_append, slashedFront, List.takeWhile_append_dropWhile,
    List.reverse_reverse]

/-- The last name is there unless the path ends in a slash. -/
theorem exists_mem_lastName (slash : endsInSlash path = false) (some : path ≠ "") :
    ∃ c ∈ lastName path, c ≠ '/' := by
  cases back : path.toList.reverse with
  | nil => exact absurd (String.toList_eq_nil_iff.mp (List.reverse_eq_nil_iff.mp back)) some
  | cons c others =>
    have other : c ≠ '/' := by
      rintro rfl
      rw [endsInSlash, ← List.head?_reverse, back] at slash
      simp at slash
    refine ⟨c, ?_, other⟩
    rw [lastName, List.mem_reverse, back, List.takeWhile_cons_of_pos (by simpa using other)]
    exact List.mem_cons_self

theorem head?_slashedFront {c : Char} {rest : List Char} (h : slashedFront path = c :: rest) :
    c = '/' := by
  have stops := List.head?_dropWhile_not (fun c : Char => decide (c ≠ '/')) path.toList.reverse
  rw [← slashedFront, h] at stops
  simpa using stops

theorem toList_parentPath (path : String) :
    (parentPath path).toList =
      (if (slashedFront path).all (· = '/') then slashedFront path
        else (slashedFront path).dropWhile (· = '/')).reverse := by
  rw [parentPath, splitLast, String.toList_ofList]
  rfl

/-- The folder part of a path is all slashes or does not end in one. -/
theorem parentPath_cases (path : String) :
    (∀ c ∈ (parentPath path).toList, c = '/') ∨ endsInSlash (parentPath path) = false := by
  rw [endsInSlash, toList_parentPath]
  split
  next all =>
    left
    simpa using all
  next =>
    right
    have stops := List.head?_dropWhile_not (fun c : Char => decide (c = '/')) (slashedFront path)
    rw [List.getLast?_reverse]
    cases front : (slashedFront path).dropWhile (· = '/') with
    | nil => rfl
    | cons c rest =>
      rw [front] at stops
      simpa using stops

/-- A path that does not end in a slash has something after its folder part, and a slash between the
two. -/
theorem exists_parentPath_append (slash : endsInSlash path = false) (named : parentPath path ≠ "") :
    ∃ more, path.toList = (parentPath path).toList ++ more ∧
      ((parentPath path).toList.getLast? = some '/' ∨ more.head? = some '/') ∧
      partsOf more ≠ [] := by
  obtain ⟨c, rest, front⟩ : ∃ c rest, slashedFront path = c :: rest := by
    cases front : slashedFront path with
    | nil =>
      refine absurd ?_ named
      rw [← String.toList_inj, toList_parentPath, front]
      rfl
    | cons c rest => exact ⟨c, rest, rfl⟩
  obtain rfl := head?_slashedFront front
  have present : path ≠ "" := by
    rintro rfl
    exact named rfl
  have some {more : List Char} (within : lastName path <:+ more) : partsOf more ≠ [] := by
    intro none
    obtain ⟨c, hc, other⟩ := exists_mem_lastName slash present
    exact other (eq_slash_of_partsOf none c (within.mem hc))
  rw [toList_eq_append_lastName, toList_parentPath]
  split
  · refine ⟨lastName path, rfl, .inl ?_, some (List.suffix_refl _)⟩
    rw [front, List.getLast?_reverse]
    rfl
  · let slashes := (slashedFront path).takeWhile (· = '/')
    refine ⟨slashes.reverse ++ lastName path, ?_, .inr ?_, some (List.suffix_append ..)⟩
    · rw [← List.append_assoc]
      congr 1
      rw [← List.reverse_append, List.takeWhile_append_dropWhile]
    · have all : ∀ c ∈ slashes.reverse, c = '/' := by
        intro c hc
        simpa using List.mem_takeWhile_imp (List.mem_reverse.mp hc)
      cases first : slashes.reverse with
      | nil =>
        rw [List.reverse_eq_nil_iff] at first
        simp [slashes, front] at first
      | cons c rest =>
        rw [first] at all
        rw [all c (by simp)]
        rfl

/-! ## Ways -/

/-- A way leads through where its front leads. -/
theorem exists_of_walk_append {parts more : List String} (leads : f.walk p (parts ++ more) = .ok q) :
    ∃ r, f.walk p parts = .ok r ∧ f.walk r more = .ok q := by
  induction parts generalizing p with
  | nil => exact ⟨p, rfl, leads⟩
  | cons part parts ih =>
    rw [List.cons_append, Folder.walk] at leads
    rw [Folder.walk]
    split at leads
    · cases leads
    · cases leads
    next found =>
      split at leads
      · cases leads
      next short =>
        rw [if_neg short]
        exact ih leads

/-- A way that goes on leads from a folder. -/
theorem node?_of_walk {parts : List String} (some : parts ≠ []) (leads : f.walk p parts = .ok q) :
    f.node? p = .some .folder := by
  cases parts with
  | nil => exact absurd rfl some
  | cons part parts =>
    rw [Folder.walk] at leads
    split at leads
    · cases leads
    · cases leads
    next found => exact found

theorem find_of_folder (located : f.locate path = .ok p) (folder : f.node? p = some .folder) :
    f.find path = .ok .folder := by
  simp only [Folder.find, located, bind, Except.bind, folder]
  rfl

theorem find_of_file {content : Content} (located : f.locate path = .ok p)
    (file : f.node? p = some (.file content)) (slash : endsInSlash path = false) :
    f.find path = .ok (.file content) := by
  simp only [Folder.find, located, bind, Except.bind, file, slash, Bool.false_eq_true, if_false]
  rfl

/-- The folder part of a path that leads somewhere leads to a folder. -/
theorem isFolder_parentPath (allowed : checkPath path = .ok ()) (leads : f.locate path = .ok p)
    (slash : endsInSlash path = false) (named : parentPath path ≠ "") :
    f.isFolder (parentPath path) = true := by
  obtain ⟨more, whole, between, some⟩ := exists_parentPath_append slash named
  have parts : pathParts path = pathParts (parentPath path) ++ (partsOf more).map String.ofList := by
    rw [pathParts_eq, pathParts_eq, whole, partsOf_append between, List.map_append]
  have begins : origin path = origin (parentPath path) := by
    have first : path.toList.head? = (parentPath path).toList.head? := by
      rw [whole]
      cases front : (parentPath path).toList with
      | nil => exact absurd (String.toList_eq_nil_iff.mp front) named
      | cons c rest => rfl
    rw [origin, origin, first]
  rw [Folder.locate] at leads
  split at leads
  · cases leads
  · split at leads
    · cases leads
    next fits =>
      rw [parts, begins] at leads
      obtain ⟨q, front, rest⟩ := exists_of_walk_append leads
      have further : (partsOf more).map String.ofList ≠ [] :=
        fun none => some (List.map_eq_nil_iff.mp none)
      have folder := node?_of_walk further rest
      have shorter : Text.Utf8.size (parentPath path).toList ≤ Text.Utf8.size path.toList := by
        rw [whole]
        exact Text.Utf8.size_le_append _ more
      have located : f.locate (parentPath path) = .ok q := by
        rw [Folder.locate, if_neg named, if_neg (by omega), front]
      rw [Folder.isFolder, checkPath_parentPath allowed, find_of_folder located folder]

/-! ## Folders that are there -/

theorem exists_of_isFolder (h : f.isFolder path = true) :
    checkPath path = .ok () ∧ ∃ r, f.locate path = .ok r ∧ f.node? r = some .folder := by
  rw [Folder.isFolder] at h
  split at h
  next allowed found =>
    refine ⟨allowed, ?_⟩
    rw [Folder.find] at found
    cases leads : f.locate path with
    | error problem =>
      rw [leads] at found
      cases found
    | ok r =>
      simp only [leads, bind, Except.bind] at found
      split at found
      · cases found
      next folder => exact ⟨r, rfl, folder⟩
      · split at found <;> cases found
  next => cases h

theorem leadsSomewhere_of_isFolder (h : f.isFolder path = true) : f.leadsSomewhere path = true := by
  rw [Folder.isFolder] at h
  split at h
  next allowed found =>
    rw [Folder.leadsSomewhere, allowed, found]
    rfl
  next => cases h

theorem splitLast_of_slashes (all : ∀ c ∈ path.toList, c = '/') : splitLast path = (path, "") := by
  have back : ∀ c ∈ path.toList.reverse, c = '/' := fun c hc => all c (List.mem_reverse.mp hc)
  have name : path.toList.reverse.takeWhile (· ≠ '/') = [] := by
    cases chars : path.toList.reverse with
    | nil => rfl
    | cons c rest =>
      rw [chars] at back
      simp [back c (by simp)]
  have front : path.toList.reverse.dropWhile (· ≠ '/') = path.toList.reverse := by
    have whole := List.takeWhile_append_dropWhile (p := (· ≠ '/')) (l := path.toList.reverse)
    rwa [name, List.nil_append] at whole
  have slashes : (path.toList.reverse.all (· = '/')) = true := by simpa using all
  rw [splitLast, name, front, if_pos slashes, List.reverse_reverse, String.ofList_toList]
  rfl

theorem splitLast_snd_ne (slash : endsInSlash path = false) (some : path ≠ "") :
    (splitLast path).2 ≠ "" := by
  obtain ⟨c, hc, -⟩ := exists_mem_lastName slash some
  intro none
  have chars : lastName path = [] := String.ofList_eq_empty_iff.mp none
  rw [chars] at hc
  cases hc

namespace Filing

/-- Making a folder that is there changes nothing. -/
theorem on_makeFolder_of_isFolder (h : f.isFolder path = true) :
    Change.on (makeFolder path) f = (.ok (), f) := by
  obtain ⟨allowed, r, leads, folder⟩ := exists_of_isFolder h
  have located : Change.on (locate path) f = (.ok r, f) := by rw [on_locate, allowed, leads]
  have looked : Change.on (get : Filing Folder) f = (.ok f, f) := rfl
  have refused : Change.on (makeNewFolder path) f = (.error (pathFault .exists path), f) := by
    rw [makeNewFolder, on_bind_ok located, on_bind_ok looked, folder]
    rfl
  have caught : (!((pathFault .exists path).isPathFault && f.isFolder path)) = false := by
    rw [h]
    rfl
  rw [makeFolder, on_tryCatch, refused]
  dsimp only
  rw [on_bind_ok looked, caught]
  rfl

/-- The folder part of a path is there once the path leads somewhere. -/
theorem on_makeFolders_parentPath (allowed : checkPath path = .ok ()) (leads : f.locate path = .ok p)
    (slash : endsInSlash path = false) (named : parentPath path ≠ "") (fuel : Nat) :
    Change.on (makeFolders fuel (parentPath path)) f = (.ok (), f) := by
  have folder := isFolder_parentPath allowed leads slash named
  have makes := on_makeFolder_of_isFolder folder
  cases fuel with
  | zero => exact makes
  | succ fuel =>
    have looked : Change.on (get : Filing Folder) f = (.ok f, f) := rfl
    rw [makeFolders]
    dsimp only
    rw [on_bind_ok looked]
    -- either no folder above is asked for, or the one above is there as well
    have nothing : ∀ way : String × String, way = (if (splitLast (parentPath path)).2 = "" then
          splitLast (splitLast (parentPath path)).1
        else ((splitLast (parentPath path)).1, (splitLast (parentPath path)).2)) →
        (way.1 ≠ "" && way.2 ≠ "" && !f.leadsSomewhere way.1) = false := by
      intro way same
      rw [same]
      obtain all | slash := parentPath_cases path
      · have whole := splitLast_of_slashes all
        rw [whole, if_pos rfl, whole]
        simp
      · rw [if_neg (splitLast_snd_ne slash named)]
        obtain none | above := eq_or_ne (parentPath (parentPath path)) ""
        · rw [parentPath] at none
          simp [none]
        · obtain ⟨allowed, r, leads, -⟩ := exists_of_isFolder folder
          have there := leadsSomewhere_of_isFolder (isFolder_parentPath allowed leads slash above)
          rw [parentPath] at there
          simp [there]
    rw [nothing _ rfl]
    exact makes

/-! ## Files that can be written -/

/-- A path at which a file can be written: it leads to a place, and no folder is there. -/
structure Takes (f : Folder) (path : String) : Prop where
  allowed : checkPath path = .ok ()
  leads : ∃ p, f.locate path = .ok p ∧ f.node? p ≠ some .folder
  slash : endsInSlash path = false

/-- A file that has been written can be written again. -/
theorem takes_of_write {text : String} (written : Written text.toList)
    (h : Change.on (write path [.ok text]) f = (.ok (), g)) :
    Takes g path ∧ g.find path = .ok (.file (.text text)) := by
  rw [on_write written] at h
  match opened : Change.on (openFile path) f with
  | (.error fault, g') =>
    rw [opened] at h
    cases h
  | (.ok p, g') =>
    rw [opened] at h
    obtain ⟨allowed, leads, free, slash, rfl⟩ := opened_of_openFile opened
    have apart := Folder.isAround_of_node? free
    have emptied : (f.put p (.file (.text ""))).node? p = some (.file (.text "")) :=
      Folder.node?_put_self apart
    have full : g = (f.put p (.file (.text ""))).put p (.file (.text text)) := by
      have same := (Prod.mk.inj h).2
      rw [Folder.extend, emptied] at same
      dsimp only at same
      rw [← same, String.empty_append]
    have there : g.node? p = some (.file (.text text)) := full ▸ Folder.node?_put_self apart
    have located : g.locate path = .ok p :=
      full ▸ Folder.locate_put (by simp [emptied]) (Folder.locate_put free leads)
    refine ⟨⟨allowed, ⟨p, located, by simp [there]⟩, slash⟩, ?_⟩
    exact find_of_file located there slash

/-- Whether a text is written does not depend on the text. -/
theorem exists_write_of_write {text other : String} (written : Written text.toList)
    (written' : Written other.toList)
    (h : Change.on (write path [.ok other]) f = (.ok (), g)) :
    ∃ g', Change.on (write path [.ok text]) f = (.ok (), g') := by
  rw [on_write written'] at h
  rw [on_write written]
  generalize Change.on (openFile path) f = opened at h ⊢
  obtain ⟨fault | p, g'⟩ := opened
  · cases h
  · exact ⟨_, rfl⟩

/-- A file that can be written is written, and nothing else is. -/
theorem Takes.exists_write (h : Takes f path) {text : String} (written : Written text.toList) :
    ∃ p g, f.locate path = .ok p ∧ Change.on (write path [.ok text]) f = (.ok (), g) ∧
      ∀ q ≠ p, g.node? q = f.node? q := by
  obtain ⟨p, leads, free⟩ := h.leads
  have opens : Change.on (openFile path) f = (.ok p, f.put p (.file (.text ""))) := by
    rw [on_openFile, on_locate, h.allowed, leads]
    dsimp only
    split
    next folder => exact absurd folder free
    next => rw [h.slash, if_neg Bool.false_ne_true]
  refine ⟨p, _, leads, (on_write written path f).trans (by rw [opens]), ?_⟩
  intro q other
  rw [Folder.extend, Folder.node?_put_self (Folder.isAround_of_node? free)]
  exact (Folder.node?_put_of_ne other).trans (Folder.node?_put_of_ne other)

/-- The file that a path leads to can be written. -/
theorem takes_of_find {content : Content} (allowed : checkPath path = .ok ())
    (found : f.find path = .ok (.file content)) : Takes f path := by
  rw [Folder.find] at found
  cases leads : f.locate path with
  | error problem =>
    rw [leads] at found
    cases found
  | ok p =>
    simp only [leads, bind, Except.bind] at found
    split at found
    · cases found
    · cases found
    next file =>
      split at found
      · cases found
      next slash =>
        refine ⟨allowed, ⟨p, leads, ?_⟩, Bool.eq_false_iff.mpr slash⟩
        rw [file]
        rintro ⟨⟩

end Filing

theorem readText_of_find {text : String} (allowed : checkPath path = .ok ())
    (written : Written text.toList) (found : f.find path = .ok (.file (.text text))) :
    f.readText path = .ok text := by
  rw [Folder.readText, allowed, found]
  change Except.ok (String.ofList (Text.normalizeLineEnds text.toList)) = _
  rw [written.normalizeLineEnds, String.ofList_toList]

end Storage

end PathStudio
