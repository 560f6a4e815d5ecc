import PathStudio.Proofs.Storage.Folder

/-!
# What is refused in a folder

Whatever is asked of a folder by a path that can name a file, it is refused as a
fault of a path: something is missing, in the way or of the wrong kind. The
folders on the way to the file are asked for by the front of the same path, which
can name one as well.
-/

namespace PathStudio

theorem Text.surrogateRun?_eq_none_of_append {allowed : Nat → Bool} {first : Nat} {s more : List Char}
    (h : Text.surrogateRun? allowed first (s ++ more) = none) :
    Text.surrogateRun? allowed first s = none := by
  induction s generalizing first with
  | nil => rfl
  | cons c rest ih =>
    rw [List.cons_append, surrogateRun?] at h
    split at h
    · cases h
    next other =>
      rw [surrogateRun?, if_neg other]
      exact ih h

namespace Storage

open Change

variable {path : String}

/-! ## Paths that can name files -/

theorem checkPath_eq_ok : checkPath path = .ok () ↔
    Text.Utf8.unencodable? standsForByte path.toList = none ∧ '\x00' ∉ path.toList := by
  rw [checkPath]
  cases Text.Utf8.unencodable? standsForByte path.toList with
  | some reason => simp
  | none => simp

theorem checkPath_of_prefix {front : String} (h : checkPath path = .ok ())
    (begins : front.toList <+: path.toList) : checkPath front = .ok () := by
  obtain ⟨more, same⟩ := begins
  obtain ⟨encodable, whole⟩ := checkPath_eq_ok.mp h
  rw [← same] at encodable whole
  refine checkPath_eq_ok.mpr ⟨?_, fun null => whole (List.mem_append_left _ null)⟩
  have run := Option.map_eq_none_iff.mp encodable
  exact Option.map_eq_none_iff.mpr (Text.surrogateRun?_eq_none_of_append run)

/-- The folder part of a path is the front of it. -/
theorem parentPath_begins (path : String) : (parentPath path).toList <+: path.toList := by
  have back : path.toList.reverse.dropWhile (· ≠ '/') <:+ path.toList.reverse :=
    List.dropWhile_suffix _
  rw [parentPath, splitLast, String.toList_ofList, ← List.reverse_suffix, List.reverse_reverse]
  split
  · exact back
  · exact (List.dropWhile_suffix _).trans back

theorem checkPath_parentPath (h : checkPath path = .ok ()) : checkPath (parentPath path) = .ok () :=
  checkPath_of_prefix h (parentPath_begins path)

/-! ## Faults -/

namespace Filing

/-- Refused as a fault of a path, if at all. -/
abbrev Troubled {α : Type} (w : Filing α) : Prop := RefusedOnly (·.isPathFault = true) w

theorem troubled_throw {α : Type} (problem : PathProblem) (path : String) :
    Troubled (throw (pathFault problem path) : Filing α) :=
  refusedOnly_throw rfl

theorem troubled_locate (h : checkPath path = .ok ()) : Troubled (locate path) := by
  intro f
  rw [on_locate, h]
  cases f.locate path with
  | error problem => exact .error rfl
  | ok p => exact .ok p

theorem troubled_openFile (h : checkPath path = .ok ()) : Troubled (openFile path) := by
  refine (troubled_locate h).bind fun p => refusedOnly_get.bind fun f => ?_
  split
  · exact troubled_throw .isFolder path
  · split
    · exact (troubled_throw .isFolder path).bind fun _ =>
        (refusedOnly_modify _).bind fun _ => refusedOnly_pure p
    · exact (refusedOnly_modify _).bind fun _ => refusedOnly_pure p

theorem troubled_write (h : checkPath path = .ok ()) {text : String} (written : Written text.toList) :
    Troubled (write path [.ok text]) := by
  intro f
  have opening := troubled_openFile h f
  rw [on_write written]
  match opened : Change.on (openFile path) f with
  | (.error fault, g) =>
    rw [opened] at opening
    exact .error (opening fault rfl)
  | (.ok p, g) => exact .ok ()

theorem troubled_makeFolder (h : checkPath path = .ok ()) : Troubled (makeFolder path) := by
  have new : Troubled (makeNewFolder path) := by
    refine (troubled_locate h).bind fun p => refusedOnly_get.bind fun f => ?_
    split
    · exact (troubled_throw .exists path).bind fun _ => refusedOnly_modify _
    · exact refusedOnly_modify _
  refine new.caught fun fault trouble => refusedOnly_get.bind fun f => ?_
  split
  · exact refusedOnly_throw trouble
  · exact refusedOnly_pure ()

theorem troubled_makeFolders (h : checkPath path = .ok ()) (fuel : Nat) :
    Troubled (makeFolders fuel path) := by
  induction fuel generalizing path with
  | zero => exact troubled_makeFolder h
  | succ fuel ih =>
    rw [makeFolders]
    dsimp only
    -- the folder on the way is the front of the path, or of that where the path ends in a slash
    have front : checkPath (if (splitLast path).2 = "" then splitLast (splitLast path).1
        else ((splitLast path).1, (splitLast path).2)).1 = .ok () := by
      split
      · exact checkPath_parentPath (checkPath_parentPath h)
      · exact checkPath_parentPath h
    generalize (if (splitLast path).2 = "" then splitLast (splitLast path).1
        else ((splitLast path).1, (splitLast path).2)) = way at front ⊢
    refine refusedOnly_get.bind fun f => ?_
    split
    · refine ((ih front).caught fun fault trouble => ?_).bind fun _ => ?_
      · split
        · exact refusedOnly_pure ()
        · exact refusedOnly_throw trouble
      · split
        · exact refusedOnly_pure ()
        · exact troubled_makeFolder h
    · exact troubled_makeFolder h

end Filing

end Storage

end PathStudio
