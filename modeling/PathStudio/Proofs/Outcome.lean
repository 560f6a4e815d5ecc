import PathStudio.Fault
import Mathlib.Data.List.Forall2

/-!
# Outcomes

Taking apart a sequence of steps that has succeeded, and bounding the faults with which one may fail.
-/

namespace PathStudio

variable {α β : Type}

/-- A sequence of two steps succeeds just if both do. -/
theorem bind_eq_ok {x : Outcome α} {f : α → Outcome β} {b : β} :
    x >>= f = .ok b ↔ ∃ a, x = .ok a ∧ f a = .ok b := by
  cases x with
  | error fault => simp [bind, Except.bind]
  | ok a => simp [bind, Except.bind]

/-- A sequence of two steps fails just if the first does or, after it, the second. -/
theorem bind_eq_error {x : Outcome α} {f : α → Outcome β} {fault : Fault} :
    x >>= f = .error fault ↔ x = .error fault ∨ ∃ a, x = .ok a ∧ f a = .error fault := by
  cases x with
  | error cause => simp [bind, Except.bind]
  | ok a => simp [bind, Except.bind]

@[simp] theorem ok_bind (a : α) (f : α → Outcome β) : (.ok a : Outcome α) >>= f = f a := rfl

theorem return_eq_ok {a b : α} : (pure a : Outcome α) = .ok b ↔ a = b := by
  simp [pure, Except.pure]

theorem map_eq_ok {f : α → β} {x : Outcome α} {b : β} :
    x.map f = .ok b ↔ ∃ a, x = .ok a ∧ f a = b := by
  cases x with
  | error fault => simp [Except.map]
  | ok a => simp [Except.map]

theorem exists_of_isSome_toOption {x : Outcome α} (h : x.toOption.isSome = true) : ∃ a, x = .ok a := by
  cases x with
  | error fault => cases h
  | ok a => exact ⟨a, rfl⟩

theorem eq_ok_of_toOption {x : Outcome α} {a : α} (h : x.toOption = some a) : x = .ok a := by
  cases x with
  | error fault => cases h
  | ok b => exact congrArg Except.ok (Option.some.inj h)

/-- Steps over a list succeed just if the first does and the others do. -/
theorem mapM_cons_eq_ok {f : α → Outcome β} {x : α} {xs : List α} {zs : List β} :
    (x :: xs).mapM f = .ok zs ↔ ∃ y ys, f x = .ok y ∧ xs.mapM f = .ok ys ∧ y :: ys = zs := by
  simp only [List.mapM_cons, bind_eq_ok, return_eq_ok]
  constructor
  · rintro ⟨y, hy, ys, hys, rfl⟩
    exact ⟨y, ys, hy, hys, rfl⟩
  · rintro ⟨y, ys, hy, hys, rfl⟩
    exact ⟨y, hy, ys, hys, rfl⟩

/-- Steps that take back what has been done to each entry of a list give the list back. -/
theorem mapM_map_of_inverse {f : α → β} {g : β → Outcome α} (h : ∀ a, g (f a) = .ok a)
    (xs : List α) : (xs.map f).mapM g = .ok xs := by
  induction xs with
  | nil => rfl
  | cons x xs ih => exact mapM_cons_eq_ok.mpr ⟨x, xs, h x, ih, rfl⟩

/-- Steps over a list succeed only if each of them does. -/
theorem exists_of_mapM {f : α → Outcome β} {xs : List α} {ys : List β} (h : xs.mapM f = .ok ys) :
    ∀ x ∈ xs, ∃ y, f x = .ok y := by
  induction xs generalizing ys with
  | nil => simp
  | cons x xs ih =>
    obtain ⟨y, more, hy, hmore, -⟩ := mapM_cons_eq_ok.mp h
    intro x' hx'
    obtain rfl | hx' := List.mem_cons.mp hx'
    · exact ⟨y, hy⟩
    · exact ih hmore x' hx'

theorem forall_mem_of_mapM {f : α → Outcome β} {xs : List α} {ys : List β} (h : xs.mapM f = .ok ys) :
    ∀ y ∈ ys, ∃ x ∈ xs, f x = .ok y := by
  induction xs generalizing ys with
  | nil =>
    cases h
    simp
  | cons x xs ih =>
    obtain ⟨y, more, hy, hmore, rfl⟩ := mapM_cons_eq_ok.mp h
    intro y' hy'
    obtain rfl | hy' := List.mem_cons.mp hy'
    · exact ⟨x, by simp, hy⟩
    · obtain ⟨x', hx', hf⟩ := ih hmore y' hy'
      exact ⟨x', List.mem_cons_of_mem _ hx', hf⟩

/-- Steps over a list answer with one result for each entry, in order. -/
theorem forall₂_of_mapM {f : α → Outcome β} {xs : List α} {ys : List β} (h : xs.mapM f = .ok ys) :
    List.Forall₂ (fun x y => f x = .ok y) xs ys := by
  induction xs generalizing ys with
  | nil =>
    cases h
    exact .nil
  | cons x xs ih =>
    obtain ⟨y, more, hy, hmore, rfl⟩ := mapM_cons_eq_ok.mp h
    exact .cons hy (ih hmore)

/-- Steps over a list depend on those of its entries alone. -/
theorem mapM_congr {f g : α → Outcome β} {xs : List α} (h : ∀ x ∈ xs, f x = g x) :
    xs.mapM f = xs.mapM g := by
  induction xs with
  | nil => rfl
  | cons x xs ih =>
    rw [List.mapM_cons, List.mapM_cons, h x (by simp), ih fun y hy => h y (.tail _ hy)]

/-- Two ways over a list that succeed alike succeed alike on each of its entries. -/
theorem eq_of_mapM_eq_ok {f g : α → Outcome β} {xs : List α} {ys : List β} (hf : xs.mapM f = .ok ys)
    (hg : xs.mapM g = .ok ys) : ∀ x ∈ xs, f x = g x := by
  induction xs generalizing ys with
  | nil => simp
  | cons x xs ih =>
    obtain ⟨y, more, hy, hmore, rfl⟩ := mapM_cons_eq_ok.mp hf
    obtain ⟨y', more', hy', hmore', same⟩ := mapM_cons_eq_ok.mp hg
    obtain ⟨rfl, rfl⟩ := List.cons.inj same
    exact List.forall_mem_cons.mpr ⟨hy.trans hy'.symm, ih hmore hmore'⟩

/-- Steps over a list fail as the first of them does that fails. -/
theorem mapM_eq_error {f : α → Outcome β} {xs : List α} {fault : Fault} :
    xs.mapM f = .error fault ↔ ∃ before x after, xs = before ++ x :: after ∧
      (∀ y ∈ before, ∃ b, f y = .ok b) ∧ f x = .error fault := by
  induction xs with
  | nil => simp [pure, Except.pure]
  | cons x xs ih =>
    simp only [List.mapM_cons, bind_eq_error, ih]
    constructor
    · rintro (first | ⟨b, first, ⟨before, y, after, rfl, succeed, failed⟩ | ⟨_, _, ⟨⟩⟩⟩)
      · exact ⟨[], x, xs, rfl, by simp, first⟩
      · refine ⟨x :: before, y, after, rfl, ?_, failed⟩
        exact List.forall_mem_cons.mpr ⟨⟨b, first⟩, succeed⟩
    · rintro ⟨before, y, after, split, succeed, failed⟩
      cases before with
      | nil =>
        obtain ⟨rfl, rfl⟩ := List.cons.inj split
        exact .inl failed
      | cons z before =>
        obtain ⟨rfl, rfl⟩ := List.cons.inj split
        obtain ⟨⟨b, first⟩, rest⟩ := List.forall_mem_cons.mp succeed
        exact .inr ⟨b, first, .inl ⟨before, y, after, rfl, rest, failed⟩⟩

/-- Steps over a list succeed if each of them does. -/
theorem exists_mapM {f : α → Outcome β} {xs : List α} (h : ∀ x ∈ xs, ∃ y, f x = .ok y) :
    ∃ ys, xs.mapM f = .ok ys := by
  cases hys : xs.mapM f with
  | ok ys => exact ⟨ys, rfl⟩
  | error fault =>
    obtain ⟨before, x, after, rfl, -, failed⟩ := mapM_eq_error.mp hys
    obtain ⟨y, hy⟩ := h x (by simp)
    cases hy.symm.trans failed

/-- What each step of a fold keeps holds after the fold, if it succeeds. -/
theorem foldlM_keeps {step : β → α → Outcome β} {P : β → Prop}
    (h : ∀ b a b', P b → step b a = .ok b' → P b') {xs : List α} {b c : β} (hb : P b)
    (hc : xs.foldlM step b = .ok c) : P c := by
  induction xs generalizing b with
  | nil =>
    cases hc
    exact hb
  | cons a xs ih =>
    rw [List.foldlM_cons] at hc
    obtain ⟨b', first, rest⟩ := bind_eq_ok.mp hc
    exact ih (h b a b' hb first) rest

/-- A fold of steps that a map can be taken past is the mapped fold. -/
theorem foldlM_map_of_commutes {step : β → α → Outcome β} {g : β → β}
    (h : ∀ b a, step (g b) a = (step b a).map g) (xs : List α) (b : β) :
    xs.foldlM step (g b) = (xs.foldlM step b).map g := by
  induction xs generalizing b with
  | nil => rfl
  | cons a xs ih =>
    rw [List.foldlM_cons, List.foldlM_cons, h]
    cases step b a with
    | error fault => rfl
    | ok c => exact ih c

/-- The faults of an outcome, if it has one, are among the given ones. -/
def FailsOnly (P : Fault → Prop) (o : Outcome α) : Prop := ∀ f, o = .error f → P f

namespace FailsOnly

variable {P : Fault → Prop}

theorem ok (a : α) : FailsOnly P (.ok a) := by
  intro f h
  cases h

theorem error {f : Fault} (h : P f) : FailsOnly P (.error f : Outcome α) := by
  rintro _ ⟨⟩
  exact h

theorem bind {o : Outcome α} {f : α → Outcome β} (ho : FailsOnly P o)
    (hf : ∀ a, FailsOnly P (f a)) : FailsOnly P (o >>= f) := by
  cases o with
  | error fault => exact error (ho fault rfl)
  | ok a => exact hf a

theorem map {o : Outcome α} (ho : FailsOnly P o) (f : α → β) : FailsOnly P (o.map f) := by
  cases o with
  | error fault => exact error (ho fault rfl)
  | ok a => exact ok _

theorem foldlM {step : β → α → Outcome β} (h : ∀ b a, FailsOnly P (step b a)) (xs : List α) (b : β) :
    FailsOnly P (xs.foldlM step b) := by
  induction xs generalizing b with
  | nil => exact ok b
  | cons a xs ih =>
    rw [List.foldlM_cons]
    exact (h b a).bind fun next => ih next

end FailsOnly

/-- Two outcomes have related results or the same fault. -/
inductive Corresponds (R : α → β → Prop) : Outcome α → Outcome β → Prop where
  | ok {a : α} {b : β} : R a b → Corresponds R (.ok a) (.ok b)
  | error (fault : Fault) : Corresponds R (.error fault) (.error fault)

namespace Corresponds

variable {γ δ ι : Type} {R : α → β → Prop} {S : γ → δ → Prop}

theorem bind {x : Outcome α} {y : Outcome β} (h : Corresponds R x y) {f : α → Outcome γ}
    {g : β → Outcome δ} (next : ∀ a b, R a b → Corresponds S (f a) (g b)) :
    Corresponds S (x >>= f) (y >>= g) := by
  cases h with
  | ok related => exact next _ _ related
  | error fault => exact .error fault

/-- Folds whose steps correspond do so themselves. -/
theorem foldlM {step : α → ι → Outcome α} {step' : β → ι → Outcome β}
    (h : ∀ a b i, R a b → Corresponds R (step a i) (step' b i)) (is : List ι) {a : α} {b : β}
    (related : R a b) : Corresponds R (is.foldlM step a) (is.foldlM step' b) := by
  induction is generalizing a b with
  | nil => exact .ok related
  | cons i is ih =>
    rw [List.foldlM_cons, List.foldlM_cons]
    exact (h a b i related).bind fun a' b' next => ih next

theorem map_eq {x : Outcome α} {y : Outcome β} {f : α → γ} {g : β → γ}
    (h : Corresponds (fun a b => f a = g b) x y) : x.map f = y.map g := by
  cases h with
  | ok same => exact congrArg Except.ok same
  | error fault => rfl

end Corresponds

end PathStudio
