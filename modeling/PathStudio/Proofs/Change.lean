import PathStudio.Proofs.Outcome

/-!
# Changes of a state

A change that can be refused part of the way runs from a state to a result and a
state. What is true of the state afterwards, refused or not, is composed along
the sequence of its steps, and so is that a change is not refused.
-/

namespace PathStudio

/-- A change of a state that can be refused part of the way. -/
abbrev Change (σ α : Type) := ExceptT Fault (StateM σ) α

namespace Change

variable {σ α β : Type} {P Q R : σ → Prop}

/-- Runs a change on a state. -/
def on (e : Change σ α) (s : σ) : Outcome α × σ := StateT.run (ExceptT.run e) s

theorem on_bind (e : Change σ α) (f : α → Change σ β) (s : σ) :
    (e >>= f).on s =
      match e.on s with
      | (.ok a, t) => (f a).on t
      | (.error fault, t) => (.error fault, t) := by
  change StateT.run (StateT.bind (ExceptT.run e) (ExceptT.bindCont f)) s = _
  simp only [StateT.run, StateT.bind, on]
  cases h : ExceptT.run e s with
  | mk r t => cases r <;> simp [ExceptT.bindCont] <;> rfl

theorem on_bind_ok {e : Change σ α} {f : α → Change σ β} {s t : σ} {a : α}
    (h : e.on s = (.ok a, t)) : (e >>= f).on s = (f a).on t := by
  rw [on_bind, h]

theorem on_bind_error {e : Change σ α} {f : α → Change σ β} {s t : σ} {fault : Fault}
    (h : e.on s = (.error fault, t)) : (e >>= f).on s = (.error fault, t) := by
  rw [on_bind, h]

@[simp] theorem on_get (s : σ) : (get : Change σ σ).on s = (.ok s, s) := rfl

theorem on_lift_ok {o : Outcome α} {a : α} (h : o = .ok a) (s : σ) :
    (liftM o : Change σ α).on s = (.ok a, s) := by
  rw [h]
  rfl

/-- A sequence that is not refused has not been refused at its first step. -/
theorem exists_of_on_bind {e : Change σ α} {f : α → Change σ β} {s u : σ} {b : β}
    (h : (e >>= f).on s = (.ok b, u)) : ∃ a t, e.on s = (.ok a, t) ∧ (f a).on t = (.ok b, u) := by
  rw [on_bind] at h
  cases he : e.on s with
  | mk r t =>
    rw [he] at h
    cases r with
    | error fault => cases h
    | ok a => exact ⟨a, t, rfl, h⟩

/-- A change after which one property holds if another did before, whether or not it is refused. -/
def Leads (P Q : σ → Prop) (e : Change σ α) : Prop := ∀ s, P s → Q (e.on s).2

/-- A change that keeps a property, whether or not it is refused. -/
abbrev Keeps (P : σ → Prop) (e : Change σ α) : Prop := Leads P P e

/-- A refusal ends a sequence after its first step, so what holds then has to imply what holds in
the end. -/
theorem Leads.bind {e : Change σ α} {f : α → Change σ β} (he : Leads P R e)
    (hf : ∀ a, Leads R Q (f a)) (refused : ∀ t, R t → Q t) : Leads P Q (e >>= f) := by
  intro s hs
  have first := he s hs
  rw [on_bind]
  cases h : e.on s with
  | mk r t =>
    rw [h] at first
    cases r with
    | error fault => exact refused t first
    | ok a => exact hf a t first

theorem Leads.keeps_bind {e : Change σ α} {f : α → Change σ β} (he : Keeps P e)
    (hf : ∀ a, Keeps P (f a)) : Keeps P (e >>= f) :=
  he.bind hf fun _ ht => ht

theorem keeps_pure (a : α) : Keeps P (pure a : Change σ α) := fun _ hs => hs

theorem keeps_throw (f : Fault) : Keeps P (throw f : Change σ α) := fun _ hs => hs

theorem keeps_lift (o : Outcome α) : Keeps P (liftM o : Change σ α) := fun _ hs => hs

theorem leads_modify {g : σ → σ} (hg : ∀ s, P s → Q (g s)) :
    Leads P Q (modify g : Change σ Unit) :=
  hg

/-- A change whose answer, if it gives one, has a property together with the state. -/
def Answers (P : σ → Prop) (Q : α → σ → Prop) (e : Change σ α) : Prop :=
  ∀ s, P s → ∀ a t, e.on s = (.ok a, t) → Q a t

theorem answers_lift (o : Outcome α) :
    Answers P (fun a s => P s ∧ o = .ok a) (liftM o : Change σ α) := by
  intro s hs a t run
  cases o with
  | error fault => cases run
  | ok b =>
    cases run
    exact ⟨hs, rfl⟩

theorem Answers.bind {e : Change σ α} {f : α → Change σ β} {A : β → σ → Prop} (he : Leads P Q e)
    (hf : ∀ a, Answers Q A (f a)) : Answers P A (e >>= f) := by
  intro s hs b u run
  obtain ⟨a, t, first, rest⟩ := exists_of_on_bind run
  have kept := he s hs
  rw [first] at kept
  exact hf a t kept b u rest

/-- What comes after a change may use what its answer has to do with the state. -/
theorem Leads.bind_answers {e : Change σ α} {f : α → Change σ β} {A : α → σ → Prop}
    (he : Leads P Q e) (answers : Answers P A e) (hf : ∀ a, Leads (A a) Q (f a)) :
    Leads P Q (e >>= f) := by
  intro s hs
  have first := he s hs
  rw [on_bind]
  cases h : e.on s with
  | mk r t =>
    rw [h] at first
    cases r with
    | error fault => exact first
    | ok a => exact hf a t (answers s hs a t h)

/-- What comes after a look at the state may use that it is this state. -/
theorem leads_get_bind {f : σ → Change σ β} (hf : ∀ s, P s → Q ((f s).on s).2) :
    Leads P Q (get >>= f) :=
  hf

/-! ## The faults of a change -/

theorem on_tryCatch (e : Change σ α) (handler : Fault → Change σ α) (s : σ) :
    (tryCatch e handler : Change σ α).on s =
      match e.on s with
      | (.ok a, t) => (.ok a, t)
      | (.error fault, t) => (handler fault).on t := by
  simp only [on, tryCatch, tryCatchThe, MonadExceptOf.tryCatch, ExceptT.tryCatch, ExceptT.run_mk]
  simp only [bind, StateT.bind, StateT.run, ExceptT.run]
  cases (e s : Outcome α × σ) with
  | mk r t => cases r <;> rfl

/-- A change whose faults, if it is refused, are among the given ones. -/
def RefusedOnly (F : Fault → Prop) (e : Change σ α) : Prop := ∀ s, FailsOnly F (e.on s).1

section Faults

variable {F G : Fault → Prop}

theorem refusedOnly_pure (a : α) : RefusedOnly F (pure a : Change σ α) := fun _ => .ok a

theorem refusedOnly_throw {f : Fault} (h : F f) : RefusedOnly F (throw f : Change σ α) :=
  fun _ => .error h

theorem refusedOnly_get : RefusedOnly F (get : Change σ σ) := fun s => .ok s

theorem refusedOnly_modify (g : σ → σ) : RefusedOnly F (modify g : Change σ Unit) := fun _ => .ok ()

theorem RefusedOnly.bind {e : Change σ α} {f : α → Change σ β} (he : RefusedOnly F e)
    (hf : ∀ a, RefusedOnly F (f a)) : RefusedOnly F (e >>= f) := by
  intro s
  have first := he s
  rw [on_bind]
  cases h : e.on s with
  | mk r t =>
    rw [h] at first
    cases r with
    | error fault => exact .error (first fault rfl)
    | ok a => exact hf a t

/-- Where the faults of a change are caught, the handler has to answer for these only. -/
theorem RefusedOnly.caught {e : Change σ α} {handler : Fault → Change σ α} (he : RefusedOnly F e)
    (hh : ∀ f, F f → RefusedOnly G (handler f)) : RefusedOnly G (tryCatch e handler) := by
  intro s
  have first := he s
  rw [on_tryCatch]
  cases h : e.on s with
  | mk r t =>
    rw [h] at first
    cases r with
    | error fault => exact hh fault (first fault rfl) t
    | ok a => exact .ok a

end Faults

/-! ## Changes that come to their end -/

/-- From states with one property a change comes to its end, and its answer and the state after it
have another. -/
def Completes (P : σ → Prop) (e : Change σ α) (Q : α → σ → Prop) : Prop :=
  ∀ s, P s → ∃ a t, e.on s = (.ok a, t) ∧ Q a t

section Contracts

variable {P P' : σ → Prop} {Q Q' : α → σ → Prop} {R : β → σ → Prop} {e : Change σ α}

theorem completes_pure {a : α} (h : ∀ s, P s → Q a s) : Completes P (pure a : Change σ α) Q :=
  fun s hs => ⟨a, s, rfl, h s hs⟩

theorem completes_modify {g : σ → σ} {Q : Unit → σ → Prop} (h : ∀ s, P s → Q () (g s)) :
    Completes P (modify g : Change σ Unit) Q :=
  fun s hs => ⟨(), g s, rfl, h s hs⟩

theorem Completes.bind {f : α → Change σ β} (first : Completes P e Q)
    (next : ∀ a, Completes (Q a) (f a) R) : Completes P (e >>= f) R := by
  intro s hs
  obtain ⟨a, t, run, ht⟩ := first s hs
  obtain ⟨b, u, run', hu⟩ := next a t ht
  exact ⟨b, u, (on_bind_ok run).trans run', hu⟩

theorem completes_ite {c : Prop} [Decidable c] {f : Change σ α} (yes : c → Completes P e Q)
    (no : ¬ c → Completes P f Q) : Completes P (if c then e else f) Q := by
  split
  next h => exact yes h
  next h => exact no h

end Contracts

section Loops

variable {P : σ → Prop} {xs : List α}

theorem completes_forM {f : α → Change σ Unit} (h : ∀ x ∈ xs, Completes P (f x) fun _ => P) :
    Completes P (xs.forM f) fun _ => P := by
  induction xs with
  | nil => exact completes_pure fun _ hs => hs
  | cons x rest ih =>
    obtain ⟨first, others⟩ := List.forall_mem_cons.mp h
    exact first.bind fun _ => ih others

theorem completes_forIn {f : α → PUnit → Change σ (ForInStep PUnit)}
    (h : ∀ x ∈ xs, Completes P (f x ⟨⟩) fun next s => next = .yield ⟨⟩ ∧ P s) :
    Completes P (forIn xs ⟨⟩ f) fun _ => P := by
  induction xs with
  | nil =>
    rw [List.forIn_nil]
    exact completes_pure fun _ hs => hs
  | cons x rest ih =>
    obtain ⟨first, others⟩ := List.forall_mem_cons.mp h
    rw [List.forIn_cons]
    refine first.bind fun next s ⟨goes, hs⟩ => ?_
    rw [goes]
    exact ih others s hs

end Loops

end Change

end PathStudio
