import Mathlib.Data.List.Forall2

/-!
# `Herden.Lib.Fallible`: programs whose failures keep their effects

A `Fallible` program changes a state and either returns a value or fails. What it did to the
state before it failed stays done, as it does on a disk. `Ends m s Q E` is its pre- and
postcondition: from `s`, the program returns with `Q` or fails with `E`. There is one rule for
each way to build a program, and `Ends.mono` to weaken what is known.
-/

namespace Herden.Lib

/-- A program without a state: both parts of a sequence have succeeded. -/
theorem bind_eq_ok {ε α β : Type} {x : Except ε α} {f : α → Except ε β} {b : β} :
    (x >>= f) = .ok b ↔ ∃ a, x = .ok a ∧ f a = .ok b := by
  cases x with
  | error e => exact ⟨fun h => (by cases h), fun ⟨_, h, _⟩ => (by cases h)⟩
  | ok a =>
    constructor
    · intro h
      exact ⟨a, rfl, h⟩
    · rintro ⟨a', h, hf⟩
      cases h
      exact hf

/-- A loop that checks its items has found nothing wrong with any of them. -/
theorem forM_eq_ok {ε α : Type} {f : α → Except ε Unit} {items : List α} :
    items.forM f = .ok () ↔ ∀ item ∈ items, f item = .ok () := by
  induction items with
  | nil => exact iff_of_true rfl fun _ hmem => nomatch hmem
  | cons item items ih =>
    show (f item >>= fun _ => items.forM f) = .ok () ↔ _
    rw [bind_eq_ok, List.forall_mem_cons]
    constructor
    · rintro ⟨⟨⟩, hitem, hrest⟩
      exact ⟨hitem, ih.mp hrest⟩
    · rintro ⟨hitem, hrest⟩
      exact ⟨(), hitem, ih.mpr hrest⟩

/-- Each item has its result. -/
theorem mapM_eq_ok {ε α β : Type} {f : α → Except ε β} {items : List α} {results : List β} :
    items.mapM f = .ok results
      ↔ List.Forall₂ (fun item result => f item = .ok result) items results := by
  induction items generalizing results with
  | nil =>
    rw [List.mapM_nil, List.forall₂_nil_left_iff]
    exact ⟨fun h => (by cases h; rfl), fun h => h ▸ rfl⟩
  | cons item items ih =>
    rw [List.mapM_cons, bind_eq_ok]
    constructor
    · rintro ⟨result, hitem, hmore⟩
      obtain ⟨rest, hrest, hpair⟩ := bind_eq_ok.mp hmore
      cases hpair
      exact List.Forall₂.cons hitem (ih.mp hrest)
    · intro h
      cases h with
      | cons hitem hrest =>
        exact ⟨_, hitem, bind_eq_ok.mpr ⟨_, ih.mpr hrest, rfl⟩⟩

theorem exists_mapM_eq_ok {ε α β : Type} {f : α → Except ε β} {items : List α}
    (h : ∀ item ∈ items, ∃ result, f item = .ok result) :
    ∃ results, items.mapM f = .ok results := by
  induction items with
  | nil => exact ⟨[], rfl⟩
  | cons item items ih =>
    obtain ⟨result, hitem⟩ := h item List.mem_cons_self
    obtain ⟨results, hrest⟩ := ih fun other hmem => h other (List.mem_cons_of_mem _ hmem)
    exact ⟨result :: results,
      mapM_eq_ok.mpr (List.Forall₂.cons hitem (mapM_eq_ok.mp hrest))⟩

/-- A program over states `σ` that returns an `α` or fails with an `ε`. -/
def Fallible (σ ε α : Type) := σ → Except ε α × σ

namespace Fallible

variable {σ ε α β : Type}

instance : Monad (Fallible σ ε) where
  pure a := fun s => (.ok a, s)
  bind m f := fun s =>
    match m s with
    | (.ok a, t) => f a t
    | (.error e, t) => (.error e, t)

def get : Fallible σ ε σ := fun s => (.ok s, s)

def modify (f : σ → σ) : Fallible σ ε Unit := fun s => (.ok (), f s)

def throw (e : ε) : Fallible σ ε α := fun s => (.error e, s)

/-- The result of a program as a value, for a caller that looks at the failure. -/
def observe (m : Fallible σ ε α) : Fallible σ ε (Except ε α) := fun s => (.ok (m s).1, (m s).2)

variable {m : Fallible σ ε α} {s : σ} {E : ε → σ → Prop}

/-- A failure ends the program. -/
theorem bind_of_error {e : ε} (h : (m s).1 = .error e) (f : α → Fallible σ ε β) :
    (m >>= f) s = (.error e, (m s).2) := by
  show (match m s with
    | (.ok a, t) => f a t
    | (.error e, t) => (Except.error e, t)) = _
  generalize m s = outcome at h ⊢
  obtain ⟨result, t⟩ := outcome
  cases h
  rfl

theorem bind_of_ok {a : α} (h : (m s).1 = .ok a) (f : α → Fallible σ ε β) :
    (m >>= f) s = f a (m s).2 := by
  show (match m s with
    | (.ok a, t) => f a t
    | (.error e, t) => (Except.error e, t)) = _
  generalize m s = outcome at h ⊢
  obtain ⟨result, t⟩ := outcome
  cases h
  rfl

/-- From `s`, the program returns with `Q` or fails with `E`. -/
def Ends (m : Fallible σ ε α) (s : σ) (Q : α → σ → Prop) (E : ε → σ → Prop) : Prop :=
  match m s with
  | (.ok a, t) => Q a t
  | (.error e, t) => E e t

theorem ends_get {Q : σ → σ → Prop} : (get : Fallible σ ε σ).Ends s Q E ↔ Q s s := Iff.rfl

theorem ends_modify {f : σ → σ} {Q : Unit → σ → Prop} :
    (modify f : Fallible σ ε Unit).Ends s Q E ↔ Q () (f s) := Iff.rfl

theorem ends_bind {f : α → Fallible σ ε β} {Q : β → σ → Prop} :
    (m >>= f).Ends s Q E ↔ m.Ends s (fun a t => (f a).Ends t Q E) E := by
  show (match (match m s with
      | (.ok a, t) => f a t
      | (.error e, t) => (.error e, t)) with
    | (.ok a, t) => Q a t
    | (.error e, t) => E e t) ↔ (match m s with
    | (.ok a, t) => (f a).Ends t Q E
    | (.error e, t) => E e t)
  rcases m s with ⟨_ | _, _⟩
  · rfl
  · rfl

theorem ends_observe {Q : Except ε α → σ → Prop} :
    m.observe.Ends s Q E ↔ m.Ends s (fun a => Q (.ok a)) (fun e => Q (.error e)) := by
  show Q (m s).1 (m s).2 ↔ (match m s with
    | (.ok a, t) => Q (.ok a) t
    | (.error e, t) => Q (.error e) t)
  rcases m s with ⟨_ | _, _⟩
  · rfl
  · rfl

/-- What is known of the end may be weakened. -/
theorem Ends.mono {Q Q' : α → σ → Prop} {E' : ε → σ → Prop} (h : m.Ends s Q E)
    (hQ : ∀ a t, Q a t → Q' a t) (hE : ∀ e t, E e t → E' e t) : m.Ends s Q' E' := by
  unfold Ends at h ⊢
  split
  next heq =>
    rw [heq] at h
    exact hQ _ _ h
  next heq =>
    rw [heq] at h
    exact hE _ _ h

/-- A property of the state after the program, however it ended. -/
theorem Ends.state {P : σ → Prop} (h : m.Ends s (fun _ => P) (fun _ => P)) : P (m s).2 := by
  unfold Ends at h
  split at h
  next heq =>
    rw [heq]
    exact h
  next heq =>
    rw [heq]
    exact h

end Fallible

end Herden.Lib
