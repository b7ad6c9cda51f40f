import Herden.Lib.Grid
import Mathlib.Algebra.Group.Nat.Defs

/-!
# `Herden.Lib.Machine`: arithmetic and slices that can fail

Numbers of a machine word as naturals, with operations that have no result where the machine's
would overflow, and slices that have none where they leave the list. A computation written with
these has a result exactly when no step of it goes wrong.
-/

namespace Herden.Lib.Machine

/-- The sum of two numbers, where it has so many bits. -/
def add? (bits a b : Nat) : Option Nat := if a + b < 2 ^ bits then some (a + b) else none

def mul? (bits a b : Nat) : Option Nat := if a * b < 2 ^ bits then some (a * b) else none

def sub? (a b : Nat) : Option Nat := if b ≤ a then some (a - b) else none

/-- The sum, or the largest number there is. -/
def saturatingAdd (bits a b : Nat) : Nat := min (a + b) (2 ^ bits - 1)

variable {a b bits : Nat}

theorem add?_eq (h : a + b < 2 ^ bits) : add? bits a b = some (a + b) := if_pos h

theorem mul?_eq (h : a * b < 2 ^ bits) : mul? bits a b = some (a * b) := if_pos h

theorem sub?_eq (h : b ≤ a) : sub? a b = some (a - b) := if_pos h

/-- Below the largest number a saturated sum is the sum. -/
theorem saturatingAdd_le {bound : Nat} (h : bound < 2 ^ bits - 1) :
    saturatingAdd bits a b ≤ bound ↔ a + b ≤ bound := by
  unfold saturatingAdd
  omega

section

variable {α : Type}

/-- The items from `start` up to `stop`. -/
def slice? (items : List α) (start stop : Nat) : Option (List α) :=
  if start ≤ stop ∧ stop ≤ items.length then some ((items.drop start).take (stop - start)) else none

/-- Copy items over those from `start` up to `stop`, which must be as many. -/
def copyInto? (items : List α) (start stop : Nat) (new : List α) : Option (List α) :=
  if start ≤ stop ∧ stop ≤ items.length ∧ new.length = stop - start then
    some (setSlice items start new)
  else none

variable {items : List α} {start : Nat}

theorem slice?_eq {stop : Nat} (hle : start ≤ stop) (hstop : stop ≤ items.length) :
    slice? items start stop = some ((items.drop start).take (stop - start)) := if_pos ⟨hle, hstop⟩

theorem copyInto?_eq {new : List α} (h : start + new.length ≤ items.length) :
    copyInto? items start (start + new.length) new = some (setSlice items start new) :=
  if_pos ⟨Nat.le_add_right _ _, h, (Nat.add_sub_cancel_left _ _).symm⟩

end

/-! ### Computations that do not fail -/

section

variable {α β σ : Type}

variable {items : List α}

variable {f : α → Option β} {g : α → β}

theorem mapM_eq_some (h : ∀ item ∈ items, f item = some (g item)) :
    items.mapM f = some (items.map g) := by
  induction items with
  | nil => rfl
  | cons first rest ih =>
    rw [List.mapM_cons, h first (by simp), ih fun item hmem => h item (by simp [hmem])]
    rfl

/-- A step that succeeds under a condition, for all items. -/
theorem mapM_eq_some_iff {condition : α → Prop}
    (h : ∀ item result, f item = some result ↔ condition item ∧ result = g item)
    {results : List β} :
    items.mapM f = some results
      ↔ (∀ item ∈ items, condition item) ∧ results = items.map g := by
  by_cases hall : ∀ item ∈ items, condition item
  · rw [mapM_eq_some fun item hmem => (h item (g item)).mpr ⟨hall item hmem, rfl⟩,
      Option.some.injEq]
    exact ⟨fun heq => ⟨hall, heq.symm⟩, fun hmap => hmap.2.symm⟩
  · constructor
    · intro hmap
      refine absurd (fun item hmem => ?_) hall
      obtain ⟨result, hresult⟩ : ∃ result, f item = some result := by
        induction items generalizing results with
        | nil => cases hmem
        | cons first rest ih =>
          rw [List.mapM_cons] at hmap
          obtain ⟨result, hfirst, hmap⟩ := Option.bind_eq_some_iff.mp hmap
          obtain ⟨found, hrest, -⟩ := Option.bind_eq_some_iff.mp hmap
          rcases List.mem_cons.mp hmem with rfl | hmem
          · exact ⟨result, hfirst⟩
          · refine ih (fun hrestAll => hall fun other hother => ?_) hrest hmem
            rcases List.mem_cons.mp hother with rfl | hother
            · exact ((h other result).mp hfirst).1
            · exact hrestAll other hother
      exact ((h item result).mp hresult).1
    · exact fun hmap => absurd hmap.1 hall

theorem filterM_eq_some {f : α → Option Bool} {g : α → Bool}
    (h : ∀ item ∈ items, f item = some (g item)) : items.filterM f = some (items.filter g) := by
  -- The loop keeps what it has found in reverse.
  have hloop : ∀ found : List α,
      List.filterAuxM f items found = some ((items.filter g).reverse ++ found) := by
    induction items with
    | nil => exact fun found => rfl
    | cons first rest ih =>
      intro found
      unfold List.filterAuxM
      rw [h first (by simp)]
      show List.filterAuxM f rest (cond (g first) (first :: found) found) = _
      rw [ih fun item hmem => h item (by simp [hmem]), List.filter_cons]
      cases g first with
      | false => rfl
      | true => simp
  unfold List.filterM
  rw [hloop]
  simp

/-- Two loops with the same steps from every state that the loop can be in. -/
theorem foldlM_congr {f g : σ → α → Option σ} (inv : σ → Prop)
    (hsame : ∀ state item, item ∈ items → inv state → f state item = g state item)
    (hstep : ∀ state item next, item ∈ items → inv state → g state item = some next → inv next)
    {state : σ} (hinv : inv state) : items.foldlM f state = items.foldlM g state := by
  induction items generalizing state with
  | nil => rfl
  | cons first rest ih =>
    rw [List.foldlM_cons, List.foldlM_cons, hsame state first (by simp) hinv]
    cases hnext : g state first with
    | none => rfl
    | some next =>
      exact ih (fun state item hmem => hsame state item (by simp [hmem]))
        (fun state item next hmem => hstep state item next (by simp [hmem]))
        (hstep state first next (by simp) hinv hnext)

end

end Herden.Lib.Machine
