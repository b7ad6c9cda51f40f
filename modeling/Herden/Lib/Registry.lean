import Herden.Lib.HashMap

/-!
# `Herden.Lib.Registry`: numbers that are handed out once

A registry gives keys a number each and keeps the next one to hand out. `Numbering` is its
invariant: the numbers are positive, distinct and below the counter. `NoReuse` compares two
moments of a registry: the counter never goes back, and a number from before the first moment
that is still in use at the second one belongs to the key it belonged to. It composes, so what
one operation keeps holds across any run.
-/

namespace Herden.Lib

variable {κ : Type} [DecidableEq κ]

/-- The numbers in use are positive, below the counter and belong to one key each. -/
structure Numbering (numbers : HashMap κ Nat) (next : Nat) : Prop where
  next_pos : 0 < next
  range : ∀ key n, numbers.get key = some n → 0 < n ∧ n < next
  distinct : ∀ a b n, numbers.get a = some n → numbers.get b = some n → a = b

/-- Between two moments the counter did not go back, and no number from before the first
went to another key. -/
structure NoReuse (numbers : HashMap κ Nat) (next : Nat) (later : HashMap κ Nat) (laterNext : Nat) :
    Prop where
  next_le : next ≤ laterNext
  same : ∀ key n, later.get key = some n → n < next → numbers.get key = some n

variable {next : Nat} {numbers : HashMap κ Nat}

variable {fewer : HashMap κ Nat}

/-- Dropping entries keeps a numbering. -/
theorem Numbering.of_sub (h : Numbering numbers next)
    (hsub : ∀ key n, fewer.get key = some n → numbers.get key = some n) : Numbering fewer next where
  next_pos := h.next_pos
  range key n hn := h.range key n (hsub key n hn)
  distinct a b n ha hb := h.distinct a b n (hsub a n ha) (hsub b n hb)

/-- Handing the next number out. -/
theorem Numbering.insert_next (h : Numbering numbers next) (key : κ) :
    Numbering (numbers.insert key next) (next + 1) where
  next_pos := by omega
  range other n hn := by
    rw [HashMap.get_insert] at hn
    split at hn
    · cases hn
      have := h.next_pos
      omega
    · have := h.range other n hn
      omega
  distinct a b n ha hb := by
    rw [HashMap.get_insert] at ha hb
    -- the new number is above every other one, so two keys with one number are both new or
    -- both old
    split at ha
    next hkey =>
      split at hb
      next hkey' => rw [hkey, hkey']
      next =>
        cases ha
        have := (h.range b next hb).2
        omega
    next =>
      split at hb
      next =>
        cases hb
        have := (h.range a next ha).2
        omega
      next => exact h.distinct a b n ha hb

theorem NoReuse.refl (numbers : HashMap κ Nat) (next : Nat) :
    NoReuse numbers next numbers next where
  next_le := le_refl next
  same _ _ hn _ := hn

theorem NoReuse.trans {first second third : HashMap κ Nat} {n₁ n₂ n₃ : Nat}
    (h : NoReuse first n₁ second n₂) (h' : NoReuse second n₂ third n₃) :
    NoReuse first n₁ third n₃ where
  next_le := Nat.le_trans h.next_le h'.next_le
  same key n hn hlt := h.same key n (h'.same key n hn (Nat.lt_of_lt_of_le hlt h.next_le)) hlt

theorem NoReuse.of_sub (next : Nat)
    (hsub : ∀ key n, fewer.get key = some n → numbers.get key = some n) :
    NoReuse numbers next fewer next where
  next_le := le_refl next
  same key n hn _ := hsub key n hn

theorem NoReuse.insert_next (numbers : HashMap κ Nat) (next : Nat) (key : κ) :
    NoReuse numbers next (numbers.insert key next) (next + 1) where
  next_le := by omega
  same other n hn hlt := by
    rw [HashMap.get_insert] at hn
    split at hn
    · cases hn
      omega
    · exact hn

/-- Two keys that carry one number, each at its moment, are one key. -/
theorem NoReuse.key_eq {later : HashMap κ Nat} {laterNext : Nat}
    (h : NoReuse numbers next later laterNext) (hnumbers : Numbering numbers next) {a b : κ}
    {n : Nat} (ha : numbers.get a = some n) (hb : later.get b = some n) : b = a :=
  hnumbers.distinct b a n (h.same b n hb (hnumbers.range a n ha).2) ha

end Herden.Lib
