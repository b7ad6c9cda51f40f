import Mathlib.Data.List.Basic

/-!
# `Herden.Lib.Framing`: greedy framing does not depend on where reads split

A recogniser looks at a buffer and answers with the length of its first complete frame, or
with nothing. `Splits` is the greedy loop around it: frames are cut off the front until none
is complete. If the recogniser is *prefix stable* (what it recognised stays recognised, with
the same length, when more input follows), then framing the input piece by piece gives the
same frames and the same rest as framing it at once (`Splits.append`), and no item is lost,
duplicated or reordered (`Splits.flatten`).
-/

namespace Herden.Lib

variable {α : Type*}

/-- Recognised input stays recognised when more input follows. -/
def PrefixStable {β : Type*} (f : List α → Option β) : Prop :=
  ∀ xs ys value, f xs = some value → f (xs ++ ys) = some value

/-- A recogniser of frames: every frame is a nonempty prefix of the buffer, and more input
does not change it. -/
structure Recogniser (next : List α → Option Nat) : Prop where
  pos : ∀ xs len, next xs = some len → 0 < len
  le : ∀ xs len, next xs = some len → len ≤ xs.length
  stable : PrefixStable next

/-- The greedy loop: `buffer` is cut into `frames` and an unfinished `rest`. -/
inductive Splits (next : List α → Option Nat) : List α → List (List α) → List α → Prop
  | stop {buffer : List α} : next buffer = none → Splits next buffer [] buffer
  | frame {buffer rest : List α} {len : Nat} {frames : List (List α)} :
      next buffer = some len → Splits next (buffer.drop len) frames rest →
      Splits next buffer (buffer.take len :: frames) rest

namespace Splits

variable {next : List α → Option Nat} {buffer rest : List α} {frames : List (List α)}

/-- Nothing is lost, duplicated or reordered. -/
theorem flatten (h : Splits next buffer frames rest) : frames.flatten ++ rest = buffer := by
  induction h with
  | stop => rfl
  | frame _ _ ih => rw [List.flatten_cons, List.append_assoc, ih, List.take_append_drop]

/-- The rest holds no complete frame. -/
theorem rest_eq_none (h : Splits next buffer frames rest) : next rest = none := by
  induction h with
  | stop h => exact h
  | frame _ _ ih => exact ih

variable {frames' : List (List α)} {rest' : List α}

/-- The loop is deterministic. -/
theorem unique (h : Splits next buffer frames rest) (h' : Splits next buffer frames' rest') :
    frames = frames' ∧ rest = rest' := by
  induction h generalizing frames' with
  | stop hnone =>
    cases h' with
    | stop => exact ⟨rfl, rfl⟩
    | frame hsome => rw [hnone] at hsome; cases hsome
  | frame hsome _ ih =>
    cases h' with
    | stop hnone => rw [hnone] at hsome; cases hsome
    | frame hsome' h' =>
      rw [hsome] at hsome'
      cases hsome'
      obtain ⟨rfl, rfl⟩ := ih h'
      exact ⟨rfl, rfl⟩

/-- Framing more input behind the rest of what was framed before is framing it all. -/
theorem append (hnext : Recogniser next) {more : List α} (h : Splits next buffer frames rest)
    (h' : Splits next (rest ++ more) frames' rest') :
    Splits next (buffer ++ more) (frames ++ frames') rest' := by
  induction h with
  | stop => exact h'
  | @frame buffer rest len frames hsome _ ih =>
    have hle := hnext.le _ _ hsome
    have hstable := hnext.stable _ more _ hsome
    have htake : buffer.take len = (buffer ++ more).take len :=
      (List.take_append_of_le_length hle).symm
    have hdrop : buffer.drop len ++ more = (buffer ++ more).drop len :=
      (List.drop_append_of_le_length hle).symm
    rw [List.cons_append, htake]
    exact .frame hstable (hdrop ▸ ih h')

/-- Every buffer splits. -/
theorem exists_of_recogniser (hnext : Recogniser next) (buffer : List α) :
    ∃ frames rest, Splits next buffer frames rest := by
  induction hlen : buffer.length using Nat.strongRecOn generalizing buffer with
  | ind n ih =>
    cases hsome : next buffer with
    | none => exact ⟨[], buffer, .stop hsome⟩
    | some len =>
      have hpos := hnext.pos _ _ hsome
      have hle := hnext.le _ _ hsome
      obtain ⟨frames, rest, h⟩ := ih (buffer.drop len).length
        (by rw [List.length_drop]; omega) (buffer.drop len) rfl
      exact ⟨_, rest, .frame hsome h⟩

end Splits

/-! ### Prefix-stable searches -/

section Search

variable {β γ : Type*}

theorem PrefixStable.map {f : List α → Option β} (hf : PrefixStable f) (g : β → γ) :
    PrefixStable (fun xs => (f xs).map g) := by
  intro xs ys value h
  obtain ⟨found, hfound, rfl⟩ := Option.map_eq_some_iff.mp h
  simp only [hf xs ys found hfound, Option.map_some]

/-- A first position stays the first position. -/
theorem prefixStable_findIdx? (p : α → Bool) : PrefixStable (List.findIdx? p) := by
  intro xs ys i h
  rw [List.findIdx?_append, h]
  rfl

/-- A prefix that only the longer input has covers the whole shorter input. -/
theorem eq_take_of_prefix_append {start xs ys : List α} (hshort : ¬ start <+: xs)
    (hlong : start <+: xs ++ ys) : xs.length < start.length ∧ xs = start.take xs.length := by
  have hxs : xs <+: xs ++ ys := List.prefix_append xs ys
  have hlt : xs.length < start.length := by
    by_contra hge
    exact hshort (List.prefix_of_prefix_length_le hlong hxs (by omega))
  exact ⟨hlt, List.prefix_iff_eq_take.mp
    (List.prefix_of_prefix_length_le hxs hlong (by omega))⟩

end Search

end Herden.Lib
