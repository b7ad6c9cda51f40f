import Mathlib.Data.List.Basic

/-!
# `Herden.Lib.Search`: where a pattern first occurs

`firstIndex` is the place of the first occurrence of a pattern in a list. What it finds does not
depend on what follows (`firstIndex_append_of_some`). It finds nothing before a place where no
occurrence starts (`firstIndex_append_of_free`), and `Free` says so of a list and what follows it,
so that an occurrence that straddles the two counts as well.
-/

namespace Herden.Lib

variable {α : Type*}

/-- No occurrence of the pattern starts in `items` when `more` follows. -/
def Free (pattern items more : List α) : Prop :=
  ∀ before after, items = before ++ after → after ≠ [] → ¬ pattern <+: after ++ more

variable {pattern items more : List α}

theorem Free.nil : Free pattern [] more := by
  intro before after hsplit hafter
  exact absurd (List.append_eq_nil_iff.mp hsplit.symm).2 hafter

theorem free_cons {item : α} :
    Free pattern (item :: items) more
      ↔ ¬ pattern <+: item :: items ++ more ∧ Free pattern items more := by
  constructor
  · intro h
    constructor
    · exact h [] (item :: items) rfl (List.cons_ne_nil _ _)
    · intro before after hsplit hafter
      exact h (item :: before) after (by rw [hsplit]; rfl) hafter
  · rintro ⟨hfirst, hrest⟩ before after hsplit hafter
    cases before with
    | nil =>
      rw [List.nil_append] at hsplit
      rw [← hsplit]
      exact hfirst
    | cons first before =>
      exact hrest before after (List.cons.inj hsplit).2 hafter

/-- In front of an occurrence it does not matter what follows this. -/
theorem Free.swap {before after : List α} (h : Free pattern before (pattern ++ after))
    (more : List α) : Free pattern before (pattern ++ more) := by
  intro front back hsplit hback hfront
  have hlength : pattern.length ≤ (back ++ pattern).length := by
    rw [List.length_append]
    omega
  rw [← List.append_assoc] at hfront
  have hinside := List.prefix_of_prefix_length_le hfront (List.prefix_append _ more) hlength
  refine h front back hsplit hback (hinside.trans ⟨after, ?_⟩)
  rw [List.append_assoc]

section

variable [DecidableEq α]

/-- The first place where the pattern, which is not empty, occurs. -/
def firstIndex (pattern : List α) : List α → Option Nat
  | [] => none
  | item :: rest =>
      if pattern.isPrefixOf (item :: rest) then some 0 else (firstIndex pattern rest).map (· + 1)

/-- Nothing is found before a place where no occurrence starts. -/
theorem firstIndex_append_of_free (h : Free pattern items more) :
    firstIndex pattern (items ++ more) = (firstIndex pattern more).map (· + items.length) := by
  induction items with
  | nil =>
    rw [List.nil_append]
    simp
  | cons item rest ih =>
    obtain ⟨hfirst, hrest⟩ := free_cons.mp h
    have hfront : ¬ pattern.isPrefixOf (item :: (rest ++ more)) = true := fun hpattern =>
      hfirst (List.isPrefixOf_iff_prefix.mp hpattern)
    rw [List.cons_append, firstIndex, if_neg hfront, ih hrest, Option.map_map]
    congr 1

/-- What is found is an occurrence, and none starts before it. -/
theorem firstIndex_spec {index : Nat} (h : firstIndex pattern items = some index) :
    ∃ before after, items = before ++ (pattern ++ after) ∧ before.length = index
      ∧ Free pattern before (pattern ++ after) := by
  induction items generalizing index with
  | nil => cases h
  | cons item rest ih =>
    unfold firstIndex at h
    split at h
    next hpattern =>
      obtain ⟨after, hafter⟩ := List.isPrefixOf_iff_prefix.mp hpattern
      cases h
      exact ⟨[], after, hafter.symm, rfl, Free.nil⟩
    next hpattern =>
      obtain ⟨found, hfound, rfl⟩ := Option.map_eq_some_iff.mp h
      obtain ⟨before, after, hrest, hlength, hfree⟩ := ih hfound
      refine ⟨item :: before, after, by rw [hrest]; rfl, by rw [List.length_cons, hlength], ?_⟩
      rw [free_cons, List.cons_append, ← hrest]
      exact ⟨fun hfront => hpattern (List.isPrefixOf_iff_prefix.mpr hfront), hfree⟩

/-- Where nothing is found the pattern does not occur. -/
theorem free_of_firstIndex_eq_none (h : firstIndex pattern items = none) :
    Free pattern items [] := by
  induction items with
  | nil => exact Free.nil
  | cons item rest ih =>
    unfold firstIndex at h
    split at h
    next => cases h
    next hpattern =>
      rw [free_cons, List.append_nil]
      exact ⟨fun hfront => hpattern (List.isPrefixOf_iff_prefix.mpr hfront),
        ih (Option.map_eq_none_iff.mp h)⟩

/-- An occurrence with nothing before it is found where it is. -/
theorem firstIndex_of_free {before after : List α} (hpattern : pattern ≠ [])
    (h : Free pattern before (pattern ++ after)) :
    firstIndex pattern (before ++ (pattern ++ after)) = some before.length := by
  rw [firstIndex_append_of_free h]
  cases pattern with
  | nil => exact absurd rfl hpattern
  | cons first pattern =>
    rw [List.cons_append, firstIndex, if_pos]
    · simp
    · exact List.isPrefixOf_iff_prefix.mpr ⟨after, rfl⟩

end

end Herden.Lib
