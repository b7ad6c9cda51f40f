import Mathlib.Data.List.Basic

/-!
# `Herden.Lib.Ledger`: the fate of every item a queue accepted

A ledger lists the items a queue accepted, in the order it accepted them, each with its
fate so far: still pending, delivered, or dropped. It is what an observer of the queue's
calls writes down, and it says exactly-once delivery without a ticket on the items: an
entry is written once, its fate is settled once, and the items with a given fate are a
sublist of the accepted ones.

`Ledger.Fifo` holds of the ledger of a first-in-first-out queue: nothing settled stands
behind something pending.
-/

namespace Herden.Lib

variable {α : Type*}

inductive Fate where
  | pending
  | delivered
  | dropped
deriving DecidableEq

/-- Accepted items in order, each with its fate. -/
abbrev Ledger (α : Type*) := List (α × Fate)

namespace Ledger

/-- The items with one fate, in the order they were accepted. -/
def withFate (fate : Fate) (ledger : Ledger α) : List α :=
  (ledger.filter (fun entry => entry.2 = fate)).map Prod.fst

/-- A newly accepted item is pending. -/
def accept (ledger : Ledger α) (item : α) : Ledger α := ledger ++ [(item, .pending)]

/-- The oldest pending item is delivered. -/
def deliver : Ledger α → Ledger α
  | [] => []
  | (item, .pending) :: rest => (item, .delivered) :: rest
  | entry :: rest => entry :: deliver rest

/-- The pending items that `p` picks get a fate. -/
def settle (p : α → Bool) (fate : Fate) (ledger : Ledger α) : Ledger α :=
  ledger.map (fun entry => if entry.2 = .pending ∧ p entry.1 then (entry.1, fate) else entry)

/-- Everything pending is dropped. -/
def dropPending (ledger : Ledger α) : Ledger α := ledger.settle (fun _ => true) .dropped

/-- Behind a pending entry everything is pending. -/
def Fifo (ledger : Ledger α) : Prop :=
  ledger.Pairwise (fun older newer => older.2 = .pending → newer.2 = .pending)

theorem withFate_cons (fate : Fate) (entry : α × Fate) (rest : Ledger α) :
    withFate fate (entry :: rest)
      = if entry.2 = fate then entry.1 :: withFate fate rest else withFate fate rest := by
  unfold withFate
  by_cases h : entry.2 = fate
  · rw [List.filter_cons_of_pos (by simpa using h), if_pos h, List.map_cons]
  · rw [List.filter_cons_of_neg (by simpa using h), if_neg h]

@[simp] theorem withFate_accept (fate : Fate) (ledger : Ledger α) (item : α) :
    withFate fate (ledger.accept item)
      = withFate fate ledger ++ if fate = .pending then [item] else [] := by
  cases fate <;> simp [withFate, accept, List.filter_append]

variable {fate : Fate} {ledger : Ledger α}

/-- What was settled is no longer pending. -/
theorem pending_settle (hfate : fate ≠ .pending) (p : α → Bool) (ledger : Ledger α) :
    withFate .pending (ledger.settle p fate) = (withFate .pending ledger).filter (!p ·) := by
  induction ledger with
  | nil => rfl
  | cons entry rest ih =>
    obtain ⟨item, old⟩ := entry
    rw [settle, List.map_cons, ← settle, withFate_cons, withFate_cons, ih]
    cases old <;> cases hp : p item <;> simp [hp, hfate]

/-- A fate that is neither pending nor the one handed out keeps its items. -/
theorem withFate_settle_of_ne {other : Fate} (hother : other ≠ fate) (hpending : other ≠ .pending)
    (p : α → Bool) (ledger : Ledger α) :
    withFate other (ledger.settle p fate) = withFate other ledger := by
  induction ledger with
  | nil => rfl
  | cons entry rest ih =>
    obtain ⟨item, old⟩ := entry
    rw [settle, List.map_cons, ← settle, withFate_cons, withFate_cons, ih]
    by_cases h : old = .pending ∧ p item
    · obtain ⟨rfl, hp⟩ := h
      simp [hp, hother.symm, hpending.symm]
    · simp only [if_neg h]

/-- The items settled now join those with the same fate. -/
theorem perm_withFate_settle (hfate : fate ≠ .pending) (p : α → Bool) (ledger : Ledger α) :
    (withFate fate (ledger.settle p fate)).Perm
      (withFate fate ledger ++ (withFate .pending ledger).filter p) := by
  induction ledger with
  | nil => exact .refl _
  | cons entry rest ih =>
    obtain ⟨item, old⟩ := entry
    rw [settle, List.map_cons, ← settle, withFate_cons, withFate_cons, withFate_cons]
    by_cases hpending : old = .pending
    · subst hpending
      cases hp : p item
      · simpa [hp, hfate.symm] using ih
      · simp only [hp, and_self, if_true, if_neg hfate.symm, List.filter_cons_of_pos]
        exact (ih.cons item).trans List.perm_middle.symm
    · by_cases hold : old = fate
      · subst hold
        simpa [hpending] using ih.cons item
      · simpa [hpending, hold] using ih

@[simp] theorem pending_dropPending (ledger : Ledger α) :
    withFate .pending (dropPending ledger) = [] := by
  rw [dropPending, pending_settle (by decide)]
  simp

@[simp] theorem delivered_dropPending (ledger : Ledger α) :
    withFate .delivered (dropPending ledger) = withFate .delivered ledger :=
  withFate_settle_of_ne (by decide) (by decide) _ _

theorem dropped_deliver (ledger : Ledger α) :
    withFate .dropped (deliver ledger) = withFate .dropped ledger := by
  induction ledger with
  | nil => rfl
  | cons entry rest ih =>
    obtain ⟨item, fate⟩ := entry
    cases fate <;> simp [deliver, withFate_cons, ih]

/-- The oldest pending item leaves the pending ones. -/
theorem pending_deliver (ledger : Ledger α) :
    withFate .pending (deliver ledger) = (withFate .pending ledger).tail := by
  induction ledger with
  | nil => rfl
  | cons entry rest ih =>
    obtain ⟨item, fate⟩ := entry
    cases fate <;> simp [deliver, withFate_cons, ih]

/-- Behind a pending entry nothing is delivered. -/
theorem delivered_eq_nil {item : α} {rest : Ledger α} (h : Fifo ((item, .pending) :: rest)) :
    withFate .delivered rest = [] := by
  have hall := (List.pairwise_cons.mp h).1
  simp only [withFate, List.map_eq_nil_iff, List.filter_eq_nil_iff, decide_eq_true_eq]
  intro entry hentry
  simp [hall entry hentry rfl]

/-- In a first-in-first-out ledger the item delivered next comes after those delivered
before. -/
theorem delivered_deliver (h : Fifo ledger) : withFate .delivered (deliver ledger)
      = withFate .delivered ledger ++ (withFate .pending ledger).head?.toList := by
  induction ledger with
  | nil => rfl
  | cons entry rest ih =>
    obtain ⟨item, fate⟩ := entry
    have htail := ih (List.pairwise_cons.mp h).2
    cases fate with
    | pending => simp [deliver, withFate_cons, delivered_eq_nil h]
    | delivered => simp [deliver, withFate_cons, htail]
    | dropped => simp [deliver, withFate_cons, htail]

theorem Fifo.accept (h : Fifo ledger) (item : α) : Fifo (ledger.accept item) := by
  refine List.pairwise_append.mpr ⟨h, List.pairwise_singleton _ _, ?_⟩
  intro older _ newer hnewer _
  rw [List.mem_singleton.mp hnewer]

theorem Fifo.dropPending (h : Fifo ledger) : Fifo ledger.dropPending := by
  refine List.pairwise_map.mpr (h.imp ?_)
  rintro ⟨older, fate⟩ newer _ hpending
  cases fate <;> simp at hpending

/-- Delivering keeps every pending entry behind the settled ones. -/
theorem Fifo.deliver (h : Fifo ledger) : Fifo ledger.deliver := by
  induction ledger with
  | nil => exact h
  | cons entry rest ih =>
    obtain ⟨item, fate⟩ := entry
    obtain ⟨_, htail⟩ := List.pairwise_cons.mp h
    cases fate with
    | pending => exact List.pairwise_cons.mpr ⟨fun newer _ hp => (by cases hp), htail⟩
    | delivered => exact List.pairwise_cons.mpr ⟨fun newer _ hp => (by cases hp), ih htail⟩
    | dropped => exact List.pairwise_cons.mpr ⟨fun newer _ hp => (by cases hp), ih htail⟩

end Ledger

end Herden.Lib
