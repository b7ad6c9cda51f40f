import Herden.Lib.Numbered
import Herden.Runtime.Events

/-!
# `Herden.Proofs.EventHub`: what the hub keeps of its history

An observer writes down every event that is pushed. The `n`-th of them has sequence `n`, so the
observer's list with its numbers (`numberedFrom 0`) is the whole history. `Logged` says that the hub
keeps the last 512 entries of it, and the lemmas say what a reader gets.
-/

namespace Herden.Proofs.EventHub

open Herden.Lib (numberedFrom)
open Herden.Runtime.Events

variable {EventData : Type} {hub : EventHub EventData} {pushed : List (EventEnvelope EventData)}

/-- How many of the events pushed so far the hub has dropped. -/
def evicted (pushed : List (EventEnvelope EventData)) : Nat :=
  pushed.length - EventHub.maxEvents

/-- The hub holds the last 512 of the events that were pushed, with their numbers. -/
structure Logged (hub : EventHub EventData) (pushed : List (EventEnvelope EventData)) : Prop where
  healthy : hub.poisoned = false
  sequence : hub.nextSequence = pushed.length
  events : hub.events = numberedFrom (evicted pushed) (pushed.drop (evicted pushed))

theorem logged_default : Logged (EventHub.default : EventHub EventData) [] :=
  ⟨rfl, rfl, by simp [EventHub.default, numberedFrom]⟩

/-- A push appends the next number and drops what no longer fits. -/
theorem Logged.push (h : Logged hub pushed) (event : EventEnvelope EventData) :
    Logged (hub.push event) (pushed ++ [event]) := by
  have hcount : evicted pushed ≤ pushed.length := Nat.sub_le _ _
  have happend : hub.events ++ [(hub.nextSequence + 1, event)]
      = numberedFrom (evicted pushed) ((pushed ++ [event]).drop (evicted pushed)) := by
    rw [h.events, h.sequence, List.drop_append_of_le_length hcount, Lib.numberedFrom_append,
      List.length_drop, Nat.add_sub_cancel' hcount]
    rfl
  have hcount' : evicted (pushed ++ [event]) = evicted pushed
      + ((hub.events ++ [(hub.nextSequence + 1, event)]).length - EventHub.maxEvents) := by
    rw [happend, Lib.length_numberedFrom, List.length_drop, List.length_append]
    simp only [evicted, List.length_append, List.length_singleton]
    omega
  refine ⟨?_, ?_, ?_⟩
  · simp [EventHub.push, h.healthy]
  · simp [EventHub.push, h.healthy, h.sequence]
  · simp only [EventHub.push, h.healthy, Bool.false_eq_true, if_false]
    rw [hcount', ← List.drop_drop, ← Lib.drop_numberedFrom, ← happend]

theorem Logged.currentSequence (h : Logged hub pushed) :
    hub.currentSequence = pushed.length := by
  simp [EventHub.currentSequence, h.healthy, h.sequence]

/-- An entry of the history is in the hub when it was not dropped. -/
theorem Logged.mem_events (h : Logged hub pushed) (entry : Nat × EventEnvelope EventData) :
    entry ∈ hub.events ↔ entry ∈ numberedFrom 0 pushed ∧ evicted pushed < entry.1 := by
  have hdrop := Lib.filter_lt_numberedFrom 0 (evicted pushed) pushed
  rw [Nat.sub_zero, Lib.drop_numberedFrom, Nat.zero_add, ← h.events] at hdrop
  rw [← hdrop, List.mem_filter]
  simp

/-- An unchecked read returns the entries after the cursor that were not dropped. -/
theorem Logged.mem_eventsAfter (h : Logged hub pushed) (sequence : Nat)
    (entry : Nat × EventEnvelope EventData) :
    entry ∈ hub.eventsAfter sequence ↔ entry ∈ hub.events ∧ sequence < entry.1 := by
  simp [EventHub.eventsAfter, h.healthy]

end Herden.Proofs.EventHub
