import Herden.Lib.Run
import Herden.Proofs.EventHub

/-!
# `Herden.Proofs.Events`: an event subscription misses nothing silently

A `Session` is one hub, one event subscription on it and an observer, who writes down every
event pushed, every value delivered and the sequence the hub had reached at the last
successful poll. The `n`-th event pushed has sequence `n`, so the observer's list is the
whole history (`Lib.numberedFrom 0`) of which the hub keeps a suffix.

`reachable_delivery` proves, along every interleaving of pushes and polls: the values
delivered are those of the matching events between the start of the subscription and the
last polled sequence, in push order, each once; and a poll reports lost events exactly when
an event the subscription has not looked at is no longer in the hub.

`serde_json`'s `to_value` is total on events: they hold no map with keys other than strings.
-/

namespace Herden.Proofs.Events

open Herden.Lib (Reachable numberedFrom window)
open Herden.Runtime.Events
open Herden.Proofs.EventHub (Logged)

variable {EventData Value : Type}

/-! ### The observed session -/

/-- A hub, a subscription, and what an observer of the calls wrote down. -/
structure Session (EventData Value : Type) where
  hub : EventHub EventData
  subscription : ActiveEventSubscription
  pushed : List (EventEnvelope EventData)
  delivered : List Value
  polled : Nat

inductive Op (EventData : Type) where
  | push (event : EventEnvelope EventData)
  | pollBatch

inductive Answer (Value : Type) where
  | unit
  | polled (result : Except ErrorBody (List Value))

/-- One call. The values of a successful poll are delivered to the subscriber. -/
def sessionStep (toValue : EventEnvelope EventData → Except String Value)
    (s : Session EventData Value) : Op EventData → Option (Session EventData Value × Answer Value)
  | .push event =>
      some ({ s with hub := s.hub.push event, pushed := s.pushed ++ [event] }, .unit)
  | .pollBatch =>
      match pollBatch toValue s.subscription s.hub with
      | (subscription, .ok values) =>
          some ({ s with
              subscription := subscription
              delivered := s.delivered ++ values
              polled := s.hub.nextSequence }, .polled (.ok values))
      | (subscription, .error error) =>
          some ({ s with subscription := subscription }, .polled (.error error))

/-- A subscription to one kind of event that starts at sequence `start`. -/
def Start (start : Nat) (kind : EventKind) (s : Session EventData Value) : Prop :=
  s = ⟨.default, ⟨kind, start⟩, [], [], 0⟩

/-- The encoded events of one kind with a sequence above `low` and at most `high`. -/
def matching (encode : EventEnvelope EventData → Value) (kind : EventKind) (low high : Nat)
    (pushed : List (EventEnvelope EventData)) : List Value :=
  ((window low high (numberedFrom 0 pushed)).filter (fun entry => entry.2.event = kind)).map
    (fun entry => encode entry.2)

/-- An event that was pushed and is no longer in the hub. -/
def Evicted (s : Session EventData Value) (entry : Nat × EventEnvelope EventData) : Prop :=
  entry ∈ numberedFrom 0 s.pushed ∧ entry ∉ s.hub.events

/-- How many of the events pushed so far the hub has dropped. -/
def evictedCount (pushed : List (EventEnvelope EventData)) : Nat :=
  pushed.length - EventHub.maxEvents

/-- The hub holds the last 512 events with their numbers, the cursor stands where the last
successful poll left it, and everything up to there was delivered. -/
structure Delivery (encode : EventEnvelope EventData → Value) (start : Nat) (kind : EventKind)
    (s : Session EventData Value) : Prop where
  healthy : s.hub.poisoned = false
  sequence : s.hub.nextSequence = s.pushed.length
  events : s.hub.events = numberedFrom (evictedCount s.pushed)
      (s.pushed.drop (evictedCount s.pushed))
  kind_eq : s.subscription.eventKind = kind
  cursor : s.subscription.lastSequence = max start s.polled
  polled_le : s.polled ≤ s.pushed.length
  delivered : s.delivered = matching encode kind start s.polled s.pushed

/-! ### The hub -/

section Hub

variable {encode : EventEnvelope EventData → Value} {start : Nat} {kind : EventKind}
  {s : Session EventData Value}

theorem Delivery.logged (h : Delivery encode start kind s) : Logged s.hub s.pushed :=
  ⟨h.healthy, h.sequence, h.events⟩

/-- A push appends the next number and drops what no longer fits. -/
theorem Delivery.push (h : Delivery encode start kind s) (event : EventEnvelope EventData) :
    Delivery encode start kind
      { s with hub := s.hub.push event, pushed := s.pushed ++ [event] } := by
  obtain ⟨hhealthy, hsequence, hevents⟩ := h.logged.push event
  refine { h with
    healthy := hhealthy, sequence := hsequence, events := hevents, polled_le := ?_,
    delivered := ?_ }
  · simp only [List.length_append]
    have := h.polled_le
    omega
  · rw [h.delivered]
    simp only [matching]
    rw [Lib.window_append _ _ (.inl h.polled_le)]

/-- What a checked read returns: lost events when the cursor lies before the oldest kept
event, and otherwise everything behind the cursor. -/
theorem Delivery.subscriptionEventsAfter (h : Delivery encode start kind s) (sequence : Nat) :
    subscriptionEventsAfter s.hub sequence =
      if sequence < evictedCount s.pushed then .error eventsLostBody
      else .ok (numberedFrom sequence (s.pushed.drop sequence)) := by
  have hfirst : s.hub.events.head?.any (fun first => sequence < first.1 - 1)
      = decide (sequence < evictedCount s.pushed) := by
    rw [h.events]
    cases hdrop : s.pushed.drop (evictedCount s.pushed) with
    | nil =>
      -- nothing is kept only when nothing was pushed
      have hlen := congrArg List.length hdrop
      simp only [List.length_drop, List.length_nil, evictedCount, EventHub.maxEvents] at hlen
      have hzero : evictedCount s.pushed = 0 := by
        simp only [evictedCount, EventHub.maxEvents]
        omega
      simp [numberedFrom, hzero]
    | cons first rest => simp [numberedFrom]
  simp only [Runtime.Events.subscriptionEventsAfter, EventHub.eventsAfterChecked, h.healthy,
    Bool.false_eq_true, if_false, hfirst, decide_eq_true_eq]
  by_cases hlost : sequence < evictedCount s.pushed
  · simp only [if_pos hlost]
  · simp only [if_neg hlost, gt_iff_lt]
    rw [h.events, Lib.filter_lt_numberedFrom, Lib.drop_numberedFrom, List.drop_drop,
      Nat.add_sub_cancel' (Nat.le_of_not_lt hlost)]

/-- Something behind the cursor is evicted exactly when the cursor lies before the oldest
kept event. -/
theorem Delivery.evicted_iff (h : Delivery encode start kind s) (sequence : Nat) :
    (∃ entry, sequence < entry.1 ∧ Evicted s entry) ↔ sequence < evictedCount s.pushed := by
  have hle : evictedCount s.pushed ≤ s.pushed.length := Nat.sub_le _ _
  constructor
  · rintro ⟨entry, hbehind, hpushed, hgone⟩
    by_contra hkept
    have hnumber : evictedCount s.pushed < entry.1 := by omega
    exact hgone ((h.logged.mem_events entry).mpr ⟨hpushed, hnumber⟩)
  · intro hlost
    have hnumbered : evictedCount s.pushed ≤ 0 + s.pushed.length := by omega
    obtain ⟨event, hmem⟩ := Lib.exists_mem_numberedFrom (by omega) hnumbered
    refine ⟨(evictedCount s.pushed, event), hlost, hmem, fun hkept => ?_⟩
    rw [h.events] at hkept
    have := (Lib.lt_of_mem_numberedFrom hkept).1
    omega

end Hub

/-! ### The poll -/

/-- The loop over consecutive events: the cursor ends behind the last of them and every
matching event is collected once, in order. -/
theorem pollEvents_eq {toValue : EventEnvelope EventData → Except String Value}
    {encode : EventEnvelope EventData → Value}
    (hencode : ∀ event, toValue event = .ok (encode event))
    (kind : EventKind) (n : Nat) (items : List (EventEnvelope EventData)) (acc : List Value) :
    pollEvents toValue ⟨kind, n⟩ (numberedFrom n items) acc =
      (⟨kind, n + items.length⟩,
        .ok (acc ++ ((numberedFrom n items).filter (fun entry => entry.2.event = kind)).map
          (fun entry => encode entry.2))) := by
  induction items generalizing n acc with
  | nil => simp [numberedFrom, pollEvents]
  | cons event rest ih =>
    have hlen : n + 1 + rest.length = n + (event :: rest).length := by
      rw [List.length_cons]
      omega
    by_cases hkind : event.event = kind
    · simp only [numberedFrom, pollEvents, hkind, if_true, hencode]
      rw [ih, hlen, List.filter_cons_of_pos (by simp [hkind])]
      simp
    · simp only [numberedFrom, pollEvents, hkind, if_false]
      rw [ih, hlen, List.filter_cons_of_neg (by simp [hkind])]

section Poll

variable {toValue : EventEnvelope EventData → Except String Value}
  {encode : EventEnvelope EventData → Value} {start : Nat} {kind : EventKind}
  {s : Session EventData Value}

/-- A poll either reports lost events and moves nothing, or delivers every matching event
behind the cursor and moves the cursor to the end of the history. -/
theorem Delivery.pollBatch_eq (hencode : ∀ event, toValue event = .ok (encode event))
    (h : Delivery encode start kind s) :
    pollBatch toValue s.subscription s.hub =
      if s.subscription.lastSequence < evictedCount s.pushed then
        (s.subscription, .error eventsLostBody)
      else
        (⟨kind, max start s.pushed.length⟩,
          .ok ((((numberedFrom 0 s.pushed).drop s.subscription.lastSequence).filter
            (fun entry => entry.2.event = kind)).map (fun entry => encode entry.2))) := by
  rw [pollBatch, h.subscriptionEventsAfter]
  by_cases hlost : s.subscription.lastSequence < evictedCount s.pushed
  · simp only [if_pos hlost]
  · simp only [if_neg hlost]
    have hsubscription : s.subscription = ⟨kind, s.subscription.lastSequence⟩ := by
      rw [← h.kind_eq]
    have hend : s.subscription.lastSequence + (s.pushed.drop s.subscription.lastSequence).length
        = max start s.pushed.length := by
      rw [List.length_drop, h.cursor]
      have := h.polled_le
      omega
    conv_lhs => rw [hsubscription]
    rw [pollEvents_eq hencode, hend, List.nil_append, Lib.drop_numberedFrom, Nat.zero_add]

/-- A successful poll keeps the books right. -/
theorem Delivery.poll (h : Delivery encode start kind s) :
    Delivery encode start kind { s with
      subscription := ⟨kind, max start s.pushed.length⟩
      delivered := s.delivered ++
        (((numberedFrom 0 s.pushed).drop s.subscription.lastSequence).filter
          (fun entry => entry.2.event = kind)).map (fun entry => encode entry.2)
      polled := s.hub.nextSequence } := by
  refine { h with kind_eq := rfl, cursor := ?_, polled_le := ?_, delivered := ?_ }
  · rw [h.sequence]
  · exact Nat.le_of_eq h.sequence
  · have hstart : start ≤ s.subscription.lastSequence := by
      rw [h.cursor]
      exact Nat.le_max_left _ _
    have hextend := Lib.window_extend hstart s.pushed
    have hwindow := Lib.window_max start s.polled s.pushed
    rw [← h.cursor] at hwindow
    simp only [matching, h.sequence, hextend, hwindow, List.filter_append, List.map_append]
    rw [h.delivered, matching]

theorem Delivery.step (hencode : ∀ event, toValue event = .ok (encode event))
    (h : Delivery encode start kind s) (op : Op EventData) {t : Session EventData Value}
    {answer : Answer Value} (hstep : sessionStep toValue s op = some (t, answer)) :
    Delivery encode start kind t := by
  cases op with
  | push event =>
    cases hstep
    exact h.push event
  | pollBatch =>
    simp only [sessionStep, h.pollBatch_eq hencode] at hstep
    by_cases hlost : s.subscription.lastSequence < evictedCount s.pushed
    · simp only [if_pos hlost] at hstep
      cases hstep
      exact h
    · simp only [if_neg hlost] at hstep
      cases hstep
      exact h.poll

end Poll

/-! ### The run -/

/-- Along every interleaving of pushes and polls: the events delivered are exactly the
matching ones with a sequence above the start and at most the last polled sequence, in push
order; the cursor is the last polled sequence, or the start; and a poll reports lost events
exactly when an event behind the cursor was evicted. -/
theorem reachable_delivery {toValue : EventEnvelope EventData → Except String Value}
    {encode : EventEnvelope EventData → Value}
    (hencode : ∀ event, toValue event = .ok (encode event)) {start : Nat} {kind : EventKind}
    {s : Session EventData Value}
    (h : Reachable (Start start kind) (fun _ _ => True) (sessionStep toValue) s) :
    s.delivered = matching encode kind start s.polled s.pushed ∧
      s.subscription.lastSequence = max start s.polled ∧
      ((∃ entry, s.subscription.lastSequence < entry.1 ∧ Evicted s entry) →
        pollBatch toValue s.subscription s.hub = (s.subscription, .error eventsLostBody)) ∧
      ((¬ ∃ entry, s.subscription.lastSequence < entry.1 ∧ Evicted s entry) →
        ∃ subscription values,
          pollBatch toValue s.subscription s.hub = (subscription, .ok values)) := by
  have hinv : Delivery encode start kind s := by
    refine h.invariant _ ?_ (fun s op t answer _ hstep hs => hs.step hencode op hstep)
    rintro _ rfl
    exact ⟨rfl, rfl, by simp [EventHub.default, numberedFrom], rfl, (Nat.max_zero _).symm,
      Nat.le_refl _, rfl⟩
  refine ⟨hinv.delivered, hinv.cursor, ?_⟩
  rw [hinv.evicted_iff, hinv.pollBatch_eq hencode]
  exact ⟨fun hlost => if_pos hlost, fun hkept => ⟨_, _, if_neg hkept⟩⟩

/-- Two events of one kind around another: the poll delivers the two. -/
theorem reachable_delivery_two_events :
    ∃ s : Session Nat Nat, s.polled = 3 ∧ s.delivered = [10, 30] ∧
      s.delivered = matching (fun event => event.data) .paneExited 0 s.polled s.pushed := by
  have hstart : Reachable (Start 0 .paneExited) (fun _ _ => True)
      (sessionStep fun event : EventEnvelope Nat => .ok event.data) _ := .start rfl
  have h := Reachable.next (.push ⟨.paneExited, 30⟩) (.next (.push ⟨.paneMoved, 20⟩)
    (.next (.push ⟨.paneExited, 10⟩) hstart trivial rfl) trivial rfl) trivial rfl
  have hpoll := Reachable.next .pollBatch h trivial
    (by simp [sessionStep, pollBatch, subscriptionEventsAfter, EventHub.eventsAfterChecked,
      EventHub.push, EventHub.default, EventHub.maxEvents, pollEvents]; exact ⟨rfl, rfl⟩)
  exact ⟨_, rfl, rfl, (reachable_delivery (fun _ => rfl) hpoll).1⟩

end Herden.Proofs.Events
