import Mathlib.Data.List.Basic

/-!
# `Herden.Runtime.Events`: the event hub and its event subscriptions

Embedding of `runtime/src/api/event_hub.rs` and of the event subscriptions of
`runtime/src/api/subscriptions.rs`. The hub numbers every event it is given and keeps the
last 512 of them. A subscription holds the number of the last event it looked at; a batch
poll reads the hub once, under its lock, and then walks what it read.

The hub never looks into an event's data, so `EventData` is a parameter. `serde_json`'s
`to_value` is a parameter of the poll. `next_sequence` is a `u64` in the source and a `Nat`
here: no process pushes `2 ^ 64` events. `poisoned` is set when a thread panics while it
holds the lock.
-/

namespace Herden.Runtime.Events

inductive EventKind where
  | workspaceCreated
  | workspaceUpdated
  | workspaceMetadataUpdated
  | workspaceClosed
  | workspaceRenamed
  | workspaceMoved
  | workspaceReordered
  | workspaceFocused
  | worktreeCreated
  | worktreeOpened
  | worktreeRemoved
  | tabCreated
  | tabClosed
  | tabRenamed
  | tabMoved
  | tabFocused
  | paneCreated
  | paneClosed
  | paneUpdated
  | paneFocused
  | paneMoved
  | paneOutputChanged
  | paneExited
  | paneAgentDetected
  | paneAgentStatusChanged
  | layoutUpdated
deriving DecidableEq

structure EventEnvelope (EventData : Type) where
  event : EventKind
  data : EventData
deriving DecidableEq

structure ErrorBody where
  code : String
  message : String
deriving DecidableEq

/-! ### The hub -/

structure EventHub (EventData : Type) where
  nextSequence : Nat
  events : List (Nat × EventEnvelope EventData)
  poisoned : Bool

inductive EventHistoryError where
  | lost
  | unavailable

namespace EventHub

variable {EventData : Type}

/-- `EventHub::default()`. -/
def default : EventHub EventData where
  nextSequence := 0
  events := []
  poisoned := false

/-- `EventHub::MAX_EVENTS`. -/
def maxEvents : Nat := 512

def push (hub : EventHub EventData) (event : EventEnvelope EventData) : EventHub EventData :=
  if hub.poisoned then hub
  else
    let sequence := hub.nextSequence + 1
    let events := hub.events ++ [(sequence, event)]
    let overflow := events.length - maxEvents
    { hub with nextSequence := sequence, events := events.drop overflow }

def eventsAfter (hub : EventHub EventData) (sequence : Nat) :
    List (Nat × EventEnvelope EventData) :=
  if hub.poisoned then [] else hub.events.filter (fun entry => entry.1 > sequence)

def currentSequence (hub : EventHub EventData) : Nat :=
  if hub.poisoned then 0 else hub.nextSequence

def eventsAfterChecked (hub : EventHub EventData) (sequence : Nat) :
    Except EventHistoryError (List (Nat × EventEnvelope EventData)) :=
  if hub.poisoned then .error .unavailable
  else if hub.events.head?.any (fun first => sequence < first.1 - 1) then .error .lost
  else .ok (hub.events.filter (fun entry => entry.1 > sequence))

end EventHub

/-! ### Event subscriptions -/

structure ActiveEventSubscription where
  eventKind : EventKind
  lastSequence : Nat

section Poll

variable {EventData Value : Type}

def eventsLostBody : ErrorBody where
  code := "events_lost"
  message :=
    "event subscription fell behind retained history; resubscribe and resync with session.snapshot"

def eventsUnavailableBody : ErrorBody where
  code := "server_unavailable"
  message := "event history is unavailable"

def subscriptionEventsAfter (hub : EventHub EventData) (sequence : Nat) :
    Except ErrorBody (List (Nat × EventEnvelope EventData)) :=
  match hub.eventsAfterChecked sequence with
  | .ok events => .ok events
  | .error .lost => .error eventsLostBody
  | .error .unavailable => .error eventsUnavailableBody

def eventEncodingError (error : String) : ErrorBody where
  code := "internal_error"
  message := "failed to encode subscription event: " ++ error

/-- The loop of `poll_batch` over the events it read. The cursor moves over every event,
matching or not, and keeps its place when an event fails to encode. -/
def pollEvents (toValue : EventEnvelope EventData → Except String Value) :
    ActiveEventSubscription → List (Nat × EventEnvelope EventData) → List Value →
    ActiveEventSubscription × Except ErrorBody (List Value)
  | subscription, [], matching => (subscription, .ok matching)
  | subscription, (sequence, event) :: rest, matching =>
      let subscription := { subscription with lastSequence := sequence }
      if event.event = subscription.eventKind then
        match toValue event with
        | .ok value => pollEvents toValue subscription rest (matching ++ [value])
        | .error error => (subscription, .error (eventEncodingError error))
      else pollEvents toValue subscription rest matching

/-- `ActiveSubscription::poll_batch` for an event subscription. -/
def pollBatch (toValue : EventEnvelope EventData → Except String Value)
    (subscription : ActiveEventSubscription) (hub : EventHub EventData) :
    ActiveEventSubscription × Except ErrorBody (List Value) :=
  match subscriptionEventsAfter hub subscription.lastSequence with
  | .error error => (subscription, .error error)
  | .ok events => pollEvents toValue subscription events []

end Poll

end Herden.Runtime.Events
