import Herden.App.Events
import Herden.Lib.HashMap
import Herden.Lib.Text

/-!
# `Herden.App.HostConsole`: the updates of a Host and the Console's projection of them

Embedding of `EventsSession.yieldUpdate` (`Sources/Herden/Transport/EventsSession.swift`) with the
bounded stream it writes to, and of the snapshot and event handling of `HostConsoleProjection`
(`Sources/Herden/Console/HostConsoleProjection.swift`).

The stream is an `AsyncStream` with `.bufferingNewest(limit)`. A yield goes straight to the consumer
when it waits, else to the end of the buffer, and a full buffer loses its oldest element. The
projection lives on the main actor: one function runs from one `await` to the next. The resync task
is one process with three places to wait: for its turn, for the snapshot, and for the session to
take the new subscriptions.

A row of the Console is an `Agent` with its status and its two titles. Workspaces, shells, snippets,
removals and latencies take no part in this and are left out. Counters are 64 bit and wrap in the
source. They are numbers here: no run of the app makes `2 ^ 64` steps.
-/

namespace Herden.App.HostConsole

open Herden.App.Events
open Herden.Lib (HashMap)
open Herden.Lib.Text (trim)

/-! ### The stream of updates -/

/-- An `AsyncStream` of updates with one consumer. `waiting` is a consumer suspended in `next`, and
`handed` is the element that `next` returned and the consumer has not handled. -/
structure UpdateStream where
  limit : Nat
  pending : List EventsSessionUpdate
  waiting : Bool
  handed : Option EventsSessionUpdate

namespace UpdateStream

def new (limit : Nat) : UpdateStream := ⟨limit, [], false, none⟩

/-- `yield`, with the element that was dropped. -/
def yield (stream : UpdateStream) (update : EventsSessionUpdate) :
    UpdateStream × Option EventsSessionUpdate :=
  if stream.waiting then ({ stream with waiting := false, handed := some update }, none)
  else if stream.pending.length < stream.limit then
    ({ stream with pending := stream.pending ++ [update] }, none)
  else
    match stream.pending with
    | oldest :: rest => ({ stream with pending := rest ++ [update] }, some oldest)
    | [] => (stream, some update)

/-- `next`, by a consumer that has handled its last element. -/
def next (stream : UpdateStream) : UpdateStream :=
  match stream.pending with
  | update :: rest => { stream with pending := rest, handed := some update }
  | [] => { stream with waiting := true }

end UpdateStream

/-- `yieldUpdate`, with the updates that were shed. -/
def yieldUpdate (stream : UpdateStream) (update : EventsSessionUpdate) :
    UpdateStream × List EventsSessionUpdate :=
  match stream.yield update with
  | (stream, none) => (stream, [])
  | (stream, some dropped) =>
    match stream.yield (.event .eventsDropped) with
    | (stream, none) => (stream, [dropped])
    | (stream, some also) => (stream, [dropped, also])

/-! ### The projection -/

structure Agent where
  paneID : Text
  status : AgentStatus
  title : Text
  automaticName : Option Text

/-- The agents of a `SessionSnapshot`, as `Agent.init` maps them. -/
abbrev SessionSnapshot := List Agent

/-- Where the resync task stands. `requesting` carries what `runResync` read before its request. -/
inductive ResyncTask where
  | scheduled
  | requesting (epochBeforeSnapshot statusRevisionBeforeSnapshot : Nat)
  | updating

structure HostConsoleProjection where
  status : Option EventsSessionStatus
  standingFailure : Option TransportError
  hasEnded : Bool
  isAwaitingSnapshot : Bool
  resyncTask : Option ResyncTask
  resyncPending : Bool
  resyncRetryScheduled : Bool
  snapshotEpoch : Nat
  snapshotRequestGeneration : Nat
  statusChangeRevision : Nat
  latestStatusChanges : HashMap Text (Nat × AgentStatus)
  agentsByPane : HashMap Text Agent
  lastKnownAgentsByPane : HashMap Text Agent

namespace HostConsoleProjection

def new : HostConsoleProjection where
  status := none
  standingFailure := none
  hasEnded := false
  isAwaitingSnapshot := true
  resyncTask := none
  resyncPending := false
  resyncRetryScheduled := false
  snapshotEpoch := 0
  snapshotRequestGeneration := 0
  statusChangeRevision := 0
  latestStatusChanges := ∅
  agentsByPane := ∅
  lastKnownAgentsByPane := ∅

def scheduleResync (p : HostConsoleProjection) : HostConsoleProjection :=
  if p.hasEnded ∨ p.status ≠ some .connected then p
  else if p.resyncTask.isSome then { p with resyncPending := true }
  else { p with resyncTask := some .scheduled }

def invalidateSnapshot (p : HostConsoleProjection) : HostConsoleProjection :=
  { p with
    lastKnownAgentsByPane :=
      if p.isAwaitingSnapshot then p.lastKnownAgentsByPane else p.agentsByPane
    snapshotEpoch := p.snapshotEpoch + 1
    isAwaitingSnapshot := true
    resyncPending := false
    resyncRetryScheduled := false
    latestStatusChanges := ∅
    agentsByPane := ∅ }

/-- The row of a pane after a status change. -/
def changedRow (row : Agent) (change : StatusChange) : Agent :=
  let row := { row with status := change.agentStatus }
  match change.title with
  | none => row
  | some title =>
    let trimmed := trim title
    if trimmed.isEmpty then { row with automaticName := none }
    else { row with automaticName := some trimmed, title := trimmed }

/-- `applyStatusChange`, with the status it returns. -/
def applyStatusChange (p : HostConsoleProjection) (change : Option StatusChange) :
    HostConsoleProjection × Option AgentStatus :=
  match change with
  | none => (p, none)
  | some change =>
    let revision := p.statusChangeRevision + 1
    let p := { p with
      statusChangeRevision := revision
      latestStatusChanges :=
        p.latestStatusChanges.insert change.paneID (revision, change.agentStatus) }
    match p.agentsByPane.get change.paneID with
    | none => (p, some change.agentStatus)
    | some row =>
      ({ p with agentsByPane := p.agentsByPane.insert change.paneID (changedRow row change) },
        some change.agentStatus)

/-- `membershipKinds`. -/
def membershipKinds : List GlobalEventKind :=
  [.paneAgentDetected, .paneClosed, .paneExited, .workspaceCreated, .workspaceRenamed,
    .workspaceMetadataUpdated, .workspaceClosed]

/-- The failure that stands after a status. -/
def standingAfter (standing : Option TransportError) : EventsSessionStatus → Option TransportError
  | .failed failure => some failure
  | .connected => none
  | .reconnecting _ _ _ => none
  | _ => standing

def handle (p : HostConsoleProjection) (update : EventsSessionUpdate) : HostConsoleProjection :=
  if p.hasEnded then p
  else
    match update with
    | .status status =>
      let p := { p with
        status := some status
        standingFailure := standingAfter p.standingFailure status }
      if status = .connected then p.scheduleResync else p.invalidateSnapshot
    | .event (.agentStatusChanged change) =>
      let changed := p.applyStatusChange change
      if changed.2 = some .unknown then changed.1.scheduleResync else changed.1
    | .event (.global kind) => if membershipKinds.contains kind then p.scheduleResync else p
    | .event .eventsDropped => p.scheduleResync
    | .event (.other _) => p

/-! ### The resync task -/

/-- The task gets its turn: `runResync` up to its request. -/
def beginResync (p : HostConsoleProjection) : HostConsoleProjection :=
  { p with
    snapshotRequestGeneration := p.snapshotRequestGeneration + 1
    resyncTask := some (.requesting p.snapshotEpoch p.statusChangeRevision) }

/-- The end of the task, after `runResync`. -/
def finishResync (p : HostConsoleProjection) : HostConsoleProjection :=
  if p.hasEnded then p
  else
    let p := { p with resyncTask := none }
    if p.resyncPending then { p with resyncPending := false }.scheduleResync else p

/-- The rows of a snapshot, with the statuses that changed after the request began. -/
def rowsOf (snapshot : SessionSnapshot) (changes : HashMap Text (Nat × AgentStatus))
    (snapshotStartRevision : Nat) : HashMap Text Agent :=
  let next : HashMap Text Agent :=
    snapshot.foldl (fun rows agent => rows.insert agent.paneID agent) ∅
  next.mapValues fun paneID row =>
    match changes.get paneID with
    | some (revision, status) =>
      if snapshotStartRevision < revision then { row with status := status } else row
    | none => row

def apply (p : HostConsoleProjection) (snapshot : SessionSnapshot) (snapshotStartRevision : Nat) :
    HostConsoleProjection :=
  { p with
    latestStatusChanges := ∅
    isAwaitingSnapshot := false
    agentsByPane := rowsOf snapshot p.latestStatusChanges snapshotStartRevision }

def scheduleSnapshotRetry (p : HostConsoleProjection) : HostConsoleProjection :=
  if p.resyncRetryScheduled ∨ p.hasEnded ∨ p.status ≠ some .connected then p
  else { p with resyncRetryScheduled := true }

/-- The answer to the request: a snapshot, or `none` for a failure. -/
def respond (p : HostConsoleProjection) (epochBeforeSnapshot statusRevisionBeforeSnapshot : Nat)
    (answer : Option SessionSnapshot) : HostConsoleProjection :=
  if p.hasEnded ∨ p.status ≠ some .connected ∨ p.snapshotEpoch ≠ epochBeforeSnapshot then
    p.finishResync
  else
    match answer with
    | some snapshot =>
      { { p with resyncRetryScheduled := false }.apply snapshot statusRevisionBeforeSnapshot with
        resyncTask := some .updating }
    | none => p.scheduleSnapshotRetry.finishResync

/-- The retry timer fires. -/
def retryResync (p : HostConsoleProjection) : HostConsoleProjection :=
  if ¬ p.resyncRetryScheduled ∨ p.hasEnded ∨ p.status ≠ some .connected then p
  else { p with resyncRetryScheduled := false }.scheduleResync

end HostConsoleProjection

end Herden.App.HostConsole
