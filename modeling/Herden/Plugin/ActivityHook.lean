import Herden.Lib.Concurrent
import Herden.Lib.HashMap

/-!
# `Herden.Plugin.ActivityHook`: the processes of the Live Activity hook

Embedding of `main` (`plugin/src/activity-hook.js`) and of the maps of
`plugin/src/activity-state.js` it compares. One process runs `main` for each change of an
agent's status. `advance` takes it from one access of shared state to the next: the two files
`last-state.json` and `claim.json`, the clock, the agent list, and the relay. A file that is
missing or not JSON reads as `none`. Commands and deliveries succeed, so a push reaches every
device.

`buildActivityState` and the sealed envelopes are left out: they shape what a device shows and
decide nothing here. `toLowerCase` is the one of the language.
-/

namespace Herden.Plugin.ActivityHook

open Herden.Lib (HashMap System)

abbrev StatusMap := HashMap String String

/-- The token of a device. -/
abbrev Device := String

/-- An entry of the agent list, with the fields that are strings. -/
structure Agent where
  paneId : Option String
  agentStatus : Option String

/-- `parseStatusEvent`. -/
structure Event where
  paneId : String
  status : String

/-- `last-state.json`. -/
structure LastState where
  sentAtMs : Nat
  statuses : StatusMap
  ended : Bool

/-- `claim.json`. -/
structure Claim where
  pid : Nat
  claimedAtMs : Nat

inductive PushEvent where
  | update
  | ended
deriving DecidableEq

structure Push where
  event : PushEvent
  priority : Nat
  timestamp : Nat
  statuses : StatusMap

/-! ### Maps of statuses -/

def eligibleStatuses : List String := ["working", "blocked", "done"]

def isEligible (status : String) : Bool := eligibleStatuses.contains status

section

variable (toLowerCase : String → String)

def parseEligible (agent : Agent) : Option (String × String) :=
  let pane := agent.paneId.getD ""
  let status := (agent.agentStatus.map toLowerCase).getD ""
  if pane.isEmpty || !isEligible status then none else some (pane, status)

def eligibleStatusMap (agents : List Agent) : StatusMap :=
  agents.foldl (fun map agent =>
    match parseEligible toLowerCase agent with
    | none => map
    | some (pane, status) => map.insert pane status) ∅

end

def sameStatusMap (left right : StatusMap) : Bool :=
  let keysA := left.keys.mergeSort (· ≤ ·)
  let keysB := right.keys.mergeSort (· ≤ ·)
  keysA.length = keysB.length &&
    (keysA.zip keysB).all fun keys => keys.1 = keys.2 && left.get keys.1 = right.get keys.1

/-- Some pane is blocked now and was not blocked before. -/
def hasNewlyBlocked (current : StatusMap) (previous : Option StatusMap) : Bool :=
  current.entries.any fun entry =>
    entry.2 = "blocked" && (previous.getD ∅).get entry.1 ≠ some "blocked"

/-! ### The files -/

/-- `lastState?.ended === true`. -/
def isEnded (lastState : Option LastState) : Bool := lastState.any (·.ended)

def claimSuperseded (ours : Claim) : Option Claim → Bool
  | none => false
  | some latest =>
      latest.claimedAtMs > ours.claimedAtMs ||
        latest.claimedAtMs = ours.claimedAtMs && latest.pid ≠ ours.pid

/-- Nothing to send: the statuses are the ones last sent, or there are none and the activity
has ended. -/
def suppressed (lastState : Option LastState) (statuses : StatusMap) : Bool :=
  lastState.any (fun state => sameStatusMap statuses state.statuses) ||
    statuses.entries.isEmpty && isEnded lastState

/-! ### One process -/

structure Shared where
  agents : List Agent
  devices : List Device
  lastState : Option LastState
  claim : Option Claim
  /-- `Date.now()`. -/
  clock : Nat
  /-- What the relay delivered, oldest first. -/
  sent : List (Device × Push)

/-- Where a process stands in `main`. -/
inductive Phase where
  | absent
  | started (event : Event)
  | read (last : Option LastState)
  | stamped (last : Option LastState) (claim : Claim)
  | sleeping (last : Option LastState) (claim : Claim)
  | elected (last : Option LastState)
  | listing (last : Option LastState) (devices : List Device)
  | pushing (push : Push) (remaining : List Device)
  | finished

section

variable (toLowerCase : String → String)

/-- The push for these statuses. -/
def pushFor (last : Option LastState) (statuses : StatusMap) (now : Nat) : Push where
  event := if statuses.entries.isEmpty then .ended else .update
  priority := if hasNewlyBlocked statuses (last.map (·.statuses)) then 10 else 5
  timestamp := now / 1000
  statuses := statuses

def advance (pid : Nat) (shared : Shared) : Phase → Option (Shared × Phase)
  | .absent => none
  | .started event =>
      -- cheap exits before a debounce
      if shared.devices.isEmpty then some (shared, .finished)
      else if isEnded shared.lastState && !isEligible event.status then some (shared, .finished)
      else some (shared, .read shared.lastState)
  | .read last => some (shared, .stamped last ⟨pid, shared.clock⟩)
  | .stamped last claim => some ({ shared with claim := some claim }, .sleeping last claim)
  | .sleeping last claim =>
      if claimSuperseded claim shared.claim then some (shared, .finished)
      else some (shared, .elected last)
  | .elected last =>
      if shared.devices.isEmpty then some (shared, .finished)
      else some (shared, .listing last shared.devices)
  | .listing last devices =>
      let statuses := eligibleStatusMap toLowerCase shared.agents
      if suppressed last statuses then some (shared, .finished)
      else some (shared, .pushing (pushFor last statuses shared.clock) devices)
  | .pushing push (device :: rest) =>
      some ({ shared with sent := shared.sent ++ [(device, push)] }, .pushing push rest)
  | .pushing push [] =>
      some ({ shared with
        lastState := some ⟨shared.clock, push.statuses, push.event = .ended⟩ }, .finished)
  | .finished => none

/-! ### All processes -/

abbrev State := System Shared Nat Phase

inductive Op where
  /-- An agent changes its status, and the host starts a process for the event. -/
  | change (agents : List Agent) (event : Event) (pid : Nat)
  | tick (now : Nat)
  | register (devices : List Device)
  | run (pid : Nat)

def step (state : State) : Op → Option (State × Unit)
  | .change agents event pid =>
      some (state.set pid { state.shared with agents := agents } (.started event), ())
  | .tick now => some ({ state with shared := { state.shared with clock := now } }, ())
  | .register devices =>
      some ({ state with shared := { state.shared with devices := devices } }, ())
  | .run pid =>
      (advance toLowerCase pid state.shared (state.process pid)).map fun next =>
        (state.set pid next.1 next.2, ())

/-- Of the eligible statuses, only that of the event's pane changes, to the event's status. -/
def StatusChange (before after : StatusMap) (event : Event) : Prop :=
  (∀ pane, pane ≠ event.paneId → after.get pane = before.get pane) ∧
    after.get event.paneId = if isEligible event.status then some event.status else none

/-- A pid is used once, the clock does not go back, and some device is registered. -/
def Allowed (state : State) : Op → Prop
  | .change agents event pid =>
      state.process pid = .absent ∧
        StatusChange (eligibleStatusMap toLowerCase state.shared.agents)
          (eligibleStatusMap toLowerCase agents) event
  | .tick now => state.shared.clock ≤ now
  | .register devices => devices ≠ []
  | .run _ => True

end

end Herden.Plugin.ActivityHook
