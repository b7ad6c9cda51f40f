import Herden.Lib.Concurrent

/-!
# `Herden.Plugin.NotifyHook`: the processes of the notification hook

Embedding of `main` (`plugin/src/notify-hook.js`) for one pane. One process runs `main` for each
change of the status of the pane's agent. `advance` takes it from one access of shared state to the
next: the marker file of the pane, the status that `herdr agent get` answers, the registration file,
and the relay. Commands succeed and every push is delivered, so no token is pruned.

The statuses are those of `AgentStatus` (`runtime/src/api/schema/common.rs`), whose names on the
wire are in lower case. What a push shows besides the status (the agent, the project, the title, the
time) and how it is sealed is left out: it decides nothing here.
-/

namespace Herden.Plugin.NotifyHook

open Herden.Lib (System)

inductive AgentStatus where
  | idle
  | working
  | blocked
  | done
  | unknown
deriving DecidableEq

def AgentStatus.wire : AgentStatus → String
  | .idle => "idle"
  | .working => "working"
  | .blocked => "blocked"
  | .done => "done"
  | .unknown => "unknown"

/-- The preference of a device that a status needs. -/
inductive Flag where
  | blocked
  | done
deriving DecidableEq

/-- `NOTIFY_FLAG_BY_STATUS`. -/
def notifyFlag : AgentStatus → Option Flag
  | .blocked => some .blocked
  | .done => some .done
  | _ => none

def notifyWorthy (status : AgentStatus) : Bool := (notifyFlag status).isSome

/-! ### The registration file -/

/-- An entry of the registration file, with the key after `base64url`. -/
structure DeviceEntry where
  token : Option String
  env : Option String
  /-- The flags of `notify` that are `true`. -/
  notify : List Flag
  key : Option (List UInt8)

structure Device where
  token : String
  env : String
  key : List UInt8
deriving DecidableEq

def apnsEnvironments : List String := ["production", "sandbox"]

def keyBytes : Nat := 32

/-- The device of an entry, or `none` when the entry is skipped. -/
def eligibleDevice (flag : Flag) (entry : DeviceEntry) : Option Device := do
  let token ← entry.token
  let env ← entry.env
  let key ← entry.key
  if token.isEmpty || !apnsEnvironments.contains env || !entry.notify.contains flag ||
      key.length ≠ keyBytes then
    none
  else return ⟨token, env, key⟩

/-- `none` for a file that is absent, corrupt or of another version. -/
def readEligibleDevices (file : Option (List DeviceEntry)) (status : AgentStatus) : List Device :=
  match notifyFlag status with
  | none => []
  | some flag => (file.getD []).filterMap (eligibleDevice flag)

/-! ### One process -/

structure Shared where
  /-- What `herdr agent get` answers, `none` when the agent is gone. -/
  status : Option AgentStatus
  /-- `last_notified_status`. -/
  lastNotified : Option String
  registration : Option (List DeviceEntry)
  /-- What the relay delivered, oldest first. -/
  sent : List (Device × AgentStatus)

/-- Where a process stands in `main`, with the status of its event. -/
inductive Phase where
  | absent
  | started (status : AgentStatus)
  | registering (status : AgentStatus)
  | sleeping (status : AgentStatus)
  /-- About to clear the marker. -/
  | clearing
  | confirmed (status : AgentStatus)
  | choosing (status : AgentStatus)
  | pushing (status : AgentStatus) (remaining : List Device)
  | finished
deriving DecidableEq

def advance (shared : Shared) : Phase → Option (Shared × Phase)
  | .absent => none
  | .started status =>
      -- cheap exits before a debounce
      if notifyWorthy status && shared.lastNotified = some status.wire then some (shared, .finished)
      else if !notifyWorthy status && shared.lastNotified.isNone then some (shared, .finished)
      else if notifyWorthy status then some (shared, .registering status)
      else some (shared, .sleeping status)
  | .registering status =>
      if (readEligibleDevices shared.registration status).isEmpty then some (shared, .finished)
      else some (shared, .sleeping status)
  | .sleeping status =>
      match shared.status with
      | none => some (shared, .clearing)
      | some current =>
          if current ≠ status then some (shared, .finished)
          else if !notifyWorthy status then some (shared, .clearing)
          else some (shared, .confirmed status)
  | .clearing => some ({ shared with lastNotified := none }, .finished)
  | .confirmed status =>
      if shared.lastNotified = some status.wire then some (shared, .finished)
      else some (shared, .choosing status)
  | .choosing status =>
      let devices := readEligibleDevices shared.registration status
      if devices.isEmpty then some (shared, .finished) else some (shared, .pushing status devices)
  | .pushing status (device :: rest) =>
      some ({ shared with sent := shared.sent ++ [(device, status)] }, .pushing status rest)
  | .pushing status [] =>
      some ({ shared with lastNotified := some status.wire }, .finished)
  | .finished => none

/-! ### All processes -/

abbrev State := System Shared Nat Phase

inductive Op where
  /-- The agent changes its status, and the host starts a process for the event. -/
  | change (status : AgentStatus) (pid : Nat)
  /-- The agent is gone. -/
  | leave
  | register (file : Option (List DeviceEntry))
  | run (pid : Nat)

def step (state : State) : Op → Option (State × Unit)
  | .change status pid =>
      some (state.set pid { state.shared with status := some status } (.started status), ())
  | .leave => some ({ state with shared := { state.shared with status := none } }, ())
  | .register file => some ({ state with shared := { state.shared with registration := file } }, ())
  | .run pid =>
      (advance state.shared (state.process pid)).map fun next => (state.set pid next.1 next.2, ())

/-- A status that notifies finds a device. -/
def SomeEligible (file : Option (List DeviceEntry)) : Prop :=
  ∀ status, notifyWorthy status = true → readEligibleDevices file status ≠ []

/-- A pid is used once, and an eligible device stays registered. -/
def Allowed (state : State) : Op → Prop
  | .change _ pid => state.process pid = .absent
  | .register file => SomeEligible file
  | _ => True

end Herden.Plugin.NotifyHook
