import Mathlib.Data.Finset.Basic
import Mathlib.Logic.Function.Basic

/-!
# `Herden.App.ChannelAdmission`: who may open an SSH channel

Embedding of `SSHChannelAdmission` and `SSHChannelAdmissionLease`
(`Sources/Herden/Transport/SSHChannelAdmission.swift`). A caller asks for a permit of one class and
gets a lease, now or when another caller gives a permit back.

The actor runs one job at a time. `acquire` has no suspension before its continuation is made, so
its first part is one job. The part after `withCheckedThrowingContinuation` is another job, which
runs some time after the continuation was resumed (`Op.resume`). A task can be cancelled at any
moment. The cancellation handler only starts a task that calls `cancel(requestID:)`: the call is in
`messages` until it runs, and it can run arbitrarily late. `release` and `deinit` of a lease test
and set its flag at once, and the call of the actor's `release` is again a job of its own
(`Op.actorRelease`).

`System` has the actor and every call of `acquire`, numbered in the order in which they started.
A continuation is named by its call. The step is `none` where the program traps: `decrement` with
no connection counted, and a continuation that is resumed twice.
-/

namespace Herden.App.ChannelAdmission

inductive ChannelClass where
  | ordinaryForwarding
  | events
  | ordinarySession
  | attach
deriving DecidableEq

structure Limits where
  ordinaryForwarding : Int
  events : Int
  ordinarySession : Int
  attach : Int
  connection : Int

def Limits.production : Limits where
  ordinaryForwarding := 8
  events := 1
  ordinarySession := 8
  attach := 1
  connection := 18

def Limits.of (limits : Limits) : ChannelClass → Int
  | .ordinaryForwarding => limits.ordinaryForwarding
  | .events => limits.events
  | .ordinarySession => limits.ordinarySession
  | .attach => limits.attach

structure Snapshot where
  ordinaryForwarding : Int
  events : Int
  ordinarySession : Int
  attach : Int
  connection : Int

def Snapshot.of (counts : Snapshot) : ChannelClass → Int
  | .ordinaryForwarding => counts.ordinaryForwarding
  | .events => counts.events
  | .ordinarySession => counts.ordinarySession
  | .attach => counts.attach

structure Waiter where
  id : UInt64
  channelClass : ChannelClass
  continuation : Nat

structure SSHChannelAdmission where
  limits : Limits
  counts : Snapshot
  waiters : List Waiter
  pendingRequests : Finset UInt64
  cancelledRequests : Finset UInt64
  nextRequestID : UInt64

namespace SSHChannelAdmission

/-- `init(limits:)`. It traps when a limit is not positive. -/
def new (limits : Limits) : Option SSHChannelAdmission :=
  if 0 < limits.ordinaryForwarding ∧ 0 < limits.events ∧ 0 < limits.ordinarySession ∧
      0 < limits.attach ∧ 0 < limits.connection then
    some
      { limits := limits
        counts := ⟨0, 0, 0, 0, 0⟩
        waiters := []
        pendingRequests := ∅
        cancelledRequests := ∅
        nextRequestID := 0 }
  else none

def canAcquire (admission : SSHChannelAdmission) (channelClass : ChannelClass) : Bool :=
  if ¬ admission.counts.connection < admission.limits.connection then false
  else
    match channelClass with
    | .ordinaryForwarding =>
      admission.counts.ordinaryForwarding < admission.limits.ordinaryForwarding
    | .events => admission.counts.events < admission.limits.events
    | .ordinarySession => admission.counts.ordinarySession < admission.limits.ordinarySession
    | .attach => admission.counts.attach < admission.limits.attach

def increment (admission : SSHChannelAdmission) (channelClass : ChannelClass) :
    SSHChannelAdmission :=
  let counts := admission.counts
  { admission with
    counts :=
      { ordinaryForwarding :=
          counts.ordinaryForwarding + if channelClass = .ordinaryForwarding then 1 else 0
        events := counts.events + if channelClass = .events then 1 else 0
        ordinarySession := counts.ordinarySession + if channelClass = .ordinarySession then 1 else 0
        attach := counts.attach + if channelClass = .attach then 1 else 0
        connection := counts.connection + 1 } }

def decrement (admission : SSHChannelAdmission) (channelClass : ChannelClass) :
    Option SSHChannelAdmission :=
  let counts := admission.counts
  if ¬ 0 < counts.connection then none
  else
    some { admission with
      counts :=
        { ordinaryForwarding :=
            counts.ordinaryForwarding - if channelClass = .ordinaryForwarding then 1 else 0
          events := counts.events - if channelClass = .events then 1 else 0
          ordinarySession :=
            counts.ordinarySession - if channelClass = .ordinarySession then 1 else 0
          attach := counts.attach - if channelClass = .attach then 1 else 0
          connection := counts.connection - 1 } }

/-- The `defer` of `acquire`. -/
def forget (admission : SSHChannelAdmission) (requestID : UInt64) : SSHChannelAdmission :=
  { admission with
    pendingRequests := admission.pendingRequests.erase requestID
    cancelledRequests := admission.cancelledRequests.erase requestID }

end SSHChannelAdmission

/-! ### The calls of `acquire` -/

/-- Where a call of `acquire`, and the lease it returned, stands.

- `refused`: `checkCancellation` threw;
- `parked`: suspended, the continuation is not resumed;
- `resumed`: the continuation was resumed, with a permit or with an error, and the rest of
  `acquire` has not run;
- `threw`: `acquire` threw after the continuation was resumed;
- `holding`: the lease is not released;
- `releasing`: the flag of the lease is set and the actor's `release` has not run;
- `released`: it has run. -/
inductive Phase where
  | refused
  | parked
  | resumed (granted : Bool)
  | threw
  | holding
  | releasing
  | released
deriving DecidableEq

structure Call where
  channelClass : ChannelClass
  requestID : UInt64
  isCancelled : Bool
  phase : Phase

/-- The actor, the calls made so far, and the calls of `cancel(requestID:)` that have not run. The
last three fields are what an observer of the actor writes down: the calls that got a permit, the
calls whose permit was given back, and the continuations that were resumed, the oldest first. -/
structure System where
  admission : SSHChannelAdmission
  calls : Nat
  call : Nat → Call
  messages : List UInt64
  granted : List Nat
  released : List Nat
  resumed : List Nat

inductive Op where
  | acquire (channelClass : ChannelClass) (isCancelled : Bool)
  | cancelTask (call : Nat)
  | cancel (message : Nat)
  | resume (call : Nat)
  | release (call : Nat)
  | deinit (call : Nat)
  | actorRelease (call : Nat)

namespace System

def new (limits : Limits) : Option System :=
  (SSHChannelAdmission.new limits).map fun admission =>
    { admission := admission
      calls := 0
      call := fun _ => ⟨.events, 0, false, .refused⟩
      messages := []
      granted := []
      released := []
      resumed := [] }

def setPhase (s : System) (call : Nat) (phase : Phase) : System :=
  { s with call := Function.update s.call call { s.call call with phase := phase } }

/-- `continuation.resume`. A second one traps. -/
def resumeContinuation (s : System) (continuation : Nat) (granted : Bool) : Option System :=
  if (s.call continuation).phase = .parked then
    some { s.setPhase continuation (.resumed granted) with resumed := s.resumed ++ [continuation] }
  else none

/-- The observer's entry for `increment`. -/
def logGranted (s : System) (call : Nat) : System := { s with granted := s.granted ++ [call] }

/-- The loop of `resumeEligibleWaiters`. Every turn removes a waiter, so as many turns as there are
waiters are enough. -/
def resumeEligibleWaitersLoop : Nat → System → Option System
  | 0, s => some s
  | turns + 1, s =>
    match s.admission.waiters.find? (fun waiter => s.admission.canAcquire waiter.channelClass) with
    | none => some s
    | some waiter =>
      let waiters := s.admission.waiters.eraseP
        (fun waiter => s.admission.canAcquire waiter.channelClass)
      let admission :=
        SSHChannelAdmission.increment { s.admission with waiters := waiters } waiter.channelClass
      (({ s with admission := admission } : System).logGranted waiter.continuation
        |>.resumeContinuation waiter.continuation true).bind (resumeEligibleWaitersLoop turns)

def resumeEligibleWaiters (s : System) : Option System :=
  s.resumeEligibleWaitersLoop s.admission.waiters.length

/-- The actor's `release`, for the permit of a call. -/
def releasePermit (s : System) (call : Nat) : Option System :=
  (s.admission.decrement (s.call call).channelClass).bind fun admission =>
    { s with admission := admission, released := s.released ++ [call] }.resumeEligibleWaiters

/-- `acquire` up to its suspension, for the call `s.calls`. -/
def acquire (s : System) (channelClass : ChannelClass) (isCancelled : Bool) : System :=
  let continuation := s.calls
  let start (s : System) (requestID : UInt64) (phase : Phase) : System :=
    { s with
      calls := s.calls + 1
      call := Function.update s.call continuation ⟨channelClass, requestID, isCancelled, phase⟩ }
  if isCancelled then start s 0 .refused
  else
    let requestID := s.admission.nextRequestID + 1
    let admission : SSHChannelAdmission := { s.admission with
      nextRequestID := requestID
      pendingRequests := insert requestID s.admission.pendingRequests }
    let resumed := s.resumed ++ [continuation]
    if requestID ∈ admission.cancelledRequests then
      start { s with admission := admission, resumed := resumed } requestID (.resumed false)
    else if admission.canAcquire channelClass then
      start { s with
        admission := admission.increment channelClass
        granted := s.granted ++ [continuation]
        resumed := resumed } requestID (.resumed true)
    else
      start { s with
        admission := { admission with
          waiters := admission.waiters ++ [⟨requestID, channelClass, continuation⟩] } }
        requestID .parked

/-- The cancellation of the task of a call. The handler of `withTaskCancellationHandler` runs when
the call is inside it. -/
def cancelTask (s : System) (call : Nat) : System :=
  let current := s.call call
  let cancelled : System :=
    { s with call := Function.update s.call call { current with isCancelled := true } }
  if current.isCancelled then s
  else
    match current.phase with
    | .parked => { cancelled with messages := s.messages ++ [current.requestID] }
    | .resumed _ => { cancelled with messages := s.messages ++ [current.requestID] }
    | _ => cancelled

/-- `cancel(requestID:)`, on the actor. -/
def cancel (s : System) (requestID : UInt64) : Option System :=
  if requestID ∉ s.admission.pendingRequests then some s
  else
    match s.admission.waiters.find? (fun waiter => waiter.id = requestID) with
    | some waiter =>
      { s with
        admission := { s.admission with
          waiters := s.admission.waiters.eraseP (fun waiter => waiter.id = requestID) }
      }.resumeContinuation waiter.continuation false
    | none =>
      some { s with
        admission := { s.admission with
          cancelledRequests := insert requestID s.admission.cancelledRequests } }

/-- The rest of `acquire`, after its continuation was resumed. -/
def resume (s : System) (call : Nat) : Option System :=
  let current := s.call call
  match current.phase with
  | .resumed true =>
    if current.isCancelled then
      ((s.setPhase call .threw).releasePermit call).map fun s =>
        { s with admission := s.admission.forget current.requestID }
    else
      some { s.setPhase call .holding with admission := s.admission.forget current.requestID }
  | .resumed false =>
    some { s.setPhase call .threw with admission := s.admission.forget current.requestID }
  | _ => some s

/-- `release` and `deinit` of a lease, up to the call of the actor. -/
def releaseLease (s : System) (call : Nat) : System :=
  if (s.call call).phase = .holding then s.setPhase call .releasing else s

/-- The call of the actor's `release` that a lease made. -/
def actorRelease (s : System) (call : Nat) : Option System :=
  if (s.call call).phase = .releasing then (s.setPhase call .released).releasePermit call
  else some s

/-- One job of the actor, one cancellation, or one test of a lease's flag. A step that does not
apply leaves the system as it is. -/
def step (s : System) : Op → Option (System × Unit)
  | .acquire channelClass isCancelled => some (s.acquire channelClass isCancelled, ())
  | .cancelTask call => some (if call < s.calls then s.cancelTask call else s, ())
  | .cancel message =>
    match s.messages[message]? with
    | none => some (s, ())
    | some requestID =>
      ({ s with messages := s.messages.eraseIdx message }.cancel requestID).map (·, ())
  | .resume call => if call < s.calls then (s.resume call).map (·, ()) else some (s, ())
  | .release call => some (if call < s.calls then s.releaseLease call else s, ())
  | .deinit call => some (if call < s.calls then s.releaseLease call else s, ())
  | .actorRelease call =>
    if call < s.calls then (s.actorRelease call).map (·, ()) else some (s, ())

end System

end Herden.App.ChannelAdmission
