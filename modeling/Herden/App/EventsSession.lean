import Herden.App.Events

/-!
# `Herden.App.EventsSession`: activations, their run loops and the channel of events

Embedding of the lifecycle and the reconnect loop of the actor `EventsSession`
(`Sources/Herden/Transport/EventsSession.swift`): `activate`, `restart`, `deactivate`, `finish` and
`windDown`, `run` with `ensureTransport` and `emitReconnectingAndBackOff`, `updateSubscriptions`,
`dropPaneSubscriptions` and `keepaliveDidFail`.

The actor runs one job at a time, and a job ends at an `await` that suspends. So a call is a
sequence of steps, and everything can happen between two of them. Three kinds of calls are in the
system:

* the run loops. A `Run` is what the task of `run(generation:)` keeps in its own variables, with the
  `await` at which it stands (`Pc`). Teardown cancels the task and does not wait for it, so several
  runs can be alive;
* the lifecycle transitions, which a chain of tasks runs one after the other (`lifecycle`, and
  `winding` for the one that is inside `windDown`);
* calls of `updateSubscriptions` that wait for `stream.end()` (`updatesInProgress`).

The answers of a Transport are operations, in any order and as late as they please. A Transport and
a stream are names given out by counters. `closedTransports` and `yielded` record what has happened.

Left out is what does not touch these fields: latencies, waiters for a Transport or for the
terminal, and the timing of keepalives. A keepalive is the call of `keepaliveDidFail` it ends with.
Counters are 64 bit and wrap in the source. They are numbers here.
-/

namespace Herden.App.EventsSession

open Herden.App.Events

/-! ### Reconnecting -/

structure ReconnectPolicy where
  initialDelay : Nat
  multiplier : Int
  maxDelay : Nat
deriving DecidableEq

/-- The loop of `delay(beforeAttempt:)`. -/
def ReconnectPolicy.grow (factor maxDelay : Nat) : Nat → Nat → Nat
  | 0, delay => delay
  | remaining + 1, delay =>
    if delay < maxDelay then grow factor maxDelay remaining (delay * factor) else delay

def ReconnectPolicy.delay (policy : ReconnectPolicy) (attempt : Int) : Nat :=
  min (grow (max policy.multiplier 1).toNat policy.maxDelay (attempt - 1).toNat policy.initialDelay)
    policy.maxDelay

/-- `namesAMissingPane`. -/
def namesAMissingPane : TransportError → Bool
  | .apiRejected code _ =>
    code = ['p', 'a', 'n', 'e', '_', 'n', 'o', 't', '_', 'f', 'o', 'u', 'n', 'd']
  | _ => false

/-- The failure of a stream that ended without one. -/
def endedUnexpectedly : TransportError :=
  .channelFailed "events stream ended unexpectedly".toList

/-! ### The actor -/

inductive Phase where
  | suspended
  | active
  | ended
deriving DecidableEq

/-- A `HerdrEventStream`: its name, the run that asked for it, the Transport that opened it and the
set it was subscribed with. -/
structure EventStream where
  id : Nat
  run : Nat
  transport : Nat
  subscriptions : List EventSubscription
deriving DecidableEq

/-- Where a run waits. -/
inductive Pc where
  | starting
  | checking (transport : Nat)
  | replacing (transport : Nat)
  | connecting
  | pinging (transport : Nat)
  | discarding (transport : Nat) (failure : TransportError)
  | subscribing (transport : Nat) (subscriptions : List EventSubscription)
  | streaming (stream : EventStream)
  | endingStream (stream : EventStream)
  | backingOff
  | finished
deriving DecidableEq

structure Run where
  id : Nat
  generation : Nat
  isCancelled : Bool
  attempt : Int
  pc : Pc
deriving DecidableEq

/-- The stored properties of the actor, and what it has done. -/
structure Session where
  policy : ReconnectPolicy
  phase : Phase
  subscriptions : List EventSubscription
  currentTransport : Option Nat
  transportGeneration : Nat
  hasEstablishedTransport : Bool
  transportSuspect : Bool
  pendingKeepaliveFailure : Option TransportError
  resubscribeRequested : Bool
  liveStream : Option EventStream
  activationGeneration : Nat
  runTask : Option Nat
  nextTransport : Nat
  nextStream : Nat
  closedTransports : List Nat
  yielded : List EventsSessionUpdate
deriving DecidableEq

namespace Session

def new (policy : ReconnectPolicy) (subscriptions : List EventSubscription) : Session where
  policy := policy
  phase := .suspended
  subscriptions := subscriptions
  currentTransport := none
  transportGeneration := 0
  hasEstablishedTransport := false
  transportSuspect := false
  pendingKeepaliveFailure := none
  resubscribeRequested := false
  liveStream := none
  activationGeneration := 0
  runTask := none
  nextTransport := 0
  nextStream := 0
  closedTransports := []
  yielded := []

/-- `activationIsCurrent`, asked by the task of `run`. -/
def activationIsCurrent (s : Session) (run : Run) : Bool :=
  s.phase = .active ∧ s.activationGeneration = run.generation ∧ run.isCancelled = false

def yieldUpdate (s : Session) (update : EventsSessionUpdate) : Session :=
  { s with yielded := s.yielded ++ [update] }

/-- `transport.close()` has returned. -/
def closed (s : Session) (transport : Nat) : Session :=
  { s with closedTransports := transport :: s.closedTransports }

def isGlobal : EventSubscription → Bool
  | .global _ => true
  | .pane _ _ => false

/-- `dropPaneSubscriptions`, with its answer. -/
def dropPaneSubscriptions (s : Session) : Session × Bool :=
  let globalsOnly := s.subscriptions.filter isGlobal
  if globalsOnly.length = s.subscriptions.length then (s, false)
  else ({ s with subscriptions := globalsOnly }, true)

/-! ### The run loop -/

/-- The top of the loop and the first part of `ensureTransport`. -/
def loop (s : Session) (run : Run) : Session × Run :=
  if ¬ s.activationIsCurrent run then (s, { run with pc := .finished })
  else
    match s.currentTransport with
    | none => (s, { run with pc := .connecting })
    | some transport =>
      if s.transportSuspect then
        ({ s with currentTransport := none }, { run with pc := .replacing transport })
      else (s, { run with pc := .checking transport })

/-- `ensureTransport` has returned a Transport. -/
def subscribe (s : Session) (run : Run) (transport : Nat) : Session × Run :=
  if ¬ s.activationIsCurrent run then (s, { run with pc := .finished })
  else (s, { run with pc := .subscribing transport s.subscriptions })

/-- A failure that is not a lost race: announce it, and back off when a retry can help. -/
def recover (s : Session) (run : Run) (failure : TransportError) : Session × Run :=
  if ¬ failure.isRetryable then
    (s.yieldUpdate (.status (.failed failure)), { run with pc := .finished })
  else
    let s := s.dropPaneSubscriptions.1
    let attempt := run.attempt + 1
    (s.yieldUpdate (.status (.reconnecting attempt (s.policy.delay attempt) failure)),
      { run with attempt := attempt, pc := .backingOff })

/-- The `catch` of the loop. -/
def failed (s : Session) (run : Run) (failure : TransportError) : Session × Run :=
  if ¬ s.activationIsCurrent run then (s, { run with pc := .finished })
  else
    let s := if failure = .timedOut then { s with transportSuspect := true } else s
    let dropped := s.dropPaneSubscriptions
    if namesAMissingPane failure ∧ dropped.2 then dropped.1.loop run
    else s.recover run failure

/-- After the loop over the events. -/
def streamDone (s : Session) (run : Run) (stream : EventStream)
    (streamFailure : Option TransportError) : Session × Run :=
  let s := if s.liveStream = some stream then { s with liveStream := none } else s
  if ¬ s.activationIsCurrent run then (s, { run with pc := .finished })
  else if s.resubscribeRequested then { s with resubscribeRequested := false }.loop run
  else
    let failure := (s.pendingKeepaliveFailure.or streamFailure).getD endedUnexpectedly
    { s with pendingKeepaliveFailure := none }.recover run failure

/-- A Transport that answered its first ping is installed. -/
def install (s : Session) (transport : Nat) : Session :=
  { s with
    transportSuspect := false
    currentTransport := some transport
    transportGeneration :=
      if s.hasEstablishedTransport then s.transportGeneration + 1 else s.transportGeneration
    hasEstablishedTransport := true }

/-- What the `await` of a run can return. -/
inductive Answer where
  | proceed
  | connected (isConnected : Bool)
  | event (event : HerdrEvent)
  | failure (failure : TransportError)
deriving DecidableEq

/-- A run from one `await` to the next. An answer that the `await` cannot give is ignored. -/
def runStep (s : Session) (run : Run) : Pc → Answer → Session × Run
  | .starting, .proceed => s.loop run
  | .checking transport, .connected isConnected =>
    if isConnected then s.subscribe run transport
    else ({ s with currentTransport := none }, { run with pc := .replacing transport })
  | .replacing transport, .proceed => (s.closed transport, { run with pc := .connecting })
  | .connecting, .failure failure => s.failed run failure
  | .connecting, .proceed =>
    let transport := s.nextTransport
    let s := { s with nextTransport := transport + 1 }
    if s.activationIsCurrent run then (s, { run with pc := .pinging transport })
    else (s, { run with pc := .discarding transport .cancelled })
  | .pinging transport, .failure failure => (s, { run with pc := .discarding transport failure })
  | .pinging transport, .proceed =>
    if s.activationIsCurrent run then (s.install transport).subscribe run transport
    else (s, { run with pc := .discarding transport .cancelled })
  | .discarding transport failure, .proceed => (s.closed transport).failed run failure
  | .subscribing _ _, .failure failure => s.failed run failure
  | .subscribing transport subscriptions, .proceed =>
    let stream : EventStream := ⟨s.nextStream, run.id, transport, subscriptions⟩
    let s := { s with nextStream := s.nextStream + 1 }
    if ¬ s.activationIsCurrent run then (s, { run with pc := .endingStream stream })
    else
      ({ s with liveStream := some stream, pendingKeepaliveFailure := none }.yieldUpdate
          (.status .connected),
        { run with attempt := 0, pc := .streaming stream })
  | .endingStream _, .proceed => (s, { run with pc := .finished })
  | .streaming stream, .event event =>
    if s.activationIsCurrent run then (s.yieldUpdate (.event event), run)
    else s.streamDone run stream none
  | .streaming stream, .proceed => s.streamDone run stream none
  | .streaming stream, .failure failure => s.streamDone run stream (some failure)
  | .backingOff, .proceed => s.loop run
  | _, _ => (s, run)

end Session

/-! ### Lifecycle -/

inductive Transition where
  | activate
  | restart
  | deactivate
  | finish
deriving DecidableEq

/-- Where `windDown` waits. -/
inductive WindDown where
  | endingStream (stream : EventStream)
  | closing (transport : Nat)
  | waitingForTerminalIdle
deriving DecidableEq

/-- What follows `windDown`. -/
inductive AfterWindDown where
  | restart (generation : Nat)
  | deactivate
  | finish
deriving DecidableEq

structure System where
  session : Session
  runs : List Run
  lifecycle : List Transition
  winding : Option (WindDown × AfterWindDown)
  updatesInProgress : Nat
deriving DecidableEq

namespace System

def new (policy : ReconnectPolicy) (subscriptions : List EventSubscription) : System :=
  ⟨.new policy subscriptions, [], [], none, 0⟩

/-- The task of a run. -/
def spawn (s : System) (generation : Nat) : System :=
  { s with
    session := { s.session with runTask := some s.runs.length }
    runs := s.runs ++ [⟨s.runs.length, generation, false, 0, .starting⟩] }

def activate (s : System) : System :=
  if s.session.phase ≠ .suspended then s
  else
    let generation := s.session.activationGeneration + 1
    { s with
      session := { s.session with
        phase := .active
        activationGeneration := generation }.yieldUpdate (.status .connecting) }.spawn generation

/-- `windDown` after the stream has ended. -/
def closeTransport (s : System) (after : AfterWindDown) : System :=
  match s.session.currentTransport with
  | none => { s with winding := some (.waitingForTerminalIdle, after) }
  | some transport =>
    { s with
      session := { s.session with currentTransport := none }
      winding := some (.closing transport, after) }

def cancelRun (runs : List Run) (id : Nat) : List Run :=
  runs.modify id fun run => { run with isCancelled := true }

/-- `windDown` up to its first `await`. -/
def windDown (s : System) (after : AfterWindDown) : System :=
  let runs :=
    match s.session.runTask with
    | none => s.runs
    | some id => cancelRun s.runs id
  let cleared := { s with
    session := { s.session with runTask := none, liveStream := none }
    runs := runs }
  match s.session.liveStream with
  | none => cleared.closeTransport after
  | some stream => { cleared with winding := some (.endingStream stream, after) }

def restart (s : System) : System :=
  if s.session.phase ≠ .active then s.activate
  else
    let generation := s.session.activationGeneration + 1
    { s with
      session := { s.session with activationGeneration := generation }.yieldUpdate
        (.status .connecting) }.windDown (.restart generation)

def deactivate (s : System) : System :=
  if s.session.phase ≠ .active then s
  else { s with session := { s.session with phase := .suspended } }.windDown .deactivate

def finish (s : System) : System :=
  if s.session.phase = .ended then s
  else { s with session := { s.session with phase := .ended } }.windDown .finish

def transition (s : System) : Transition → System
  | .activate => s.activate
  | .restart => s.restart
  | .deactivate => s.deactivate
  | .finish => s.finish

/-- The end of `windDown`, and what its caller does then. -/
def windDownDone (s : System) (after : AfterWindDown) : System :=
  let session := { s.session with
    transportSuspect := false
    pendingKeepaliveFailure := none
    resubscribeRequested := false }.dropPaneSubscriptions.1
  let s := { s with session := session, winding := none }
  match after with
  | .restart generation =>
    if s.session.phase = .active ∧ s.session.activationGeneration = generation then
      s.spawn generation
    else s
  | .deactivate => { s with session := s.session.yieldUpdate (.status .suspended) }
  | .finish => { s with session := s.session.yieldUpdate (.status .ended) }

/-- `windDown` from one `await` to the next. -/
def windDownStep (s : System) : System :=
  match s.winding with
  | none => s
  | some (.endingStream _, after) => s.closeTransport after
  | some (.closing transport, after) =>
    { s with
      session := s.session.closed transport
      winding := some (.waitingForTerminalIdle, after) }
  | some (.waitingForTerminalIdle, after) => s.windDownDone after

/-- `updateSubscriptions`, up to its `await`. -/
def updateSubscriptions (s : System) (subscriptions : List EventSubscription) : System :=
  if s.session.subscriptions = subscriptions then s
  else
    let session := { s.session with subscriptions := subscriptions }
    if session.phase = .active ∧ session.liveStream.isSome then
      { s with
        session := { session with resubscribeRequested := true }
        updatesInProgress := s.updatesInProgress + 1 }
    else { s with session := session }

/-- `keepaliveDidFail`. -/
def keepaliveDidFail (s : System) (failure : TransportError) (stream : EventStream) : System :=
  if s.session.phase = .active ∧ s.session.liveStream = some stream then
    { s with session := { s.session with
        transportSuspect := true
        pendingKeepaliveFailure := some failure } }
  else s

inductive Op where
  | enqueue (transition : Transition)
  | transition
  | windDown
  | run (id : Nat) (answer : Session.Answer)
  | updateSubscriptions (subscriptions : List EventSubscription)
  | updateDone
  | keepaliveDidFail (failure : TransportError) (stream : EventStream)

/-- A step of the actor. `transition` starts the next lifecycle transition when the one before it
has returned. -/
def step (s : System) : Op → System
  | .enqueue transition => { s with lifecycle := s.lifecycle ++ [transition] }
  | .transition =>
    match s.winding, s.lifecycle with
    | none, transition :: rest => { s with lifecycle := rest }.transition transition
    | _, _ => s
  | .windDown => s.windDownStep
  | .run id answer =>
    match s.runs[id]? with
    | none => s
    | some run =>
      let after := s.session.runStep run run.pc answer
      { s with session := after.1, runs := s.runs.set id after.2 }
  | .updateSubscriptions subscriptions => s.updateSubscriptions subscriptions
  | .updateDone => { s with updatesInProgress := s.updatesInProgress - 1 }
  | .keepaliveDidFail failure stream => s.keepaliveDidFail failure stream

end System

end Herden.App.EventsSession
