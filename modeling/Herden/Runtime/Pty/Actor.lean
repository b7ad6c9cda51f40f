import Mathlib.Data.List.Basic

/-!
# `Herden.Runtime.Pty.Actor`: the thread that owns a PTY, and its callers

Embedding of `PtyIoActorHandle` and `PtyIoActorRunner`
    (`runtime/src/pty/actor/unix.rs`). Callers and
the actor share the gate for user writes, two channels of commands and a slot for controls. One step
of the machine is one access of these, or one `read`, `write` or `poll` on the file of the PTY: `Pc`
says where the actor stands in its loop. What the clock and the system calls answer comes with every
step of the actor (`Env`), so that nothing is assumed about them. A reply channel is named by a
number in the order of creation.

Callers may write and resize at any time. The calls of a handoff are made one at a time, and
`Caller` says where the one that is under way stands. A wait may end without a reply at any time.

`flush` on a file does nothing. A change of the window size is an `ioctl` that writes no bytes, and
is left out with the nudge, which only asks for two of them. Locks are not poisoned, and the handles
are kept. The last fields of `State` record what has happened. In `log` is every chunk of bytes that
the actor got to write, in that order, the empty ones too, which it does not queue.
-/

namespace Herden.Runtime.Pty.Actor

abbrev Bytes := List UInt8

def actorCommandBuffer : Nat := 1024

/-- In milliseconds. -/
def handoffDrainTimeout : Nat := 2 * 1000

inductive ActorState where
  | running
  | quiesced
  | released
deriving DecidableEq

inductive ErrorKind where
  | brokenPipe
  | wouldBlock
  | timedOut
  | writeZero
  | other
deriving DecidableEq

structure IoError where
  kind : ErrorKind
  message : String
deriving DecidableEq

abbrev IoResult := Option IoError

/-- `controls.resize` holds the responses of the last resize that was not applied. -/
structure SharedPtyControls where
  resize : Option (List Bytes)
  terminalResponses : List Bytes

inductive PtyIoDataCommand where
  | writeUserInput (bytes : Bytes)
  | submitUserInput (text enter : Bytes) (delay reply : Nat)

inductive PtyIoControlCommand where
  | beginHandoff (reply : Nat)
  | duplicateForHandoff
  | foregroundProcessGroup
  | rollbackHandoff (reply : Nat)
  | releaseAfterCommit (reply : Nat)
  | shutdown

inductive SubmissionBoundary where
  | text
  | enter

structure PendingWrite where
  bytes : Bytes
  boundary : Option SubmissionBoundary

inductive SubmissionPhase where
  | writingText
  | waitingUntil (deadline : Nat)
  | writingEnter
deriving DecidableEq

structure ActiveSubmission where
  enter : Bytes
  delay : Nat
  phase : SubmissionPhase
  reply : Nat

/-! ### Where the threads stand -/

/-- Who called `defer_or_begin_handoff`. -/
inductive Site where
  | handleControlCommand
  | drainCommands
deriving DecidableEq

/-- A `begin_handoff` of the actor that has come to its writes. -/
structure Handoff where
  reply : Nat
  site : Site
  deadline : Nat
deriving DecidableEq

/-- Who called `flush_pending_writes_once`. -/
inductive Flusher where
  | beforePoll
  | afterPoll
  | handoff (handoff : Handoff)
deriving DecidableEq

/-- Who called `read_once`. -/
inductive Reader where
  | run
  | handoff (handoff : Handoff)
deriving DecidableEq

inductive Pc where
  /-- At the head of the loop of `run`, and of that of `drain_control_commands`. -/
  | drainControl
  /-- In `drain_commands`, after the control commands. -/
  | drainCommands
  | drainData
  /-- In the loop of `drain_pre_quiesce_commands`, for `defer_or_begin_handoff`. -/
  | defer (reply : Nat) (site : Site)
  /-- In that loop, for `begin_handoff`. -/
  | begin (reply : Nat) (site : Site)
  | beginControls (reply : Nat) (site : Site)
  /-- At the head of the loop of `begin_handoff`. -/
  | beginPoll (handoff : Handoff)
  | applyControls
  | flush (flusher : Flusher)
  | schedule
  | poll
  | read (reader : Reader) (writeReady : Bool)
  /-- In `read_once`, about to take the terminal responses. -/
  | readTake (reader : Reader) (writeReady : Bool)
  /-- The loop of `run` has ended. -/
  | closing
  | exited
deriving DecidableEq

/-- The handoff call that is under way. `cause` is the error that `begin_handoff` reports. -/
inductive Caller where
  | idle
  | beginning (reply : Nat)
  | rollingBack (reply : Nat) (cause : Option IoError)
  /-- The rollback was answered, and the gate is about to open. -/
  | reopening (cause : Option IoError)
  | releasing (reply : Nat)
deriving DecidableEq

/-! ### The state -/

inductive Chunk where
  | user (bytes : Bytes)
  | text (reply : Nat) (bytes : Bytes)
  | enter (reply : Nat) (bytes : Bytes)
  | response (bytes : Bytes)
deriving DecidableEq

structure State where
  accepting : Bool
  dataQueue : List PtyIoDataCommand
  controlQueue : List PtyIoControlCommand
  controls : SharedPtyControls
  nextReply : Nat
  caller : Caller
  /-- What the last handoff call returned. -/
  outcome : Option IoResult
  pc : Pc
  state : ActorState
  pendingWrites : List PendingWrite
  currentWriteOffset : Nat
  activeSubmission : Option ActiveSubmission
  pendingHandoff : Option Nat
  /-- The replies to handoff calls. -/
  replies : List (Nat × IoResult)
  /-- The replies to submissions. -/
  answers : List (Nat × IoResult)
  accepted : List PtyIoDataCommand
  log : List Chunk
  /-- The bytes that the PTY took. -/
  written : Bytes
  /-- How often the PTY was read. -/
  reads : Nat
  /-- `reads` and the length of `log`, less the responses, since the actor is quiesced. A rollback
  clears it. -/
  quiet : Option (Nat × Nat)

def spawn (initiallyQuiesced : Bool) : State where
  accepting := !initiallyQuiesced
  dataQueue := []
  controlQueue := []
  controls := ⟨none, []⟩
  nextReply := 0
  caller := .idle
  outcome := none
  pc := .drainControl
  state := if initiallyQuiesced then .quiesced else .running
  pendingWrites := []
  currentWriteOffset := 0
  activeSubmission := none
  pendingHandoff := none
  replies := []
  answers := []
  accepted := []
  log := []
  written := []
  reads := 0
  quiet := if initiallyQuiesced then some (0, 0) else none

def Chunk.bytes : Chunk → Bytes
  | .user bytes => bytes
  | .text _ bytes => bytes
  | .enter _ bytes => bytes
  | .response bytes => bytes

def Chunk.boundary : Chunk → Option SubmissionBoundary
  | .user _ => none
  | .text _ _ => some .text
  | .enter _ _ => some .enter
  | .response _ => none

def Chunk.isResponse : Chunk → Bool
  | .response _ => true
  | _ => false

/-- What users have written. -/
def userChunks (log : List Chunk) : List Chunk := log.filter (!·.isResponse)

/-! ### The callers -/

inductive TrySendError where
  | closed
  | full

/-- `data_tx.try_send`. -/
def trySend (command : PtyIoDataCommand) (s : State) : Except TrySendError State :=
  if s.pc = .exited then .error .closed
  else if s.dataQueue.length < actorCommandBuffer then
    .ok { s with dataQueue := s.dataQueue ++ [command], accepted := s.accepted ++ [command] }
  else .error .full

def tryWriteUserInput (bytes : Bytes) (s : State) : Except TrySendError Unit × State :=
  if !s.accepting then (.error .closed, s)
  else
    match trySend (.writeUserInput bytes) s with
    | .ok s => (.ok (), s)
    | .error error => (.error error, s)

def actorClosed : IoError := ⟨.brokenPipe, "pty actor closed"⟩

def queueUserInputSubmission (text enter : Bytes) (delay : Nat) (s : State) :
    Except IoError Nat × State :=
  if !s.accepting then (.error actorClosed, s)
  else
    match trySend (.submitUserInput text enter delay s.nextReply) s with
    | .ok sent => (.ok s.nextReply, { sent with nextReply := s.nextReply + 1 })
    | .error .full => (.error ⟨.wouldBlock, "pty input queue is full"⟩, s)
    | .error .closed => (.error actorClosed, s)

def writeTerminalResponse (response : Option Bytes) (s : State) : State :=
  match response with
  | none => s
  | some bytes =>
      if bytes.isEmpty then s
      else
        { s with controls := { s.controls with
          terminalResponses := s.controls.terminalResponses ++ [bytes] } }

def resize (terminalResponses : List Bytes) (s : State) : State :=
  { s with controls := { s.controls with resize := some terminalResponses } }

/-- `control_tx.send`, with a new reply channel: an error when the actor is gone. -/
def sendControl (command : Nat → PtyIoControlCommand) (s : State) : Option State :=
  if s.pc = .exited then none
  else
    some { s with
      controlQueue := s.controlQueue ++ [command s.nextReply], nextReply := s.nextReply + 1 }

def finish (result : IoResult) (s : State) : State :=
  { s with caller := .idle, outcome := some result }

/-- `begin_handoff`, up to its wait. -/
def beginHandoff (s : State) : State :=
  if !s.accepting then finish (some ⟨.wouldBlock, "PTY handoff is already in progress"⟩) s
  else
    match sendControl .beginHandoff { s with accepting := false } with
    | none => finish (some actorClosed) s
    | some sent => { sent with caller := .beginning s.nextReply }

/-- `rollback_handoff`, up to its wait. -/
def rollbackHandoff (cause : Option IoError) (s : State) : State :=
  match sendControl .rollbackHandoff s with
  | none => finish (some (cause.getD actorClosed)) s
  | some sent => { sent with caller := .rollingBack s.nextReply cause }

/-- `release_after_commit`, up to its wait. -/
def releaseAfterCommit (s : State) : State :=
  let s := { s with accepting := false }
  match sendControl .releaseAfterCommit s with
  | none => finish (some actorClosed) s
  | some sent => { sent with caller := .releasing s.nextReply }

def shutdown (s : State) : State :=
  let s := { s with accepting := false }
  (sendControl (fun _ => .shutdown) s).getD s

def quiesceTimedOut : IoError := ⟨.timedOut, "timed out waiting for PTY actor to quiesce"⟩

def rollbackTimedOut : IoError := ⟨.timedOut, "timed out waiting for PTY handoff rollback"⟩

def releaseTimedOut : IoError := ⟨.timedOut, "timed out waiting for PTY actor release"⟩

/-- `recv_timeout` finds the reply. -/
def receive (s : State) : Option State :=
  match s.caller with
  | .beginning reply =>
      (s.replies.lookup reply).map fun
        | none => finish none s
        | some error => rollbackHandoff (some error) s
  | .rollingBack reply cause =>
      (s.replies.lookup reply).map fun
        | none => { s with caller := .reopening cause }
        | some error => finish (some (cause.getD error)) s
  | .releasing reply => (s.replies.lookup reply).map (finish · s)
  | _ => none

/-- `recv_timeout` gives up. -/
def expire (s : State) : Option State :=
  match s.caller with
  | .beginning _ => some (rollbackHandoff (some quiesceTimedOut) s)
  | .rollingBack _ cause => some (finish (some (cause.getD rollbackTimedOut)) s)
  | .releasing _ => some (finish (some releaseTimedOut) s)
  | _ => none

/-- The end of `rollback_handoff`. -/
def reopen (s : State) : Option State :=
  match s.caller with
  | .reopening cause => some (finish cause { s with accepting := true })
  | _ => none

/-! ### What the system calls answer -/

inductive WriteResult where
  | wrote (count : Nat)
  | wouldBlock
  | interrupted
  | failed (error : IoError)
deriving DecidableEq

/-- `read` comes with the terminal responses that `on_read` makes of the bytes. -/
inductive ReadResult where
  | closed
  | wouldBlock
  | interrupted
  | failed
  | read (terminalResponses : List Bytes)

structure PtyWakeReadiness where
  wakeReady : Bool
  ptyReadReady : Bool
  ptyWriteReady : Bool

structure Env where
  now : Nat
  write : WriteResult
  read : ReadResult
  poll : Except IoError PtyWakeReadiness
  drainWake : Option IoError

/-! ### The actor -/

def enqueueWrite (chunk : Chunk) (s : State) : State :=
  let s := { s with log := s.log ++ [chunk] }
  if chunk.bytes.isEmpty then s
  else { s with pendingWrites := s.pendingWrites ++ [⟨chunk.bytes, chunk.boundary⟩] }

def enqueueTerminalResponses (terminalResponses : List Bytes) (s : State) : State :=
  if s.state = .released then s
  else terminalResponses.foldl (fun s bytes => enqueueWrite (.response bytes) s) s

def answer (reply : Nat) (result : IoResult) (s : State) : State :=
  { s with answers := s.answers ++ [(reply, result)] }

def handleDataCommand (now : Nat) (command : PtyIoDataCommand) (s : State) : State :=
  match command with
  | .writeUserInput bytes =>
      if s.state = .running then enqueueWrite (.user bytes) s else s
  | .submitUserInput text enter delay reply =>
      if s.state = .running then
        let phase :=
          if text.isEmpty then SubmissionPhase.waitingUntil (now + delay)
          else SubmissionPhase.writingText
        { enqueueWrite (.text reply text) s with
          activeSubmission := some ⟨enter, delay, phase, reply⟩ }
      else answer reply (some ⟨.brokenPipe, "pty actor is not accepting input"⟩) s

def applyPendingControls (s : State) : State :=
  let controls := s.controls
  let s := { s with controls := ⟨none, []⟩ }
  if s.state = .released then s
  else
    let s :=
      match controls.resize with
      | none => s
      | some terminalResponses => enqueueTerminalResponses terminalResponses s
    enqueueTerminalResponses controls.terminalResponses s

def completeSubmissionBoundary (now : Nat) (boundary : SubmissionBoundary) (s : State) : State :=
  match boundary, s.activeSubmission with
  | _, none => s
  | .text, some submission =>
      { s with
        activeSubmission :=
          some { submission with phase := .waitingUntil (now + submission.delay) } }
  | .enter, some submission => answer submission.reply none { s with activeSubmission := none }

def scheduleSubmissionEnter (now : Nat) (s : State) : State :=
  match s.activeSubmission with
  | some ⟨enter, delay, .waitingUntil deadline, reply⟩ =>
      if deadline ≤ now then
        let s := enqueueWrite (.enter reply enter) s
        if enter.isEmpty then answer reply none { s with activeSubmission := none }
        else { s with activeSubmission := some ⟨enter, delay, .writingEnter, reply⟩ }
      else s
  | _ => s

def failActiveSubmission (error : IoError) (s : State) : State :=
  match s.activeSubmission with
  | none => s
  | some submission => answer submission.reply (some error) { s with activeSubmission := none }

def inputSubmissionClosedError : IoError :=
  ⟨.brokenPipe, "PTY actor closed during input submission"⟩

def submissionReply : PtyIoDataCommand → Option Nat
  | .writeUserInput _ => none
  | .submitUserInput _ _ _ reply => some reply

/-- `close_input_queue`. Then the actor is gone, with its ends of the channels. -/
def closeInputQueue (s : State) : State :=
  let s := failActiveSubmission inputSubmissionClosedError s
  { s with
    answers := s.answers ++
      (s.dataQueue.filterMap submissionReply).map ((·, some inputSubmissionClosedError))
    dataQueue := []
    controlQueue := []
    pendingHandoff := none
    pc := .exited }

/-- How one round of the loop of `flush_pending_writes_once` ends. -/
inductive Flushed where
  | more
  | done (boundary : Option SubmissionBoundary)
  | failed (error : IoError)

def flushPendingWrites (result : WriteResult) (s : State) : Flushed × State :=
  match s.pendingWrites with
  | [] => (.done none, s)
  | write :: rest =>
      let chunk := write.bytes.drop s.currentWriteOffset
      match result with
      | .wrote 0 => (.failed ⟨.writeZero, "PTY actor write returned zero bytes"⟩, s)
      | .wrote count =>
          let s := { s with
            written := s.written ++ chunk.take count
            currentWriteOffset := s.currentWriteOffset + count }
          if write.bytes.length ≤ s.currentWriteOffset then
            let s := { s with pendingWrites := rest, currentWriteOffset := 0 }
            match write.boundary with
            | none => (.more, s)
            | some boundary => (.done (some boundary), s)
          else (.more, s)
      | .wouldBlock => (.done none, s)
      | .interrupted => (.done none, s)
      | .failed error => (.failed error, { s with pendingWrites := [], currentWriteOffset := 0 })

/-- Where `defer_or_begin_handoff` returns to. -/
def Site.next : Site → Pc
  | .handleControlCommand => .drainControl
  | .drainCommands => .applyControls

/-- `begin_handoff` returns, and its result is sent. -/
def endHandoff (reply : Nat) (site : Site) (result : IoResult) (s : State) : State :=
  { s with replies := s.replies ++ [(reply, result)], pc := site.next }

def deferOrBeginHandoff (reply : Nat) (site : Site) (s : State) : State :=
  if s.activeSubmission.isNone then { s with pc := .defer reply site }
  else { s with pendingHandoff := some reply, pc := site.next }

def handleControlCommand (command : PtyIoControlCommand) (s : State) : State :=
  match command with
  | .beginHandoff reply => deferOrBeginHandoff reply .handleControlCommand s
  | .duplicateForHandoff => s
  | .foregroundProcessGroup => s
  | .rollbackHandoff reply =>
      let s := { s with pendingHandoff := none }
      if s.state = .released then
        { s with replies := s.replies ++
          [(reply, some ⟨.brokenPipe, "PTY actor was released before handoff rollback"⟩)] }
      else
        { s with
          state := .running, quiet := none, replies := s.replies ++ [(reply, none)] }
  | .releaseAfterCommit reply =>
      { s with
        state := .released
        pendingWrites := []
        replies := s.replies ++ [(reply, none)]
        pc := .closing }
  | .shutdown => { s with pc := .closing }

/-- Where the actor goes on after a round that ends the loop of `flush_pending_writes_once`. -/
def afterFlush (now : Nat) (flusher : Flusher) (result : Except IoError (Option SubmissionBoundary))
    (s : State) : State :=
  match flusher, result with
  | .handoff handoff, .ok _ => { s with pc := .beginPoll handoff }
  | .handoff handoff, .error error => endHandoff handoff.reply handoff.site (some error) s
  | _, .error error => { failActiveSubmission error s with pc := .closing }
  | flusher, .ok boundary =>
      let s :=
        match boundary with
        | none => s
        | some boundary => completeSubmissionBoundary now boundary s
      { s with pc := if flusher = .beforePoll then .schedule else .drainControl }

/-- Where the actor goes on after a `read_once` that returns true. -/
def afterRead (reader : Reader) (writeReady : Bool) (s : State) : State :=
  match reader with
  | .handoff handoff =>
      { s with pc := if writeReady then .flush (.handoff handoff) else .beginPoll handoff }
  | .run =>
      { s with
        pc := if writeReady && !s.pendingWrites.isEmpty then .flush .afterPoll else .drainControl }

/-- `read_once` returns false. -/
def readEnded (reader : Reader) (s : State) : State :=
  match reader with
  | .handoff handoff =>
      endHandoff handoff.reply handoff.site
        (some ⟨.brokenPipe, "PTY closed while draining writes before handoff"⟩) s
  | .run => { s with pc := .closing }

/-- One round of the loop of `begin_handoff`, up to its `read_once`. -/
def beginPoll (env : Env) (handoff : Handoff) (s : State) : State :=
  if s.pendingWrites.isEmpty then
    endHandoff handoff.reply handoff.site none { s with
      state := .quiesced, quiet := some (s.reads, (userChunks s.log).length) }
  else if handoff.deadline ≤ env.now then
    endHandoff handoff.reply handoff.site
      (some ⟨.timedOut, "timed out draining PTY writes before handoff"⟩) s
  else
    match env.poll with
    | .error error => endHandoff handoff.reply handoff.site (some error) s
    | .ok readiness =>
        match readiness.wakeReady, env.drainWake with
        | true, some error => endHandoff handoff.reply handoff.site (some error) s
        | _, _ =>
            if readiness.ptyReadReady then
              { s with pc := .read (.handoff handoff) readiness.ptyWriteReady }
            else if readiness.ptyWriteReady then { s with pc := .flush (.handoff handoff) }
            else s

/-- The `poll` of `run`. -/
def poll (env : Env) (s : State) : State :=
  match env.poll with
  | .error _ => { s with pc := .closing }
  | .ok readiness =>
      if readiness.wakeReady then
        match env.drainWake with
        | some _ => { s with pc := .closing }
        | none => { s with pc := .drainControl }
      else if s.state = .running && readiness.ptyReadReady then
        { s with pc := .read .run readiness.ptyWriteReady }
      else afterRead .run readiness.ptyWriteReady s

def act (env : Env) (s : State) : Option State :=
  match s.pc with
  | .drainControl =>
      match s.controlQueue with
      | [] => some { s with pc := .drainCommands }
      | command :: rest => some (handleControlCommand command { s with controlQueue := rest })
  | .drainCommands =>
      if s.activeSubmission.isSome then some { s with pc := .applyControls }
      else
        match s.pendingHandoff with
        | some reply =>
            some (deferOrBeginHandoff reply .drainCommands { s with pendingHandoff := none })
        | none => some { s with pc := .drainData }
  | .drainData =>
      match s.dataQueue with
      | [] => some { s with pc := .applyControls }
      | command :: rest =>
          let s := handleDataCommand env.now command { s with dataQueue := rest }
          if s.activeSubmission.isSome then some { s with pc := .applyControls } else some s
  | .defer reply site =>
      match s.dataQueue with
      | [] => some { s with pc := .begin reply site }
      | command :: rest =>
          let s := handleDataCommand env.now command { s with dataQueue := rest }
          if s.activeSubmission.isSome then
            some { s with pendingHandoff := some reply, pc := site.next }
          else some s
  | .begin reply site =>
      match s.dataQueue with
      | [] => some { s with pc := .beginControls reply site }
      | command :: rest =>
          let s := handleDataCommand env.now command { s with dataQueue := rest }
          if s.activeSubmission.isSome then
            some (endHandoff reply site
              (some ⟨.wouldBlock, "PTY input submission is still in progress"⟩) s)
          else some s
  | .beginControls reply site =>
      let s := applyPendingControls s
      if s.state = .released then
        some (endHandoff reply site
          (some ⟨.brokenPipe, "PTY actor was released before handoff quiesce"⟩) s)
      else
        some { s with pc := .flush (.handoff ⟨reply, site, env.now + handoffDrainTimeout⟩) }
  | .beginPoll handoff => some (beginPoll env handoff s)
  | .applyControls =>
      let s := applyPendingControls s
      some { s with pc := if s.pendingWrites.isEmpty then .schedule else .flush .beforePoll }
  | .flush flusher =>
      match flushPendingWrites env.write s with
      | (.more, s) => some s
      | (.done boundary, s) => some (afterFlush env.now flusher (.ok boundary) s)
      | (.failed error, s) => some (afterFlush env.now flusher (.error error) s)
  | .schedule =>
      let s := scheduleSubmissionEnter env.now s
      some { s with
        pc := if s.activeSubmission.isNone && s.pendingHandoff.isSome then .drainControl
          else .poll }
  | .poll => some (poll env s)
  | .read reader writeReady =>
      let s := { s with reads := s.reads + 1 }
      match env.read with
      | .closed => some (readEnded reader s)
      | .failed => some (readEnded reader s)
      | .wouldBlock => some (afterRead reader writeReady s)
      | .interrupted => some (afterRead reader writeReady s)
      | .read terminalResponses =>
          some { s with
            controls := { s.controls with
              terminalResponses := s.controls.terminalResponses ++ terminalResponses }
            pc := .readTake reader writeReady }
  | .readTake reader writeReady =>
      let taken := s.controls.terminalResponses
      let s := { s with controls := { s.controls with terminalResponses := [] } }
      some (afterRead reader writeReady (enqueueTerminalResponses taken s))
  | .closing => some (closeInputQueue s)
  | .exited => none

/-! ### Runs -/

inductive Op where
  | tryWriteUserInput (bytes : Bytes)
  | queueUserInputSubmission (text enter : Bytes) (delay : Nat)
  | writeTerminalResponse (response : Option Bytes)
  | resize (terminalResponses : List Bytes)
  | duplicateForHandoff
  | foregroundProcessGroupId
  | beginHandoff
  | rollbackHandoff
  | releaseAfterCommit
  | shutdown
  | receive
  | expire
  | reopen
  | act (env : Env)

/-- A handoff call starts when no other one is under way. -/
def whenIdle (call : State → State) (s : State) : Option State :=
  if s.caller = .idle then some (call s) else none

def next (s : State) : Op → Option State
  | .tryWriteUserInput bytes => some (tryWriteUserInput bytes s).2
  | .queueUserInputSubmission text enter delay =>
      some (queueUserInputSubmission text enter delay s).2
  | .writeTerminalResponse response => some (writeTerminalResponse response s)
  | .resize terminalResponses => some (resize terminalResponses s)
  | .duplicateForHandoff => some ((sendControl (fun _ => .duplicateForHandoff) s).getD s)
  | .foregroundProcessGroupId => some ((sendControl (fun _ => .foregroundProcessGroup) s).getD s)
  | .beginHandoff => whenIdle beginHandoff s
  | .rollbackHandoff => whenIdle (rollbackHandoff none) s
  | .releaseAfterCommit => whenIdle releaseAfterCommit s
  | .shutdown => some (shutdown s)
  | .receive => receive s
  | .expire => expire s
  | .reopen => reopen s
  | .act env => act env s

def step (s : State) (op : Op) : Option (State × Unit) :=
  (next s op).map fun t => (t, ())

end Herden.Runtime.Pty.Actor
