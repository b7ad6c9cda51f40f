import Mathlib.Logic.Function.Basic

/-!
# `Herden.Runtime.Client.EndpointWriter`: the transport of one endpoint and its writer thread

Embedding of `NativeEndpointTransport` (`runtime/src/client/endpoint/writer.rs`). The UI thread
(`Producer`) and the worker thread (`Worker`) share a bounded channel of commands, the batches in
it, the counter of queued bytes and the stop flag. One step of the machine is one access of these,
or one `write` on the socket. A batch is named by a number in the order of creation, since both
threads may hold it; the worker leaves an empty batch behind when it claims one.

The encoding of a message is not modelled: `send` starts with the bytes of the frame, or with
`none` when the message could not be written. Locks are not poisoned. Every frame whose `send`
succeeded is in `accepted`, and for every flush `flushes` holds the number of frames accepted
before it, so that its index names the flush.
-/

namespace Herden.Runtime.Client.EndpointWriter

abbrev Frame := List UInt8

def maxQueuedBatches : Nat := 256

def maxBatchBytes : Nat := 64 * 1024

/-- Twice `MAX_GRAPHICS_FRAME_SIZE`. -/
def maxQueuedBytes : Nat := 2 * (32 * 1024 * 1024)

structure FrameBatch where
  frames : List Frame
  bytes : Nat

/-- `FrameBatch::default()`. -/
def FrameBatch.empty : FrameBatch := ⟨[], 0⟩

inductive WriterCommand where
  | frames (batch : Nat)
  | flush (token : Nat)
deriving DecidableEq

/-- What a call of the UI thread fails with. -/
inductive SendError where
  | stopped
  | invalidData
  | queueFull
  | timedOut

/-- Where the UI thread stands in a call. -/
inductive Producer where
  | idle
  /-- In `send`, with the frame written out. -/
  | sending (frame : Frame)
  /-- The bytes of the frame are counted. -/
  | reserved (frame : Frame)
  /-- The frame does not go into the pending batch. -/
  | opening (frame : Frame)
  /-- The bytes of the frame are about to be given back. -/
  | refunding (frame : Frame) (error : SendError)
  /-- In `flush`, waiting for the worker. -/
  | flushing (token : Nat)

inductive WriteError where
  | failed
  | timedOut
deriving DecidableEq

/-- Where the worker stands in its loop. -/
inductive Worker where
  | receiving
  | received (command : WriterCommand)
  | claiming (batch : Nat)
  /-- At the head of the loop of `write_batch`. -/
  | batch (frames : List Frame)
  /-- At the head of the loop of `write_frame`. -/
  | writing (frame remaining : Frame) (rest : List Frame)
  /-- About to write the remaining bytes. -/
  | attempting (frame remaining : Frame) (rest : List Frame)
  /-- About to subtract the bytes of the frame. -/
  | finishing (frame remaining : Frame) (rest : List Frame) (error : Option WriteError)
  /-- About to leave its error and to stop. -/
  | failing (error : WriteError)
  | exited
deriving DecidableEq

structure State where
  queue : List WriterCommand
  batches : Nat → FrameBatch
  nextBatch : Nat
  pendingBatch : Option Nat
  queuedBytes : Nat
  stopped : Bool
  error : Option WriteError
  producer : Producer
  worker : Worker
  /-- The bytes that the socket took. -/
  socket : List UInt8
  accepted : List Frame
  flushes : List Nat
  /-- The flushes that the worker has answered. -/
  acknowledged : List Nat

def start : State where
  queue := []
  batches := fun _ => .empty
  nextBatch := 0
  pendingBatch := none
  queuedBytes := 0
  stopped := false
  error := none
  producer := .idle
  worker := .receiving
  socket := []
  accepted := []
  flushes := []
  acknowledged := []

/-- What a call of the UI thread answers when it ends. -/
inductive Answer where
  | pending
  | ok
  | err (error : SendError)

/-- `try_send`: an error when the worker is gone or the channel is full. -/
def trySend (command : WriterCommand) (state : State) : Except SendError State :=
  if state.worker = .exited then .error .stopped
  else if state.queue.length < maxQueuedBatches then
    .ok { state with queue := state.queue ++ [command] }
  else .error .queueFull

/-! ### The UI thread -/

/-- `send`, up to the check of the stop flag and the encoding of the message. -/
def send (frame : Option Frame) (state : State) : State × Answer :=
  if state.stopped then (state, .err .stopped)
  else
    match frame with
    | none => (state, .err .invalidData)
    | some frame => ({ state with producer := .sending frame }, .pending)

/-- `flush`, up to its wait. -/
def flush (state : State) : State × Answer :=
  let state := { state with pendingBatch := none }
  let token := state.flushes.length
  match trySend (.flush token) state with
  | .error _ => (state, .err .queueFull)
  | .ok state =>
      ({ state with
        flushes := state.flushes ++
            [state.accepted.length], producer := .flushing token }, .pending)

/-- A frame fits into a batch that the worker has not claimed. -/
def fits (batch : FrameBatch) (frame : Frame) : Bool :=
  !batch.frames.isEmpty && frame.length ≤ maxBatchBytes - batch.bytes

/-- The next access of a call that is under way. -/
def produce (state : State) : Option (State × Answer) :=
  match state.producer with
  | .idle => none
  | .sending frame =>
      if state.queuedBytes + frame.length ≤ maxQueuedBytes then
        some ({ state with
          queuedBytes := state.queuedBytes + frame.length, producer := .reserved frame }, .pending)
      else some ({ state with producer := .idle }, .err .queueFull)
  | .reserved frame =>
      match state.pendingBatch with
      | none => some ({ state with producer := .opening frame }, .pending)
      | some id =>
          let batch := state.batches id
          if fits batch frame then
            some ({ state with
              batches := Function.update state.batches id
                ⟨batch.frames ++ [frame], batch.bytes + frame.length⟩
              accepted := state.accepted ++ [frame]
              producer := .idle }, .ok)
          else some ({ state with producer := .opening frame }, .pending)
  | .opening frame =>
      match trySend (.frames state.nextBatch) state with
      | .error error => some ({ state with producer := .refunding frame error }, .pending)
      | .ok sent =>
          some ({ sent with
            batches := Function.update sent.batches sent.nextBatch ⟨[frame], frame.length⟩
            nextBatch := sent.nextBatch + 1
            pendingBatch := some sent.nextBatch
            accepted := sent.accepted ++ [frame]
            producer := .idle }, .ok)
  | .refunding frame error =>
      some ({ state with
        queuedBytes := state.queuedBytes - frame.length, producer := .idle }, .err error)
  | .flushing token =>
      if state.acknowledged.contains token then some ({ state with producer := .idle }, .ok)
      else if state.worker = .exited then some ({ state with producer := .idle }, .err .stopped)
      else none

/-- The deadline of a flush passes. -/
def giveUp (state : State) : Option (State × Answer) :=
  match state.producer with
  | .flushing _ => some ({ state with producer := .idle }, .err .timedOut)
  | _ => none

/-! ### The worker -/

/-- What one call of `write` does. -/
inductive Outcome where
  /-- It takes some bytes. -/
  | wrote (count : Nat)
  /-- It takes none, and the deadline has not passed: `Ok(0)`, `WouldBlock` or `Interrupted`. -/
  | nothing
  | error (error : WriteError)

def work (state : State) : Option State :=
  match state.worker with
  | .receiving =>
      match state.queue with
      | [] => none
      | command :: queue => some { state with queue := queue, worker := .received command }
  | .received command =>
      if state.stopped then some { state with worker := .exited }
      else
        match command with
        | .frames batch => some { state with worker := .claiming batch }
        | .flush token =>
            some { state with
              acknowledged := state.acknowledged ++ [token], worker := .receiving }
  | .claiming batch =>
      some { state with
        batches := Function.update state.batches batch .empty
        worker := .batch (state.batches batch).frames }
  | .batch [] => some { state with worker := .receiving }
  | .batch (frame :: rest) =>
      if state.stopped then some { state with worker := .receiving }
      else some { state with worker := .writing frame frame rest }
  | .writing frame remaining rest =>
      if remaining.isEmpty || state.stopped then
        some { state with worker := .finishing frame remaining rest none }
      else some { state with worker := .attempting frame remaining rest }
  | .attempting _ _ _ => none
  | .finishing frame _ rest error =>
      let state := { state with queuedBytes := state.queuedBytes - frame.length }
      match error with
      | none => some { state with worker := .batch rest }
      | some error => some { state with worker := .failing error }
  | .failing error =>
      some { state with error := some error, stopped := true, worker := .exited }
  | .exited => none

/-- The call of `write` returns. -/
def write (outcome : Outcome) (state : State) : Option State :=
  match state.worker with
  | .attempting frame remaining rest =>
      match outcome with
      | .wrote count =>
          if 0 < count && count ≤ remaining.length then
            some { state with
              socket := state.socket ++ remaining.take count
              worker := .writing frame (remaining.drop count) rest }
          else none
      | .nothing => some { state with worker := .writing frame remaining rest }
      | .error error => some { state with worker := .finishing frame remaining rest (some error) }
  | _ => none

/-! ### Runs -/

inductive Op where
  | send (frame : Option Frame)
  | flush
  | produce
  | giveUp
  /-- `disconnect`, or the owner of the stop handle. -/
  | stop
  | work
  | write (outcome : Outcome)

def step (state : State) : Op → Option (State × Answer)
  | .send frame =>
      match state.producer with
      | .idle => some (send frame state)
      | _ => none
  | .flush =>
      match state.producer with
      | .idle => some (flush state)
      | _ => none
  | .produce => produce state
  | .giveUp => giveUp state
  | .stop => some ({ state with stopped := true }, .pending)
  | .work => (work state).map fun next => (next, .pending)
  | .write outcome => (write outcome state).map fun next => (next, .pending)

end Herden.Runtime.Client.EndpointWriter
