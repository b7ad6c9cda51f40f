import Mathlib.Data.List.Basic
import Mathlib.Algebra.Group.Nat.Defs

/-!
# `Herden.Runtime.ClientWriterQueue`: the outbound queue of one client

Embedding of `ClientWriterQueue` (`runtime/src/server/client_transport.rs`). Server threads
put serialized messages into three lanes and the client's writer thread takes them out.
Every method holds the mutex from its first line to its last, so one call is one step of
the machine. `recv` gives the mutex up only while it waits on the condition variable:
`RecvResult.waiting` is one turn of its loop that found nothing, after which the state is
as it was and the loop looks again.

A send that fails hands the message back, as `SendError` and `TrySendError` do.
-/

namespace Herden.Runtime.ClientWriterQueue

/-- A serialized message, `Vec<u8>`. -/
abbrev Data := List UInt8

structure ClientWriterQueueState where
  control : List Data
  ordered : List Data
  render : Option Data
  senders : Nat
  writerAlive : Bool

inductive ClientWriteItem where
  | control (data : Data)
  | render (data : Data)

/-- What a send returns. `disconnected` stands for `SendError` too. -/
inductive SendResult where
  | ok
  | full (data : Data)
  | disconnected (data : Data)

/-- One turn of `recv`: an item, the end of the stream (`None`), or a wait. -/
inductive RecvResult where
  | item (item : ClientWriteItem)
  | closed
  | waiting

/-- `usize::MAX` on a 64-bit target. -/
def usizeMax : Nat := 2 ^ 64 - 1

namespace ClientWriterQueueState

def new : ClientWriterQueueState where
  control := []
  ordered := []
  render := none
  senders := 0
  writerAlive := true

def addSender (state : ClientWriterQueueState) : ClientWriterQueueState :=
  { state with senders := min (state.senders + 1) usizeMax }

def removeSender (state : ClientWriterQueueState) : ClientWriterQueueState :=
  { state with senders := state.senders - 1 }

def sendControl (state : ClientWriterQueueState) (data : Data) :
    ClientWriterQueueState × SendResult :=
  if !state.writerAlive then (state, .disconnected data)
  else ({ state with control := state.control ++ [data] }, .ok)

def trySendRender (state : ClientWriterQueueState) (data : Data) :
    ClientWriterQueueState × SendResult :=
  if !state.writerAlive then (state, .disconnected data)
  else if state.render.isSome then (state, .full data)
  else ({ state with render := some data }, .ok)

def discardPendingRender (state : ClientWriterQueueState) : ClientWriterQueueState :=
  { state with render := none, ordered := [] }

def sendOrdered (state : ClientWriterQueueState) (data : Data) :
    ClientWriterQueueState × SendResult :=
  if !state.writerAlive then (state, .disconnected data)
  else if !state.ordered.isEmpty then (state, .full data)
  else
    match state.render with
    | some older =>
        ({ state with render := none, ordered := state.ordered ++ [older] ++ [data] }, .ok)
    | none => ({ state with ordered := state.ordered ++ [data] }, .ok)

def recv (state : ClientWriterQueueState) : ClientWriterQueueState × RecvResult :=
  match state.control with
  | data :: control => ({ state with control := control }, .item (.control data))
  | [] =>
    match state.ordered with
    | data :: ordered => ({ state with ordered := ordered }, .item (.render data))
    | [] =>
      match state.render with
      | some data => ({ state with render := none }, .item (.render data))
      | none => (state, if state.senders = 0 then .closed else .waiting)

def closeWriter (state : ClientWriterQueueState) : ClientWriterQueueState :=
  { state with writerAlive := false, render := none, ordered := [] }

/-! ### The calls as one machine -/

inductive Op where
  | addSender
  | removeSender
  | sendControl (data : Data)
  | trySendRender (data : Data)
  | sendOrdered (data : Data)
  | discardPendingRender
  | recv
  | closeWriter

inductive Answer where
  | unit
  | sent (result : SendResult)
  | received (result : RecvResult)

def step (state : ClientWriterQueueState) : Op → ClientWriterQueueState × Answer
  | .addSender => (state.addSender, .unit)
  | .removeSender => (state.removeSender, .unit)
  | .sendControl data => ((state.sendControl data).1, .sent (state.sendControl data).2)
  | .trySendRender data => ((state.trySendRender data).1, .sent (state.trySendRender data).2)
  | .sendOrdered data => ((state.sendOrdered data).1, .sent (state.sendOrdered data).2)
  | .discardPendingRender => (state.discardPendingRender, .unit)
  | .recv => (state.recv.1, .received state.recv.2)
  | .closeWriter => (state.closeWriter, .unit)

end ClientWriterQueueState

end Herden.Runtime.ClientWriterQueue
