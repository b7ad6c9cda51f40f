import Mathlib.Data.List.Basic
import Mathlib.Algebra.Group.Int.Defs

/-!
# `Herden.App.TerminalAttach`: the input queue of a live Attach session

Embedding of `TerminalAttachInputQueue` (`Sources/Herden/Transport/TerminalAttach.swift`).
Keystrokes and resizes are reliable. Touch scrolling is bounded, coalesced and dropped when a
keystroke arrives. Any thread can call `send`, `scroll`, `resize` and `finish`. The writer calls
`next` and asks again only after it wrote the item it got.

Every method changes the state inside one `withLock` and resumes a continuation after it. So a
method is one step on `QueueState` that may start a resumption, and the arrival of the resumption
at the consumer is a step of its own (`System.step`, operation `resume`). A continuation is named
by the number of the `next` call that made it.

`pending.rows + rows` traps when it leaves `Int`: the step is `none`. So is a second waiter, which
`precondition` refuses, and a continuation that is resumed when its call has ended, which
`CheckedContinuation` refuses.
-/

namespace Herden.App.TerminalAttach

/-- `Data`. -/
abbrev Data := List UInt8

inductive TerminalAttachInput where
  | keystrokes (data : Data)
  | scroll (data : Data)
  | resize (cols rows : Int)
deriving DecidableEq

def maximumPendingScrollRows : Int := 12

def maximumScrollRowsPerWrite : Int := 3

/-- `Int.max` on a 64-bit target. -/
def intMax : Int := 2 ^ 63 - 1

structure PendingScroll where
  sequence : Data
  rows : Int

structure QueueState where
  reliable : List TerminalAttachInput
  pendingScroll : Option PendingScroll
  waiter : Option Nat
  isFinished : Bool

def repeated (sequence : Data) (count : Int) : Data :=
  (List.replicate count.toNat sequence).flatten

/-- What a continuation is resumed with. The consumer gets `value`. The bytes of a scroll do not
tell which sequence they repeat, so the sequence and the count are kept here. -/
inductive Handed where
  | reliable (input : TerminalAttachInput)
  | scroll (sequence : Data) (rows : Int)
  | finished
deriving DecidableEq

def Handed.value : Handed → Option TerminalAttachInput
  | .reliable input => some input
  | .scroll sequence rows => some (.scroll (repeated sequence rows))
  | .finished => none

/-- A call of `resume(returning:)` that has not reached the consumer yet. -/
structure Resumption where
  continuation : Nat
  handed : Handed
deriving DecidableEq

namespace QueueState

def new : QueueState where
  reliable := []
  pendingScroll := none
  waiter := none
  isFinished := false

def enqueueReliable (state : QueueState) (input : TerminalAttachInput)
    (discardingPendingScroll : Bool) : QueueState × Option Resumption :=
  if state.isFinished then (state, none)
  else
    let state :=
      if discardingPendingScroll then { state with pendingScroll := none } else state
    match state.reliable.isEmpty, state.waiter with
    | true, some waiting => ({ state with waiter := none }, some ⟨waiting, .reliable input⟩)
    | _, _ => ({ state with reliable := state.reliable ++ [input] }, none)

def send (state : QueueState) (keystrokes : Data) : QueueState × Option Resumption :=
  if keystrokes.isEmpty then (state, none)
  else state.enqueueReliable (.keystrokes keystrokes) true

def resize (state : QueueState) (cols rows : Int) : QueueState × Option Resumption :=
  state.enqueueReliable (.resize cols rows) false

def scroll (state : QueueState) (sequence : Data) (rows : Int) :
    Option (QueueState × Option Resumption) :=
  if sequence.isEmpty ∨ ¬ 0 < rows then some (state, none)
  else if state.isFinished then some (state, none)
  else
    match state.waiter with
    | some waiter =>
      let deliveredRows := min rows maximumScrollRowsPerWrite
      let remainingRows := min (rows - deliveredRows) (maximumPendingScrollRows - deliveredRows)
      let pendingScroll :=
        if 0 < remainingRows then some ⟨sequence, remainingRows⟩ else state.pendingScroll
      some ({ state with waiter := none, pendingScroll := pendingScroll },
        some ⟨waiter, .scroll sequence deliveredRows⟩)
    | none =>
      match state.pendingScroll with
      | some pending =>
        if pending.sequence = sequence then
          if intMax < pending.rows + rows then none
          else
            some ({ state with
              pendingScroll :=
                some { pending with rows := min maximumPendingScrollRows (pending.rows + rows) } },
              none)
        else
          some ({ state with
            pendingScroll := some ⟨sequence, min rows maximumPendingScrollRows⟩ }, none)
      | none =>
        some ({ state with
          pendingScroll := some ⟨sequence, min rows maximumPendingScrollRows⟩ }, none)

/-- `next`, called for the continuation `continuation`. -/
def next (state : QueueState) (continuation : Nat) : Option (QueueState × Option Resumption) :=
  match state.reliable with
  | input :: reliable =>
    some ({ state with reliable := reliable }, some ⟨continuation, .reliable input⟩)
  | [] =>
    match state.pendingScroll with
    | some scroll =>
      let deliveredRows := min scroll.rows maximumScrollRowsPerWrite
      let remainingRows := scroll.rows - deliveredRows
      let pendingScroll :=
        if 0 < remainingRows then some ⟨scroll.sequence, remainingRows⟩ else none
      some ({ state with pendingScroll := pendingScroll },
        some ⟨continuation, .scroll scroll.sequence deliveredRows⟩)
    | none =>
      if state.isFinished then some (state, some ⟨continuation, .finished⟩)
      else if state.waiter.isSome then none
      else some ({ state with waiter := some continuation }, none)

def finish (state : QueueState) : QueueState × Option Resumption :=
  if state.isFinished then (state, none)
  else
    ({ state with isFinished := true, pendingScroll := none, waiter := none },
      state.waiter.map fun waiter => ⟨waiter, .finished⟩)

end QueueState

/-! ### The queue, its producers and its consumer -/

/-- What an observer of the queue writes down: the inputs that the queue took in and the values
that reached the consumer. -/
inductive Entry where
  | accepted (input : TerminalAttachInput)
  | scrolled (sequence : Data) (rows : Int)
  | finished
  | delivered (handed : Handed)

/-- The queue with the consumer's call that has not returned (`awaiting`), the number of `next`
calls made, the resumptions under way, and the observer's entries, the newest first. -/
structure System where
  queue : QueueState
  awaiting : Option Nat
  calls : Nat
  resumptions : List Resumption
  log : List Entry

inductive Op where
  | send (keystrokes : Data)
  | scroll (sequence : Data) (rows : Int)
  | resize (cols rows : Int)
  | finish
  | next
  | resume (continuation : Nat)

namespace System

def new : System where
  queue := .new
  awaiting := none
  calls := 0
  resumptions := []
  log := []

/-- The state after a method: the new queue, the resumption it starts, and the observer's entry
when the queue took the input in. -/
def after (s : System) (result : QueueState × Option Resumption) (entry : Option Entry) :
    System :=
  { s with
    queue := result.1
    resumptions := s.resumptions ++ result.2.toList
    log := entry.toList ++ s.log }

/-- The entry of an input: none when the queue is finished. -/
def entry (s : System) (e : Entry) : Option Entry :=
  if s.queue.isFinished then none else some e

def step (s : System) : Op → Option (System × Unit)
  | .send keystrokes =>
    some (s.after (s.queue.send keystrokes)
      (if keystrokes.isEmpty then none else s.entry (.accepted (.keystrokes keystrokes))), ())
  | .scroll sequence rows =>
    (s.queue.scroll sequence rows).map fun result =>
      (s.after result
        (if sequence.isEmpty ∨ ¬ 0 < rows then none else s.entry (.scrolled sequence rows)), ())
  | .resize cols rows =>
    some (s.after (s.queue.resize cols rows) (s.entry (.accepted (.resize cols rows))), ())
  | .finish => some (s.after s.queue.finish (s.entry .finished), ())
  | .next =>
    (s.queue.next s.calls).map fun result =>
      ({ s.after result none with awaiting := some s.calls, calls := s.calls + 1 }, ())
  | .resume continuation =>
    match s.resumptions.find? (·.continuation = continuation) with
    | none => none
    | some resumption =>
      if s.awaiting = some continuation then
        some ({ s with
          awaiting := none
          resumptions := s.resumptions.erase resumption
          log := .delivered resumption.handed :: s.log }, ())
      else none

end System

/-- One consumer: it calls `next` when its last call has returned. -/
def Allowed (s : System) : Op → Prop
  | .next => s.awaiting = none
  | _ => True

end Herden.App.TerminalAttach
