/-!
# `Herden.Glasses.VoicePipeline`: ordered voice work and the session it belongs to

Embedding of `glasses/app/src/voice-pipeline.ts`: `OrderedVoiceQueue` and
`processVoiceUtterance`. The phone runs JavaScript, so code runs from one `await` to the next
without interruption, and anything can happen at an `await`.

`enqueue` hangs three reactions on the queue's promise: `catch` swallows what the previous link was
rejected with, `then` takes the utterance's turn, `finally` corrects the counter. The promise of an
utterance settles with its `finally`, so its turn comes after the `finally` of the link before it.
Each of these reactions is a step of its own. The runtime makes them in the order in which their
promises settle; here every order is allowed that respects the chain.

Callbacks are code of the caller. A `Reaction` is what one call does before it returns: the calls it
makes on the queue, and what it throws. `containsSpeech` and `parseCommand` stay open. The abort
signal only makes `transcribe` settle sooner, and every moment is allowed for that anyway, so it is
left out.

`State.turns`, `State.runs` and `State.calls` are kept for the proofs: the turns taken with whether
the session was current, the runs started, and the callbacks called with whether the session was
current at that moment.
-/

namespace Herden.Glasses.VoicePipeline

inductive PageDirection where
  | up
  | down
deriving DecidableEq

inductive VoiceCommand where
  | open (position : Nat)
  | back
  | page (direction : PageDirection)
  | close
  | dictate (text : String)
  | unknown (transcript : String)
deriving DecidableEq

def VoiceCommand.isUnknown : VoiceCommand → Bool
  | .unknown _ => true
  | _ => false

/-! ### The queue -/

/-- Where an utterance is on its way through its link of the chain. -/
inductive Phase where
  /-- The link before it has not settled. -/
  | waiting
  /-- `run` was called and its promise is pending. -/
  | running
  /-- The run has settled, or the turn passed without one; `finally` is still to come. -/
  | settled
  /-- `finally` has run. -/
  | finished
deriving DecidableEq

/-- An utterance with the link that `enqueue` built for it. `previous` is the link its turn waits
for; `none` is `Promise.resolve()`. -/
structure Link (Frames : Type) where
  frames : Frames
  generation : Nat
  previous : Option Nat
  phase : Phase

/-- The fields of `OrderedVoiceQueue`. `tail` is the link whose promise `#queue` holds. -/
structure OrderedVoiceQueue where
  generation : Nat
  isOpen : Bool
  pending : Nat
  tail : Option Nat

def OrderedVoiceQueue.new : OrderedVoiceQueue where
  generation := 0
  isOpen := false
  pending := 0
  tail := none

/-- `session.isCurrent()` of a session made in `generation`. -/
def OrderedVoiceQueue.isCurrent (queue : OrderedVoiceQueue) (generation : Nat) : Bool :=
  queue.isOpen && generation == queue.generation

def OrderedVoiceQueue.start (queue : OrderedVoiceQueue) : OrderedVoiceQueue where
  generation := queue.generation + 1
  isOpen := true
  pending := 0
  tail := none

def OrderedVoiceQueue.stop (queue : OrderedVoiceQueue) : OrderedVoiceQueue where
  generation := queue.generation + 1
  isOpen := false
  pending := 0
  tail := none

/-- A call on the queue. -/
inductive QueueCall (Frames : Type) where
  | start
  | stop
  | enqueue (frames : Frames)

/-- The call starts or stops a session. -/
def QueueCall.changesSession {Frames : Type} : QueueCall Frames → Bool
  | .start => true
  | .stop => true
  | .enqueue _ => false

/-! ### `processVoiceUtterance` -/

/-- The callbacks of `ProcessVoiceUtteranceOptions` that the wearer can notice. -/
inductive Callback where
  | onTranscribing
  | onResolved (text : String) (command : VoiceCommand)
  | onFailed (message : String)
  | execute (command : VoiceCommand)
  | noteActivity
deriving DecidableEq

/-- What a callback does before it returns. -/
structure Reaction (Frames : Type) where
  calls : List (QueueCall Frames)
  throws : Option String

/-- Where a call of `processVoiceUtterance` is: at one of its two `await`s, or through. -/
inductive Stage where
  | transcribing
  | executing (command : VoiceCommand)
  | returned

/-- A call of `processVoiceUtterance` with the generation of its session. -/
structure Process where
  generation : Nat
  stage : Stage

/-- A callback that was called, and whether the session was current at that moment. `after` holds
what `onResolved` did to the queue just before an `execute`. -/
structure CallRecord (Frames : Type) where
  process : Nat
  callback : Callback
  current : Bool
  after : List (QueueCall Frames)

structure State (Frames : Type) where
  queue : OrderedVoiceQueue
  links : List (Link Frames)
  processes : List Process
  turns : List (Nat × Bool)
  runs : List Nat
  calls : List (CallRecord Frames)

namespace State

variable {Frames : Type}

def start : State Frames where
  queue := .new
  links := []
  processes := []
  turns := []
  runs := []
  calls := []

/-- `enqueue`: the new link waits for the one `#queue` holds, and takes its place there. -/
def enqueue (s : State Frames) (frames : Frames) : State Frames :=
  { s with
    queue := { s.queue with pending := s.queue.pending + 1, tail := some s.links.length }
    links := s.links ++
      [{ frames := frames
         generation := s.queue.generation
         previous := s.queue.tail
         phase := .waiting }] }

def queueCall (s : State Frames) : QueueCall Frames → State Frames
  | .start => { s with queue := s.queue.start }
  | .stop => { s with queue := s.queue.stop }
  | .enqueue frames => s.enqueue frames

def queueCalls (s : State Frames) (calls : List (QueueCall Frames)) : State Frames :=
  calls.foldl queueCall s

def setPhase (s : State Frames) (index : Nat) (phase : Phase) : State Frames :=
  { s with links := s.links.modify index (fun link => { link with phase := phase }) }

/-- The promise a link waits for has settled. -/
def ready (s : State Frames) (link : Link Frames) : Bool :=
  match link.previous with
  | none => true
  | some index => (s.links[index]?).any (fun previous => previous.phase = .finished)

/-- The `then` reaction: `if (session.isCurrent()) await run(frames, session)`. -/
def turn (s : State Frames) (index : Nat) : Option (State Frames) :=
  match s.links[index]? with
  | none => none
  | some link =>
      if link.phase = .waiting ∧ s.ready link then
        let current := s.queue.isCurrent link.generation
        let s := { s with turns := s.turns ++ [(index, current)] }
        if current then some { s.setPhase index .running with runs := s.runs ++ [index] }
        else some (s.setPhase index .settled)
      else none

/-- The promise of a run settles. A rejection takes the same way as a fulfilment: `finally` runs
for both, and the `catch` of the next link swallows it. -/
def settle (s : State Frames) (index : Nat) : Option (State Frames) :=
  match s.links[index]? with
  | none => none
  | some link => if link.phase = .running then some (s.setPhase index .settled) else none

/-- The `finally` reaction. -/
def finally_ (s : State Frames) (index : Nat) : Option (State Frames) :=
  match s.links[index]? with
  | none => none
  | some link =>
      if link.phase = .settled then
        let s := s.setPhase index .finished
        if link.generation = s.queue.generation then
          some { s with queue := { s.queue with pending := s.queue.pending - 1 } }
        else some s
      else none

/-! ### The steps of `processVoiceUtterance` -/

/-- The session of a process, asked now. -/
def current (s : State Frames) (process : Process) : Bool :=
  s.queue.isCurrent process.generation

def record (s : State Frames) (index : Nat) (process : Process) (callback : Callback)
    (after : List (QueueCall Frames)) : State Frames :=
  { s with
    calls := s.calls ++
      [{ process := index
         callback := callback
         current := s.current process
         after := after }] }

/-- Call a callback: it is recorded, and then does what it does to the queue. -/
def invoke (s : State Frames) (index : Nat) (process : Process) (callback : Callback)
    (reaction : Reaction Frames) (after : List (QueueCall Frames)) : State Frames :=
  (s.record index process callback after).queueCalls reaction.calls

def setStage (s : State Frames) (index : Nat) (stage : Stage) : State Frames :=
  { s with processes := s.processes.modify index (fun process => { process with stage := stage }) }

/-- The `catch` block. -/
def fail (s : State Frames) (index : Nat) (process : Process) (message : String)
    (reaction : Reaction Frames) : State Frames :=
  if s.current process then
    (s.invoke index process (.onFailed message) reaction []).setStage index .returned
  else s.setStage index .returned

/-- The call of `processVoiceUtterance`, up to its first `await`. -/
def call (containsSpeech : Frames → Bool) (s : State Frames) (generation : Nat) (frames : Frames)
    (reaction : Reaction Frames) : State Frames :=
  let index := s.processes.length
  let process : Process := { generation := generation, stage := .transcribing }
  let s := { s with processes := s.processes ++ [process] }
  if !s.current process || !containsSpeech frames then s.setStage index .returned
  else
    let s := s.invoke index process .onTranscribing reaction []
    -- outside the `try`: what `onTranscribing` throws rejects the call
    match reaction.throws with
    | some _ => s.setStage index .returned
    | none => s

/-- `transcribe` has settled. -/
def transcribed (parseCommand : String → VoiceCommand) (s : State Frames) (index : Nat)
    (process : Process) (result : Except String String) (first second : Reaction Frames) :
    State Frames :=
  match result with
  | .error message => s.fail index process message first
  | .ok text =>
      if !s.current process then s.setStage index .returned
      else if text.isEmpty then
        let s := s.invoke index process (.onFailed "nothing recognised") first []
        match first.throws with
        | some message => s.fail index process message second
        | none => s.setStage index .returned
      else
        let command := parseCommand text
        let s := s.invoke index process (.onResolved text command) first []
        match first.throws with
        | some message => s.fail index process message second
        | none =>
            (s.invoke index process (.execute command) second first.calls).setStage index
              (.executing command)

/-- `execute` has settled. -/
def executed (s : State Frames) (index : Nat) (process : Process) (command : VoiceCommand)
    (result : Except String Unit) (first second : Reaction Frames) : State Frames :=
  match result with
  | .error message => s.fail index process message first
  | .ok () =>
      if s.current process && !command.isUnknown then
        let s := s.invoke index process .noteActivity first []
        match first.throws with
        | some message => s.fail index process message second
        | none => s.setStage index .returned
      else s.setStage index .returned

/-! ### One step -/

/-- What can happen next. `process` calls `processVoiceUtterance` with the session of a link. The
reactions are those of the callbacks the step may call. -/
inductive Op (Frames : Type) where
  | queueCall (call : QueueCall Frames)
  | turn (link : Nat)
  | settle (link : Nat)
  | finally_ (link : Nat)
  | process (link : Nat) (frames : Frames) (reaction : Reaction Frames)
  | transcribed (index : Nat) (result : Except String String) (first second : Reaction Frames)
  | executed (index : Nat) (result : Except String Unit) (first second : Reaction Frames)

def step (containsSpeech : Frames → Bool) (parseCommand : String → VoiceCommand)
    (s : State Frames) : Op Frames → Option (State Frames)
  | .queueCall call => some (s.queueCall call)
  | .turn index => s.turn index
  | .settle index => s.settle index
  | .finally_ index => s.finally_ index
  | .process index frames reaction =>
      (s.links[index]?).map (fun link => s.call containsSpeech link.generation frames reaction)
  | .transcribed index result first second =>
      match s.processes[index]? with
      | some ⟨generation, .transcribing⟩ =>
          some (s.transcribed parseCommand index ⟨generation, .transcribing⟩ result first second)
      | _ => none
  | .executed index result first second =>
      match s.processes[index]? with
      | some ⟨generation, .executing command⟩ =>
          some (s.executed index ⟨generation, .executing command⟩ command result first second)
      | _ => none

/-- The step as a machine without answers. -/
def machine (containsSpeech : Frames → Bool) (parseCommand : String → VoiceCommand)
    (s : State Frames) (op : Op Frames) : Option (State Frames × Unit) :=
  (s.step containsSpeech parseCommand op).map (fun t => (t, ()))

end State

end Herden.Glasses.VoicePipeline
