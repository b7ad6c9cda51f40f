/-!
# `Herden.Glasses.MicrophoneService`: starts and stops of the glasses' microphone

Embedding of `glasses/app/src/microphone-service.ts`. `start` and `stop` note what is wanted and hang
an operation on the settlement of the one before it, whatever that was. `#tail` is never reset, so
the operations form one queue of which at most one has begun. An operation runs from one
`audioControl` call to its answer without interruption; the promise of `start` or `stop` settles when
its operation returns or throws.

`MicrophoneService.calls` and `MicrophoneService.device` are kept for the proofs: the `audioControl`
calls so far, and what the last call that was answered with `true` made of the microphone. A fresh
WebView can find it open, so `device` starts with any value.
-/

namespace Herden.Glasses.MicrophoneService

/-- A queued operation. A start carries the generation it was called in. -/
inductive Operation where
  | start (generation : Nat)
  | stop
deriving DecidableEq

/-- The operation that has begun, by the `audioControl` call it waits for. -/
inductive Running where
  | opening (generation : Nat)
  | closing (wasOpen : Bool)
  /-- The second close of a stop that found the microphone open. -/
  | retrying

def Running.operation : Running → Operation
  | .opening generation => .start generation
  | .closing _ => .stop
  | .retrying => .stop

/-- The argument of the `audioControl` call it waits for. -/
def Running.enable : Running → Bool
  | .opening _ => true
  | .closing _ => false
  | .retrying => false

/-- How the promise of a call settles. -/
inductive Outcome where
  /-- `start` resolves; `false` if a later call superseded it. -/
  | started (live : Bool)
  | stopped
  | rejected (message : String)
deriving DecidableEq

/-- An operation that has settled. `made` is how many calls of `start` and `stop` had been made by
then. -/
structure Settled where
  operation : Operation
  outcome : Outcome
  made : Nat

/-- How an `audioControl` call is answered. -/
inductive Answer where
  | yes
  | no
  | rejected (message : String)
deriving DecidableEq

/-- An `audioControl` call of the operation at place `operation` of the queue, with how many calls
were outstanding when it was made. -/
structure AudioCall where
  operation : Nat
  enable : Bool
  outstanding : Nat
  answer : Option Answer

structure Service where
  wanted : Bool
  isOpen : Bool
  generation : Nat
  settled : List Settled
  running : Option Running
  queued : List Operation
  calls : List AudioCall
  device : Bool

namespace Service

def new (device : Bool) : Service where
  wanted := false
  isOpen := false
  generation := 0
  settled := []
  running := none
  queued := []
  calls := []
  device := device

def start (s : Service) : Service :=
  { s with
    wanted := true
    generation := s.generation + 1
    queued := s.queued ++ [.start (s.generation + 1)] }

def stop (s : Service) : Service :=
  { s with
    wanted := false
    generation := s.generation + 1
    queued := s.queued ++ [.stop] }

/-- `this.#bridge.audioControl(enable)`, called by the operation that `running` describes from now
on. -/
def audioControl (s : Service) (running : Running) : Service :=
  { s with
    running := some running
    calls := s.calls ++
      [{ operation := s.settled.length
         enable := running.enable
         outstanding := s.calls.countP (fun call => call.answer.isNone)
         answer := none }] }

/-- The operation returns or throws. -/
def settle (s : Service) (operation : Operation) (outcome : Outcome) : Service :=
  { s with
    running := none
    settled := s.settled ++
      [{ operation := operation, outcome := outcome, made := s.generation }] }

/-- The first test of a start, and what it resolves to. -/
def live (s : Service) (generation : Nat) : Bool := generation = s.generation && s.wanted

/-- The operation at the head of the queue begins. -/
def begin_ (s : Service) : Option Service :=
  match s.running, s.queued with
  | none, operation :: rest =>
      let s := { s with queued := rest }
      match operation with
      | .start generation =>
          if !s.live generation then some (s.settle (.start generation) (.started false))
          else if !s.isOpen then some (s.audioControl (.opening generation))
          else some (s.settle (.start generation) (.started (s.live generation)))
      | .stop => some (s.audioControl (.closing s.isOpen))
  | _, _ => none

/-- The outstanding `audioControl` call is answered: the note of it, and what it did to the
microphone. -/
def note (s : Service) (enable : Bool) (answer : Answer) : Service :=
  { s with
    calls := s.calls.map (fun call =>
      if call.answer.isNone then { call with answer := some answer } else call)
    device := if answer = .yes then enable else s.device }

/-- The operation goes on with the answer, to its next call or to its end. -/
def resume (s : Service) (running : Running) (answer : Answer) : Service :=
  match running, answer with
  | .opening generation, .yes =>
      let s := { s with isOpen := true }
      s.settle (.start generation) (.started (s.live generation))
  | .opening generation, .no =>
      s.settle (.start generation) (.rejected "the glasses mic did not open")
  | .opening generation, .rejected message => s.settle (.start generation) (.rejected message)
  | .closing false, .no => { s with isOpen := false }.settle .stop .stopped
  | .closing true, .no => s.audioControl .retrying
  | .retrying, .no =>
      { s with isOpen := false }.settle .stop
        (.rejected "the glasses mic may still be recording")
  | _, .yes => { s with isOpen := false }.settle .stop .stopped
  | _, .rejected message => { s with isOpen := false }.settle .stop (.rejected message)

/-- What can happen next. -/
inductive Op where
  | start
  | stop
  | begin_
  | answer (answer : Answer)

def step (s : Service) : Op → Option Service
  | .start => some s.start
  | .stop => some s.stop
  | .begin_ => s.begin_
  | .answer answer =>
      match s.running with
      | none => none
      | some running => some ((s.note running.enable answer).resume running answer)

/-- The step as a machine without answers. -/
def machine (s : Service) (op : Op) : Option (Service × Unit) := (s.step op).map (fun t => (t, ()))

end Service

end Herden.Glasses.MicrophoneService
