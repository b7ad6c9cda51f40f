import Herden.Runtime.AgentEvents

/-!
# `Herden.Runtime.AgentWait`: waiting for the status of an agent

Embedding of `wait_for_agent` and `wait_for_resolved_agent` (`runtime/src/api/wait.rs`). The call
reads the hub's sequence, asks the app for the agent, and then polls: it reads the events after its
cursor, asks again when one of them concerns the pane, and gives up at the deadline. The thread
shares the hub with those that push, so every read is a step of its own (`Pc` says which one comes
next), and the answers of the app and of the clock are inputs.

`wait_for_resolved_agent` is used with other parameters by `prompt_agent`. They are kept here.
Serialisation of the answer is left out: `Answer` says which of the returns was taken, with its
value.
-/

namespace Herden.Runtime.AgentWait

open Herden.Runtime.AgentEvents

/-- The fields of `AgentInfo` that the wait reads. -/
structure AgentInfo where
  terminalId : Text
  name : Option Text
  agent : Option Text
  agentStatus : AgentStatus
  paneId : Text
  stateChangeSeq : Nat
deriving DecidableEq

structure AgentWaitParams where
  target : Text
  until_ : List AgentStatus
  timeoutMs : Option Nat

inductive AgentWaitTimeoutKind where
  | status
  | promptStalled (timeoutMs : Nat)
deriving DecidableEq

structure ResolvedAgentWait where
  target : Text
  until_ : List AgentStatus
  timeoutMs : Option Nat
  initial : AgentInfo
  lastEventSequence : Nat
  afterStateChangeSeq : Option Nat
  acceptTransientStatus : Bool
  timeoutKind : AgentWaitTimeoutKind
deriving DecidableEq

def agentWaitStatuses (until_ : List AgentStatus) : List AgentStatus :=
  if until_.isEmpty then [.idle, .done, .blocked] else until_

def agentWaitMatches (agent : AgentInfo) (until_ : List AgentStatus)
    (afterStateChangeSeq : Option Nat) : Bool :=
  until_.contains agent.agentStatus &&
    afterStateChangeSeq.all (fun baseline => agent.stateChangeSeq > baseline)

def agentWaitIdentityMatches (agent : AgentInfo) (expectedTerminalId : Text)
    (expectedName expectedAgent : Option Text) : Bool :=
  agent.terminalId = expectedTerminalId &&
    expectedName.all (fun name => agent.name = some name) &&
      match expectedAgent, agent.agent with
      | some expected, some current => expected = current
      | some _, none => agent.name.isSome
      | none, _ => true

namespace ResolvedAgentWait

/-- `expected_name`. -/
def expectedName (wait : ResolvedAgentWait) : Option Text :=
  wait.initial.name.filter (fun name => name = wait.target)

/-- The identity check of a probe. -/
def identityMatches (wait : ResolvedAgentWait) (agent : AgentInfo) : Bool :=
  agentWaitIdentityMatches agent wait.initial.terminalId wait.expectedName wait.initial.agent

end ResolvedAgentWait

/-! ### Answers -/

def statusName : AgentStatus → String
  | .idle => "idle"
  | .working => "working"
  | .blocked => "blocked"
  | .done => "done"
  | .unknown => "unknown"

def agentWaitTimeout (requestId : Text) (kind : AgentWaitTimeoutKind) (current : AgentInfo) :
    ErrorResponse :=
  match kind with
  | .status => ⟨requestId, ⟨"timeout", "timed out waiting for agent status"⟩⟩
  | .promptStalled timeoutMs =>
    ⟨requestId, ⟨"agent_prompt_stalled",
      "agent prompt produced no observed working or blocked state within " ++ toString timeoutMs ++
        " ms; current status is " ++ statusName current.agentStatus⟩⟩

def agentWaitNotRunning (requestId : Text) : ErrorResponse :=
  ⟨requestId, ⟨"agent_not_running", "agent is no longer running in the target pane"⟩⟩

def agentWaitProbeError (response : ErrorResponse) : ErrorResponse :=
  if response.error.code = "agent_not_found" then agentWaitNotRunning response.id else response

inductive Answer where
  | matched (agent : AgentInfo)
  | timeout (response : ErrorResponse)
  | notRunning (response : ErrorResponse)
  | probeError (response : ErrorResponse)
  | disconnected
  | ioError
deriving DecidableEq

/-! ### The loop over the events -/

inductive Scanned where
  | returned (answer : Answer)
  | scanned (lastEventSequence : Nat) (shouldProbe : Bool) (matchedEventStatus : Option AgentStatus)

def scan (requestId : Text) (wait : ResolvedAgentWait) :
    List (Nat × Envelope) → Nat → Bool → Option AgentStatus → Scanned
  | [], last, shouldProbe, matched => .scanned last shouldProbe matched
  | (sequence, event) :: rest, _, shouldProbe, matched =>
    match event.data with
    | .paneAgentDetected paneId agent released finalStatus =>
      if paneId = wait.initial.paneId then
        if released then
          match (finalStatus.filter wait.until_.contains).or matched with
          | some status => .returned (.matched { wait.initial with agentStatus := status })
          | none => .returned (.notRunning (agentWaitNotRunning requestId))
        else if agent.isSome ∧ wait.initial.agent.isSome ∧ agent ≠ wait.initial.agent then
          .returned (.notRunning (agentWaitNotRunning requestId))
        else scan requestId wait rest sequence true matched
      else scan requestId wait rest sequence shouldProbe matched
    | .paneAgentStatusChanged change =>
      if change.paneId = wait.initial.paneId then
        if wait.acceptTransientStatus ∧ wait.until_.contains change.agentStatus then
          scan requestId wait rest sequence true (some change.agentStatus)
        else scan requestId wait rest sequence true matched
      else scan requestId wait rest sequence shouldProbe matched
    | .paneUpdated paneId =>
      if paneId = wait.initial.paneId then scan requestId wait rest sequence true matched
      else scan requestId wait rest sequence shouldProbe matched
    | .paneMoved previousPaneId =>
      if previousPaneId = wait.initial.paneId then
        .returned (.notRunning (agentWaitNotRunning requestId))
      else scan requestId wait rest sequence shouldProbe matched
    | .paneClosed paneId | .paneExited paneId =>
      if paneId = wait.initial.paneId then
        .returned (.notRunning (agentWaitNotRunning requestId))
      else scan requestId wait rest sequence shouldProbe matched
    | .other => scan requestId wait rest sequence shouldProbe matched

/-! ### The call -/

/-- What the call does next. -/
inductive Pc where
  | cursorRead
  | initialProbe (lastEventSequence : Nat)
  | connectionCheck (wait : ResolvedAgentWait) (lastEventSequence : Nat)
  | historyRead (wait : ResolvedAgentWait) (lastEventSequence : Nat)
  | probe (wait : ResolvedAgentWait) (lastEventSequence : Nat)
      (matchedEventStatus : Option AgentStatus)
  | deadlineCheck (wait : ResolvedAgentWait) (lastEventSequence : Nat)
  | lastProbe (wait : ResolvedAgentWait)
  | sleep (wait : ResolvedAgentWait) (lastEventSequence : Nat)
  | answered (answer : Answer)
deriving DecidableEq

/-- What the call learns in a step: nothing, the app's answer, whether to stop, or whether the
deadline has passed. -/
inductive Input where
  | none
  | agent (result : Except ErrorResponse AgentInfo)
  | shouldStop (result : Option Bool)
  | deadlineReached (reached : Bool)

/-- `wait_for_agent` after its first probe. -/
def resolve (params : AgentWaitParams) (lastEventSequence : Nat) (initial : AgentInfo) : Pc :=
  let until_ := agentWaitStatuses params.until_
  if agentWaitMatches initial until_ none then .answered (.matched initial)
  else
    .connectionCheck
      { target := params.target
        until_ := until_
        timeoutMs := params.timeoutMs
        initial := initial
        lastEventSequence := lastEventSequence
        afterStateChangeSeq := none
        acceptTransientStatus := true
        timeoutKind := .status }
      lastEventSequence

/-- One step of the call against the hub. An input that does not belong to the step is ignored. -/
def callStep (requestId : Text) (params : AgentWaitParams) (hub : Hub) : Pc → Input → Pc
  | .cursorRead, .none => .initialProbe hub.currentSequence
  | .initialProbe last, .agent (.ok initial) => resolve params last initial
  | .initialProbe _, .agent (.error response) => .answered (.probeError response)
  | .connectionCheck wait last, .shouldStop (some false) => .historyRead wait last
  | .connectionCheck _ _, .shouldStop (some true) => .answered .disconnected
  | .connectionCheck _ _, .shouldStop Option.none => .answered .ioError
  | .historyRead wait last, .none =>
    match scan requestId wait (hub.eventsAfter last) last false Option.none with
    | .returned answer => .answered answer
    | .scanned last true matched => .probe wait last matched
    | .scanned last false _ => .deadlineCheck wait last
  | .probe _ _ _, .agent (.error response) =>
    .answered (.probeError (agentWaitProbeError response))
  | .probe wait last matched, .agent (.ok current) =>
    if ¬ wait.identityMatches current then
      .answered (.notRunning (agentWaitNotRunning requestId))
    else
      match matched with
      | some status => .answered (.matched { current with agentStatus := status })
      | Option.none =>
        if agentWaitMatches current wait.until_ wait.afterStateChangeSeq then
          .answered (.matched current)
        else .deadlineCheck wait last
  | .deadlineCheck wait last, .deadlineReached reached =>
    if wait.timeoutMs.isSome ∧ reached then .lastProbe wait else .sleep wait last
  | .lastProbe _, .agent (.error response) =>
    .answered (.probeError (agentWaitProbeError response))
  | .lastProbe wait, .agent (.ok current) =>
    if ¬ wait.identityMatches current then
      .answered (.notRunning (agentWaitNotRunning requestId))
    else if agentWaitMatches current wait.until_ wait.afterStateChangeSeq then
      .answered (.matched current)
    else .answered (.timeout (agentWaitTimeout requestId wait.timeoutKind current))
  | .sleep wait last, .none => .connectionCheck wait last
  | pc, _ => pc

end Herden.Runtime.AgentWait
