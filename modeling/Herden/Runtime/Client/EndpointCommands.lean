import Herden.Lib.HashMap

/-!
# `Herden.Runtime.Client.EndpointCommands`: one lane of requests for each endpoint

Embedding of `EndpointCommands` (`runtime/src/client/endpoint_commands.rs`), with what it asks of
`EndpointRegistry` (`runtime/src/client/endpoint/registry.rs`): the generation of the connection to
an endpoint, and whether a message went out. Endpoints are of any type. A request is its id and the
rest of its fields, which only `serde_json` looks at. Reading and writing JSON is left to the
parameters `encode` and `read`, and the text of a string in quotes to `debug`.
-/

namespace Herden.Runtime.Client.EndpointCommands

open Herden.Lib (HashMap)

structure Request (β : Type) where
  id : String
  method : β

structure QueuedCommand (β : Type) where
  generation : Nat
  bootId : String
  request : Request β

structure InFlightCommand where
  generation : Nat
  bootId : String
  requestId : String
  response : List UInt8
  sentAt : Nat

structure ClientShellEndpointError where
  code : Option String
  message : String

structure EndpointCommandResult (ι ρ : Type) where
  endpointId : ι
  generation : Nat
  bootId : String
  requestId : String
  result : Except ClientShellEndpointError ρ

/-- In milliseconds. -/
def endpointCommandTimeout : Nat := 60 * 1000

def maxRetiredRequestsPerEndpoint : Nat := 128

/-- What names a request on the wire. -/
abbrev Tombstone := Nat × String × String

structure EndpointCommandLane (β : Type) where
  queued : List (QueuedCommand β)
  inFlight : Option InFlightCommand
  retired : List Tombstone

namespace EndpointCommandLane

variable {β : Type}

def default : EndpointCommandLane β := ⟨[], none, []⟩

def retire (lane : EndpointCommandLane β) (request : Tombstone) : EndpointCommandLane β :=
  if lane.retired.contains request then lane
  else
    let retired :=
      if lane.retired.length = maxRetiredRequestsPerEndpoint then lane.retired.tail
      else lane.retired
    { lane with retired := retired ++ [request] }

def consumeRetired (lane : EndpointCommandLane β) (request : Tombstone) (finalChunk : Bool) :
    Bool × EndpointCommandLane β :=
  match lane.retired.findIdx? (· = request) with
  | none => (false, lane)
  | some index =>
      if finalChunk then (true, { lane with retired := lane.retired.eraseIdx index })
      else (true, lane)

end EndpointCommandLane

/-! ### Replies -/

/-- What `parse_response_value` makes of a reply. -/
inductive Reply (ρ : Type) where
  | success (id : String) (result : ρ)
  | error (id code message : String)
  | failed (message : String)

/-- `read` fails for bytes that are not JSON, with the message of the error. -/
def parseResponse {ρ : Type} (read : List UInt8 → Except String (Reply ρ))
    (debug : String → String) (expectedId : String) (response : List UInt8) :
    Except ClientShellEndpointError ρ :=
  match read response with
  | .error error => .error ⟨none, "invalid endpoint response: " ++ error⟩
  | .ok (.success id result) =>
      if id = expectedId then .ok result
      else .error
          ⟨none, "endpoint response id " ++ debug id ++ " did not match " ++ debug expectedId⟩
  | .ok (.error id code message) =>
      if id = expectedId then .error ⟨some code, message⟩
      else .error ⟨none, "endpoint error id " ++ debug id ++ " did not match " ++ debug expectedId⟩
  | .ok (.failed message) => .error ⟨none, message⟩

/-! ### The commands -/

/-- What the loop of `send_next` leaves: the requests it cancelled, the one it sent, the rest of the
queue, and the generation of the connection, if there still is one. -/
structure Sent (β : Type) where
  cancelled : List String
  inFlight : Option InFlightCommand
  rest : List (QueuedCommand β)
  connection : Option Nat

section

variable {ι β ρ : Type} [DecidableEq ι]

abbrev Lanes (ι β : Type) [DecidableEq ι] := HashMap ι (EndpointCommandLane β)

def enqueue (endpointId : ι) (generation : Nat) (bootId : String) (request : Request β)
    (lanes : Lanes ι β) : Lanes ι β :=
  let lane := (lanes.get endpointId).getD .default
  lanes.insert endpointId { lane with queued := lane.queued ++ [⟨generation, bootId, request⟩] }

/-- The loop of `send_next`, with the generation of the connection. `goesOut` says whether the
transport takes the message: the registry lets go of a connection whose transport did not, so
that one message is tried at most. -/
def sendLoop (encode : Request β → Option String) (goesOut : Bool) (now : Nat) :
    Option Nat → List (QueuedCommand β) → Sent β
  | connection, [] => ⟨[], none, [], connection⟩
  | connection, queued :: rest =>
      let cancel (connection : Option Nat) : Sent β :=
        let after := sendLoop encode goesOut now connection rest
        { after with cancelled := queued.request.id :: after.cancelled }
      if connection ≠ some queued.generation then cancel connection
      else if (encode queued.request).isNone then cancel connection
      else if !goesOut then cancel none
      else
        ⟨[], some ⟨queued.generation, queued.bootId, queued.request.id, [], now⟩, rest, connection⟩

/-- The connections that are left: none to the endpoint, or those that were there. -/
def keepConnection (endpointId : ι) (connection : Option Nat) (connections : HashMap ι Nat) :
    HashMap ι Nat :=
  if connection.isNone then connections.remove endpointId else connections

def sendNext (encode : Request β → Option String) (goesOut : Bool) (endpointId : ι) (now : Nat)
    (connections : HashMap ι Nat) (lanes : Lanes ι β) :
    List String × HashMap ι Nat × Lanes ι β :=
  let lane := (lanes.get endpointId).getD .default
  if lane.inFlight.isSome then ([], connections, lanes.insert endpointId lane)
  else
    let sent := sendLoop encode goesOut now (connections.get endpointId) lane.queued
    (sent.cancelled, keepConnection endpointId sent.connection connections,
      lanes.insert endpointId { lane with queued := sent.rest, inFlight := sent.inFlight })

def retireLane (endpointId : ι) (lanes : Lanes ι β) : List String × Lanes ι β :=
  match lanes.get endpointId with
  | none => ([], lanes)
  | some lane =>
      let queuedIds := lane.queued.map (·.request.id)
      match lane.inFlight with
      | none => (queuedIds, lanes.insert endpointId { lane with queued := [] })
      | some command =>
          let retired := lane.retire (command.generation, command.bootId, command.requestId)
          (command.requestId :: queuedIds,
            lanes.insert endpointId { retired with inFlight := none, queued := [] })

/-- The in-flight command has waited long enough. -/
def hasExpired (now : Nat) (lane : EndpointCommandLane β) : Option InFlightCommand :=
  lane.inFlight.filter fun command => !decide (now - command.sentAt < endpointCommandTimeout)

def expireLane (now : Nat) (lane : EndpointCommandLane β) : EndpointCommandLane β :=
  match hasExpired now lane with
  | none => lane
  | some command =>
      { lane.retire (command.generation, command.bootId, command.requestId) with inFlight := none }

def timeoutError : ClientShellEndpointError :=
  ⟨some "endpoint_timeout", "this server did not respond to the action"⟩

def expire (now : Nat) (lanes : Lanes ι β) : List (EndpointCommandResult ι ρ) × Lanes ι β :=
  (lanes.entries.filterMap fun entry =>
      (hasExpired now entry.2).map fun command =>
        ⟨entry.1, command.generation, command.bootId, command.requestId, .error timeoutError⟩,
    lanes.mapValues fun _ => expireLane now)

/-- `receive_chunk`, with `parse` for `parse_response`. -/
def receiveChunk (parse : String → List UInt8 → Except ClientShellEndpointError ρ)
    (endpointId : ι) (generation : Nat) (bootId requestId : String) (finalChunk : Bool)
    (data : List UInt8) (lanes : Lanes ι β) :
    Option (EndpointCommandResult ι ρ) × Lanes ι β :=
  match lanes.get endpointId with
  | none => (none, lanes)
  | some lane =>
      match lane.consumeRetired (generation, bootId, requestId) finalChunk with
      | (true, lane) => (none, lanes.insert endpointId lane)
      | (false, lane) =>
          match lane.inFlight with
          | none => (none, lanes)
          | some command =>
              if generation ≠ command.generation || bootId ≠ command.bootId ||
                  requestId ≠ command.requestId then
                (none, lanes)
              else
                let command := { command with response := command.response ++ data }
                if finalChunk then
                  (some ⟨endpointId, command.generation, command.bootId, command.requestId,
                      parse command.requestId command.response⟩,
                    lanes.insert endpointId { lane with inFlight := none })
                else (none, lanes.insert endpointId { lane with inFlight := some command })

def disconnect (endpointId : ι) (lanes : Lanes ι β) : List String × Lanes ι β :=
  match lanes.get endpointId with
  | none => ([], lanes)
  | some lane =>
      (lane.queued.map (·.request.id) ++ lane.inFlight.toList.map (·.requestId),
        lanes.remove endpointId)

end

end Herden.Runtime.Client.EndpointCommands
