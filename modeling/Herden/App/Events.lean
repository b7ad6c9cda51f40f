import Mathlib.Data.List.Basic

/-!
# `Herden.App.Events`: failures, subscriptions, events and updates of a Host

The types that the events session and the Console share:
`Sources/Herden/Transport/HerdrEvents.swift`, `EventsSession.swift` (statuses and updates) and
`TransportError` of `Transport.swift`.

The payload of an event is JSON of which the Console reads three fields of one kind. `HerdrEvent`
has that kind with its fields, the Host-wide kinds, the local drop marker, and everything else.
-/

namespace Herden.App.Events

abbrev Text := List Char

inductive TransportError where
  | sshUnreachable (detail : Text)
  | jumpHostFailed (underlying : TransportError)
  | tcpForwardingUnavailable
  | authenticationFailed
  | deviceKeyCorrupt
  | hostKeyRejected (presented : Text)
  | hostKeyMismatch (known presented : Text)
  | socketNotFound (path : Text)
  | herdenBinaryNotFound
  | streamLocalOpenFailed (path : Text)
  | protocolVersionMismatch (server supported : Int)
  | homeDirectoryUnresolvable (detail : Text)
  | eventsChannelAlreadyOpen
  | terminalChannelAlreadyOpen
  | timedOut
  | cancelled
  | malformedResponse (detail : Text)
  | apiRejected (code message : Text)
  | channelFailed (detail : Text)
deriving DecidableEq

/-- Whether reconnecting without the user can recover. -/
def TransportError.isRetryable : TransportError → Bool
  | .sshUnreachable _ => true
  | .timedOut => true
  | .cancelled => true
  | .channelFailed _ => true
  | .apiRejected _ _ => true
  | .jumpHostFailed underlying => underlying.isRetryable
  | _ => false

inductive GlobalEventKind where
  | workspaceCreated
  | workspaceUpdated
  | workspaceMetadataUpdated
  | workspaceRenamed
  | workspaceMoved
  | workspaceReordered
  | workspaceClosed
  | workspaceFocused
  | worktreeCreated
  | worktreeOpened
  | worktreeRemoved
  | tabCreated
  | tabClosed
  | tabFocused
  | tabRenamed
  | tabMoved
  | paneCreated
  | paneClosed
  | paneUpdated
  | paneFocused
  | paneMoved
  | paneExited
  | paneAgentDetected
  | layoutUpdated
deriving DecidableEq

inductive PaneEventKind where
  | agentStatusChanged
  | scrollChanged
deriving DecidableEq

inductive EventSubscription where
  | global (kind : GlobalEventKind)
  | pane (kind : PaneEventKind) (paneID : Text)
deriving DecidableEq

/-- `AgentStatus`, an open enumeration over its raw value. -/
structure AgentStatus where
  rawValue : Text
deriving DecidableEq

def AgentStatus.unknown : AgentStatus := ⟨['u', 'n', 'k', 'n', 'o', 'w', 'n']⟩

/-- The fields of `pane.agent_status_changed` that the Console reads. -/
structure StatusChange where
  paneID : Text
  agentStatus : AgentStatus
  title : Option Text
deriving DecidableEq

/-- An event. A status change whose payload lacks the pane or the status carries `none`. -/
inductive HerdrEvent where
  | global (kind : GlobalEventKind)
  | agentStatusChanged (change : Option StatusChange)
  | other (name : Text)
  | eventsDropped
deriving DecidableEq

inductive EventsSessionStatus where
  | connecting
  | connected
  | reconnecting (attempt : Int) (delay : Nat) (failure : TransportError)
  | failed (failure : TransportError)
  | suspended
  | ended
deriving DecidableEq

inductive EventsSessionUpdate where
  | status (status : EventsSessionStatus)
  | event (event : HerdrEvent)
deriving DecidableEq

end Herden.App.Events
