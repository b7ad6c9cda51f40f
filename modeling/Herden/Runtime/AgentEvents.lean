import Herden.Runtime.Events

/-!
# `Herden.Runtime.AgentEvents`: the events about agents

The parts of `runtime/src/api/schema` that `agent.wait` and the subscription to agent statuses read:
`AgentStatus`, `AgentInfo`, and the event data of panes and their agents. An event of another kind,
or a field that neither of the two reads, is left out (`EventData.other`).

A `HashMap` of labels is only copied and compared. It is the list of its entries in the order of
their keys.
-/

namespace Herden.Runtime.AgentEvents

abbrev Text := List Char

inductive AgentStatus where
  | idle
  | working
  | blocked
  | done
  | unknown
deriving DecidableEq

/-- The fields of `EventData::PaneAgentStatusChanged` and of `PaneAgentStatusChangedEvent`. -/
structure PaneAgentStatusChangedEvent where
  paneId : Text
  workspaceId : Text
  agentStatus : AgentStatus
  agent : Option Text
  title : Option Text
  displayAgent : Option Text
  stateLabels : List (Text × Text)
deriving DecidableEq

inductive EventData where
  | paneAgentDetected (paneId : Text) (agent : Option Text) (released : Bool)
      (finalStatus : Option AgentStatus)
  | paneAgentStatusChanged (change : PaneAgentStatusChangedEvent)
  | paneUpdated (paneId : Text)
  | paneMoved (previousPaneId : Text)
  | paneClosed (paneId : Text)
  | paneExited (paneId : Text)
  | other
deriving DecidableEq

abbrev Envelope := Events.EventEnvelope EventData

abbrev Hub := Events.EventHub EventData

structure ErrorResponse where
  id : Text
  error : Events.ErrorBody
deriving DecidableEq

end Herden.Runtime.AgentEvents
