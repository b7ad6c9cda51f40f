import Mathlib.Data.List.Sort

/-!
# `Herden.Glasses.Hud`: what the lens shows and who gets a dictated phrase

Embedding of `HudModel` (`glasses/app/src/hud-model.ts`) and of the functions of
`glasses/app/src/main.ts` that drive it. The phone runs JavaScript, so a function runs from one
`await` to the next without interruption: a read of output is one step that starts it and one step
that takes its result, and anything can happen between the two.

An agent of the lens carries the id of its Host and its id there. A read of output and a dictated
phrase both go to that pair (`Agent.target`). The selected agent is an index into a list that every
refresh sorts anew.

The model has no field that says whose output is displayed. `System.source` is kept for the proofs:
it is the target of the read that last wrote `output`.

`localeCompare` is the phone's collation. The offline demo (`DEMO`) reads no Host and is left out.
Lines are those after `wrapOutputRows`, which measures glyphs with the device's font.
-/

namespace Herden.Glasses.Hud

abbrev Text := List Char

inductive Status where
  | blocked
  | failed
  | done
  | working
  | idle
  | unknown

structure Agent where
  id : Text
  space : Text
  status : Status
  hostId : Option Text
  hostName : Option Text
  remoteId : Option Text

/-- Where reads and commands for an agent go. An empty id counts as no id. -/
def Agent.target (agent : Agent) : Option (Text × Text) :=
  match agent.hostId, agent.remoteId with
  | some hostId, some remoteId =>
    if hostId.isEmpty || remoteId.isEmpty then none else some (hostId, remoteId)
  | _, _ => none

structure HostSettings where
  id : Text
  name : Text

structure Snapshot where
  agents : List Agent

/-! ### The projection of the Hosts -/

/-- The place of a status in `STATUS_ORDER`. -/
def attentionRank : Status → Int
  | .blocked => 0
  | .failed => 1
  | .done => 2
  | .idle => 3
  | .unknown => 4
  | .working => 5

def byAttention (localeCompare : Text → Text → Int) (left right : Agent) : Int :=
  let rank := attentionRank left.status - attentionRank right.status
  if rank ≠ 0 then rank
  else
    let host := localeCompare (left.hostName.getD []) (right.hostName.getD [])
    if host ≠ 0 then host else localeCompare left.space right.space

/-- An agent as the lens knows it. -/
def project (host : HostSettings) (agent : Agent) : Agent :=
  { agent with
    id := host.id ++ ':' :: agent.id
    hostId := some host.id
    hostName := some host.name
    remoteId := some agent.id }

/-- `mergeSnapshots`, with the latest snapshot of each Host that sent one. `sort` is stable. -/
def mergeSnapshots (localeCompare : Text → Text → Int) (hosts : List HostSettings)
    (sources : List (Text × Snapshot)) : Option Snapshot :=
  let reports := hosts.filterMap fun host => (sources.lookup host.id).map fun snapshot =>
    (host, snapshot)
  if reports.isEmpty then none
  else
    let agents := reports.flatMap fun report => report.2.agents.map (project report.1)
    some ⟨agents.insertionSort fun left right => byAttention localeCompare left right ≤ 0⟩

def visibleSnapshot (snapshot : Snapshot) (hidden : List Text) : Snapshot :=
  if hidden.isEmpty then snapshot
  else ⟨snapshot.agents.filter fun agent => !hidden.contains agent.id⟩

/-! ### The model -/

inductive View where
  | list
  | detail
deriving DecidableEq

structure HudModel where
  view : View
  selected : Nat
  userSelected : Bool
  online : Bool
  snapshot : Option Snapshot
  roster : Option Snapshot
  hosts : List HostSettings
  output : List Text
  outputOffset : Int
  outputLoading : Bool
  outputRequest : Nat

/-- `outputWindowSize`. -/
def outputWindowSize : Int := 8

namespace HudModel

def new : HudModel where
  view := .list
  selected := 0
  userSelected := false
  online := false
  snapshot := none
  roster := none
  hosts := []
  output := []
  outputOffset := 0
  outputLoading := false
  outputRequest := 0

/-- The agents of the lens. -/
def visible (model : HudModel) : List Agent :=
  match model.snapshot with
  | some snapshot => snapshot.agents
  | none => []

def selectedAgent (model : HudModel) : Option Agent := model.visible[model.selected]?

/-- The snapshot that `refresh` shows. -/
def projected (localeCompare : Text → Text → Int) (hosts : List HostSettings)
    (sources : List (Text × Snapshot)) (hidden : List Text) : Option Snapshot :=
  (mergeSnapshots localeCompare hosts sources).map fun roster => visibleSnapshot roster hidden

def refresh (model : HudModel) (localeCompare : Text → Text → Int)
    (sources : List (Text × Snapshot)) (onlineHosts hidden : List Text) : HudModel :=
  let previousId := model.selectedAgent.map (·.id)
  let refreshed : HudModel :=
    { model with
      roster := mergeSnapshots localeCompare model.hosts sources
      snapshot := projected localeCompare model.hosts sources hidden
      online := !onlineHosts.isEmpty }
  let moved := refreshed.visible.findIdx? fun agent => some agent.id = previousId
  { refreshed with
    selected := match moved with
      | some index => if model.userSelected then index else 0
      | none => 0 }

def invalidateOutput (model : HudModel) : HudModel :=
  { model with outputRequest := model.outputRequest + 1, outputLoading := false }

def showList (model : HudModel) : HudModel :=
  { model.invalidateOutput with view := .list, output := [], outputOffset := 0 }

/-- `selectPosition`; `none` when there is no such position. -/
def selectPosition (model : HudModel) (position : Int) : Option HudModel :=
  let index := position - 1
  if index < 0 ∨ index ≥ model.visible.length then none
  else some { model with userSelected := true, selected := index.toNat }

/-- `scroll` moves by one, `page` by a window. -/
def move (model : HudModel) (direction distance : Int) : HudModel :=
  match model.view with
  | .list =>
    let count : Int := match model.snapshot with
      | some snapshot => snapshot.agents.length
      | none => 1
    { model with
      userSelected := true
      selected := (max 0 (min (count - 1) (model.selected + direction * distance))).toNat }
  | .detail =>
    { model with
      outputOffset := max 0 (min (max 0 (model.output.length - outputWindowSize))
        (model.outputOffset + direction * distance)) }

def beginOutput (model : HudModel) : HudModel × Nat :=
  ({ model with outputLoading := true, outputRequest := model.outputRequest + 1 },
    model.outputRequest + 1)

def setOutput (model : HudModel) (lines : List Text) : HudModel :=
  { model with
    view := .detail
    output := lines
    outputOffset := max 0 (lines.length - outputWindowSize) }

def updateOutput (model : HudModel) (lines : List Text) : HudModel :=
  if lines = model.output then model
  else
    let oldBottom := max 0 (model.output.length - outputWindowSize)
    let newBottom := max 0 (lines.length - outputWindowSize)
    { model with
      output := lines
      outputOffset := if model.outputOffset ≥ oldBottom then newBottom
        else min model.outputOffset newBottom }

end HudModel

/-! ### The app around the model -/

/-- An output read of `openSelectedOutput` under way. `session` is the voice session of a spoken
`open`. -/
structure OpenRead where
  request : Nat
  agentId : Text
  target : Text × Text
  session : Option Nat

/-- An output read of `refreshSelectedOutput` under way. -/
structure DetailRead where
  request : Nat
  agentId : Text
  target : Text × Text

inductive VoiceCommand where
  | open (position : Int)
  | back
  | page (direction : Int)
  | close
  | dictate
  | unknown

/-- The app. `generation` and `queueOpen` are those of `OrderedVoiceQueue`, which goes with the
microphone. `detailRead` is set while `detailRefreshInFlight`. -/
structure System where
  model : HudModel
  awake : Bool
  micOpen : Bool
  generation : Nat
  queueOpen : Bool
  reads : List OpenRead
  detailRead : Option DetailRead
  source : Option (Text × Text)

/-- The events that run a piece of `main.ts`. `refresh` is `refreshProjection`, also after
`connect` put new hosts in place. -/
inductive Op where
  | refresh (hosts : List HostSettings) (sources : List (Text × Snapshot))
      (onlineHosts hidden : List Text)
  | click
  | doubleClick
  | scroll (direction : Int)
  | sleep
  | wake
  | micFailed
  | voice (session : Nat) (command : VoiceCommand)
  | readDone (read : Nat) (lines : List Text)
  | refreshOutput
  | refreshDone (lines : Option (List Text))

namespace System

def new : System where
  model := .new
  awake := false
  micOpen := false
  generation := 0
  queueOpen := false
  reads := []
  detailRead := none
  source := none

/-- `session.isCurrent()`. -/
def sessionIsCurrent (s : System) (session : Nat) : Bool :=
  s.queueOpen && decide (session = s.generation)

/-- The part of `stopMic` before its `await`. -/
def stopMic (s : System) : System :=
  { s with micOpen := false, queueOpen := false, generation := s.generation + 1 }

/-- The part of `startMic` before its `await`. -/
def startMic (s : System) : System :=
  if s.micOpen then s
  else { s with micOpen := true, queueOpen := true, generation := s.generation + 1 }

def goToSleep (s : System) : System :=
  if s.awake then { s with awake := false, model := s.model.invalidateOutput }.stopMic else s

def wakeUp (s : System) : System :=
  if s.awake then s else { s with awake := true }.startMic

/-- `openSelectedOutput`, up to its read. -/
def openSelectedOutput (s : System) (session : Option Nat) : System :=
  let agent := s.model.selectedAgent
  let begun := s.model.beginOutput
  match agent with
  | none => { s with model := { begun.1 with outputLoading := false } }
  | some agent =>
    match agent.target with
    | none => { s with model := { begun.1 with outputLoading := false } }
    | some target =>
      { s with
        model := begun.1
        reads := s.reads ++ [⟨begun.2, agent.id, target, session⟩] }

/-- `isCurrent` of `openSelectedOutput`. -/
def readIsCurrent (s : System) (read : OpenRead) : Bool :=
  decide (read.request = s.model.outputRequest) && (match read.session with
    | some session => s.sessionIsCurrent session
    | none => true) && decide (s.model.selectedAgent.map (·.id) = some read.agentId)

/-- The rest of `openSelectedOutput`: `lines` are those of the output or of the error. -/
def finishRead (s : System) (read : OpenRead) (lines : List Text) : System :=
  let shown : System :=
    if s.readIsCurrent read then
      { s with model := s.model.setOutput lines, source := some read.target }
    else s
  if read.request = s.model.outputRequest then
    { shown with model := { shown.model with outputLoading := false } }
  else shown

/-- `refreshSelectedOutput`, up to its read. -/
def refreshSelectedOutput (s : System) : System :=
  if ¬ s.awake ∨ s.model.view ≠ .detail ∨ s.model.outputLoading ∨ s.detailRead.isSome then s
  else
    match s.model.selectedAgent with
    | none => s
    | some agent =>
      match agent.target with
      | none => s
      | some target =>
        { s with detailRead := some ⟨s.model.outputRequest, agent.id, target⟩ }

/-- The rest of `refreshSelectedOutput`. A failed read leaves the lines. -/
def finishRefresh (s : System) (read : DetailRead) (lines : Option (List Text)) : System :=
  let s := { s with detailRead := none }
  match lines with
  | none => s
  | some lines =>
    if read.request ≠ s.model.outputRequest ∨ s.model.view ≠ .detail ∨
        s.model.selectedAgent.map (·.id) ≠ some read.agentId then s
    else
      { s with
        model := s.model.updateOutput lines
        source := if lines = s.model.output then s.source else some read.target }

def runVoiceCommand (s : System) (session : Nat) (command : VoiceCommand) : System :=
  if ¬ s.sessionIsCurrent session then s
  else
    match command with
    | .open position =>
      match s.model.selectPosition position with
      | none => s
      | some model => { s with model := model }.openSelectedOutput (some session)
    | .back => { s with model := s.model.showList }
    | .page direction => { s with model := s.model.move direction outputWindowSize }
    | .close => s.goToSleep
    | .dictate => s
    | .unknown => s

/-- Where a dictated phrase is sent and submitted. -/
def dictationTarget (s : System) : Option (Text × Text) :=
  match s.model.view with
  | .detail => s.model.selectedAgent.bind (·.target)
  | .list => none

def step (localeCompare : Text → Text → Int) (s : System) : Op → System
  | .refresh hosts sources onlineHosts hidden =>
    { s with
      model := { s.model with hosts := hosts }.refresh localeCompare sources onlineHosts hidden }
  | .click =>
    if s.awake ∧ s.model.view = .list ∧ s.model.selectedAgent.isSome then
      s.openSelectedOutput none
    else s
  | .doubleClick =>
    if ¬ s.awake then s
    else
      match s.model.view with
      | .list => s.stopMic
      | .detail => { s with model := s.model.showList }
  | .scroll direction => if s.awake then { s with model := s.model.move direction 1 } else s
  | .sleep => s.goToSleep
  | .wake => s.wakeUp
  | .micFailed => if s.micOpen then s.stopMic else s
  | .voice session command => s.runVoiceCommand session command
  | .readDone read lines =>
    match s.reads[read]? with
    | none => s
    | some started => { s with reads := s.reads.eraseIdx read }.finishRead started lines
  | .refreshOutput => s.refreshSelectedOutput
  | .refreshDone lines =>
    match s.detailRead with
    | none => s
    | some read => s.finishRefresh read lines

end System

end Herden.Glasses.Hud
