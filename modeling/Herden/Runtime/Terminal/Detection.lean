import Herden.Runtime.Terminal.Hooks

/-!
# `Herden.Runtime.Terminal.Detection`: what detection and the clock do to a terminal

Embedding of the rest of `TerminalState`'s mutations: detections of an agent on the screen and
exits of its process (`set_detected_state_with_screen_signals_at`), metadata reports and their
expiry (`runtime/src/terminal/metadata.rs`), and the reset after a respawn. `step` puts all
mutations together as one machine.

The parameters `_visible_idle` and `_visible_working` of the source are not used there and are
left out.
-/

namespace Herden.Runtime.Terminal

open Herden.Lib (HashMap)
open Herden.Runtime.Detect
open Herden.Runtime.AgentResume

namespace TerminalState

def shouldIgnoreDetectedStateUnderFullLifecycleHook (self : TerminalState)
    (detectedAgent : Option Agent) (processExited : Bool) : Bool :=
  self.liveFullLifecycleHookAuthority && !processExited
    && !self.hookAuthorityConflictsWithDetectedAgent detectedAgent

def detectedStateObservedBeforeReleaseSuppression (self : TerminalState)
    (detectedAgent : Option Agent) (observedAt : Instant) : Bool :=
  detectedAgent.any fun detected =>
    self.suppressedFullLifecycleHookReports.values.any fun suppressed =>
      parseAgentLabel suppressed.agentLabel = some detected
        && observedAt ≤ suppressed.observedAt

/-! ### Process exit -/

/-- Whether an exit of the agent renews a suppression record. -/
def exitRenews (agent : Option Agent) (suppressed : SuppressedFullLifecycleHookReport) : Bool :=
  parseAgentLabel suppressed.agentLabel = agent && suppressed.reason ≠ .hookClear

/-- The session that exited: the replacement, else the one of the parked report, else the
record's own. -/
def exitedSessionRef (suppressed : SuppressedFullLifecycleHookReport) : Option AgentSessionRef :=
  (suppressed.replacementSessionRef.or
    (suppressed.pendingReplacementReport.bind fun pending => pending.authority.sessionRef)).or
      suppressed.sessionRef

/-- Exit, first part: renew the agent's suppression records and forget their sources'
sequences. -/
def renewSuppressions (self : TerminalState) (agent : Option Agent) (now : Instant) :
    TerminalState :=
  let renewed := self.suppressedFullLifecycleHookReports.entries.filter fun entry =>
    exitRenews agent entry.2
  let staleSessions := renewed.filterMap fun entry =>
    match entry.2.sessionRef, exitedSessionRef entry.2 with
    | some previous, some exited =>
        if previous ≠ exited then some (entry.1, entry.2.agentLabel, previous) else none
    | _, _ => none
  let self := { self with
    suppressedFullLifecycleHookReports :=
      self.suppressedFullLifecycleHookReports.mapValues fun _ suppressed =>
        if exitRenews agent suppressed then
          { suppressed with
            sessionRef := exitedSessionRef suppressed
            replacementSessionRef := none
            pendingReplacementReport := none
            observedAt := now }
        else suppressed }
  let self := staleSessions.foldl (fun self (source, label, sessionRef) =>
    self.rememberStaleFullLifecycleHookSession source label sessionRef) self
  renewed.foldl (fun self entry =>
    { self with hookReportSequences := self.hookReportSequences.remove entry.1 }) self

/-- The official session of the agent: its source, label and session, where known. -/
def officialSession (self : TerminalState) (agent : Option Agent) :
    Option (String × String × Option AgentSessionRef) :=
  ((self.hookAuthority.filter fun authority =>
      isOfficialAgentSource authority.source authority.agentLabel
        && parseAgentLabel authority.agentLabel = agent).map fun authority =>
    (authority.source, authority.agentLabel, authority.sessionRef)).or
  ((self.persistedAgentSession.filter fun session =>
      isOfficialAgentSource session.source session.agent
        && parseAgentLabel session.agent = agent).map fun session =>
    (session.source, session.agent, some session.sessionRef))

/-- Exit, second part: suppress the agent's official session. -/
def suppressOfficialSession (self : TerminalState) (agent : Option Agent) (now : Instant) :
    TerminalState :=
  match self.officialSession agent with
  | none => self
  | some (source, label, sessionRef) =>
      ({ self with hookReportSequences := self.hookReportSequences.remove source
        }).suppressFullLifecycleHookReportWithSessionRef source label sessionRef .processExit now

/-- Exit, third part: the agent's authority ends, unless a custom reporter claimed the
terminal after the exit. -/
def endAgentAuthority (self : TerminalState) (agent : Option Agent)
    (newerCustomAuthority : Bool) : TerminalState :=
  match self.hookAuthority with
  | some authority =>
      if parseAgentLabel authority.agentLabel = agent && !newerCustomAuthority then
        { self with
          hookReportSequences := self.hookReportSequences.remove authority.source
          hookAuthority := none }
      else self
  | none => self

/-- And so do its session and its resume command. -/
def endAgentSession (self : TerminalState) (agent : Option Agent)
    (newerCustomAuthority : Bool) : TerminalState :=
  let self :=
    if !newerCustomAuthority && self.persistedAgentSession.any (fun session =>
        parseAgentLabel session.agent = agent) then
      { self with persistedAgentSession := none }
    else self
  if !newerCustomAuthority && agent.isSome && self.reportedResume.any (fun resume =>
      parseAgentLabel resume.agent = agent) then
    self.setReportedResume none
  else self

/-- Exit, fourth part: what the agent reported about its presentation goes, and the sequences
of the sources that reported it. -/
def clearExitedMetadata (self : TerminalState) (agent : Agent) (now : Instant) : TerminalState :=
  let label := agentLabel agent
  let cleared (metadata : AgentMetadata) : Bool :=
    let officialMetadata := isOfficialAgentSource metadata.source label
      || metadata.appliesToSource.any fun appliesTo => isOfficialAgentSource appliesTo label
    (metadata.agentLabel = some label || officialMetadata)
      && (officialMetadata || metadata.reportedAt ≤ now)
  let clearedSources := (self.agentMetadata.entries.filter fun entry => cleared entry.2).map
    fun entry => entry.1
  let self := { self with
    agentMetadata := self.agentMetadata.retain fun _ metadata => !cleared metadata }
  let forgotten (source : String) : Bool :=
    clearedSources.contains source
      || (self.metadataReportAgents.get source).any fun owner => owner = agent
  { self with
    metadataReportSequences := self.metadataReportSequences.retain fun source _ =>
      !forgotten source
    metadataTokenSequenceSources := self.metadataTokenSequenceSources.filter fun source =>
      !forgotten source
    metadataReportAgents := self.metadataReportAgents.retain fun source _ => !forgotten source }

def applyProcessExit (self : TerminalState) (agent : Option Agent) (newerCustomAuthority : Bool)
    (now : Instant) : TerminalState :=
  let self := self.renewSuppressions agent now
  let self := self.suppressOfficialSession agent now
  let self := self.endAgentAuthority agent newerCustomAuthority
  let self := self.endAgentSession agent newerCustomAuthority
  match agent with
  | some agent => self.clearExitedMetadata agent now
  | none => self

/-! ### Detection -/

/-- A custom reporter of the agent that claimed the terminal after the exit was observed. -/
def newerCustomAuthority (self : TerminalState) (agent : Option Agent) (now : Instant) : Bool :=
  self.hookAuthority.any fun authority =>
    parseAgentLabel authority.agentLabel = agent
      && !isOfficialAgentSource authority.source authority.agentLabel
      && authority.reportedAt > now

/-- An authority of another agent, or of the agent detected before, gives way. Its session
stays persisted. -/
def dropConflictingAuthority (self : TerminalState) (previousDetectedAgent agent : Option Agent)
    (now clock : Instant) : TerminalState :=
  if self.hookAuthorityNotNewerThan now
      && (self.hookAuthorityConflictsWithDetectedAgent agent
        || (previousDetectedAgent.isSome && agent ≠ previousDetectedAgent
          && self.hookAuthority.any fun authority =>
            parseAgentLabel authority.agentLabel = previousDetectedAgent)) then
    let durableSession : Option PersistedAgentSession := self.hookAuthority.bind fun authority =>
      authority.sessionRef.map fun sessionRef =>
          ⟨authority.source, authority.agentLabel, sessionRef⟩
    { self.suppressCurrentFullLifecycleHookAuthority .hookClear clock with
      hookAuthority := none
      persistedAgentSession := durableSession }
  else self

/-- The detected agent is noted first. -/
def noteDetectedAgent (self : TerminalState) (agent : Option Agent) (fallbackState : AgentState)
    (processExited : Bool) : TerminalState :=
  let self := { self with
    detectedAgent := agent
    codexPromptReady :=
      if processExited || agent ≠ some .codex || fallbackState = .blocked then false
      else self.codexPromptReady }
  match agent with
  | some agent => self.reconcileAgentNameOwner (agentLabel agent) none
  | none => self

/-- What the screen showed, and the exit. -/
def noteFallback (self : TerminalState) (agent : Option Agent) (fallbackState : AgentState)
    (visibleBlocker processExited : Bool) (now : Instant) : TerminalState :=
  { self with
    fallbackState := fallbackState
    fallbackVisibleBlocker := visibleBlocker && fallbackState = AgentState.blocked
    fallbackObservedAt := some now
    recentAgentProcessExit :=
      match processExited, agent with
      | true, some agent => some ⟨agent, now⟩
      | false, some _ => none
      | _, none => self.recentAgentProcessExit }

/-- The changes of a detection that is taken, up to the final arbitration. -/
def applyDetection (self : TerminalState) (agent : Option Agent) (fallbackState : AgentState)
    (visibleBlocker processExited : Bool) (now clock : Instant) : TerminalState :=
  let previousDetectedAgent := self.detectedAgent
  let newerCustomAuthority := processExited && self.newerCustomAuthority agent now
  let replacementProcessDetected := !processExited && agent.isSome
    && self.recentAgentProcessExit.any fun exit => some exit.agent = agent && exit.observedAt < now
  let self := self.noteDetectedAgent agent fallbackState processExited
  let self :=
    if !processExited then
      self.clearFullLifecycleHookSuppressionForDetectedAgent
        (if replacementProcessDetected then none else previousDetectedAgent) agent
    else self
  let self := self.noteFallback agent fallbackState visibleBlocker processExited now
  let self :=
    if processExited then self.applyProcessExit agent newerCustomAuthority now else self
  let self := self.dropConflictingAuthority previousDetectedAgent agent now clock
  if agent.isNone && self.recentAgentProcessExit.isSome then self.clearAgentName else self

def setDetectedStateWithScreenSignalsAt (self : TerminalState) (agent : Option Agent)
    (fallbackState : AgentState) (visibleBlocker processExited : Bool) (now clock : Instant) :
    TerminalState × TerminalStateMutation :=
  let previous := self.previous now
  let previousSession := self.currentSessionIdentityForPersistence
  let agentReleased := processExited && !(processExited && self.newerCustomAuthority agent now)
    && (previous.agentLabel.isSome || self.agentName.isSome)
  if self.shouldIgnoreDetectedStateUnderFullLifecycleHook agent processExited then
    let self :=
      if (self.hookAuthority.bind fun authority => parseAgentLabel authority.agentLabel) = agent
      then { self with detectedAgent := agent }
      else self
    let (self, effectiveStateChange) := self.recomputeEffectiveState previous now
    (self, ⟨effectiveStateChange,
      previousSession ≠ self.currentSessionIdentityForPersistence, false⟩)
  else if !processExited && self.detectedStateObservedBeforeReleaseSuppression agent now then
    let (self, effectiveStateChange) := self.recomputeEffectiveState previous now
    (self, ⟨effectiveStateChange,
      previousSession ≠ self.currentSessionIdentityForPersistence, false⟩)
  else
    let self := self.applyDetection agent fallbackState visibleBlocker processExited now clock
    let (self, effectiveStateChange) := self.recomputeEffectiveState previous now
    let self := self.endAcquisition fallbackState
    (self, ⟨effectiveStateChange,
      previousSession ≠ self.currentSessionIdentityForPersistence, agentReleased⟩)

def setDetectedAgentProcessAt (self : TerminalState) (agent : Agent) (now clock : Instant) :
    TerminalState × TerminalStateMutation :=
  let startsAcquisition :=
    !self.shouldIgnoreDetectedStateUnderFullLifecycleHook (some agent) false
      && !self.detectedStateObservedBeforeReleaseSuppression (some agent) now
  let (self, mutation) :=
    self.setDetectedStateWithScreenSignalsAt (some agent) .unknown false false now clock
  let self :=
    if startsAcquisition then
      { self with codexPromptReady := false, agentProcessAcquisitionPending := true }
    else self
  (self, mutation)

end TerminalState

structure AgentMetadataReport where
  source : String
  agentLabel : Option String
  appliesToSource : Option String
  title : Option String
  displayAgent : Option String
  stateLabels : HashMap String String
  clearTitle : Bool
  clearDisplayAgent : Bool
  clearStateLabels : Bool
  ttl : Option Duration
  seq : Option Nat

namespace TerminalState

/-- `metadata_tokens::MAX_SEQUENCE_SOURCES`. -/
def maxSequenceSources : Nat := 32

def metadataReportSequenceIsFresh (self : TerminalState) (source : String) (seq : Option Nat) :
    Bool :=
  seq.all fun seq => (self.metadataReportSequences.get source).all fun last => seq > last

def metadataReportAgent (source : String) (label appliesToSource : Option String) :
    Option Agent :=
  (label.bind parseAgentLabel).or (Agent.all.find? fun agent =>
    isOfficialAgentSource source (agentLabel agent)
      || appliesToSource.any fun source => isOfficialAgentSource source (agentLabel agent))

def metadataReportBlockedByProcessExit (self : TerminalState) (source : String)
    (label appliesToSource : Option String) : Bool :=
  self.recentAgentProcessExit.any fun exit =>
    let exitedAgentLabel := agentLabel exit.agent
    label.bind parseAgentLabel = some exit.agent
      || isOfficialAgentSource source exitedAgentLabel
      || appliesToSource.any fun source => isOfficialAgentSource source exitedAgentLabel

/-- The error is the bound on sources that report tokens. -/
def acceptMetadataReport (self : TerminalState) (source : String) (seq : Option Nat)
    (includesTokens : Bool) (agent : Option Agent) : TerminalState × Except Unit Bool :=
  match seq with
  | none => (self, .ok true)
  | some seq =>
      if !self.metadataReportSequenceIsFresh source (some seq) then (self, .ok false)
      else if includesTokens && !self.metadataTokenSequenceSources.contains source
          && self.metadataTokenSequenceSources.length ≥ maxSequenceSources then
        (self, .error ())
      else
        ({ self with
            metadataReportSequences := self.metadataReportSequences.insert source seq
            metadataReportAgents :=
              match agent with
              | some agent => self.metadataReportAgents.insert source agent
              | none => self.metadataReportAgents
            metadataTokenSequenceSources :=
              if includesTokens && !self.metadataTokenSequenceSources.contains source then
                source :: self.metadataTokenSequenceSources
              else self.metadataTokenSequenceSources }, .ok true)

/-- The entry of a source after a report that clears some of its fields. -/
def patchMetadata (metadata : AgentMetadata) (report : AgentMetadataReport) (now : Instant) :
    AgentMetadata :=
  let hasSetFields := report.title.isSome || report.displayAgent.isSome
    || !report.stateLabels.entries.isEmpty
  let renewed := hasSetFields || report.ttl.isSome
  let labels := report.stateLabels.entries.map fun entry => (entry.1, entry.2)
  { source := metadata.source
    agentLabel := report.agentLabel.or metadata.agentLabel
    appliesToSource := report.appliesToSource.or metadata.appliesToSource
    title := report.title.or (if report.clearTitle then none else metadata.title)
    titleReportedAt :=
      if report.title.isSome then some now
      else if report.clearTitle then none else metadata.titleReportedAt
    displayAgent :=
      report.displayAgent.or (if report.clearDisplayAgent then none else metadata.displayAgent)
    displayAgentReportedAt :=
      if report.displayAgent.isSome then some now
      else if report.clearDisplayAgent then none else metadata.displayAgentReportedAt
    stateLabels := HashMap.insertAll (if report.clearStateLabels then ∅ else metadata.stateLabels)
      labels
    stateLabelReportedAt :=
      HashMap.insertAll (if report.clearStateLabels then ∅ else metadata.stateLabelReportedAt)
        (labels.map fun label => (label.1, now))
    reportedAt := if renewed then now else metadata.reportedAt
    ttl := if renewed then report.ttl else metadata.ttl
    expiryEventPending := if renewed then false else metadata.expiryEventPending }

/-- The entry of a source after a report. A report that clears nothing replaces it. -/
def reportedMetadata (self : TerminalState) (report : AgentMetadataReport) (now : Instant) :
    AgentMetadata :=
  let empty : AgentMetadata :=
    { source := report.source, agentLabel := report.agentLabel,
      appliesToSource := report.appliesToSource, title := none, displayAgent := none,
      stateLabels := ∅, reportedAt := now, titleReportedAt := none,
      displayAgentReportedAt := none, stateLabelReportedAt := ∅, ttl := report.ttl,
      expiryEventPending := false }
  if report.clearTitle || report.clearDisplayAgent || report.clearStateLabels then
    patchMetadata ((self.agentMetadata.get report.source).getD empty) report now
  else
    { empty with
      title := report.title
      displayAgent := report.displayAgent
      stateLabels := report.stateLabels
      titleReportedAt := report.title.map fun _ => now
      displayAgentReportedAt := report.displayAgent.map fun _ => now
      stateLabelReportedAt :=
        HashMap.insertAll ∅ (report.stateLabels.entries.map fun entry => (entry.1, now)) }

/-- An expired entry of the source goes before the report is looked at. -/
def dropExpiredMetadata (self : TerminalState) (source : String) (now : Instant) :
    TerminalState :=
  { self with
    agentMetadata :=
      if (self.agentMetadata.get source).any fun metadata => agentMetadataIsExpired metadata now
      then self.agentMetadata.remove source
      else self.agentMetadata }

/-- The reported entry is stored. A visible one with a time to live waits for its expiry. -/
def storeMetadata (self : TerminalState) (report : AgentMetadataReport) (now : Instant) :
    TerminalState :=
  let metadata := self.reportedMetadata report now
  { self with
    agentMetadata := self.agentMetadata.insert report.source
      { metadata with
        expiryEventPending :=
          if report.ttl.isSome && self.agentMetadataIsVisibleIgnoringTtl metadata then true
          else metadata.expiryEventPending } }

def setAgentMetadata (self : TerminalState) (report : AgentMetadataReport) (clock : Instant) :
    TerminalState × Option TerminalStateMutation :=
  if self.metadataReportBlockedByProcessExit report.source report.agentLabel
      report.appliesToSource then (self, none)
  else
    let reportAgent := metadataReportAgent report.source report.agentLabel report.appliesToSource
    match self.acceptMetadataReport report.source report.seq false reportAgent with
    | (self, .error _) | (self, .ok false) => (self, none)
    | (self, .ok true) =>
        let self := self.dropExpiredMetadata report.source clock
        let previous := self.previous clock
        let self := self.storeMetadata report clock
        let (self, effectiveStateChange) := self.recomputeEffectiveState previous clock
        let self :=
          if effectiveStateChange.isSome then self.clearExpiryPendingForHiddenMetadata else self
        (self, some ⟨effectiveStateChange, false, false⟩)

/-- The next deadline to wait for. One that passed counts while an event is pending for it. -/
def nextAgentMetadataExpiry (self : TerminalState) (now : Instant) : Option Instant :=
  let deadlines := (self.agentMetadata.values.filter self.agentMetadataMatchesGuards).filterMap
    agentMetadataExpiry
  (deadlines.filter fun deadline =>
    deadline > now || self.agentMetadata.values.any fun metadata =>
      metadata.expiryEventPending && self.agentMetadataMatchesGuards metadata
        && agentMetadataExpiry metadata = some deadline).min?

def expireAgentMetadataAt (self : TerminalState) (scheduledDeadline now : Instant) :
    TerminalState × Option TerminalStateMutation :=
  let due (metadata : AgentMetadata) : Bool :=
    (agentMetadataExpiry metadata).any fun deadline => deadline ≤ now
  let scheduled (metadata : AgentMetadata) : Bool :=
    (agentMetadataExpiry metadata).any fun deadline => deadline ≥ scheduledDeadline
  let expired := self.agentMetadata.values.filter fun metadata =>
    due metadata && scheduled metadata
  let self := { self with
    agentMetadata := self.agentMetadata.retain fun _ metadata =>
      !(due metadata && !scheduled metadata) }
  if expired.isEmpty then (self, none)
  else
    let previous : Previous :=
      { self.previous now with presentation := self.effectivePresentationAtWithTtl now false }
    let self := { self with
      agentMetadata := self.agentMetadata.retain fun _ metadata => !due metadata }
    let (self, effectiveStateChange) := self.recomputeEffectiveState previous now
    (self, some ⟨effectiveStateChange, false, false⟩)

/-! ### Respawn -/

def clearAgentRuntimeIdentityAfterRespawn (self : TerminalState) : TerminalState :=
  ({ self with
    detectedAgent := none
    fallbackState := .unknown
    fallbackVisibleBlocker := false
    fallbackObservedAt := none
    hookAuthority := none
    persistedAgentSession := none
    agentMetadata := ∅
    metadataReportAgents := ∅
    suppressedFullLifecycleHookReports := ∅
    staleFullLifecycleHookSessions := ∅
    state := .unknown
    recentAgentProcessExit := none
    agentProcessAcquisitionPending := false }).clearAgentName

/-! ### The mutations as one machine -/

/-- One mutation. `rehash` is none of the source's: a hash map is walked in no fixed order, so
the entries of a map may take another order at any time. -/
inductive Op where
  | detectedState (agent : Option Agent) (fallbackState : AgentState)
      (visibleBlocker processExited : Bool) (now clock : Instant)
  | detectedAgentProcess (agent : Agent) (now clock : Instant)
  | hookReport (report : HookReport) (now clock : Instant)
  | sessionReport (report : SessionReport) (clock : Instant)
  | clearHookAuthority (source : Option String) (seq : Option Nat) (clock : Instant)
  | releaseAgent (source label : String) (seq : Option Nat) (clock : Instant)
  | clearSelfReportedAgent (observedAt clock : Instant)
  | agentMetadata (report : AgentMetadataReport) (clock : Instant)
  | expireAgentMetadata (scheduledDeadline now : Instant)
  | respawn
  | rehash (suppressed : HashMap String SuppressedFullLifecycleHookReport)
      (metadata : HashMap String AgentMetadata)

/-- A mutation and the change it reports, where it takes effect. -/
def step (self : TerminalState) : Op → TerminalState × Option TerminalStateMutation
  | .detectedState agent fallbackState visibleBlocker processExited now clock =>
      let (self, mutation) := self.setDetectedStateWithScreenSignalsAt agent fallbackState
        visibleBlocker processExited now clock
      (self, some mutation)
  | .detectedAgentProcess agent now clock =>
      let (self, mutation) := self.setDetectedAgentProcessAt agent now clock
      (self, some mutation)
  | .hookReport report now clock => self.setHookAuthorityAt report now clock
  | .sessionReport report clock => self.setAgentSessionRefForSessionStart report clock
  | .clearHookAuthority source seq clock => self.clearHookAuthorityWithMutation source seq clock
  | .releaseAgent source label seq clock => self.releaseAgentWithMutation source label seq clock
  | .clearSelfReportedAgent observedAt clock => self.clearSelfReportedAgent observedAt clock
  | .agentMetadata report clock => self.setAgentMetadata report clock
  | .expireAgentMetadata scheduledDeadline now => self.expireAgentMetadataAt scheduledDeadline now
  | .respawn => (self.clearAgentRuntimeIdentityAfterRespawn, none)
  | .rehash suppressed metadata =>
      ({ self with
          suppressedFullLifecycleHookReports := suppressed
          agentMetadata := metadata }, none)

/-- A rehash moves entries and does nothing else; every other mutation may happen at any
time. -/
def Admissible (self : TerminalState) : Op → Prop
  | .rehash suppressed metadata =>
      suppressed.entries.Perm self.suppressedFullLifecycleHookReports.entries
        ∧ metadata.entries.Perm self.agentMetadata.entries
  | _ => True

end TerminalState

end Herden.Runtime.Terminal
