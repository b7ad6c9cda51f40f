import Mathlib.Data.List.Sort
import Herden.Lib.HashMap
import Herden.Runtime.AgentResume
import Mathlib.Algebra.Group.Nat.Defs

/-!
# `Herden.Runtime.Terminal.State`: what a terminal knows about its agent

Embedding of `TerminalState` (`runtime/src/terminal/state.rs`) and of the presentation side of
`runtime/src/terminal/metadata.rs`: the agent seen on the screen, the agent that reports through
a hook, the bookkeeping that keeps late and foreign reports out, and `recompute_effective_state`,
which arbitrates between them.

An `Instant` is a number of nanoseconds. A method that calls `Instant::now()` takes the reading
as an argument. Sequence numbers are `u64` in the source; they are only compared, so `Nat`
models them. Fields that no modelled method reads (`id`, `cwd`, titles, labels, launch and
respawn settings, ...) are left out, and of a managed agent only its kind is kept.
-/

namespace Herden.Runtime.Terminal

open Herden.Lib (HashMap)
open Herden.Runtime.Detect
open Herden.Runtime.AgentResume

abbrev Instant := Nat

abbrev Duration := Nat

/-- `Instant::checked_add`: the seconds of an instant are an `i64`. -/
def checkedAdd (instant : Instant) (duration : Duration) : Option Instant :=
  if instant + duration < 2 ^ 63 * 10 ^ 9 then some (instant + duration) else none

/-! ### Records -/

structure HookAuthority where
  source : String
  agentLabel : String
  state : AgentState
  message : Option String
  reportedAt : Instant
  sessionRef : Option AgentSessionRef
deriving DecidableEq

structure PendingFullLifecycleHookReport where
  authority : HookAuthority
  seq : Nat

inductive FullLifecycleHookSuppressionReason where
  | hookClear
  | processExit
deriving DecidableEq

structure SuppressedFullLifecycleHookReport where
  agentLabel : String
  sessionRef : Option AgentSessionRef
  observedAt : Instant
  reason : FullLifecycleHookSuppressionReason
  replacementSessionRef : Option AgentSessionRef
  pendingReplacementReport : Option PendingFullLifecycleHookReport

structure StaleFullLifecycleHookSession where
  agentLabel : String
  sessionRef : AgentSessionRef
deriving DecidableEq

structure ManagedAgent where
  kind : Agent

structure AgentNameOwner where
  agentLabel : String
  sessionRef : Option AgentSessionRef

structure RecentAgentProcessExit where
  agent : Agent
  observedAt : Instant

structure AgentMetadata where
  source : String
  agentLabel : Option String
  appliesToSource : Option String
  title : Option String
  displayAgent : Option String
  stateLabels : HashMap String String
  reportedAt : Instant
  titleReportedAt : Option Instant
  displayAgentReportedAt : Option Instant
  stateLabelReportedAt : HashMap String Instant
  ttl : Option Duration
  expiryEventPending : Bool

structure EffectivePresentation where
  title : Option String
  displayAgent : Option String
  stateLabels : HashMap String String

/-- Equality of presentations. The state labels are compared as maps. -/
def EffectivePresentation.same (p q : EffectivePresentation) : Bool :=
  p.title = q.title && p.displayAgent = q.displayAgent && p.stateLabels.sameEntries q.stateLabels

structure EffectiveStateChange where
  previousAgentLabel : Option String
  previousKnownAgent : Option Agent
  previousState : AgentState
  previousPresentation : EffectivePresentation
  agentLabel : Option String
  knownAgent : Option Agent
  state : AgentState
  presentation : EffectivePresentation

structure TerminalStateMutation where
  effectiveStateChange : Option EffectiveStateChange
  sessionRefChanged : Bool
  agentReleased : Bool

structure TerminalState where
  detectedAgent : Option Agent
  fallbackState : AgentState
  fallbackVisibleBlocker : Bool
  fallbackObservedAt : Option Instant
  hookAuthority : Option HookAuthority
  agentMetadata : HashMap String AgentMetadata
  persistedAgentSession : Option PersistedAgentSession
  reportedResume : Option ReportedAgentResume
  reportedResumeRevision : Nat
  agentName : Option String
  agentNameIsUserSet : Bool
  agentNameOwner : Option AgentNameOwner
  managedAgent : Option ManagedAgent
  codexPromptReady : Bool
  managedAgentLaunchSession : Option PersistedAgentSession
  hookReportSequences : HashMap String Nat
  suppressedFullLifecycleHookReports : HashMap String SuppressedFullLifecycleHookReport
  staleFullLifecycleHookSessions : HashMap String (List StaleFullLifecycleHookSession)
  metadataReportSequences : HashMap String Nat
  metadataReportAgents : HashMap String Agent
  metadataTokenSequenceSources : List String
  state : AgentState
  recentAgentProcessExit : Option RecentAgentProcessExit
  agentProcessAcquisitionPending : Bool

namespace TerminalState

def new : TerminalState where
  detectedAgent := none
  fallbackState := .unknown
  fallbackVisibleBlocker := false
  fallbackObservedAt := none
  hookAuthority := none
  agentMetadata := ∅
  persistedAgentSession := none
  reportedResume := none
  reportedResumeRevision := 0
  agentName := none
  agentNameIsUserSet := false
  agentNameOwner := none
  managedAgent := none
  codexPromptReady := false
  managedAgentLaunchSession := none
  hookReportSequences := ∅
  suppressedFullLifecycleHookReports := ∅
  staleFullLifecycleHookSessions := ∅
  metadataReportSequences := ∅
  metadataReportAgents := ∅
  metadataTokenSequenceSources := []
  state := .unknown
  recentAgentProcessExit := none
  agentProcessAcquisitionPending := false

/-! ### The effective agent -/

def hookAuthorityIsEffective (self : TerminalState) (authority : HookAuthority) : Bool :=
  !fullLifecycleHookAuthority authority.source authority.agentLabel
    || (parseAgentLabel authority.agentLabel).all fun agent =>
      self.detectedAgent = some agent && self.recentAgentProcessExit.isNone

/-- The label of the hook's agent while the hook is effective, else of the agent seen on the
screen while no exit is recorded. -/
def effectiveAgentLabel (self : TerminalState) : Option String :=
  ((self.hookAuthority.filter self.hookAuthorityIsEffective).map HookAuthority.agentLabel).or
    (if self.recentAgentProcessExit.isNone then self.detectedAgent.map agentLabel else none)

def effectiveKnownAgent (self : TerminalState) : Option Agent :=
  self.effectiveAgentLabel.bind parseAgentLabel

def liveFullLifecycleHookAuthority (self : TerminalState) : Bool :=
  self.hookAuthority.any fun authority =>
    self.hookAuthorityIsEffective authority
      && fullLifecycleHookAuthority authority.source authority.agentLabel

def fallbackNotOlderThanHook (self : TerminalState) : Bool :=
  self.hookAuthority.all fun authority =>
    self.fallbackObservedAt.any fun observedAt => authority.reportedAt ≤ observedAt

def visibleBlockerOverridesHook (self : TerminalState) : Bool :=
  if self.liveFullLifecycleHookAuthority then false
  else
    self.fallbackVisibleBlocker && self.fallbackNotOlderThanHook
      && self.hookAuthority.any fun authority =>
        authority.state ≠ .blocked
          && parseAgentLabel authority.agentLabel = self.detectedAgent

def currentSessionIdentityForPersistence (self : TerminalState) :
    Option (String × String × AgentSessionRefKind × String) :=
  let reported := self.hookAuthority.bind fun authority =>
    authority.sessionRef.map fun sessionRef =>
      (authority.source, authority.agentLabel, sessionRef.kind, sessionRef.value)
  reported.or (self.persistedAgentSession.map fun session =>
    (session.source, session.agent, session.sessionRef.kind, session.sessionRef.value))

/-! ### The presentation -/

def agentMetadataExpiry (metadata : AgentMetadata) : Option Instant :=
  metadata.ttl.map fun ttl => (checkedAdd metadata.reportedAt ttl).getD metadata.reportedAt

def agentMetadataIsExpired (metadata : AgentMetadata) (now : Instant) : Bool :=
  (agentMetadataExpiry metadata).any fun deadline => now ≥ deadline

def metadataGuardsMatch (self : TerminalState) (label appliesToSource : Option String) : Bool :=
  if label.any (fun agent => self.effectiveAgentLabel ≠ some agent) then false
  else
    !appliesToSource.any fun source =>
      self.hookAuthority.all fun authority => authority.source ≠ source

def agentMetadataMatchesGuards (self : TerminalState) (metadata : AgentMetadata) : Bool :=
  self.metadataGuardsMatch metadata.agentLabel metadata.appliesToSource

def agentMetadataIsValid (self : TerminalState) (metadata : AgentMetadata) (now : Instant)
    (enforceTtl : Bool) : Bool :=
  if metadata.title.isNone && metadata.displayAgent.isNone
      && metadata.stateLabels.entries.isEmpty then false
  else if enforceTtl && agentMetadataIsExpired metadata now then false
  else self.agentMetadataMatchesGuards metadata

def agentMetadataIsVisibleIgnoringTtl (self : TerminalState) (metadata : AgentMetadata) : Bool :=
  (metadata.title.isSome || metadata.displayAgent.isSome
      || !metadata.stateLabels.entries.isEmpty)
    && self.agentMetadataMatchesGuards metadata

def validAgentMetadata (self : TerminalState) (now : Instant) (enforceTtl : Bool) :
    List AgentMetadata :=
  self.agentMetadata.values.filter fun metadata =>
    self.agentMetadataIsValid metadata now enforceTtl

/-- `Option<Instant>` in the order of the source: `None` comes first. -/
def reportedAtKey (reportedAt : Option Instant) : Nat :=
  reportedAt.elim 0 (· + 1)

/-- `Iterator::max_by_key`: the last of the entries with the greatest key. -/
def maxByKey (key : AgentMetadata → Nat) (metadata : List AgentMetadata) :
    Option AgentMetadata :=
  metadata.foldl (fun best entry =>
    if best.any (fun best => key best > key entry) then best else some entry) none

def newestMetadataTitle (self : TerminalState) (now : Instant) (enforceTtl : Bool) :
    Option String :=
  (maxByKey (fun metadata => reportedAtKey metadata.titleReportedAt)
    ((self.validAgentMetadata now enforceTtl).filter fun metadata =>
      metadata.title.isSome)).bind AgentMetadata.title

def newestMetadataDisplayAgent (self : TerminalState) (now : Instant) (enforceTtl : Bool) :
    Option String :=
  (maxByKey (fun metadata => reportedAtKey metadata.displayAgentReportedAt)
    ((self.validAgentMetadata now enforceTtl).filter fun metadata =>
      metadata.displayAgent.isSome)).bind AgentMetadata.displayAgent

/-- Every state's label, the newest report of it last and so in force. -/
def effectiveMetadataStateLabels (self : TerminalState) (now : Instant) (enforceTtl : Bool) :
    HashMap String String :=
  let labels := (self.validAgentMetadata now enforceTtl).flatMap fun metadata =>
    metadata.stateLabels.entries.filterMap fun entry =>
      (metadata.stateLabelReportedAt.get entry.1).map fun reportedAt =>
        (reportedAt, entry.1, entry.2)
  let labels := labels.insertionSort fun a b => a.1 ≤ b.1
  HashMap.insertAll ∅ (labels.map fun label => (label.2.1, label.2.2))

def effectivePresentationAtWithTtl (self : TerminalState) (now : Instant) (enforceTtl : Bool) :
    EffectivePresentation where
  title := self.newestMetadataTitle now enforceTtl
  displayAgent := self.newestMetadataDisplayAgent now enforceTtl
  stateLabels := self.effectiveMetadataStateLabels now enforceTtl

/-- `effective_presentation_for_state_at`, which ignores its state argument. -/
def effectivePresentationAt (self : TerminalState) (now : Instant) : EffectivePresentation :=
  self.effectivePresentationAtWithTtl now true

def clearExpiryPendingForHiddenMetadata (self : TerminalState) : TerminalState :=
  { self with
    agentMetadata := self.agentMetadata.mapValues fun _ metadata =>
      if metadata.expiryEventPending && !self.agentMetadataIsVisibleIgnoringTtl metadata then
        { metadata with expiryEventPending := false }
      else metadata }

/-! ### Arbitration -/

/-- What the mutating methods note down before they change anything. -/
structure Previous where
  agentLabel : Option String
  knownAgent : Option Agent
  state : AgentState
  presentation : EffectivePresentation

def previous (self : TerminalState) (now : Instant) : Previous where
  agentLabel := self.effectiveAgentLabel
  knownAgent := self.effectiveKnownAgent
  state := self.state
  presentation := self.effectivePresentationAt now

/-- The state `recompute_effective_state` decides on. -/
def arbitratedState (self : TerminalState) : AgentState :=
  if self.visibleBlockerOverridesHook then .blocked
  else
    ((self.hookAuthority.filter self.hookAuthorityIsEffective).map HookAuthority.state).getD
      self.fallbackState

def recomputeEffectiveState (self : TerminalState) (previous : Previous) (now : Instant) :
    TerminalState × Option EffectiveStateChange :=
  let state := self.arbitratedState
  let label := self.effectiveAgentLabel
  let knownAgent := self.effectiveKnownAgent
  let presentation := self.effectivePresentationAt now
  let self := self.clearExpiryPendingForHiddenMetadata
  if previous.agentLabel = label && previous.state = state
      && previous.presentation.same presentation then
    (self, none)
  else
    ({ self with state := state },
      some {
        previousAgentLabel := previous.agentLabel
        previousKnownAgent := previous.knownAgent
        previousState := previous.state
        previousPresentation := previous.presentation
        agentLabel := label
        knownAgent := knownAgent
        state := state
        presentation := presentation })

/-! ### The agent's name -/

def clearAgentName (self : TerminalState) : TerminalState :=
  { self with
    codexPromptReady := false
    managedAgentLaunchSession := none
    persistedAgentSession :=
      if self.managedAgentLaunchSession.any
          (fun session => self.persistedAgentSession = some session) then none
      else self.persistedAgentSession
    agentName := none
    agentNameIsUserSet := false
    agentNameOwner := none
    managedAgent := none }

def reconcileAgentNameOwner (self : TerminalState) (label : String)
    (sessionRef : Option AgentSessionRef) : TerminalState :=
  if self.agentName.isNone then self
  else if self.managedAgent.any (fun managed => parseAgentLabel label = some managed.kind) then
    self
  else
    match self.agentNameOwner with
    | some owner =>
        if owner.agentLabel ≠ label || (owner.sessionRef.any fun current =>
            sessionRef.any fun incoming => current ≠ incoming) then
          { self with agentName := none, agentNameOwner := none }
        else if owner.sessionRef.isNone && sessionRef.isSome then
          { self with agentNameOwner := some { owner with sessionRef := sessionRef } }
        else self
    | none => { self with agentNameOwner := some ⟨label, sessionRef⟩ }

/-! ### The reported resume command -/

def setReportedResume (self : TerminalState) (resume : Option ReportedAgentResume) :
    TerminalState :=
  if self.reportedResume ≠ resume then
    { self with
      reportedResume := resume
      reportedResumeRevision := self.reportedResumeRevision + 1 }
  else self

def forgetReportedResumeOf (self : TerminalState) (source label : String) : TerminalState :=
  if self.reportedResume.any (fun resume => resume.source = source && resume.agent = label) then
    self.setReportedResume none
  else self

end TerminalState

end Herden.Runtime.Terminal
