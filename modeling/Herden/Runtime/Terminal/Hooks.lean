import Herden.Runtime.Terminal.State

/-!
# `Herden.Runtime.Terminal.Hooks`: reports from agent hooks

Embedding of the hook side of `TerminalState` (`runtime/src/terminal/state.rs`): life-cycle
reports, session reports, clears and releases, with the sequence gate, the suppression records
and the stale sessions that decide which of them are taken.

A full-lifecycle source is trusted while the process of its agent is seen. Its reports are
routed first: taken, ignored, or parked in a suppression record until detection confirms the
session they belong to.
-/

namespace Herden.Runtime.Terminal

open Herden.Lib (HashMap)
open Herden.Runtime.Detect
open Herden.Runtime.AgentResume

/-- The arguments of `set_hook_authority_at` that come from the reporter. -/
structure HookReport where
  source : String
  agentLabel : String
  state : AgentState
  message : Option String
  sessionRef : Option AgentSessionRef
  seq : Option Nat
deriving DecidableEq

/-- The authority a report makes. -/
def HookReport.authority (report : HookReport) (sessionRef : Option AgentSessionRef)
    (reportedAt : Instant) : HookAuthority where
  source := report.source
  agentLabel := report.agentLabel
  state := report.state
  message := report.message
  reportedAt := reportedAt
  sessionRef := sessionRef

inductive FullLifecycleHookReportRoute where
  | accept (reanchorSequence : Bool)
  | ignore

/-- `matches!((source, agent_label), ("herdr:kind" | "herden:kind", label))`. -/
def integrationIs (source label kind expected : String) : Bool :=
  (source = "herdr:" ++ kind || source = "herden:" ++ kind) && label = expected

namespace TerminalState

/-! ### Suppression records and stale sessions -/

def suppressFullLifecycleHookReportWithSessionRef (self : TerminalState) (source label : String)
    (sessionRef : Option AgentSessionRef) (reason : FullLifecycleHookSuppressionReason)
    (observedAt : Instant) : TerminalState :=
  { self with
    suppressedFullLifecycleHookReports :=
      self.suppressedFullLifecycleHookReports.insert source
        { agentLabel := label, sessionRef, observedAt, reason,
          replacementSessionRef := none, pendingReplacementReport := none } }

def suppressCurrentFullLifecycleHookAuthority (self : TerminalState)
    (reason : FullLifecycleHookSuppressionReason) (clock : Instant) : TerminalState :=
  match self.hookAuthority with
  | some authority =>
      if fullLifecycleHookAuthority authority.source authority.agentLabel then
        self.suppressFullLifecycleHookReportWithSessionRef authority.source authority.agentLabel
          authority.sessionRef reason clock
      else self
  | none => self

def suppressFullLifecycleHookReport (self : TerminalState) (source label : String)
    (reason : FullLifecycleHookSuppressionReason) (clock : Instant) : TerminalState :=
  if fullLifecycleHookAuthority source label then
    self.suppressFullLifecycleHookReportWithSessionRef source label
      (self.hookAuthority.bind HookAuthority.sessionRef) reason clock
  else self

def rememberStaleFullLifecycleHookSession (self : TerminalState) (source label : String)
    (sessionRef : AgentSessionRef) : TerminalState :=
  let staleSessions := (self.staleFullLifecycleHookSessions.get source).getD []
  let staleSession : StaleFullLifecycleHookSession := ⟨label, sessionRef⟩
  { self with
    staleFullLifecycleHookSessions := self.staleFullLifecycleHookSessions.insert source
      (if staleSessions.any (fun existing => existing = staleSession) then staleSessions
        else staleSessions ++ [staleSession]) }

def forgetStaleFullLifecycleHookSession (self : TerminalState) (source label : String)
    (sessionRef : AgentSessionRef) : TerminalState :=
  match self.staleFullLifecycleHookSessions.get source with
  | none => self
  | some staleSessions =>
      let staleSessions := staleSessions.filter fun stale =>
        stale.agentLabel ≠ label || stale.sessionRef ≠ sessionRef
      { self with
        staleFullLifecycleHookSessions :=
          if staleSessions.isEmpty then self.staleFullLifecycleHookSessions.remove source
          else self.staleFullLifecycleHookSessions.insert source staleSessions }

def fullLifecycleHookReportMatchesStaleSession (self : TerminalState) (source label : String)
    (sessionRef : Option AgentSessionRef) : Bool :=
  if !fullLifecycleHookAuthority source label then false
  else
    (self.staleFullLifecycleHookSessions.get source).any fun staleSessions =>
      sessionRef.any fun incoming =>
        staleSessions.any fun stale => stale.agentLabel = label && incoming = stale.sessionRef

def fullLifecycleHookReportHasFreshSessionAfterStaleSession (self : TerminalState)
    (source label : String) (sessionRef : Option AgentSessionRef) : Bool :=
  if !fullLifecycleHookAuthority source label then false
  else
    (self.staleFullLifecycleHookSessions.get source).any fun staleSessions =>
      staleSessions.any (fun stale => stale.agentLabel = label)
        && sessionRef.any fun incoming =>
          staleSessions.all fun stale => stale.agentLabel ≠ label || incoming ≠ stale.sessionRef

/-! ### The sequence gate -/

def hookReportIsNewer (self : TerminalState) (source : String) (seq : Option Nat) : Bool :=
  match seq with
  | some seq => (self.hookReportSequences.get source).all fun last => seq > last
  | none => (self.hookReportSequences.get source).isNone

def acceptHookReport (self : TerminalState) (source : String) (seq : Option Nat) :
    TerminalState × Bool :=
  if !self.hookReportIsNewer source seq then (self, false)
  else
    match seq with
    | some seq =>
        ({ self with hookReportSequences := self.hookReportSequences.insert source seq }, true)
    | none => (self, true)

/-! ### Conflicts -/

def hookAuthorityNotNewerThan (self : TerminalState) (observedAt : Instant) : Bool :=
  self.hookAuthority.all fun authority => authority.reportedAt ≤ observedAt

def hookAuthorityConflictsWithDetectedAgent (self : TerminalState)
    (detectedAgent : Option Agent) : Bool :=
  detectedAgent.any fun detected =>
    self.hookAuthority.any fun authority =>
      (parseAgentLabel authority.agentLabel).any fun hookAgent => hookAgent ≠ detected

def knownAgentLabelConflictsWithDetectedAgent (self : TerminalState) (label : String) : Bool :=
  self.detectedAgent.any fun detected =>
    (parseAgentLabel label).any fun hookAgent => hookAgent ≠ detected

def liveFullLifecycleHookAuthorityConflictsWithSession (self : TerminalState)
    (source label : String) (sessionRef : Option AgentSessionRef) : Bool :=
  self.hookAuthority.any fun authority =>
    fullLifecycleHookAuthority authority.source authority.agentLabel
      && authority.source = source && authority.agentLabel = label
      && authority.sessionRef.any fun current =>
        sessionRef.any fun incoming => current ≠ incoming

def sameOwnerFullLifecycleHookAuthoritySessionRef (self : TerminalState) (source label : String)
    (sessionRef : AgentSessionRef) : Option AgentSessionRef :=
  self.hookAuthority.bind fun authority =>
    if !fullLifecycleHookAuthority authority.source authority.agentLabel
        || authority.source ≠ source || authority.agentLabel ≠ label then none
    else authority.sessionRef.filter fun current => current ≠ sessionRef

def persistedAgentSessionMatches (self : TerminalState) (source label : String) : Bool :=
  self.persistedAgentSession.any fun session =>
    session.source = source && session.agent = label

/-- The persisted session of one owner. -/
def persistedSessionRefOf (self : TerminalState) (source label : String) :
    Option AgentSessionRef :=
  (self.persistedAgentSession.filter fun session =>
    session.source = source && session.agent = label).map PersistedAgentSession.sessionRef

/-- The session the owner's reports are anchored to: the reported one, else the persisted. -/
def anchoredSessionRef (self : TerminalState) (source label : String) : Option AgentSessionRef :=
  ((self.hookAuthority.filter fun authority =>
    authority.source = source && authority.agentLabel = label).bind
      HookAuthority.sessionRef).or (self.persistedSessionRefOf source label)

def currentSessionOwnerConflicts (self : TerminalState) (source label : String) : Bool :=
  self.currentSessionIdentityForPersistence.any fun (currentSource, currentAgent, _, _) =>
    currentSource ≠ source || currentAgent ≠ label

def sessionReportAllowsSessionReplacement (source label : String)
    (sessionStartSource : Option String) : Bool :=
  let startsWith (allowed : List String) : Bool := sessionStartSource.any (allowed.contains ·)
  (integrationIs source label "claude" "claude" && startsWith ["clear", "resume", "compact"])
    || (integrationIs source label "codex" "codex"
      && startsWith ["startup", "clear", "resume", "compact"])
    || (integrationIs source label "mastracode" "mastracode" && startsWith ["startup"])
    || (integrationIs source label "hermes" "hermes" && startsWith ["startup", "new", "resume"])
    || (integrationIs source label "opencode" "opencode" && startsWith ["select"])
    || (integrationIs source label "pi" "pi" && startsWith ["new", "resume", "fork"])
    || (integrationIs source label "grok" "grok" && startsWith ["new"])
    || (integrationIs source label "omp" "omp"
      && startsWith ["startup", "new", "resume", "fork"])
    || (integrationIs source label "qwen" "qwen"
      && startsWith ["startup", "clear", "resume", "compact", "branch"])
    || (integrationIs source label "antigravity_cli" "agy" && sessionStartSource.isNone)

def sessionStartSourceIsRecognized (sessionStartSource : Option String) : Bool :=
  sessionStartSource.any
    (["startup", "clear", "resume", "compact", "new", "fork", "select"].contains ·)

def isUnsequencedOpencodeSelection (source label : String) (sessionStartSource : Option String)
    (seq : Option Nat) : Bool :=
  integrationIs source label "opencode" "opencode" && sessionStartSource = some "select"
    && seq.isNone

/-- The owner's current session, when a report names another one by id and may not replace
it. -/
def conflictingSameOwnerSessionRef (self : TerminalState) (source label : String)
    (sessionRef : AgentSessionRef) (sessionStartSource : Option String) :
    Option AgentSessionRef :=
  self.currentSessionIdentityForPersistence.bind
    fun (currentSource, currentAgent, currentKind, currentValue) =>
      if currentSource = source && currentAgent = label && currentKind = .id
          && sessionRef.kind = .id && currentValue ≠ sessionRef.value
          && !sessionReportAllowsSessionReplacement source label sessionStartSource then
        some ⟨currentKind, currentValue⟩
      else none

def lifecycleHookReportReplacesPersistedSession (self : TerminalState) (source label : String)
    (sessionRef : AgentSessionRef) : Bool :=
  self.hookAuthority.isNone && integrationIs source label "mastracode" "mastracode"
    && self.persistedAgentSession.any fun session =>
      session.source = source && session.agent = label && session.sessionRef.kind = .id
        && sessionRef.kind = .id && session.sessionRef.value ≠ sessionRef.value

def foregroundAgentConfirmsSessionOwner (self : TerminalState) (source label : String)
    (sessionRef : AgentSessionRef) : Bool :=
  self.detectedAgent.any fun detected =>
    parseAgentLabel label = some detected && (plan source label sessionRef).isSome

def foregroundAgentConfirmsHookAuthorityTakeover (self : TerminalState) (source label : String)
    (sessionRef : Option AgentSessionRef) : Bool :=
  sessionRef.any fun sessionRef => self.foregroundAgentConfirmsSessionOwner source label sessionRef

def foregroundAgentConfirmsDifferentOwnerTakeover (self : TerminalState) (source label : String)
    (sessionRef : AgentSessionRef) (sessionStartSource : Option String) : Bool :=
  !integrationIs source label "grok" "grok"
    && sessionStartSourceIsRecognized sessionStartSource
    && self.foregroundAgentConfirmsSessionOwner source label sessionRef

/-- `known_agent.is_some() && detected_agent == known_agent`, and no recent exit. -/
def processPresent (self : TerminalState) (label : String) : Bool :=
  let knownAgent := parseAgentLabel label
  knownAgent.isSome && self.detectedAgent = knownAgent && self.recentAgentProcessExit.isNone

/-! ### Life-cycle reports -/

/-- What the source's suppression record alone decides about a report. -/
def suppressedRoute (self : TerminalState) (report : HookReport) :
    Option FullLifecycleHookReportRoute :=
  match self.suppressedFullLifecycleHookReports.get report.source with
  | none => none
  | some suppressed =>
      if suppressed.agentLabel ≠ report.agentLabel then some .ignore
      else if suppressed.reason = .hookClear then
        match suppressed.sessionRef, report.sessionRef with
        | some previous, some incoming =>
            if previous ≠ incoming then some (.accept true) else some .ignore
        | _, _ => some .ignore
      else none

/-- Park a report in the source's suppression record, opening one where there is none. -/
def parkFullLifecycleHookReport (self : TerminalState) (report : HookReport)
    (sessionRef : AgentSessionRef) (seq : Nat) (reportedAt : Instant) : TerminalState :=
  let suppressed := (self.suppressedFullLifecycleHookReports.get report.source).getD
    { agentLabel := report.agentLabel
      sessionRef := self.persistedSessionRefOf report.source report.agentLabel
      observedAt := reportedAt
      reason := .processExit
      replacementSessionRef := none
      pendingReplacementReport := none }
  let replacePending := suppressed.pendingReplacementReport.all fun pending => seq > pending.seq
  let suppressed :=
    if replacePending then
      { suppressed with
        pendingReplacementReport := some
          { authority := report.authority (some sessionRef) reportedAt, seq } }
    else suppressed
  { self with
    suppressedFullLifecycleHookReports :=
      self.suppressedFullLifecycleHookReports.insert report.source suppressed }

def opencodeCrossTalk (self : TerminalState) (report : HookReport) : Bool :=
  integrationIs report.source report.agentLabel "opencode" "opencode"
    && self.processPresent report.agentLabel
    && (self.anchoredSessionRef report.source report.agentLabel).any fun anchored =>
      report.sessionRef.any fun incoming => anchored ≠ incoming

/-- Whether the report's session is the anchored one; a report without a session counts. -/
def sessionAnchored (self : TerminalState) (report : HookReport) : Bool :=
  (self.anchoredSessionRef report.source report.agentLabel).any fun anchored =>
    report.sessionRef.all fun incoming => incoming = anchored

def routeFullLifecycleHookReport (self : TerminalState) (report : HookReport)
    (reportedAt : Instant) : TerminalState × FullLifecycleHookReportRoute :=
  if !fullLifecycleHookAuthority report.source report.agentLabel then (self, .accept false)
  else if self.fullLifecycleHookReportMatchesStaleSession report.source report.agentLabel
      report.sessionRef then (self, .ignore)
  else if self.opencodeCrossTalk report then (self, .ignore)
  else
    match self.suppressedRoute report with
    | some route => (self, route)
    | none =>
        if self.processPresent report.agentLabel && self.sessionAnchored report
            && !self.suppressedFullLifecycleHookReports.containsKey report.source then
          (self, .accept (self.fullLifecycleHookReportHasFreshSessionAfterStaleSession
            report.source report.agentLabel report.sessionRef))
        else
          match report.sessionRef, report.seq with
          | some sessionRef, some seq =>
              if (self.hookReportSequences.get report.source).any
                  (fun previous => seq ≤ previous) then (self, .ignore)
              else (self.parkFullLifecycleHookReport report sessionRef seq reportedAt, .ignore)
          | _, _ => (self, .ignore)

/-- The tests between the routing of a report and the sequence gate. When they pass, the
session the report is stored under and whether it takes the terminal over from another
owner. -/
def hookReportOwner (self : TerminalState) (report : HookReport) :
    Option (Option AgentSessionRef × Bool) :=
  let { source, agentLabel := label, sessionRef, .. } := report
  if self.knownAgentLabelConflictsWithDetectedAgent label then none
  else if integrationIs source label "codex" "codex" && sessionRef.any (fun incoming =>
      self.currentSessionIdentityForPersistence.any fun (_, _, kind, value) =>
        kind ≠ incoming.kind || value ≠ incoming.value) then none
  else
    let ownerConflicts := self.currentSessionOwnerConflicts source label
    let foregroundTakeoverAllowed := ownerConflicts
      && self.foregroundAgentConfirmsHookAuthorityTakeover source label sessionRef
    if ownerConflicts && !foregroundTakeoverAllowed then none
    else
      let sessionRef := sessionRef.map fun sessionRef =>
        if self.lifecycleHookReportReplacesPersistedSession source label sessionRef then sessionRef
        else
          (self.conflictingSameOwnerSessionRef source label sessionRef none).getD sessionRef
      if self.liveFullLifecycleHookAuthorityConflictsWithSession source label sessionRef then none
      else some (sessionRef, foregroundTakeoverAllowed)

/-- An accepted report with a session, or with a new anchor, ends its source's suppression.
The suppressed session becomes stale. -/
def endReportedSuppression (self : TerminalState) (source : String)
    (sessionRef : Option AgentSessionRef) (reanchorSequence : Bool) : TerminalState :=
  if sessionRef.isSome || reanchorSequence then
    match self.suppressedFullLifecycleHookReports.get source with
    | none => self
    | some suppressed =>
        let self := { self with
          suppressedFullLifecycleHookReports :=
            self.suppressedFullLifecycleHookReports.remove source }
        match suppressed.sessionRef with
        | some suppressedRef =>
            self.rememberStaleFullLifecycleHookSession source suppressed.agentLabel suppressedRef
        | none => self
  else self

/-- The authority in place, and no persisted session beside it. -/
def installAuthority (self : TerminalState) (authority : HookAuthority) : TerminalState :=
  { self with persistedAgentSession := none, hookAuthority := some authority }

/-- A fresh report of a working agent ends the acquisition of its process. -/
def endAcquisition (self : TerminalState) (reported : AgentState) : TerminalState :=
  { self with
    agentProcessAcquisitionPending :=
      if reported = .working && self.state = .working then false
      else self.agentProcessAcquisitionPending }

/-- A report that passed every gate becomes the authority. -/
def applyHookReport (self : TerminalState) (report : HookReport)
    (sessionRef : Option AgentSessionRef) (foregroundTakeoverAllowed reanchorSequence : Bool)
    (now clock : Instant) : TerminalState × TerminalStateMutation :=
  let previous := self.previous now
  let previousSession := self.currentSessionIdentityForPersistence
  let self := self.reconcileAgentNameOwner report.agentLabel sessionRef
  let self :=
    if foregroundTakeoverAllowed then
      self.suppressCurrentFullLifecycleHookAuthority .hookClear clock
    else self
  let self := self.endReportedSuppression report.source sessionRef reanchorSequence
  let self := self.installAuthority (report.authority sessionRef now)
  let currentSession := self.currentSessionIdentityForPersistence
  let (self, effectiveStateChange) := self.recomputeEffectiveState previous now
  (self.endAcquisition report.state,
    ⟨effectiveStateChange, previousSession ≠ currentSession, false⟩)

def setHookAuthorityAt (self : TerminalState) (report : HookReport) (now clock : Instant) :
    TerminalState × Option TerminalStateMutation :=
  if sessionIdentityOnlyIntegration report.source report.agentLabel then (self, none)
  else if !fullLifecycleHookAuthority report.source report.agentLabel
      && self.recentAgentProcessExit.any (fun exit =>
        parseAgentLabel report.agentLabel = some exit.agent) then (self, none)
  else
    match self.routeFullLifecycleHookReport report now with
    | (self, .ignore) => (self, none)
    | (self, .accept reanchorSequence) =>
        match self.hookReportOwner report with
        | none => (self, none)
        | some (sessionRef, foregroundTakeoverAllowed) =>
            let self :=
              if reanchorSequence then
                { self with hookReportSequences := self.hookReportSequences.remove report.source }
              else self
            match self.acceptHookReport report.source report.seq with
            | (self, false) => (self, none)
            | (self, true) =>
                let (self, mutation) := self.applyHookReport report sessionRef
                  foregroundTakeoverAllowed reanchorSequence now clock
                (self, some mutation)

/-! ### Detection lifts suppressions -/

/-- A replacement session that detection of its agent confirms, with the report parked for
it. -/
structure ValidatedReplacement where
  source : String
  agentLabel : String
  sessionRef : AgentSessionRef
  pending : Option PendingFullLifecycleHookReport

/-- Whether the detected agent ends a suppression record. A record of an exit stays until a
session start has named a replacement. -/
def suppressionLifted (detected : Agent) (suppressed : SuppressedFullLifecycleHookReport) :
    Bool :=
  parseAgentLabel suppressed.agentLabel = some detected
    && (suppressed.reason = .hookClear || suppressed.replacementSessionRef.isSome)

/-- The session a lifted record leaves behind as stale. -/
def liftedStaleSession (suppressed : SuppressedFullLifecycleHookReport) :
    Option AgentSessionRef :=
  match suppressed.reason with
  | .processExit => suppressed.sessionRef.filter fun exited =>
      suppressed.replacementSessionRef.any fun replacement => exited ≠ replacement
  | .hookClear => suppressed.sessionRef

/-- The replacement a lifted record validates. The parked report goes with it when it is for
that session and newer than the session start. -/
def validatedReplacement (self : TerminalState) (source : String)
    (suppressed : SuppressedFullLifecycleHookReport) : Option ValidatedReplacement :=
  match suppressed.reason with
  | .hookClear => none
  | .processExit => suppressed.replacementSessionRef.map fun sessionRef =>
      { source
        agentLabel := suppressed.agentLabel
        sessionRef
        pending := suppressed.pendingReplacementReport.filter fun pending =>
          pending.authority.sessionRef = some sessionRef
            && (self.hookReportSequences.get source).all fun seq => pending.seq > seq }

/-- The entries the detected agent lifts. -/
def liftedSuppressions (self : TerminalState) (detected : Agent) :
    List (Sigma fun _ : String => SuppressedFullLifecycleHookReport) :=
  self.suppressedFullLifecycleHookReports.entries.filter fun entry =>
    suppressionLifted detected entry.2

def validatedReplacements (self : TerminalState) (detected : Agent) : List ValidatedReplacement :=
  (self.liftedSuppressions detected).filterMap fun entry =>
    self.validatedReplacement entry.1 entry.2

def adoptReplacement (self : TerminalState) (replacement : ValidatedReplacement) :
    TerminalState :=
  let { source, agentLabel := label, sessionRef, pending } := replacement
  let self := self.forgetStaleFullLifecycleHookSession source label sessionRef
  let self := self.reconcileAgentNameOwner label (some sessionRef)
  let self := { self with persistedAgentSession := some ⟨source, label, sessionRef⟩ }
  match pending with
  | some pending =>
      { self with
        hookReportSequences := self.hookReportSequences.insert source pending.seq
        hookAuthority := some pending.authority }
  | none => self

def clearFullLifecycleHookSuppressionForDetectedAgent (self : TerminalState)
    (previousDetectedAgent detectedAgent : Option Agent) : TerminalState :=
  match detectedAgent with
  | none => self
  | some detected =>
      if previousDetectedAgent = some detected then self
      else
        let staleSessions := (self.liftedSuppressions detected).filterMap fun entry =>
          (liftedStaleSession entry.2).map fun sessionRef =>
            (entry.1, entry.2.agentLabel, sessionRef)
        let validated := self.validatedReplacements detected
        let self := { self with
          suppressedFullLifecycleHookReports :=
            self.suppressedFullLifecycleHookReports.retain fun _ suppressed =>
              !suppressionLifted detected suppressed }
        let self := staleSessions.foldl (fun self (source, label, sessionRef) =>
          self.rememberStaleFullLifecycleHookSession source label sessionRef) self
        let self := { self with
          hookReportSequences := self.hookReportSequences.retain fun source _ =>
            validated.any (fun replacement => replacement.source = source)
              || !fullLifecycleHookAuthority source (agentLabel detected) }
        validated.foldl adoptReplacement self

/-! ### Session reports -/

/-- The arguments of `set_agent_session_ref_for_session_start`. -/
structure SessionReport where
  source : String
  agentLabel : String
  sessionRef : Option AgentSessionRef
  seq : Option Nat
  sessionStartSource : Option String

/-- An unsequenced selection that no process confirms names a replacement session. -/
def parkSelectedSession (self : TerminalState) (source label : String)
    (sessionRef : AgentSessionRef) (clock : Instant) : TerminalState :=
  let suppressed := (self.suppressedFullLifecycleHookReports.get source).getD
    { agentLabel := label
      sessionRef := self.anchoredSessionRef source label
      observedAt := clock
      reason := .processExit
      replacementSessionRef := none
      pendingReplacementReport := none }
  { self with
    suppressedFullLifecycleHookReports := self.suppressedFullLifecycleHookReports.insert source
      { suppressed with
        replacementSessionRef := some sessionRef
        pendingReplacementReport := none } }

/-- The record with a replacement session. A report parked for another session is dropped. -/
def nameReplacement (suppressed : SuppressedFullLifecycleHookReport)
    (sessionRef : AgentSessionRef) : SuppressedFullLifecycleHookReport :=
  if suppressed.replacementSessionRef ≠ some sessionRef then
    { suppressed with
      replacementSessionRef := some sessionRef
      pendingReplacementReport := suppressed.pendingReplacementReport.filter fun pending =>
        pending.authority.sessionRef = some sessionRef }
  else suppressed

/-- A sequenced session start names a replacement session. -/
def parkSessionStart (self : TerminalState) (source label : String)
    (sessionRef : AgentSessionRef) (seq : Nat) (clock : Instant) : TerminalState :=
  let suppressed := (self.suppressedFullLifecycleHookReports.get source).getD
    { agentLabel := label
      sessionRef := none
      observedAt := clock
      reason := .processExit
      replacementSessionRef := none
      pendingReplacementReport := none }
  { self with
    suppressedFullLifecycleHookReports :=
      self.suppressedFullLifecycleHookReports.insert source (nameReplacement suppressed sessionRef)
    hookReportSequences := self.hookReportSequences.insert source seq }

/-- A session report of a full-lifecycle source whose session is not settled yet. -/
def startFullLifecycleSession (self : TerminalState) (report : SessionReport)
    (sessionRef : AgentSessionRef) (clock : Instant) :
    TerminalState × Option TerminalStateMutation :=
  let { source, agentLabel := label, seq, sessionStartSource, .. } := report
  if !sessionStartSourceIsRecognized sessionStartSource then (self, none)
  else
    match seq with
    | none => (self, none)
    | some seq =>
        if (self.hookReportSequences.get source).any (fun previous => seq ≤ previous) then
          (self, none)
        else
          let present := self.processPresent label
          let previous := self.previous clock
          let previousSession := self.currentSessionIdentityForPersistence
          let self := self.parkSessionStart source label sessionRef seq clock
          if present then
            let self := self.clearFullLifecycleHookSuppressionForDetectedAgent none
              (parseAgentLabel label)
            let currentSession := self.currentSessionIdentityForPersistence
            let (self, effectiveStateChange) := self.recomputeEffectiveState previous clock
            (self, some ⟨effectiveStateChange, previousSession ≠ currentSession, false⟩)
          else (self, none)

/-- The tests a sequenced session report must pass: `none` when one fails, else the session
it replaces, whether it may replace one, and whether it takes over from another owner. -/
def sessionReportOwner (self : TerminalState) (source label : String)
    (sessionRef : AgentSessionRef) (sessionStartSource : Option String) :
    Option (Option AgentSessionRef × Bool × Bool) :=
  if self.knownAgentLabelConflictsWithDetectedAgent label then none
  else
    let sessionReplacementAllowed :=
      sessionReportAllowsSessionReplacement source label sessionStartSource
    let replacingIdentityOnlySession := sessionIdentityOnlyIntegration source label
      && sessionReplacementAllowed
      && self.currentSessionIdentityForPersistence.any
        fun (currentSource, currentAgent, currentKind, currentValue) =>
          currentSource = source && currentAgent = label && currentKind = .id
            && sessionRef.kind = .id && currentValue ≠ sessionRef.value
    if replacingIdentityOnlySession && !self.processPresent label then none
    else
      let ownerConflicts := self.currentSessionOwnerConflicts source label
      let foregroundTakeoverAllowed := ownerConflicts
        && self.foregroundAgentConfirmsDifferentOwnerTakeover source label sessionRef
          sessionStartSource
      if ownerConflicts && !foregroundTakeoverAllowed then none
      else if (self.conflictingSameOwnerSessionRef source label sessionRef
          sessionStartSource).isSome then none
      else
        let replacedHookSession :=
          self.sameOwnerFullLifecycleHookAuthoritySessionRef source label sessionRef
        if replacedHookSession.isSome && !sessionReplacementAllowed then none
        else some (replacedHookSession, sessionReplacementAllowed, foregroundTakeoverAllowed)

/-- The authority that a session report replaces, or takes over from, ends. -/
def endReplacedAuthority (self : TerminalState) (source label : String)
    (sessionRef : AgentSessionRef) (replacedHookSession : Option AgentSessionRef)
    (sessionReplacementAllowed foregroundTakeoverAllowed : Bool) (clock : Instant) :
    TerminalState :=
  let self :=
    if integrationIs source label "codex" "codex" && sessionReplacementAllowed
        && self.hookAuthority.any (fun authority =>
          authority.source = source && authority.agentLabel = label
            && authority.sessionRef ≠ some sessionRef) then
      { self with hookAuthority := none }
    else self
  let self :=
    if sessionReplacementAllowed || foregroundTakeoverAllowed then
      self.forgetStaleFullLifecycleHookSession source label sessionRef
    else self
  match replacedHookSession with
  | some replaced =>
      { self.rememberStaleFullLifecycleHookSession source label replaced with
        hookAuthority := none }
  | none =>
      if foregroundTakeoverAllowed then
        { self.suppressCurrentFullLifecycleHookAuthority .hookClear clock with
          hookAuthority := none }
      else self

/-- A session report that passed every test becomes the persisted session. -/
def applySessionReport (self : TerminalState) (source label : String)
    (sessionRef : AgentSessionRef) (replacedHookSession : Option AgentSessionRef)
    (sessionReplacementAllowed foregroundTakeoverAllowed : Bool) (clock : Instant) :
    TerminalState × TerminalStateMutation :=
  let previous := self.previous clock
  let previousSession := self.currentSessionIdentityForPersistence
  let self := self.endReplacedAuthority source label sessionRef replacedHookSession
    sessionReplacementAllowed foregroundTakeoverAllowed clock
  let self := self.reconcileAgentNameOwner label (some sessionRef)
  let persistedSession : PersistedAgentSession := ⟨source, label, sessionRef⟩
  let self := { self with
    managedAgentLaunchSession :=
      if self.managedAgentLaunchSession = some persistedSession then none
      else self.managedAgentLaunchSession
    persistedAgentSession := some persistedSession }
  let currentSession := self.currentSessionIdentityForPersistence
  let self := { self with
    agentProcessAcquisitionPending :=
      if previousSession.isSome && previousSession ≠ currentSession then true
      else self.agentProcessAcquisitionPending }
  let (self, effectiveStateChange) := self.recomputeEffectiveState previous clock
  (self, ⟨effectiveStateChange, previousSession ≠ currentSession, false⟩)

/-- Whether a replacement of the source's session is already under way. -/
def generationGated (self : TerminalState) (source label : String) : Bool :=
  (self.suppressedFullLifecycleHookReports.get source).any fun suppressed =>
    suppressed.agentLabel = label && suppressed.reason ≠ .hookClear

/-- Whether a session of the owner is known, `session_anchored` in the source. -/
def sessionKnown (self : TerminalState) (source label : String) : Bool :=
  self.hookAuthority.any (fun authority =>
      authority.source = source && authority.agentLabel = label && authority.sessionRef.isSome)
    || self.persistedAgentSessionMatches source label

def setAgentSessionRefForSessionStart (self : TerminalState) (report : SessionReport)
    (clock : Instant) : TerminalState × Option TerminalStateMutation :=
  match report.sessionRef with
  | none => (self, none)
  | some sessionRef =>
      let { source, agentLabel := label, seq, sessionStartSource, .. } := report
      let present := self.processPresent label
      let fullLifecycleSource := fullLifecycleHookAuthority source label
      let gated := self.generationGated source label
      let known := self.sessionKnown source label
      let unsequencedSelection := isUnsequencedOpencodeSelection source label sessionStartSource seq
      let selectionCanReconcile := unsequencedSelection && present
      if !selectionCanReconcile && fullLifecycleSource && unsequencedSelection then
        (self.parkSelectedSession source label sessionRef clock, none)
      else
        let self :=
          if selectionCanReconcile then
            { self with
              suppressedFullLifecycleHookReports :=
                self.suppressedFullLifecycleHookReports.remove source }
          else self
        if fullLifecycleSource && !selectionCanReconcile
            && (!present || gated || !known) then
          self.startFullLifecycleSession report sessionRef clock
        else
          let (self, accepted) :=
            if unsequencedSelection then (self, true) else self.acceptHookReport source seq
          if !accepted then (self, none)
          else
            match self.sessionReportOwner source label sessionRef sessionStartSource with
            | none => (self, none)
            | some (replacedHookSession, sessionReplacementAllowed, foregroundTakeoverAllowed) =>
                let (self, mutation) := self.applySessionReport source label sessionRef
                  replacedHookSession sessionReplacementAllowed foregroundTakeoverAllowed clock
                (self, some mutation)

/-! ### Clears and releases -/

def clearHookAuthorityWithMutation (self : TerminalState) (source : Option String)
    (seq : Option Nat) (clock : Instant) : TerminalState × Option TerminalStateMutation :=
  match self.hookAuthority with
  | none => (self, none)
  | some authority =>
      if !source.all (fun source => authority.source = source) then (self, none)
      else
        let sequenceSource := source.getD authority.source
        match self.acceptHookReport sequenceSource seq with
        | (self, false) => (self, none)
        | (self, true) =>
            let previous := self.previous clock
            let previousSession := self.currentSessionIdentityForPersistence
            let self := self.suppressCurrentFullLifecycleHookAuthority .hookClear clock
            let self := { self with hookAuthority := none }
            let self := self.forgetReportedResumeOf authority.source authority.agentLabel
            let self := { self with persistedAgentSession := none }
            let (self, effectiveStateChange) := self.recomputeEffectiveState previous clock
            (self, some ⟨effectiveStateChange, previousSession.isSome, false⟩)

/-- Forget what the screen showed. -/
def resetFallback (self : TerminalState) : TerminalState :=
  { self with
    detectedAgent := none
    fallbackState := .unknown
    fallbackVisibleBlocker := false
    fallbackObservedAt := none }

/-- The released agent's authority, resume command and session end. What the screen showed and
the name go too, unless the agent's process is seen. -/
def dropReleasedAgent (self : TerminalState) (source label : String)
    (processOwnsAgent preserveForeignPersistedSession : Bool) (clock : Instant) : TerminalState :=
  let self := self.suppressFullLifecycleHookReport source label .hookClear clock
  let self := if !processOwnsAgent then self.resetFallback.clearAgentName else self
  let self := { self with hookAuthority := none }
  let self := self.forgetReportedResumeOf source label
  { self with
    persistedAgentSession :=
      if !preserveForeignPersistedSession then none else self.persistedAgentSession }

def releaseAgentWithMutation (self : TerminalState) (source label : String) (seq : Option Nat)
    (clock : Instant) : TerminalState × Option TerminalStateMutation :=
  if self.hookAuthority.any (fun authority =>
      authority.agentLabel ≠ label || authority.source ≠ source) then (self, none)
  else
    let matchesCurrentAgent : Bool := self.effectiveAgentLabel = some label
    let matchesPersistedSession := self.persistedAgentSessionMatches source label
    if !matchesCurrentAgent && !matchesPersistedSession then (self, none)
    else
      match self.acceptHookReport source seq with
      | (self, false) => (self, none)
      | (self, true) =>
          let preserveForeignPersistedSession := self.persistedAgentSession.any fun session =>
            session.source ≠ source || session.agent ≠ label
          let processOwnsAgent := (parseAgentLabel label).any fun agent =>
            self.detectedAgent = some agent && self.recentAgentProcessExit.isNone
          let previous := self.previous clock
          let previousSession := self.currentSessionIdentityForPersistence
          let self := self.dropReleasedAgent source label processOwnsAgent
            preserveForeignPersistedSession clock
          let currentSession := self.currentSessionIdentityForPersistence
          let (self, effectiveStateChange) := self.recomputeEffectiveState previous clock
          (self, some ⟨effectiveStateChange, previousSession ≠ currentSession, !processOwnsAgent⟩)

def selfReportedAgentActive (self : TerminalState) : Bool :=
  self.hookAuthority.any fun authority => (parseAgentLabel authority.agentLabel).isNone

def clearSelfReportedAgent (self : TerminalState) (observedAt clock : Instant) :
    TerminalState × Option TerminalStateMutation :=
  if !self.selfReportedAgentActive || !self.hookAuthorityNotNewerThan observedAt then (self, none)
  else
    let previous := self.previous clock
    let previousSession := self.currentSessionIdentityForPersistence
    let self := { self with hookAuthority := none }
    let self := self.setReportedResume none
    let self := self.resetFallback.clearAgentName
    let currentSession := self.currentSessionIdentityForPersistence
    let (self, effectiveStateChange) := self.recomputeEffectiveState previous clock
    (self, some ⟨effectiveStateChange, previousSession ≠ currentSession, true⟩)

end TerminalState

end Herden.Runtime.Terminal
