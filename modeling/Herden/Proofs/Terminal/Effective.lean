import Herden.Lib.Run
import Herden.Proofs.Terminal.HookReports

/-!
# `Herden.Proofs.Terminal.Effective`: the stored state is the arbitrated one

`TerminalState` stores the outcome of its arbitration and each mutation recomputes it by hand.
This module follows every return path of every mutation and shows that the stored state is never
stale, and that a change is reported exactly when one can be seen.

`view` collects the fields that the arbitration and the presentation read. A path that returns
without recomputing leaves the view as it was. A path that recomputes does so with the values
noted before it changed anything (`Previous`), so its report compares the terminal before with
the terminal after (`recomputeEffectiveState_reports`).

Two mutations are special. Expiry compares with a presentation that ignores times to live: at
the deadline the expired entries are invisible already, and the change to report is that they
are gone. A respawn resets the terminal and reports nothing.
-/

namespace Herden.Proofs.Terminal

open Herden.Lib (HashMap Reachable)
open Herden.Runtime.Detect
open Herden.Runtime.AgentResume
open Herden.Runtime.Terminal
open Herden.Runtime.Terminal.TerminalState

/-! ### What can be seen of a terminal -/

/-- The part of a terminal that its label, its state and its presentation depend on. -/
structure View where
  authority : Option HookAuthority
  detected : Option Agent
  fallbackState : AgentState
  fallbackVisibleBlocker : Bool
  fallbackObservedAt : Option Instant
  exit : Option RecentAgentProcessExit
  metadata : HashMap String AgentMetadata
  state : AgentState

def view (t : TerminalState) : View where
  authority := t.hookAuthority
  detected := t.detectedAgent
  fallbackState := t.fallbackState
  fallbackVisibleBlocker := t.fallbackVisibleBlocker
  fallbackObservedAt := t.fallbackObservedAt
  exit := t.recentAgentProcessExit
  metadata := t.agentMetadata
  state := t.state

/-- A terminal with nothing but a view, to read a view's label and state off. -/
def View.terminal (v : View) : TerminalState :=
  { TerminalState.new with
    hookAuthority := v.authority
    detectedAgent := v.detected
    fallbackState := v.fallbackState
    fallbackVisibleBlocker := v.fallbackVisibleBlocker
    fallbackObservedAt := v.fallbackObservedAt
    recentAgentProcessExit := v.exit
    agentMetadata := v.metadata
    state := v.state }

variable {t t' : TerminalState} {now : Instant}

theorem previous_eq_of_view (h : view t' = view t) (now : Instant) :
    t'.previous now = t.previous now := by
  have hview : ∀ u : TerminalState, u.previous now = (view u).terminal.previous now := fun _ => rfl
  rw [hview t', hview t, h]

theorem arbitratedState_eq_of_view (h : view t' = view t) :
    t'.arbitratedState = t.arbitratedState := by
  have hview : ∀ u : TerminalState, u.arbitratedState = (view u).terminal.arbitratedState :=
    fun _ => rfl
  rw [hview t', hview t, h]

/-! ### The presentation -/

theorem same_self (presentation : EffectivePresentation) :
    presentation.same presentation = true := by
  unfold EffectivePresentation.same HashMap.sameEntries
  simp only [decide_true, Bool.true_and, List.all_eq_true, decide_eq_true_eq]
  intro entry hmem
  exact HashMap.get_eq_some_iff.mpr hmem

variable {enforce : Bool} {f : AgentMetadata → AgentMetadata} {before : Previous}

/-- The presentation depends on the metadata that is valid, and on nothing else. -/
theorem presentation_eq_of_valid {now' : Instant} {enforce' : Bool}
    (h : t'.validAgentMetadata now' enforce' = t.validAgentMetadata now enforce) :
    t'.effectivePresentationAtWithTtl now' enforce'
      = t.effectivePresentationAtWithTtl now enforce := by
  unfold effectivePresentationAtWithTtl newestMetadataTitle newestMetadataDisplayAgent
    effectiveMetadataStateLabels
  rw [h]

/-- An entry after its expiry flag was looked at. -/
def SameButFlag (f : AgentMetadata → AgentMetadata) : Prop :=
  ∀ metadata, ∃ pending, f metadata = { metadata with expiryEventPending := pending }

theorem maxByKey_map {key : AgentMetadata → Nat}
    (hkey : ∀ metadata, key (f metadata) = key metadata) (entries : List AgentMetadata) :
    maxByKey key (entries.map f) = (maxByKey key entries).map f := by
  have hfold : ∀ best : Option AgentMetadata,
      (entries.map f).foldl (fun best entry =>
          if best.any (fun best => key best > key entry) then best else some entry) (best.map f)
        = (entries.foldl (fun best entry =>
          if best.any
              (fun best => key best > key entry) then best else some entry) best).map f := by
    induction entries with
    | nil => intro best; rfl
    | cons entry rest ih =>
      intro best
      rw [List.map_cons, List.foldl_cons, List.foldl_cons, ← ih]
      congr 1
      cases best with
      | none => rfl
      | some best =>
        simp only [Option.map_some, Option.any_some, hkey]
        split
        · rfl
        · rfl
  exact hfold none

/-- Looking at expiry flags does not show. -/
theorem presentation_eq_of_flags (hf : SameButFlag f)
    (h : t'.validAgentMetadata now enforce = (t.validAgentMetadata now enforce).map f) :
    t'.effectivePresentationAtWithTtl now enforce
        = t.effectivePresentationAtWithTtl now enforce := by
  have hfield : ∀ {β : Type} (field : AgentMetadata → β),
      (∀ metadata pending, field { metadata with expiryEventPending := pending } = field metadata) →
      ∀ metadata, field (f metadata) = field metadata := by
    intro β field hfield metadata
    obtain ⟨pending, hpending⟩ := hf metadata
    rw [hpending, hfield]
  have hnewest : ∀ {value : AgentMetadata → Option String} {time : AgentMetadata → Option Instant},
      (∀ metadata, value (f metadata) = value metadata) →
      (∀ metadata, time (f metadata) = time metadata) →
      ∀ entries : List AgentMetadata,
        (maxByKey (fun metadata => reportedAtKey (time metadata))
          ((entries.map f).filter fun metadata => (value metadata).isSome)).bind value
        = (maxByKey (fun metadata => reportedAtKey (time metadata))
          (entries.filter fun metadata => (value metadata).isSome)).bind value := by
    intro value time hvalue htime entries
    rw [List.filter_map]
    have htest : ((fun metadata => (value metadata).isSome) ∘ f)
        = fun metadata => (value metadata).isSome := funext fun metadata =>
      congrArg Option.isSome (hvalue metadata)
    rw [htest, maxByKey_map fun metadata => congrArg reportedAtKey (htime metadata)]
    cases maxByKey _ _ with
    | none => rfl
    | some metadata => exact hvalue metadata
  unfold effectivePresentationAtWithTtl newestMetadataTitle newestMetadataDisplayAgent
    effectiveMetadataStateLabels
  rw [h, hnewest (hfield AgentMetadata.title fun _ _ => rfl)
      (hfield AgentMetadata.titleReportedAt fun _ _ => rfl),
    hnewest (hfield AgentMetadata.displayAgent fun _ _ => rfl)
      (hfield AgentMetadata.displayAgentReportedAt fun _ _ => rfl), List.flatMap_map]
  simp only [hfield AgentMetadata.stateLabels fun _ _ => rfl,
    hfield AgentMetadata.stateLabelReportedAt fun _ _ => rfl]

theorem clearExpiryPendingForHiddenMetadata_presentation (t : TerminalState) (now : Instant)
    (enforce : Bool) :
    t.clearExpiryPendingForHiddenMetadata.effectivePresentationAtWithTtl now enforce
      = t.effectivePresentationAtWithTtl now enforce := by
  let f (metadata : AgentMetadata) : AgentMetadata :=
    if metadata.expiryEventPending && !t.agentMetadataIsVisibleIgnoringTtl metadata then
      { metadata with expiryEventPending := false }
    else metadata
  have hf : SameButFlag f := by
    intro metadata
    dsimp only [f]
    split
    · exact ⟨_, rfl⟩
    · exact ⟨metadata.expiryEventPending, rfl⟩
  apply presentation_eq_of_flags hf
  have hvalues : t.clearExpiryPendingForHiddenMetadata.agentMetadata.values
      = t.agentMetadata.values.map f := by
    show List.map _ (List.map _ _) = List.map f (List.map _ _)
    rw [List.map_map, List.map_map]
    rfl
  unfold validAgentMetadata
  rw [hvalues, List.filter_map]
  congr 1
  apply List.filter_congr
  intro metadata _
  obtain ⟨pending, hpending⟩ := hf metadata
  rw [Function.comp_apply, hpending]
  rfl

/-! ### Reports -/

/-- A change is reported exactly when the label, the state or the presentation differ, and the
report carries both sides. -/
structure Reports (before after : Previous) (change : Option EffectiveStateChange) : Prop where
  isSome_iff : change.isSome = true ↔ ¬ (before.agentLabel = after.agentLabel
    ∧ before.state = after.state ∧ before.presentation.same after.presentation = true)
  fields : ∀ reported, change = some reported →
    reported.previousAgentLabel = before.agentLabel
      ∧ reported.previousKnownAgent = before.knownAgent
      ∧ reported.previousState = before.state
      ∧ reported.previousPresentation = before.presentation
      ∧ reported.agentLabel = after.agentLabel
      ∧ reported.knownAgent = after.knownAgent
      ∧ reported.state = after.state
      ∧ reported.presentation = after.presentation

/-- Where nothing changed, nothing is reported. -/
theorem Reports.quiet (noted : Previous) : Reports noted noted none := by
  refine ⟨?_, fun reported h => (by cases h)⟩
  simp [same_self]

/-- A mutation that left the view alone reports nothing. -/
theorem Reports.of_view (h : view t' = view t) (now : Instant) :
    Reports (t.previous now) (t'.previous now) none := by
  rw [previous_eq_of_view h]
  exact .quiet _

/-- The arbitration reports the change from the noted values to its own. -/
theorem recomputeEffectiveState_reports (t : TerminalState) (now : Instant)
    (hstate : before.state = t.state) : (t.recomputeEffectiveState before now).1.state
        = (t.recomputeEffectiveState before now).1.arbitratedState
      ∧ Reports before ((t.recomputeEffectiveState before now).1.previous now)
        (t.recomputeEffectiveState before now).2 := by
  have hpresentation := clearExpiryPendingForHiddenMetadata_presentation t now true
  unfold recomputeEffectiveState
  dsimp only
  split
  next hsame =>
    simp only [Bool.and_eq_true, decide_eq_true_eq] at hsame
    obtain ⟨⟨hlabel, harbitrated⟩, hsame⟩ := hsame
    have hcurrent : t.state = t.arbitratedState := hstate.symm.trans harbitrated
    refine ⟨hcurrent, ?_, fun reported h => (by cases h)⟩
    -- The state was the arbitrated one, so leaving it alone stores it.
    have hseen : before.presentation.same
        (t.clearExpiryPendingForHiddenMetadata.effectivePresentationAt now) = true := by
      rw [effectivePresentationAt, hpresentation]
      exact hsame
    refine ⟨fun h => (by cases h), fun h => absurd ⟨hlabel, ?_, hseen⟩ h⟩
    exact hstate
  next hdiffers =>
    refine ⟨rfl, ?_, ?_⟩
    · refine ⟨fun _ hsame => hdiffers ?_, fun _ => rfl⟩
      obtain ⟨hlabel, harbitrated, hseen⟩ := hsame
      simp only [Bool.and_eq_true, decide_eq_true_eq]
      refine ⟨⟨hlabel, harbitrated⟩, ?_⟩
      have hseen : before.presentation.same
          (t.clearExpiryPendingForHiddenMetadata.effectivePresentationAt now) = true := hseen
      rw [effectivePresentationAt, hpresentation] at hseen
      exact hseen
    · intro reported h
      obtain rfl := Option.some.inj h
      exact ⟨rfl, rfl, rfl, rfl, rfl, rfl, rfl, hpresentation.symm⟩

/-! ### What no helper touches -/

/-- The stored state and the recorded exit. Only the arbitration writes the one and only a
detection the other. -/
def still (t : TerminalState) : AgentState × Option RecentAgentProcessExit :=
  (t.state, t.recentAgentProcessExit)

theorem state_eq_of_still {u : TerminalState} (h : still u = still t) : t.state = u.state :=
  (congrArg Prod.fst h).symm

section

variable (t : TerminalState)

@[simp] theorem still_reconcileAgentNameOwner (label : String)
    (sessionRef : Option AgentSessionRef) :
    still (t.reconcileAgentNameOwner label sessionRef) = still t := by
  obtain ⟨_, _, h⟩ := reconcileAgentNameOwner_eq t label sessionRef
  rw [h]
  rfl

@[simp] theorem still_suppressCurrentFullLifecycleHookAuthority
    (reason : FullLifecycleHookSuppressionReason) (clock : Instant) :
    still (t.suppressCurrentFullLifecycleHookAuthority reason clock) = still t := by
  obtain ⟨_, h⟩ := suppressCurrentFullLifecycleHookAuthority_eq t reason clock
  rw [h]
  rfl

@[simp] theorem still_suppressFullLifecycleHookReport (source label : String)
    (reason : FullLifecycleHookSuppressionReason) (clock : Instant) :
    still (t.suppressFullLifecycleHookReport source label reason clock) = still t := by
  obtain ⟨_, h⟩ := suppressFullLifecycleHookReport_eq t source label reason clock
  rw [h]
  rfl

@[simp] theorem still_forgetStaleFullLifecycleHookSession (source label : String)
    (sessionRef : AgentSessionRef) :
    still (t.forgetStaleFullLifecycleHookSession source label sessionRef) = still t := by
  obtain ⟨_, h⟩ := forgetStaleFullLifecycleHookSession_eq t source label sessionRef
  rw [h]
  rfl

@[simp] theorem still_setReportedResume (resume : Option ReportedAgentResume) :
    still (t.setReportedResume resume) = still t := by
  obtain ⟨_, _, h⟩ := setReportedResume_eq t resume
  rw [h]
  rfl

@[simp] theorem still_forgetReportedResumeOf (source label : String) :
    still (t.forgetReportedResumeOf source label) = still t := by
  obtain ⟨_, _, h⟩ := forgetReportedResumeOf_eq t source label
  rw [h]
  rfl

@[simp] theorem still_endReportedSuppression (source : String)
    (sessionRef : Option AgentSessionRef) (reanchor : Bool) :
    still (t.endReportedSuppression source sessionRef reanchor) = still t := by
  obtain ⟨_, _, h, -⟩ := endReportedSuppression_eq t source sessionRef reanchor
  rw [h]
  rfl

theorem still_adoptReplacement_foldl (replacements : List ValidatedReplacement)
    (t : TerminalState) : still (replacements.foldl adoptReplacement t) = still t := by
  induction replacements generalizing t with
  | nil => rfl
  | cons replacement rest ih =>
    rw [List.foldl_cons, ih]
    obtain ⟨source, label, sessionRef, pending⟩ := replacement
    have hstill : still ((t.forgetStaleFullLifecycleHookSession source label
        sessionRef).reconcileAgentNameOwner label (some sessionRef)) = still t := by
      rw [still_reconcileAgentNameOwner, still_forgetStaleFullLifecycleHookSession]
    rw [← hstill]
    cases pending with
    | none => rfl
    | some pending => rfl

@[simp] theorem still_clearFullLifecycleHookSuppressionForDetectedAgent
    (previousDetectedAgent detectedAgent : Option Agent) :
    still (t.clearFullLifecycleHookSuppressionForDetectedAgent previousDetectedAgent
      detectedAgent) = still t := by
  unfold clearFullLifecycleHookSuppressionForDetectedAgent
  cases detectedAgent with
  | none => rfl
  | some detected =>
    dsimp only
    split
    · rfl
    · obtain ⟨sessions, hsessions⟩ := rememberStaleFullLifecycleHookSession_foldl_eq _ _
      rw [hsessions, still_adoptReplacement_foldl]
      rfl

@[simp] theorem still_endReplacedAuthority (source label : String) (sessionRef : AgentSessionRef)
    (replaced : Option AgentSessionRef) (replacementAllowed takeoverAllowed : Bool)
    (clock : Instant) :
    still (t.endReplacedAuthority source label sessionRef replaced replacementAllowed
      takeoverAllowed clock) = still t := by
  unfold endReplacedAuthority
  dsimp only
  generalize hfirst : (if integrationIs source label "codex" "codex" && replacementAllowed
      && t.hookAuthority.any (fun authority => authority.source = source
        && authority.agentLabel = label && authority.sessionRef ≠ some sessionRef) then
    { t with hookAuthority := none } else t) = u
  have hu : still u = still t := by
    rw [← hfirst]
    split
    · rfl
    · rfl
  generalize hsecond : (if replacementAllowed || takeoverAllowed then
    u.forgetStaleFullLifecycleHookSession source label sessionRef else u) = w
  have hw : still w = still u := by
    rw [← hsecond]
    split
    · exact still_forgetStaleFullLifecycleHookSession u source label sessionRef
    · rfl
  rw [← hu, ← hw]
  cases replaced with
  | some replaced => rfl
  | none =>
    dsimp only
    split
    · exact still_suppressCurrentFullLifecycleHookAuthority w .hookClear clock
    · rfl

@[simp] theorem still_dropReleasedAgent (source label : String)
    (processOwnsAgent preserve : Bool) (clock : Instant) :
    still (t.dropReleasedAgent source label processOwnsAgent preserve clock) = still t := by
  rw [← still_suppressFullLifecycleHookReport t source label .hookClear clock]
  unfold dropReleasedAgent
  dsimp only
  generalize t.suppressFullLifecycleHookReport source label .hookClear clock = u
  have hscreen : still (if !processOwnsAgent then u.resetFallback.clearAgentName else u)
      = still u := by
    split
    · rfl
    · rfl
  rw [← hscreen]
  exact still_forgetReportedResumeOf _ source label

/-- An exit leaves both to `note_fallback`, which ran before. -/
theorem still_applyProcessExit (agent : Option Agent) (newer : Bool) (now : Instant) :
    still (t.applyProcessExit agent newer now) = still t := by
  have hrenew : still (t.renewSuppressions agent now) = still t := by
    unfold renewSuppressions
    dsimp only
    rw [foldl_removeSequence_eq]
    obtain ⟨sessions, hsessions⟩ := rememberStaleFullLifecycleHookSession_foldl_eq _ _
    rw [hsessions]
    rfl
  have hofficial : ∀ u : TerminalState, still (u.suppressOfficialSession agent now) = still u := by
    intro u
    unfold suppressOfficialSession
    split
    · rfl
    · rfl
  have hauthority : ∀ u : TerminalState, still (u.endAgentAuthority agent newer) = still u := by
    intro u
    unfold endAgentAuthority
    split
    · split
      · rfl
      · rfl
    · rfl
  have hsession : ∀ u : TerminalState, still (u.endAgentSession agent newer) = still u := by
    intro u
    unfold endAgentSession
    dsimp only
    split
    · split
      · rw [still_setReportedResume]
        rfl
      · rfl
    · split
      · rw [still_setReportedResume]
      · rfl
  have hparts : still ((((t.renewSuppressions agent now).suppressOfficialSession agent
      now).endAgentAuthority agent newer).endAgentSession agent newer) = still t := by
    rw [hsession, hauthority, hofficial, hrenew]
  rw [← hparts]
  cases agent with
  | none => rfl
  | some agent => rfl

@[simp] theorem still_dropConflictingAuthority (previousDetectedAgent agent : Option Agent)
    (now clock : Instant) :
    still (t.dropConflictingAuthority previousDetectedAgent agent now clock) = still t := by
  unfold dropConflictingAuthority
  split
  · exact still_suppressCurrentFullLifecycleHookAuthority t .hookClear clock
  · rfl

/-- Of a detection, `note_fallback` alone touches the recorded exit. -/
theorem still_applyDetection (agent : Option Agent) (fallbackState : AgentState)
    (visibleBlocker processExited : Bool) (now clock : Instant) :
    still (t.applyDetection agent fallbackState visibleBlocker processExited now clock)
      = (t.state, (t.noteFallback agent fallbackState visibleBlocker processExited
        now).recentAgentProcessExit) := by
  obtain ⟨ready, name, owner, hnoted⟩ := noteDetectedAgent_eq t agent fallbackState processExited
  unfold applyDetection
  dsimp only
  rw [hnoted]
  generalize hseen : (if !processExited then clearFullLifecycleHookSuppressionForDetectedAgent _ _ _
    else _) = u
  have hu : still u = still t := by
    rw [← hseen]
    split
    · rw [still_clearFullLifecycleHookSuppressionForDetectedAgent]
      rfl
    · rfl
  have hname : ∀ w : TerminalState, still (if agent.isNone && w.recentAgentProcessExit.isSome then
      w.clearAgentName else w) = still w := by
    intro w
    split
    · rfl
    · rfl
  have hexit : ∀ w : TerminalState, still (if processExited then
      w.applyProcessExit agent (processExited && t.newerCustomAuthority agent now) now else w)
        = still w := by
    intro w
    split
    · exact still_applyProcessExit w _ _ _
    · rfl
  rw [hname, still_dropConflictingAuthority, hexit]
  have hstate : u.state = t.state := congrArg Prod.fst hu
  have hrecorded : u.recentAgentProcessExit = t.recentAgentProcessExit := congrArg Prod.snd hu
  show (u.state, (u.noteFallback agent fallbackState visibleBlocker processExited
    now).recentAgentProcessExit) = _
  unfold noteFallback
  dsimp only
  rw [hstate, hrecorded]

end

/-! ### The mutations -/

/-- What a mutation of `t` leaves and reports is right: the state stays the arbitrated one, and
the report is about the change from the noted values. -/
def Sound (t : TerminalState) (before : Previous) (now : Instant)
    (outcome : TerminalState × Option TerminalStateMutation) : Prop :=
  (t.state = t.arbitratedState → outcome.1.state = outcome.1.arbitratedState)
    ∧ Reports before (outcome.1.previous now)
      (outcome.2.bind TerminalStateMutation.effectiveStateChange)

section

variable {t u t' : TerminalState} {before : Previous} {now : Instant}

/-- A path that returns early. -/
theorem Sound.quiet (h : view t' = view t) : Sound t (t.previous now) now (t', none) := by
  refine ⟨fun hcoherent => ?_, .of_view h now⟩
  show t'.state = t'.arbitratedState
  rw [arbitratedState_eq_of_view h, show t'.state = t.state from congrArg View.state h]
  exact hcoherent

/-- A path that ends with the arbitration, and perhaps with a change that does not show. -/
theorem Sound.recompute {base : TerminalState} {mutation : TerminalStateMutation}
    (hbase : before.state = base.state)
    (hview : view t' = view (base.recomputeEffectiveState before now).1)
    (hmutation : mutation.effectiveStateChange = (base.recomputeEffectiveState before now).2) :
    Sound t before now (t', some mutation) := by
  obtain ⟨hcoherent, hreports⟩ := recomputeEffectiveState_reports base now hbase
  refine ⟨fun _ => ?_, ?_⟩
  · show t'.state = t'.arbitratedState
    rw [arbitratedState_eq_of_view hview, ← hcoherent]
    exact congrArg View.state hview
  · show Reports before (t'.previous now) mutation.effectiveStateChange
    rw [previous_eq_of_view hview, hmutation]
    exact hreports

/-- Gates that leave the view alone may come before. -/
theorem Sound.of_view (hview : view u = view t)
    {outcome : TerminalState × Option TerminalStateMutation}
    (h : Sound u (u.previous now) now outcome) : Sound t (t.previous now) now outcome := by
  rw [previous_eq_of_view hview] at h
  refine ⟨fun hcoherent => h.1 ?_, h.2⟩
  rw [arbitratedState_eq_of_view hview, show u.state = t.state from congrArg View.state hview]
  exact hcoherent

end

section

variable (t : TerminalState)

theorem view_acceptHookReport (source : String) (seq : Option Nat) :
    view (t.acceptHookReport source seq).1 = view t := by
  rcases acceptHookReport_cases t source seq with ⟨-, h⟩ | ⟨-, sequences, -, h⟩
  · rw [h]
  · rw [h]
    rfl

theorem applyHookReport_sound (report : HookReport) (sessionRef : Option AgentSessionRef)
    (takeover reanchor : Bool) (now clock : Instant) :
    Sound t (t.previous now) now
      ((t.applyHookReport report sessionRef takeover reanchor now clock).1,
        some (t.applyHookReport report sessionRef takeover reanchor now clock).2) := by
  unfold applyHookReport
  dsimp only
  refine .recompute ?_ rfl rfl
  have htaken : ∀ u : TerminalState, still (if takeover then
      u.suppressCurrentFullLifecycleHookAuthority .hookClear clock else u) = still u := by
    intro u
    split
    · exact still_suppressCurrentFullLifecycleHookAuthority u .hookClear clock
    · rfl
  have hstill := still_endReportedSuppression
    (if takeover then (t.reconcileAgentNameOwner report.agentLabel
      sessionRef).suppressCurrentFullLifecycleHookAuthority .hookClear clock
    else t.reconcileAgentNameOwner report.agentLabel sessionRef) report.source sessionRef reanchor
  rw [htaken, still_reconcileAgentNameOwner] at hstill
  exact state_eq_of_still hstill

theorem setHookAuthorityAt_sound (report : HookReport) (now clock : Instant) :
    Sound t (t.previous now) now (t.setHookAuthorityAt report now clock) := by
  unfold setHookAuthorityAt
  split
  · exact .quiet rfl
  · split
    · exact .quiet rfl
    · rcases routeFullLifecycleHookReport_cases t report now with
        hroute | ⟨sessionRef, seq, -, -, -, hroute⟩ | ⟨reanchor, hroute, -⟩
      · rw [hroute]
        exact .quiet rfl
      · rw [hroute]
        exact .quiet rfl
      · rw [hroute]
        dsimp only
        split
        · exact .quiet rfl
        next sessionRef takeover howner =>
          -- Forgetting and recording a sequence does not show.
          generalize hanchor : (if reanchor then
            { t with hookReportSequences := t.hookReportSequences.remove report.source }
            else t) = anchored
          have hanchored : view anchored = view t := by
            rw [← hanchor]
            split
            · rfl
            · rfl
          have hview := (view_acceptHookReport anchored report.source report.seq).trans hanchored
          split
          next u haccept =>
            rw [haccept] at hview
            exact .quiet hview
          next u haccept =>
            rw [haccept] at hview
            exact .of_view hview (applyHookReport_sound u report sessionRef takeover reanchor now
              clock)

theorem startFullLifecycleSession_sound (report : SessionReport) (sessionRef : AgentSessionRef)
    (clock : Instant) :
    Sound t (t.previous clock) clock (t.startFullLifecycleSession report sessionRef clock) := by
  unfold startFullLifecycleSession
  dsimp only
  split
  · exact .quiet rfl
  · split
    · exact .quiet rfl
    next seq hseq =>
      split
      · exact .quiet rfl
      · split
        · refine .recompute ?_ rfl rfl
          exact state_eq_of_still (still_clearFullLifecycleHookSuppressionForDetectedAgent
            (t.parkSessionStart report.source report.agentLabel sessionRef seq clock) none
            (parseAgentLabel report.agentLabel))
        · exact .quiet rfl

theorem applySessionReport_sound (source label : String) (sessionRef : AgentSessionRef)
    (replaced : Option AgentSessionRef) (replacementAllowed takeoverAllowed : Bool)
    (clock : Instant) :
    Sound t (t.previous clock) clock
      ((t.applySessionReport source label sessionRef replaced replacementAllowed takeoverAllowed
          clock).1,
        some (t.applySessionReport source label sessionRef replaced replacementAllowed
          takeoverAllowed clock).2) := by
  unfold applySessionReport
  dsimp only
  refine .recompute ?_ rfl rfl
  have hstill := still_reconcileAgentNameOwner (t.endReplacedAuthority source label sessionRef
    replaced replacementAllowed takeoverAllowed clock) label (some sessionRef)
  rw [still_endReplacedAuthority] at hstill
  exact state_eq_of_still hstill

theorem setAgentSessionRefForSessionStart_sound (report : SessionReport) (clock : Instant) :
    Sound t (t.previous clock) clock (t.setAgentSessionRefForSessionStart report clock) := by
  unfold setAgentSessionRefForSessionStart
  split
  · exact .quiet rfl
  next sessionRef hsession =>
    dsimp only
    split
    · exact .quiet rfl
    · generalize hselected : (if isUnsequencedOpencodeSelection report.source report.agentLabel
          report.sessionStartSource report.seq && t.processPresent report.agentLabel then
        { t with
          suppressedFullLifecycleHookReports :=
            t.suppressedFullLifecycleHookReports.remove report.source } else t) = u
      have hu : view u = view t := by
        rw [← hselected]
        split
        · rfl
        · rfl
      split
      · exact .of_view hu (startFullLifecycleSession_sound u report sessionRef clock)
      · generalize haccept : (if isUnsequencedOpencodeSelection report.source report.agentLabel
          report.sessionStartSource report.seq then (u, true)
          else u.acceptHookReport report.source report.seq) = accepted
        have haccepted : view accepted.1 = view t := by
          rw [← haccept]
          split
          · exact hu
          · exact (view_acceptHookReport u _ _).trans hu
        split
        · exact .quiet haccepted
        · split
          · exact .quiet haccepted
          · exact .of_view haccepted (applySessionReport_sound accepted.1 _ _ _ _ _ _ clock)

theorem clearHookAuthorityWithMutation_sound (source : Option String) (seq : Option Nat)
    (clock : Instant) :
    Sound t (t.previous clock) clock (t.clearHookAuthorityWithMutation source seq clock) := by
  unfold clearHookAuthorityWithMutation
  split
  · exact .quiet rfl
  next authority _ =>
    split
    · exact .quiet rfl
    · dsimp only
      have hview := view_acceptHookReport t (source.getD authority.source) seq
      split
      next u haccept =>
        rw [haccept] at hview
        exact .quiet hview
      next u haccept =>
        rw [haccept] at hview
        refine .of_view hview (.recompute ?_ rfl rfl)
        have hstill := still_forgetReportedResumeOf
          { u.suppressCurrentFullLifecycleHookAuthority .hookClear clock with
            hookAuthority := none } authority.source authority.agentLabel
        have hsuppress := still_suppressCurrentFullLifecycleHookAuthority u .hookClear clock
        exact state_eq_of_still (hstill.trans hsuppress)

theorem releaseAgentWithMutation_sound (source label : String) (seq : Option Nat)
    (clock : Instant) :
    Sound t (t.previous clock) clock (t.releaseAgentWithMutation source label seq clock) := by
  unfold releaseAgentWithMutation
  split
  · exact .quiet rfl
  · dsimp only
    split
    · exact .quiet rfl
    · have hview := view_acceptHookReport t source seq
      split
      next u haccept =>
        rw [haccept] at hview
        exact .quiet hview
      next u haccept =>
        rw [haccept] at hview
        refine .of_view hview (.recompute ?_ rfl rfl)
        exact state_eq_of_still (still_dropReleasedAgent u source label _ _ clock)

theorem clearSelfReportedAgent_sound (observedAt clock : Instant) :
    Sound t (t.previous clock) clock (t.clearSelfReportedAgent observedAt clock) := by
  unfold clearSelfReportedAgent
  split
  · exact .quiet rfl
  · dsimp only
    refine .recompute ?_ rfl rfl
    have hstill := still_setReportedResume { t with hookAuthority := none } none
    exact state_eq_of_still hstill

theorem setDetectedStateWithScreenSignalsAt_sound (agent : Option Agent)
    (fallbackState : AgentState) (visibleBlocker processExited : Bool) (now clock : Instant) :
    Sound t (t.previous now) now
      ((t.setDetectedStateWithScreenSignalsAt agent fallbackState visibleBlocker processExited now
          clock).1,
        some (t.setDetectedStateWithScreenSignalsAt agent fallbackState visibleBlocker
          processExited now clock).2) := by
  unfold setDetectedStateWithScreenSignalsAt
  dsimp only
  split
  · refine .recompute ?_ rfl rfl
    split
    · rfl
    · rfl
  · split
    · exact .recompute rfl rfl rfl
    · refine .recompute ?_ rfl rfl
      have hstill := still_applyDetection t agent fallbackState visibleBlocker processExited now
        clock
      exact (congrArg Prod.fst hstill).symm

theorem setDetectedAgentProcessAt_sound (agent : Agent) (now clock : Instant) :
    Sound t (t.previous now) now
      ((t.setDetectedAgentProcessAt agent now clock).1,
        some (t.setDetectedAgentProcessAt agent now clock).2) := by
  obtain ⟨hcoherent, hreports⟩ :=
    setDetectedStateWithScreenSignalsAt_sound t (some agent) .unknown false false now clock
  unfold setDetectedAgentProcessAt
  dsimp only
  -- The acquisition of the process does not show.
  split
  · exact ⟨hcoherent, hreports⟩
  · exact ⟨hcoherent, hreports⟩

/-! ### Metadata -/

/-- Removing an entry that a test does not let through. -/
theorem filter_values_remove (m : HashMap String AgentMetadata) (source : String)
    (test : AgentMetadata → Bool) (h : (m.get source).all (fun metadata => !test metadata) = true) :
    (m.remove source).values.filter test = m.values.filter test := by
  obtain ⟨entries, hnodup⟩ := m
  have hfails : ∀ entry ∈ entries, entry.1 = source → test entry.2 = false := by
    intro entry hmem hkey
    have hget : HashMap.get ⟨entries, hnodup⟩ source = some entry.2 :=
      HashMap.get_eq_some_iff.mpr (hkey ▸ hmem)
    simpa [hget] using h
  show (List.map _ (List.kerase source entries)).filter test = (List.map _ entries).filter test
  clear h hnodup
  induction entries with
  | nil => rfl
  | cons entry rest ih =>
    have hrest := ih fun other hmem => hfails other (List.mem_cons_of_mem _ hmem)
    by_cases hkey : source = entry.1
    · rw [List.kerase_cons_eq hkey, List.map_cons,
        List.filter_cons_of_neg (by simp [hfails entry (by simp) hkey.symm])]
    · rw [List.kerase_cons_ne hkey, List.map_cons, List.map_cons, List.filter_cons,
        List.filter_cons, hrest]

/-- The expired entry of the source did not show any more. -/
theorem previous_dropExpiredMetadata (source : String) (now : Instant) :
    (t.dropExpiredMetadata source now).previous now = t.previous now := by
  have hvalid : (t.dropExpiredMetadata source now).validAgentMetadata now true
      = t.validAgentMetadata now true := by
    unfold validAgentMetadata dropExpiredMetadata
    dsimp only
    split
    next hexpired =>
      apply filter_values_remove
      cases hget : t.agentMetadata.get source with
      | none => rfl
      | some metadata =>
        rw [hget] at hexpired
        have hexpired : agentMetadataIsExpired metadata now = true := hexpired
        show (!agentMetadataIsValid _ metadata now true) = true
        unfold agentMetadataIsValid
        split
        · rfl
        · rw [if_pos (by simp [hexpired])]
          rfl
    next => rfl
  unfold previous effectivePresentationAt
  rw [presentation_eq_of_valid hvalid]
  rfl

theorem view_acceptMetadataReport (source : String) (seq : Option Nat) (includesTokens : Bool)
    (agent : Option Agent) :
    view (t.acceptMetadataReport source seq includesTokens agent).1 = view t := by
  unfold acceptMetadataReport
  split
  · rfl
  · split
    · rfl
    · split
      · rfl
      · rfl

theorem previous_clearExpiryPendingForHiddenMetadata (now : Instant) :
    t.clearExpiryPendingForHiddenMetadata.previous now = t.previous now := by
  unfold previous effectivePresentationAt
  rw [clearExpiryPendingForHiddenMetadata_presentation]
  rfl

theorem setAgentMetadata_sound (report : AgentMetadataReport) (clock : Instant) :
    Sound t (t.previous clock) clock (t.setAgentMetadata report clock) := by
  unfold setAgentMetadata
  split
  · exact .quiet rfl
  · dsimp only
    have hview := view_acceptMetadataReport t report.source report.seq false
      (metadataReportAgent report.source report.agentLabel report.appliesToSource)
    split
    next u _ haccept =>
      rw [haccept] at hview
      exact .quiet hview
    next u haccept =>
      rw [haccept] at hview
      exact .quiet hview
    next u haccept =>
      rw [haccept] at hview
      apply Sound.of_view hview
      rw [← previous_dropExpiredMetadata u report.source clock]
      generalize u.dropExpiredMetadata report.source clock = w
      obtain ⟨hcoherent, hreports⟩ :=
        recomputeEffectiveState_reports (w.storeMetadata report clock)
          clock (show (w.previous clock).state = _ from rfl)
      split
      · refine ⟨fun _ => hcoherent, ?_⟩
        dsimp only [Option.bind_some]
        rw [previous_clearExpiryPendingForHiddenMetadata]
        exact hreports
      · exact ⟨fun _ => hcoherent, hreports⟩

/-- The terminal without the entries whose deadline passed before the scheduled one. -/
def withoutStaleMetadata (scheduledDeadline now : Instant) : TerminalState :=
  { t with
    agentMetadata := t.agentMetadata.retain fun _ metadata =>
      !((agentMetadataExpiry metadata).any (fun deadline => deadline ≤ now)
        && !(agentMetadataExpiry metadata).any (fun deadline => deadline ≥ scheduledDeadline)) }

/-- What an expiry notes down: the presentation of the entries it looks at, whether or not
their time is over. -/
def beforeExpiry (scheduledDeadline now : Instant) : Previous :=
  { t.previous now with
    presentation :=
      (withoutStaleMetadata t scheduledDeadline now).effectivePresentationAtWithTtl now false }

theorem expireAgentMetadataAt_sound (scheduledDeadline now : Instant) :
    Sound t (beforeExpiry t scheduledDeadline now) now
      (t.expireAgentMetadataAt scheduledDeadline now) := by
  unfold expireAgentMetadataAt
  dsimp only
  split
  next hnone =>
    -- No entry is due, so ignoring times to live makes no difference.
    have hvalid : (withoutStaleMetadata t scheduledDeadline now).validAgentMetadata now true
        = (withoutStaleMetadata t scheduledDeadline now).validAgentMetadata now false := by
      apply List.filter_congr
      intro metadata hmem
      have hdue : agentMetadataIsExpired metadata now = false := by
        obtain ⟨entry, hentry, rfl⟩ := List.mem_map.mp hmem
        obtain ⟨hentry, hkept⟩ := List.mem_filter.mp hentry
        have hlisted : entry.2 ∈ t.agentMetadata.values := List.mem_map_of_mem hentry
        rw [List.isEmpty_iff, List.filter_eq_nil_iff] at hnone
        have hscheduled := hnone entry.2 hlisted
        unfold agentMetadataIsExpired
        simp only [ge_iff_le] at hkept hscheduled ⊢
        cases hany : (agentMetadataExpiry entry.2).any fun deadline => decide (deadline ≤ now) with
        | false => rfl
        | true =>
          rw [hany] at hkept hscheduled
          simp only [Bool.true_and, Bool.not_not] at hkept hscheduled
          exact absurd hkept hscheduled
      unfold agentMetadataIsValid
      rw [hdue]
      rfl
    refine ⟨fun hcoherent => hcoherent, ?_⟩
    have hafter : (withoutStaleMetadata t scheduledDeadline now).previous now
        = beforeExpiry t scheduledDeadline now := by
      unfold beforeExpiry
      rw [← presentation_eq_of_valid hvalid]
      rfl
    show Reports _ ((withoutStaleMetadata t scheduledDeadline now).previous now) none
    rw [hafter]
    exact .quiet _
  next =>
    obtain ⟨hcoherent, hreports⟩ := recomputeEffectiveState_reports
      { withoutStaleMetadata t scheduledDeadline now with
        agentMetadata := (withoutStaleMetadata t scheduledDeadline now).agentMetadata.retain
          fun _ metadata =>
            !(agentMetadataExpiry metadata).any fun deadline => deadline ≤ now }
      now (show (beforeExpiry t scheduledDeadline now).state = _ from rfl)
    exact ⟨fun _ => hcoherent, hreports⟩

end

/-! ### Every reachable terminal -/

/-- What a mutation notes down before it changes anything, and the time it takes the
presentations at. A respawn notes nothing, and neither does a map that moves its entries. -/
def noted (t : TerminalState) : Op → Option (Previous × Instant)
  | .detectedState _ _ _ _ now _ => some (t.previous now, now)
  | .detectedAgentProcess _ now _ => some (t.previous now, now)
  | .hookReport _ now _ => some (t.previous now, now)
  | .sessionReport _ clock => some (t.previous clock, clock)
  | .clearHookAuthority _ _ clock => some (t.previous clock, clock)
  | .releaseAgent _ _ _ clock => some (t.previous clock, clock)
  | .clearSelfReportedAgent _ clock => some (t.previous clock, clock)
  | .agentMetadata _ clock => some (t.previous clock, clock)
  | .expireAgentMetadata scheduledDeadline now =>
      some (beforeExpiry t scheduledDeadline now, now)
  | .respawn => none
  | .rehash _ _ => none

theorem step_sound (t : TerminalState) {op : Op} (h : noted t op = some (before, now)) :
    Sound t before now (t.step op) := by
  cases op with
  | detectedState agent fallbackState visibleBlocker processExited at' clock =>
    cases h
    exact setDetectedStateWithScreenSignalsAt_sound t agent fallbackState visibleBlocker
      processExited now clock
  | detectedAgentProcess agent at' clock =>
    cases h
    exact setDetectedAgentProcessAt_sound t agent now clock
  | hookReport report at' clock =>
    cases h
    exact setHookAuthorityAt_sound t report now clock
  | sessionReport report clock =>
    cases h
    exact setAgentSessionRefForSessionStart_sound t report now
  | clearHookAuthority source seq clock =>
    cases h
    exact clearHookAuthorityWithMutation_sound t source seq now
  | releaseAgent source label seq clock =>
    cases h
    exact releaseAgentWithMutation_sound t source label seq now
  | clearSelfReportedAgent observedAt clock =>
    cases h
    exact clearSelfReportedAgent_sound t observedAt now
  | agentMetadata report clock =>
    cases h
    exact setAgentMetadata_sound t report now
  | expireAgentMetadata scheduledDeadline at' =>
    cases h
    exact expireAgentMetadataAt_sound t scheduledDeadline now
  | respawn => cases h
  | rehash suppressed metadata => cases h

/-- One mutation keeps the stored state the arbitrated one. -/
theorem step_coherent (t : TerminalState) (op : Op) (h : t.state = t.arbitratedState) :
    (t.step op).1.state = (t.step op).1.arbitratedState := by
  cases hnoted : noted t op with
  | some entry => exact (step_sound t hnoted).1 h
  | none =>
    cases op with
    | respawn => rfl
    | rehash suppressed metadata => exact h
    | _ => cases hnoted

/-- The runs of a terminal. -/
abbrev Run (t : TerminalState) : Prop :=
  Reachable (fun t : TerminalState => t = .new) Admissible (fun t op => some (t.step op)) t

/-- In every reachable terminal the stored state is the arbitrated one, and every mutation that
notes the values before it reports a change exactly when the label, the state or the
presentation differ from them afterwards. -/
theorem reachable_effective {t : TerminalState} (h : Run t) :
    t.state = t.arbitratedState
      ∧ ∀ op before now, noted t op = some (before, now) →
        Reports before ((t.step op).1.previous now)
          ((t.step op).2.bind TerminalStateMutation.effectiveStateChange) := by
  refine ⟨h.invariant (fun t => t.state = t.arbitratedState) ?_ ?_, fun op before now hnoted =>
      (step_sound t hnoted).2⟩
  · rintro t rfl
    rfl
  · intro t op t' answer _ hstep hcoherent
    obtain ⟨rfl, -⟩ := Prod.mk.inj (Option.some.inj hstep)
    exact step_coherent t op hcoherent

/-- Claude is seen at work. -/
def claudeWorking : TerminalState :=
  (TerminalState.new.step (.detectedState (some .claude) .working false false 1 1)).1

theorem run_claudeWorking : Run claudeWorking :=
  .next (.detectedState (some .claude) .working false false 1 1) (.start rfl) trivial rfl

theorem reachable_effective_claudeWorking :
    claudeWorking.state = claudeWorking.arbitratedState
      ∧ Reports (claudeWorking.previous 2)
        ((claudeWorking.step (.detectedState (some .claude) .idle false false 2 2)).1.previous 2)
        ((claudeWorking.step (.detectedState (some .claude) .idle false false 2 2)).2.bind
          TerminalStateMutation.effectiveStateChange) :=
  ⟨(reachable_effective run_claudeWorking).1, (reachable_effective run_claudeWorking).2 _ _ _ rfl⟩

/-- A title for five nanoseconds. -/
def shortTitle : AgentMetadataReport where
  source := "custom"
  agentLabel := none
  appliesToSource := none
  title := some "build"
  displayAgent := none
  stateLabels := ∅
  clearTitle := false
  clearDisplayAgent := false
  clearStateLabels := false
  ttl := some 5
  seq := none

def titledForAWhile : TerminalState := (TerminalState.new.step (.agentMetadata shortTitle 1)).1

/-- A respawn takes the label and the state away and reports nothing. An expiry reports the end
of a title that was not shown any more at the time of the call. -/
theorem respawn_silent_and_expiry_late :
    (Run claudeWorking ∧ (claudeWorking.step .respawn).2.isNone = true
      ∧ claudeWorking.effectiveAgentLabel = some "claude" ∧ claudeWorking.state = .working
      ∧ (claudeWorking.step .respawn).1.effectiveAgentLabel = none
      ∧ (claudeWorking.step .respawn).1.state = .unknown)
    ∧ Run titledForAWhile
      ∧ (titledForAWhile.previous 6).agentLabel
        = ((titledForAWhile.step (.expireAgentMetadata 6 6)).1.previous 6).agentLabel
      ∧ (titledForAWhile.previous 6).state
        = ((titledForAWhile.step (.expireAgentMetadata 6 6)).1.previous 6).state
      ∧ (titledForAWhile.previous 6).presentation.same
        ((titledForAWhile.step (.expireAgentMetadata 6 6)).1.previous 6).presentation = true
      ∧ ((titledForAWhile.step (.expireAgentMetadata 6 6)).2.bind
        TerminalStateMutation.effectiveStateChange).isSome = true := by
  refine ⟨⟨run_claudeWorking, rfl, ?_, ?_, ?_, ?_⟩, ?_, ?_, ?_, ?_, ?_⟩
  · decide +kernel
  · decide +kernel
  · decide +kernel
  · decide +kernel
  · exact .next (.agentMetadata shortTitle 1) (.start rfl) trivial rfl
  · decide +kernel
  · decide +kernel
  · decide +kernel
  · decide +kernel

end Herden.Proofs.Terminal
