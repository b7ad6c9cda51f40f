import Herden.Proofs.Terminal.Effective

/-!
# `Herden.Proofs.Terminal.ExitGate`: reports do not bring an exited agent back

After the exit of an agent's process was observed, reports of the generation that exited may
still arrive: life-cycle reports, session reports, metadata, clears and releases, in any order
and from any source. None of them makes the terminal show the agent again, until a running agent
is detected.

The invariant is `Gone`. The exit stays recorded, and the authority in place, if it is one of
the agent's, belongs to a full-lifecycle source, which is not effective while an exit is
recorded. Other sources of the agent are turned away at the door.
-/

namespace Herden.Proofs.Terminal

open Herden.Lib (HashMap)
open Herden.Runtime.Detect
open Herden.Runtime.AgentResume
open Herden.Runtime.Terminal
open Herden.Runtime.Terminal.TerminalState

/-! ### The exit stays recorded -/

/-- The recorded exit is still there, and no authority came. -/
structure Quiets (t t' : TerminalState) : Prop where
  exit : t'.recentAgentProcessExit = t.recentAgentProcessExit
  authority : t'.hookAuthority = t.hookAuthority ∨ t'.hookAuthority = none

variable {t t' : TerminalState}

theorem Quiets.of_view (h : view t' = view t) : Quiets t t' :=
  ⟨congrArg View.exit h, .inl (congrArg View.authority h)⟩

variable {u : TerminalState}

theorem Quiets.trans (h : Quiets t u) (h' : Quiets u t') : Quiets t t' := by
  refine ⟨h'.exit.trans h.exit, ?_⟩
  rcases h'.authority with hkept | hnone
  · rw [hkept]
    exact h.authority
  · exact .inr hnone

/-- The authority ended. -/
theorem Quiets.of_none (hexit : still t' = still t) (hnone : t'.hookAuthority = none) :
    Quiets t t' :=
  ⟨congrArg Prod.snd hexit, .inr hnone⟩

theorem Quiets.recompute (h : Quiets t u) (before : Previous) (now : Instant) :
    Quiets t (u.recomputeEffectiveState before now).1 := by
  obtain ⟨metadata, state, heq⟩ := recomputeEffectiveState_frame u before now
  rw [heq]
  exact ⟨h.exit, h.authority⟩

section

variable (t : TerminalState)

theorem endReplacedAuthority_quiets (source label : String) (sessionRef : AgentSessionRef)
    (replaced : Option AgentSessionRef) (replacementAllowed takeoverAllowed : Bool)
    (clock : Instant) :
    Quiets t (t.endReplacedAuthority source label sessionRef replaced replacementAllowed
      takeoverAllowed clock) := by
  refine ⟨congrArg Prod.snd (still_endReplacedAuthority t source label sessionRef replaced
    replacementAllowed takeoverAllowed clock), ?_⟩
  unfold endReplacedAuthority
  dsimp only
  generalize hfirst : (if integrationIs source label "codex" "codex" && replacementAllowed
      && t.hookAuthority.any (fun authority => authority.source = source
        && authority.agentLabel = label && authority.sessionRef ≠ some sessionRef) then
    { t with hookAuthority := none } else t) = u
  have hu : u.hookAuthority = t.hookAuthority ∨ u.hookAuthority = none := by
    rw [← hfirst]
    split
    · exact .inr rfl
    · exact .inl rfl
  cases replaced with
  | some replaced => exact .inr rfl
  | none =>
    dsimp only
    split
    · exact .inr rfl
    · split
      · obtain ⟨stale, hstale⟩ := forgetStaleFullLifecycleHookSession_eq u source label sessionRef
        rw [hstale]
        exact hu
      · exact hu

theorem applySessionReport_quiets (source label : String) (sessionRef : AgentSessionRef)
    (replaced : Option AgentSessionRef) (replacementAllowed takeoverAllowed : Bool)
    (clock : Instant) :
    Quiets t (t.applySessionReport source label sessionRef replaced replacementAllowed
      takeoverAllowed clock).1 := by
  have hended := endReplacedAuthority_quiets t source label sessionRef replaced
    replacementAllowed takeoverAllowed clock
  unfold applySessionReport
  dsimp only
  apply Quiets.recompute
  obtain ⟨name, owner, hname⟩ := reconcileAgentNameOwner_eq (t.endReplacedAuthority source label
    sessionRef replaced replacementAllowed takeoverAllowed clock) label (some sessionRef)
  rw [hname]
  exact ⟨hended.exit, hended.authority⟩

/-- While an exit is recorded no process is seen, so a session start is only parked. -/
theorem startFullLifecycleSession_quiets (report : SessionReport) (sessionRef : AgentSessionRef)
    (clock : Instant) (hexit : t.recentAgentProcessExit.isSome = true) :
    Quiets t (t.startFullLifecycleSession report sessionRef clock).1 := by
  have habsent : t.processPresent report.agentLabel = false := by
    unfold processPresent
    rw [Option.isNone_eq_false_iff.mpr hexit]
    simp
  unfold startFullLifecycleSession
  dsimp only
  split
  · exact .of_view rfl
  · split
    · exact .of_view rfl
    · split
      · exact .of_view rfl
      · rw [habsent]
        exact .of_view rfl

theorem setAgentSessionRefForSessionStart_quiets (report : SessionReport) (clock : Instant)
    (hexit : t.recentAgentProcessExit.isSome = true) :
    Quiets t (t.setAgentSessionRefForSessionStart report clock).1 := by
  unfold setAgentSessionRefForSessionStart
  split
  · exact .of_view rfl
  next sessionRef hsession =>
    dsimp only
    split
    · exact .of_view rfl
    · generalize hselected : (if isUnsequencedOpencodeSelection report.source report.agentLabel
          report.sessionStartSource report.seq && t.processPresent report.agentLabel then
        { t with
          suppressedFullLifecycleHookReports :=
            t.suppressedFullLifecycleHookReports.remove report.source } else t) = u
      have hu : view u = view t := by
        rw [← hselected]
        split
        · rfl
        · rfl
      have hexit' : u.recentAgentProcessExit.isSome = true := by
        rw [show u.recentAgentProcessExit = t.recentAgentProcessExit from congrArg View.exit hu]
        exact hexit
      split
      · exact (Quiets.of_view hu).trans
          (startFullLifecycleSession_quiets u report sessionRef clock hexit')
      · generalize haccept : (if isUnsequencedOpencodeSelection report.source report.agentLabel
          report.sessionStartSource report.seq then (u, true)
          else u.acceptHookReport report.source report.seq) = accepted
        have haccepted : view accepted.1 = view t := by
          rw [← haccept]
          split
          · exact hu
          · exact (view_acceptHookReport u _ _).trans hu
        split
        · exact .of_view haccepted
        · split
          · exact .of_view haccepted
          · exact (Quiets.of_view haccepted).trans (applySessionReport_quiets accepted.1 _ _ _ _ _ _
              clock)

theorem clearHookAuthorityWithMutation_quiets (source : Option String) (seq : Option Nat)
    (clock : Instant) : Quiets t (t.clearHookAuthorityWithMutation source seq clock).1 := by
  unfold clearHookAuthorityWithMutation
  split
  · exact .of_view rfl
  next authority _ =>
    split
    · exact .of_view rfl
    · dsimp only
      have hview := view_acceptHookReport t (source.getD authority.source) seq
      split
      next u haccept =>
        rw [haccept] at hview
        exact .of_view hview
      next u haccept =>
        rw [haccept] at hview
        apply (Quiets.of_view hview).trans
        apply Quiets.recompute
        obtain ⟨resume, revision, hresume⟩ := forgetReportedResumeOf_eq
          { u.suppressCurrentFullLifecycleHookAuthority .hookClear clock with
            hookAuthority := none } authority.source authority.agentLabel
        rw [hresume]
        exact .of_none (still_suppressCurrentFullLifecycleHookAuthority u .hookClear clock) rfl

theorem releaseAgentWithMutation_quiets (source label : String) (seq : Option Nat)
    (clock : Instant) : Quiets t (t.releaseAgentWithMutation source label seq clock).1 := by
  unfold releaseAgentWithMutation
  split
  · exact .of_view rfl
  · dsimp only
    split
    · exact .of_view rfl
    · have hview := view_acceptHookReport t source seq
      split
      next u haccept =>
        rw [haccept] at hview
        exact .of_view hview
      next u haccept =>
        rw [haccept] at hview
        apply (Quiets.of_view hview).trans
        apply Quiets.recompute
        refine .of_none (still_dropReleasedAgent u source label _ _ clock) ?_
        unfold dropReleasedAgent
        dsimp only
        obtain ⟨resume, revision, hresume⟩ := forgetReportedResumeOf_eq _ source label
        rw [hresume]

theorem clearSelfReportedAgent_quiets (observedAt clock : Instant) :
    Quiets t (t.clearSelfReportedAgent observedAt clock).1 := by
  unfold clearSelfReportedAgent
  split
  · exact .of_view rfl
  · dsimp only
    apply Quiets.recompute
    obtain ⟨resume, revision, hresume⟩ := setReportedResume_eq { t with hookAuthority := none } none
    rw [hresume]
    exact ⟨rfl, .inr rfl⟩

theorem setAgentMetadata_quiets (report : AgentMetadataReport) (clock : Instant) :
    Quiets t (t.setAgentMetadata report clock).1 := by
  unfold setAgentMetadata
  split
  · exact .of_view rfl
  · dsimp only
    have hview := view_acceptMetadataReport t report.source report.seq false
      (metadataReportAgent report.source report.agentLabel report.appliesToSource)
    split
    next u _ haccept =>
      rw [haccept] at hview
      exact .of_view hview
    next u haccept =>
      rw [haccept] at hview
      exact .of_view hview
    next u haccept =>
      rw [haccept] at hview
      apply (Quiets.of_view hview).trans
      have hstored := Quiets.recompute (t := u)
        (u := (u.dropExpiredMetadata report.source clock).storeMetadata report clock)
        ⟨rfl, .inl rfl⟩ ((u.dropExpiredMetadata report.source clock).previous clock) clock
      split
      · exact ⟨hstored.exit, hstored.authority⟩
      · exact hstored

theorem expireAgentMetadataAt_quiets (scheduledDeadline now : Instant) :
    Quiets t (t.expireAgentMetadataAt scheduledDeadline now).1 := by
  unfold expireAgentMetadataAt
  dsimp only
  split
  · exact ⟨rfl, .inl rfl⟩
  · apply Quiets.recompute
    exact ⟨rfl, .inl rfl⟩

/-! ### Detections of no agent -/

theorem applyProcessExit_quiets (agent : Option Agent) (newer : Bool) (now : Instant) :
    Quiets t (t.applyProcessExit agent newer now) := by
  refine ⟨congrArg Prod.snd (still_applyProcessExit t agent newer now), ?_⟩
  have hrenew := (gate_renewSuppressions t agent now).1
  have hofficial := (gate_suppressOfficialSession (t.renewSuppressions agent now) agent now).1
  generalize hu : (t.renewSuppressions agent now).suppressOfficialSession agent now = u at *
  have hmetadata : gate (t.applyProcessExit agent newer now)
      = gate (u.endAgentAuthority agent newer) := by
    unfold applyProcessExit
    dsimp only
    rw [hu]
    cases agent with
    | none => exact gate_endAgentSession _ _ _
    | some agent => exact gate_endAgentSession _ _ _
  have hauthority : (t.applyProcessExit agent newer now).hookAuthority
      = (u.endAgentAuthority agent newer).hookAuthority := congrArg Gate.authority hmetadata
  rw [hauthority]
  rcases (endAgentAuthority_cases u agent newer).2 with hnone | ⟨hsame, -⟩
  · exact .inr hnone
  · rw [hsame]
    exact .inl (hofficial.trans hrenew)

theorem dropConflictingAuthority_quiets (previousDetectedAgent agent : Option Agent)
    (now clock : Instant) :
    Quiets t (t.dropConflictingAuthority previousDetectedAgent agent now clock) := by
  refine ⟨congrArg Prod.snd (still_dropConflictingAuthority t previousDetectedAgent agent now
    clock), ?_⟩
  rcases dropConflictingAuthority_mutates t previousDetectedAgent agent now clock with
    hsame | ⟨hnone, -⟩
  · exact .inl (congrArg Gate.authority hsame)
  · exact .inr hnone

theorem clearAgentName_quiets (h : Prop) [Decidable h] :
    Quiets t (if h then t.clearAgentName else t) := by
  split
  · exact ⟨rfl, .inl rfl⟩
  · exact .of_view rfl

theorem applyDetection_none_quiets (fallbackState : AgentState)
    (visibleBlocker processExited : Bool) (now clock : Instant) :
    Quiets t (t.applyDetection none fallbackState visibleBlocker processExited now clock) := by
  unfold applyDetection
  dsimp only
  apply Quiets.trans _ (clearAgentName_quiets _ _)
  apply Quiets.trans _ (dropConflictingAuthority_quiets _ _ _ _ _)
  -- With no agent seen nothing is adopted and the recorded exit stays.
  cases processExited with
  | true =>
    simp only [Bool.not_true, Bool.false_eq_true, if_false, if_true]
    apply Quiets.trans _ (applyProcessExit_quiets _ _ _ _)
    exact ⟨rfl, .inl rfl⟩
  | false => exact ⟨rfl, .inl rfl⟩

theorem setDetectedStateWithScreenSignalsAt_none_quiets (fallbackState : AgentState)
    (visibleBlocker processExited : Bool) (now clock : Instant) :
    Quiets t (t.setDetectedStateWithScreenSignalsAt none fallbackState visibleBlocker processExited
      now clock).1 := by
  unfold setDetectedStateWithScreenSignalsAt
  dsimp only
  split
  · apply Quiets.recompute
    split
    · exact ⟨rfl, .inl rfl⟩
    · exact .of_view rfl
  · split
    · exact Quiets.recompute (.of_view rfl) _ _
    · have h := (applyDetection_none_quiets t fallbackState visibleBlocker processExited now
        clock).recompute (t.previous now) now
      exact ⟨h.exit, h.authority⟩

end

/-! ### The gate -/

/-- The agent exited and nothing that shows it is in place. -/
structure Gone (agent : Agent) (t : TerminalState) : Prop where
  exit : ∃ observedAt, t.recentAgentProcessExit = some ⟨agent, observedAt⟩
  authority : ∀ authority, t.hookAuthority = some authority →
    parseAgentLabel authority.agentLabel = some agent →
    fullLifecycleHookAuthority authority.source authority.agentLabel = true

section

variable {agent : Agent} {t t' : TerminalState}

/-- The terminal does not show the agent. -/
theorem Gone.effectiveKnownAgent_ne (h : Gone agent t) : t.effectiveKnownAgent ≠ some agent := by
  obtain ⟨observedAt, hexit⟩ := h.exit
  unfold effectiveKnownAgent effectiveAgentLabel
  rw [hexit, Option.isNone_some, if_neg Bool.false_ne_true, Option.or_none]
  intro hknown
  obtain ⟨label, hlabel, hparse⟩ := Option.bind_eq_some_iff.mp hknown
  obtain ⟨authority, hauthority, rfl⟩ := Option.map_eq_some_iff.mp hlabel
  obtain ⟨hauthority, heffective⟩ := Option.filter_eq_some_iff.mp hauthority
  -- The authority is of a full-lifecycle source, and an exit is recorded.
  unfold hookAuthorityIsEffective at heffective
  rw [h.authority authority hauthority hparse, hparse, hexit] at heffective
  simp at heffective

theorem Gone.quiets (h : Gone agent t) (hquiets : Quiets t t') : Gone agent t' := by
  refine ⟨by rw [hquiets.exit]; exact h.exit, fun authority hauthority => ?_⟩
  rcases hquiets.authority with hkept | hnone
  · exact h.authority authority (hkept.symm.trans hauthority)
  · rw [hnone] at hauthority
    cases hauthority

/-- A hook report that is taken comes from a full-lifecycle source or names another agent. -/
theorem Gone.hookReport (h : Gone agent t) (report : HookReport) (now clock : Instant) :
    Gone agent (t.setHookAuthorityAt report now clock).1 := by
  rcases setHookAuthorityAt_cases t report now clock with
    hsame | ⟨sessionRef, seq, -, -, -, hparked⟩
      | ⟨t', mutation, sessionRef, takeover, reanchor, sequences, hset, -, -, -, -, -, happlied⟩
  · rw [hsame]
    exact h
  · rw [hparked]
    exact h.quiets (.of_view rfl)
  · rw [hset]
    refine ⟨by rw [happlied.exit]; exact h.exit, ?_⟩
    intro authority hauthority hparse
    rw [happlied.authority] at hauthority
    obtain rfl := Option.some.inj hauthority
    -- Any other source of the agent was turned away.
    cases hfull : fullLifecycleHookAuthority report.source report.agentLabel with
    | true => exact hfull
    | false =>
      obtain ⟨observedAt, hexit⟩ := h.exit
      have hparse : parseAgentLabel report.agentLabel = some agent := hparse
      have haway : t.setHookAuthorityAt report now clock = (t, none) := by
        unfold setHookAuthorityAt
        rw [hfull, hexit]
        simp [hparse]
      rw [haway] at hset
      cases hset

/-- A process exit of the agent that finds no newer custom authority for it. -/
theorem gone_of_exit {fallbackState : AgentState} {visibleBlocker : Bool} {now clock : Instant}
    (hnewer : t.newerCustomAuthority (some agent) now = false) :
    Gone agent (t.setDetectedStateWithScreenSignalsAt (some agent) fallbackState visibleBlocker
      true now clock).1 := by
  have hexit := congrArg Prod.snd
    (still_applyDetection t (some agent) fallbackState visibleBlocker true now clock)
  -- The authority after the exit, unless it gave way to the detection.
  have hauthority : ∀ authority,
      (t.applyDetection (some agent) fallbackState visibleBlocker true now clock).hookAuthority
        = some authority → parseAgentLabel authority.agentLabel ≠ some agent := by
    intro authority hauthority hparse
    unfold applyDetection at hauthority
    dsimp only at hauthority
    simp only [Bool.not_true, Bool.false_eq_true, if_false, if_true, Bool.true_and, hnewer,
      Option.isNone_some, Bool.false_and] at hauthority
    generalize (t.noteDetectedAgent (some agent) fallbackState true).noteFallback (some agent)
      fallbackState visibleBlocker true now = u at hauthority
    rcases (dropConflictingAuthority_quiets (u.applyProcessExit (some agent) false now)
      t.detectedAgent (some agent) now clock).authority with hkept | hnone
    · rw [hkept] at hauthority
      have hmetadata : (u.applyProcessExit (some agent) false now).hookAuthority
          = (((u.renewSuppressions (some agent) now).suppressOfficialSession (some agent)
            now).endAgentAuthority (some agent) false).hookAuthority :=
        congrArg Gate.authority (gate_endAgentSession _ (some agent) false)
      rw [hmetadata] at hauthority
      rcases (endAgentAuthority_cases ((u.renewSuppressions (some agent)
        now).suppressOfficialSession (some agent) now) (some agent) false).2 with
          hnone | ⟨hsame, hnewer⟩
      · rw [show TerminalState.hookAuthority _ = none from hnone] at hauthority
        cases hauthority
      · rw [hsame] at hauthority
        cases hnewer authority hauthority hparse
    · rw [hnone] at hauthority
      cases hauthority
  have hoverride : t.shouldIgnoreDetectedStateUnderFullLifecycleHook (some agent) true = false := by
    unfold shouldIgnoreDetectedStateUnderFullLifecycleHook
    simp
  unfold setDetectedStateWithScreenSignalsAt
  dsimp only
  rw [hoverride, if_neg Bool.false_ne_true, if_neg (by simp)]
  have hquiets : Quiets
      (t.applyDetection (some agent) fallbackState visibleBlocker true now clock)
      ((t.applyDetection (some agent) fallbackState visibleBlocker true now
        clock).recomputeEffectiveState (t.previous now) now).1 := by
    apply Quiets.recompute
    exact .of_view rfl
  refine ⟨⟨now, hquiets.exit.trans hexit⟩, fun authority hafter hparse => ?_⟩
  have hafter : ((t.applyDetection (some agent) fallbackState visibleBlocker true now
      clock).recomputeEffectiveState (t.previous now) now).1.hookAuthority
          = some authority := hafter
  rcases hquiets.authority with hkept | hnone
  · exact absurd hparse (hauthority authority (hkept.symm.trans hafter))
  · rw [hnone] at hafter
    cases hafter

end

/-- What may come before a running agent is detected again: every kind of report, clears,
releases, expiry, and looks at the screen that find no agent. -/
def Late : Op → Prop
  | .detectedState agent _ _ _ _ _ => agent = none
  | .detectedAgentProcess _ _ _ => False
  | .respawn => False
  | _ => True

theorem Gone.step {agent : Agent} {t : TerminalState} (h : Gone agent t) {op : Op}
    (hop : Late op) : Gone agent (t.step op).1 := by
  have hexit : t.recentAgentProcessExit.isSome = true := by
    obtain ⟨observedAt, hexit⟩ := h.exit
    rw [hexit]
    rfl
  cases op with
  | detectedState agent fallbackState visibleBlocker processExited now clock =>
    obtain rfl : agent = none := hop
    exact h.quiets (setDetectedStateWithScreenSignalsAt_none_quiets t fallbackState visibleBlocker
      processExited now clock)
  | detectedAgentProcess agent now clock => exact hop.elim
  | hookReport report now clock => exact h.hookReport report now clock
  | sessionReport report clock =>
    exact h.quiets (setAgentSessionRefForSessionStart_quiets t report clock hexit)
  | clearHookAuthority source seq clock =>
    exact h.quiets (clearHookAuthorityWithMutation_quiets t source seq clock)
  | releaseAgent source label seq clock =>
    exact h.quiets (releaseAgentWithMutation_quiets t source label seq clock)
  | clearSelfReportedAgent observedAt clock =>
    exact h.quiets (clearSelfReportedAgent_quiets t observedAt clock)
  | agentMetadata report clock => exact h.quiets (setAgentMetadata_quiets t report clock)
  | expireAgentMetadata scheduledDeadline now =>
    exact h.quiets (expireAgentMetadataAt_quiets t scheduledDeadline now)
  | respawn => exact hop.elim
  | rehash suppressed metadata => exact h.quiets ⟨rfl, .inl rfl⟩

/-- The terminal after some mutations. -/
def after (t : TerminalState) (ops : List Op) : TerminalState :=
  ops.foldl (fun t op => (t.step op).1) t

theorem Gone.after {agent : Agent} (h : Gone agent t) {ops : List Op} (hops : ∀ op ∈ ops, Late op) :
    Gone agent (after t ops) := by
  induction ops generalizing t with
  | nil => exact h
  | cons op rest ih =>
    exact ih (h.step (hops op (by simp))) fun other hmem => hops other (by simp [hmem])

/-- After a process exit of the agent that finds no newer custom authority for it, no sequence
of reports, clears and releases makes the agent the effective one. -/
theorem exit_gate {agent : Agent} {t : TerminalState} {fallbackState : AgentState}
    {visibleBlocker : Bool} {now clock : Instant}
    (hnewer : t.newerCustomAuthority (some agent) now = false) {ops : List Op}
    (hops : ∀ op ∈ ops, Late op) :
    (after (t.step (.detectedState (some agent) fallbackState visibleBlocker true now clock)).1
      ops).effectiveKnownAgent ≠ some agent :=
  ((gone_of_exit hnewer).after hops).effectiveKnownAgent_ne

/-- Claude exits at work, and a custom reporter and the session's own hook still report. -/
theorem exit_gate_claude :
    claudeWorking.newerCustomAuthority (some .claude) 2 = false
      ∧ (after (claudeWorking.step (.detectedState (some .claude) .unknown false true 2 2)).1
        [.hookReport ⟨"custom", "claude", .working, none, none, none⟩ 3 3,
          .sessionReport ⟨"herden:claude", "claude", some ⟨.id, "session"⟩, some 7,
            some "startup"⟩ 4,
          .hookReport ⟨"herden:claude", "claude", .working, none, some ⟨.id, "session"⟩,
            some 8⟩ 5 5]).effectiveKnownAgent ≠ some .claude := by
  refine ⟨by decide +kernel, exit_gate (by decide +kernel) ?_⟩
  intro op hmem
  simp only [List.mem_cons, List.not_mem_nil, or_false] at hmem
  rcases hmem with rfl | rfl | rfl
  · trivial
  · trivial
  · trivial

end Herden.Proofs.Terminal
