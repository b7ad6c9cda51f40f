import Herden.Proofs.Terminal.HookReports

/-!
# `Herden.Proofs.Terminal.HookOrder`: the order of hook reports
-/

namespace Herden.Proofs.Terminal

open Herden.Lib (HashMap Reachable)
open Herden.Runtime.Detect
open Herden.Runtime.AgentResume
open Herden.Runtime.Terminal
open Herden.Runtime.Terminal.TerminalState

/-! ### Full-lifecycle sources -/

variable {label source : String} {clock : Instant} {t : TerminalState}

/-- The agents whose integrations own their life cycle. -/
theorem exists_agentLabel_of_fullLifecycle (h : fullLifecycleHookAuthority source label = true) :
    ∃ agent, label = agentLabel agent
      ∧ agent ∈ [Agent.pi, .omp, .mastracode, .openCode, .kilo, .kimi] := by
  unfold fullLifecycleHookAuthority at h
  split at h
  · exact ⟨.pi, rfl, by decide⟩
  · exact ⟨.omp, rfl, by decide⟩
  · exact ⟨.mastracode, rfl, by decide⟩
  · exact ⟨.openCode, rfl, by decide⟩
  · exact ⟨.kilo, rfl, by decide⟩
  · exact ⟨.kimi, rfl, by decide⟩
  · cases h

theorem sessionIdentityOnlyIntegration_of_fullLifecycle
    (h : fullLifecycleHookAuthority source label = true) :
    sessionIdentityOnlyIntegration source label = false := by
  obtain ⟨agent, rfl, hmem⟩ := exists_agentLabel_of_fullLifecycle h
  unfold sessionIdentityOnlyIntegration
  split
  all_goals first
    | rfl
    | (rename_i heq; revert heq hmem; cases agent <;> decide)

/-! ### Reports of the session in place -/

/-- The report is for the source, label and session of the authority. -/
structure SameSession (report : HookReport) (authority : HookAuthority) : Prop where
  source : report.source = authority.source
  agentLabel : report.agentLabel = authority.agentLabel
  sessionRef : report.sessionRef = authority.sessionRef

section

variable {t : TerminalState} {report : HookReport} {authority : HookAuthority}

variable {sessionRef : AgentSessionRef}

/-- The authority's own session owns the terminal: its reports pass the tests of ownership and
are stored under their session. -/
theorem hookReportOwner_of_sameSession (ha : t.hookAuthority = some authority)
    (hsame : SameSession report authority) (hsession : report.sessionRef = some sessionRef)
    (hconflict : t.knownAgentLabelConflictsWithDetectedAgent report.agentLabel = false) :
    t.hookReportOwner report = some (report.sessionRef, false) := by
  have hidentity : t.currentSessionIdentityForPersistence
      = some (report.source, report.agentLabel, sessionRef.kind, sessionRef.value) := by
    simp [currentSessionIdentityForPersistence, ha, ← hsame.sessionRef, hsession, hsame.source,
      hsame.agentLabel]
  have howner : t.currentSessionOwnerConflicts report.source report.agentLabel = false := by
    simp [currentSessionOwnerConflicts, hidentity]
  have hstored : t.conflictingSameOwnerSessionRef report.source report.agentLabel sessionRef none
      = none := by
    simp [conflictingSameOwnerSessionRef, hidentity]
  have hlive : t.liveFullLifecycleHookAuthorityConflictsWithSession report.source
      report.agentLabel (some sessionRef) = false := by
    simp [liveFullLifecycleHookAuthorityConflictsWithSession, ha, ← hsame.sessionRef, hsession]
  simp [hookReportOwner, hconflict, hsession, hidentity, howner, hstored, hlive]

/-- A report of the authority's session is anchored, and no cross-talk. -/
theorem anchored_of_sameSession (ha : t.hookAuthority = some authority)
    (hsame : SameSession report authority) (hsession : report.sessionRef = some sessionRef) :
    t.sessionAnchored report = true ∧ t.opencodeCrossTalk report = false := by
  have hanchored : t.anchoredSessionRef report.source report.agentLabel = some sessionRef := by
    simp [anchoredSessionRef, ha, Option.filter, hsame.source, hsame.agentLabel,
      ← hsame.sessionRef, hsession]
  constructor
  · simp [sessionAnchored, hanchored, hsession]
  · simp [opencodeCrossTalk, hanchored, hsession]

/-- The process being there, the label agrees with the detected agent. -/
theorem not_conflicts_of_processPresent (h : t.processPresent report.agentLabel = true) :
    t.knownAgentLabelConflictsWithDetectedAgent report.agentLabel = false := by
  simp only [processPresent, Bool.and_eq_true, decide_eq_true_eq] at h
  obtain ⟨agent, hagent⟩ := Option.isSome_iff_exists.mp h.1.1
  simp [knownAgentLabelConflictsWithDetectedAgent, h.1.2, hagent]

/-- While the process is there and no record stands, a report of the authority's session is
accepted, anew when a stale session is recorded beside it. -/
theorem routeFullLifecycleHookReport_of_sameSession (now : Instant)
    (ha : t.hookAuthority = some authority) (hsame : SameSession report authority)
    (hsession : report.sessionRef = some sessionRef)
    (hfull : fullLifecycleHookAuthority report.source report.agentLabel = true)
    (hstale : t.fullLifecycleHookReportMatchesStaleSession report.source report.agentLabel
      report.sessionRef = false) (hpresent : t.processPresent report.agentLabel = true)
    (hrecord : t.suppressedFullLifecycleHookReports.get report.source = none) :
    t.routeFullLifecycleHookReport report now
      = (t, .accept (t.fullLifecycleHookReportHasFreshSessionAfterStaleSession report.source
        report.agentLabel report.sessionRef)) := by
  obtain ⟨hanchored, hcross⟩ := anchored_of_sameSession ha hsame hsession
  have hroute : t.suppressedRoute report = none := by
    simp [suppressedRoute, hrecord]
  simp [routeFullLifecycleHookReport, hfull, hstale, hcross, hroute, hpresent, hanchored,
    HashMap.containsKey, hrecord]

/-- The branch of the router that drops the source's sequence: the process is there, no record
stands, and a stale session of the source and label is recorded beside the report's. -/
def reopens (t : TerminalState) (report : HookReport) : Bool :=
  t.fullLifecycleHookReportHasFreshSessionAfterStaleSession report.source report.agentLabel
      report.sessionRef
    && t.processPresent report.agentLabel
    && !t.suppressedFullLifecycleHookReports.containsKey report.source

/-- A session that is fresh beside a stale one is not stale itself, and the source is a
full-lifecycle one. -/
theorem of_freshSession (h : t.fullLifecycleHookReportHasFreshSessionAfterStaleSession
      report.source report.agentLabel report.sessionRef = true) :
    fullLifecycleHookAuthority report.source report.agentLabel = true
      ∧ t.fullLifecycleHookReportMatchesStaleSession report.source report.agentLabel
        report.sessionRef = false
      ∧ ∃ sessionRef, report.sessionRef = some sessionRef := by
  unfold fullLifecycleHookReportHasFreshSessionAfterStaleSession at h
  unfold fullLifecycleHookReportMatchesStaleSession
  split at h
  next => cases h
  next hfull =>
    obtain ⟨stale, hstale, htest⟩ := (Option.any_eq_true _ _).mp h
    simp only [Bool.and_eq_true] at htest
    obtain ⟨sessionRef, hsession, hall⟩ := (Option.any_eq_true _ _).mp htest.2
    refine ⟨by simpa using hfull, ?_, sessionRef, hsession⟩
    rw [if_neg hfull, hstale, hsession, Option.any_some, Option.any_some]
    rw [List.any_eq_false]
    intro entry hentry
    have hentry := List.all_eq_true.mp hall entry hentry
    simp only [Bool.or_eq_true, decide_eq_true_eq] at hentry
    simp only [Bool.and_eq_true, decide_eq_true_eq, not_and]
    intro hlabel
    exact hentry.resolve_left fun hne => hne hlabel

/-- The router accepts with a new anchor only over a clear or where it reopens the gate. -/
theorem of_route_reanchor {now : Instant}
    (h : t.routeFullLifecycleHookReport report now = (t, .accept true)) :
    fullLifecycleHookAuthority report.source report.agentLabel = true
      ∧ (HookCleared (gate t) report.source ∨ reopens t report = true) := by
  unfold routeFullLifecycleHookReport at h
  split at h
  next => simp at h
  next hfull =>
    refine ⟨by simpa using hfull, ?_⟩
    split at h
    next => simp at h
    next =>
      split at h
      next => simp at h
      next =>
        split at h
        next route hroute =>
          obtain rfl : route = .accept true := (Prod.mk.inj h).2
          refine .inl ?_
          unfold suppressedRoute at hroute
          split at hroute
          next => cases hroute
          next suppressed hget =>
            split at hroute
            next => simp at hroute
            next =>
              split at hroute
              next hreason => exact ⟨suppressed, hget, hreason⟩
              next => cases hroute
        next =>
          split at h
          next hpresent =>
            have hfresh : t.fullLifecycleHookReportHasFreshSessionAfterStaleSession report.source
                report.agentLabel report.sessionRef = true := by
              simpa using h
            simp only [Bool.and_eq_true] at hpresent
            exact .inr (by simp [reopens, hfresh, hpresent.1.1, hpresent.2])
          next =>
            split at h
            next =>
              split at h
              · simp at h
              · simp at h
            next => simp at h

end

/-! ### Order within a session -/

/-- The report is turned away and leaves authority, sequences and effective state alone. -/
def Rejected (t : TerminalState) (report : HookReport) (now clock : Instant) : Prop :=
  (t.setHookAuthorityAt report now clock).2.isNone = true
    ∧ (t.setHookAuthorityAt report now clock).1.hookAuthority = t.hookAuthority
    ∧ (t.setHookAuthorityAt report now clock).1.hookReportSequences = t.hookReportSequences
    ∧ (t.setHookAuthorityAt report now clock).1.state = t.state

variable {now : Instant} {s : Observed}

/-- A report without a mutation is at most parked. -/
theorem rejected_of_isNone {report : HookReport}
    (h : (t.setHookAuthorityAt report now clock).2.isNone = true) :
    Rejected t report now clock := by
  refine ⟨h, ?_⟩
  rcases setHookAuthorityAt_cases t report now clock with
    hset | ⟨sessionRef, seq, -, -, -, hset⟩ | ⟨t', mutation, _, _, _, _, hset, -⟩
  · rw [hset]
    exact ⟨rfl, rfl, rfl⟩
  · rw [hset]
    exact ⟨rfl, rfl, rfl⟩
  · rw [hset] at h
    cases h

/-- A report that is not newer than the accepted one is turned away, except where the router
reopens the gate. -/
theorem rejected_iff_of_gateSound (h : GateSound s) {authority : HookAuthority} {n : Nat}
    (ha : s.terminal.hookAuthority = some authority) (hn : s.accepted = some n)
    {report : HookReport} (hsame : SameSession report authority)
    (hseq : ∀ seq, report.seq = some seq → seq ≤ n) (now clock : Instant) :
    Rejected s.terminal report now clock ↔ reopens s.terminal report = false := by
  obtain ⟨m, hm, hle⟩ := h.recorded authority n ha hn
  have hold : s.terminal.hookReportIsNewer report.source report.seq = false := by
    rw [← hsame.source] at hm
    have hget : s.terminal.hookReportSequences.get report.source = some m := hm
    unfold hookReportIsNewer
    cases hcase : report.seq with
    | none => simp [hget]
    | some seq =>
        have := hseq seq hcase
        simp only [hget, Option.all_some, decide_eq_false_iff_not]
        omega
  constructor
  · rintro ⟨hnone, -⟩
    refine Bool.eq_false_iff.mpr fun hreopens => ?_
    simp only [reopens, Bool.and_eq_true, Bool.not_eq_true', HashMap.containsKey] at hreopens
    obtain ⟨⟨hfresh, hpresent⟩, hrecord⟩ := hreopens
    obtain ⟨hfull, hstale, sessionRef, hsession⟩ := of_freshSession hfresh
    have hroute := routeFullLifecycleHookReport_of_sameSession now ha hsame hsession hfull hstale
      hpresent (by simpa using hrecord)
    obtain ⟨t', mutation, _, hset, -⟩ := setHookAuthorityAt_taken clock
      (sessionIdentityOnlyIntegration_of_fullLifecycle hfull) (by simp [hfull]) hroute
      (hookReportOwner_of_sameSession ha hsame hsession
        (not_conflicts_of_processPresent hpresent)) (.inl hfresh)
    rw [hset] at hnone
    cases hnone
  · intro hclosed
    rcases setHookAuthorityAt_cases s.terminal report now clock with
      hset | ⟨sessionRef, seq, -, -, -, hset⟩
      | ⟨t', mutation, sessionRef, takeover, reanchor, sequences, -, hroute, -, hnewer, -⟩
    · exact rejected_of_isNone (by rw [hset]; rfl)
    · exact rejected_of_isNone (by rw [hset]; rfl)
    · rcases hnewer with rfl | hnewer
      · obtain ⟨hfull, hcleared | hreopens⟩ := of_route_reanchor hroute
        · rw [hsame.source] at hcleared
          rw [hsame.source, hsame.agentLabel] at hfull
          exact absurd hcleared (h.uncleared authority ha hfull)
        · rw [hreopens] at hclosed
          cases hclosed
      · rw [hold] at hnewer
        cases hnewer

/-! ### Reports in any order -/

/-- The report is for one session of one source and label. -/
structure ForSession (report : HookReport) (source label : String)
    (sessionRef : AgentSessionRef) : Prop where
  source : report.source = source
  agentLabel : report.agentLabel = label
  sessionRef : report.sessionRef = some sessionRef

/-- The terminal takes the session's reports, subject to their sequence only. -/
structure Admits (t : TerminalState) (source label : String) (sessionRef : AgentSessionRef) :
    Prop where
  identity : sessionIdentityOnlyIntegration source label = false
  exit : (!fullLifecycleHookAuthority source label && t.recentAgentProcessExit.any
    (fun exit => parseAgentLabel label = some exit.agent)) = false
  conflict : t.knownAgentLabelConflictsWithDetectedAgent label = false
  authority : ∃ authority, t.hookAuthority = some authority ∧ authority.source = source
    ∧ authority.agentLabel = label ∧ authority.sessionRef = some sessionRef
  lifecycle : fullLifecycleHookAuthority source label = true →
    t.processPresent label = true
      ∧ t.suppressedFullLifecycleHookReports.get source = none
      ∧ t.fullLifecycleHookReportMatchesStaleSession source label (some sessionRef) = false
      ∧ t.fullLifecycleHookReportHasFreshSessionAfterStaleSession source label (some sessionRef)
        = false

section

variable {t : TerminalState} {source label : String} {sessionRef : AgentSessionRef}

theorem Admits.route (h : Admits t source label sessionRef) {report : HookReport}
    (hreport : ForSession report source label sessionRef) (now : Instant) :
    t.routeFullLifecycleHookReport report now = (t, .accept false)
      ∧ t.hookReportOwner report = some (some sessionRef, false) := by
  obtain ⟨rfl, rfl, hsession⟩ := hreport
  obtain ⟨authority, ha, hsource, hlabel, hauthority⟩ := h.authority
  have hsame : SameSession report authority :=
    ⟨hsource.symm, hlabel.symm, hsession.trans hauthority.symm⟩
  refine ⟨?_, hsession ▸ hookReportOwner_of_sameSession ha hsame hsession h.conflict⟩
  cases hfull : fullLifecycleHookAuthority report.source report.agentLabel with
  | false => simp [routeFullLifecycleHookReport, hfull]
  | true =>
      obtain ⟨hpresent, hrecord, hstale, hfresh⟩ := h.lifecycle hfull
      rw [routeFullLifecycleHookReport_of_sameSession now ha hsame hsession hfull
        (hsession ▸ hstale) hpresent hrecord, hsession, hfresh]

/-- An admitted report becomes the authority when it is newer, and the terminal goes on to
admit the session. An older one changes nothing. -/
theorem Admits.report (h : Admits t source label sessionRef) {report : HookReport}
    (hreport : ForSession report source label sessionRef) (now clock : Instant) :
    (t.hookReportIsNewer source report.seq = false
        ∧ t.setHookAuthorityAt report now clock = (t, none))
      ∨ (t.hookReportIsNewer source report.seq = true ∧ ∃ t' mutation,
        t.setHookAuthorityAt report now clock = (t', some mutation)
        ∧ t'.hookAuthority = some (report.authority (some sessionRef) now)
        ∧ t'.hookReportSequences.get source = report.seq
        ∧ Admits t' source label sessionRef) := by
  obtain ⟨hroute, howner⟩ := h.route hreport now
  obtain ⟨rfl, rfl, hsession⟩ := hreport
  cases hnewer : t.hookReportIsNewer report.source report.seq with
  | false =>
      refine .inl ⟨rfl, ?_⟩
      have haccept : t.acceptHookReport report.source report.seq = (t, false) := by
        simp [acceptHookReport, hnewer]
      simp only [setHookAuthorityAt, h.identity, h.exit, hroute, howner, haccept,
        Bool.false_eq_true, if_false]
  | true =>
      obtain ⟨t', mutation, sequences, hset, hget, happlied⟩ :=
        setHookAuthorityAt_taken clock h.identity h.exit hroute howner (.inr hnewer)
      refine .inr ⟨rfl, t', mutation, hset, happlied.authority, ?_, ?_⟩
      · rw [happlied.sequences]
        exact hget
      · refine ⟨h.identity, ?_, ?_, ⟨_, happlied.authority, rfl, rfl, rfl⟩, fun hfull => ?_⟩
        · rw [happlied.exit]
          exact h.exit
        · rw [knownAgentLabelConflictsWithDetectedAgent, happlied.detected]
          exact h.conflict
        · obtain ⟨hpresent, hrecord, hstale, hfresh⟩ := h.lifecycle hfull
          obtain ⟨hsuppressed, hsessions⟩ := happlied.untouched rfl (.inr hrecord)
          refine ⟨?_, ?_, ?_, ?_⟩
          · rw [processPresent, happlied.detected, happlied.exit]
            exact hpresent
          · rw [hsuppressed]
            exact hrecord
          · rw [fullLifecycleHookReportMatchesStaleSession, hsessions]
            exact hstale
          · rw [fullLifecycleHookReportHasFreshSessionAfterStaleSession, hsessions]
            exact hfresh

/-- A report arrives, at some time. -/
def arrive (t : TerminalState) (arrival : HookReport × Instant × Instant) : TerminalState :=
  (t.setHookAuthorityAt arrival.1 arrival.2.1 arrival.2.2).1

/-- Reports that are not newer than the recorded one change nothing. -/
theorem Admits.foldl_old (h : Admits t source label sessionRef) {m : Nat}
    (hm : t.hookReportSequences.get source = some m)
    (arrivals : List (HookReport × Instant × Instant))
    (harrivals : ∀ arrival ∈ arrivals, ForSession arrival.1 source label sessionRef
      ∧ ∀ seq, arrival.1.seq = some seq → seq ≤ m) :
    arrivals.foldl arrive t = t := by
  induction arrivals with
  | nil => rfl
  | cons first rest ih =>
      obtain ⟨hfirst, hseq⟩ := harrivals first (by simp)
      have hold : t.hookReportIsNewer source first.1.seq = false := by
        unfold hookReportIsNewer
        cases hcase : first.1.seq with
        | none => simp [hm]
        | some seq => simpa [hm] using hseq seq hcase
      have hset : arrive t first = t := by
        rcases h.report hfirst first.2.1 first.2.2 with ⟨-, hset⟩ | ⟨hnewer, -⟩
        · rw [arrive, hset]
        · rw [hold] at hnewer
          cases hnewer
      rw [List.foldl_cons, hset]
      exact ih fun arrival hmem => harrivals arrival (by simp [hmem])

/-- Whatever order a session's reports arrive in, the one with the highest sequence is the
authority in the end. -/
theorem Admits.foldl_arrive (h : Admits t source label sessionRef)
    {arrivals : List (HookReport × Instant × Instant)} {latest : HookReport × Instant × Instant}
    {highest : Nat} (hlatest : latest ∈ arrivals) (hhighest : latest.1.seq = some highest)
    (hnewer : t.hookReportIsNewer source (some highest) = true)
    (harrivals : ∀ arrival ∈ arrivals, ForSession arrival.1 source label sessionRef)
    (hlower : ∀ arrival ∈ arrivals, arrival = latest ∨
      ∀ seq, arrival.1.seq = some seq → seq < highest) :
    (arrivals.foldl arrive t).hookAuthority
      = some (latest.1.authority (some sessionRef) latest.2.1) := by
  induction arrivals generalizing t with
  | nil => cases hlatest
  | cons first rest ih =>
      rw [List.foldl_cons]
      have hrest : ∀ arrival ∈ rest, ForSession arrival.1 source label sessionRef :=
        fun arrival hmem => harrivals arrival (by simp [hmem])
      by_cases hfirst : first = latest
      · -- The latest report arrives: nothing after it is newer.
        subst hfirst
        rcases h.report (harrivals first (by simp)) first.2.1 first.2.2 with
          ⟨hold, -⟩ | ⟨-, t', mutation, hset, hauthority, hget, hadmits⟩
        · rw [hhighest, hnewer] at hold
          cases hold
        · have harrive : arrive t first = t' := by rw [arrive, hset]
          rw [harrive, hadmits.foldl_old (hget.trans hhighest) rest fun arrival hmem =>
            ⟨hrest arrival hmem, fun seq hseq => ?_⟩]
          · exact hauthority
          · rcases hlower arrival (by simp [hmem]) with rfl | hlt
            · rw [hhighest] at hseq
              exact Nat.le_of_eq (Option.some.inj hseq).symm
            · exact Nat.le_of_lt (hlt seq hseq)
      · have hmem : latest ∈ rest := by
          rcases List.mem_cons.mp hlatest with heq | hmem
          · exact absurd heq.symm hfirst
          · exact hmem
        have hlt := (hlower first (by simp)).resolve_left hfirst
        have hlower' : ∀ arrival ∈ rest, arrival = latest ∨
            ∀ seq, arrival.1.seq = some seq → seq < highest :=
          fun arrival hmem => hlower arrival (by simp [hmem])
        rcases h.report (harrivals first (by simp)) first.2.1 first.2.2 with
          ⟨-, hset⟩ | ⟨-, t', mutation, hset, -, hget, hadmits⟩
        · have harrive : arrive t first = t := by rw [arrive, hset]
          rw [harrive]
          exact ih h hmem hnewer hrest hlower'
        · have harrive : arrive t first = t' := by rw [arrive, hset]
          rw [harrive]
          refine ih hadmits hmem ?_ hrest hlower'
          unfold hookReportIsNewer
          rw [hget]
          cases hseq : first.1.seq with
          | none => rfl
          | some seq => simpa using hlt seq hseq

end

/-- What accepting a full-lifecycle report without a new anchor says about the terminal. -/
theorem of_route_accept {report : HookReport}
    (hfull : fullLifecycleHookAuthority report.source report.agentLabel = true)
    (h : t.routeFullLifecycleHookReport report now = (t, .accept false)) :
    t.processPresent report.agentLabel = true
      ∧ t.suppressedFullLifecycleHookReports.get report.source = none
      ∧ t.fullLifecycleHookReportMatchesStaleSession report.source report.agentLabel
        report.sessionRef = false
      ∧ t.fullLifecycleHookReportHasFreshSessionAfterStaleSession report.source report.agentLabel
        report.sessionRef = false := by
  unfold routeFullLifecycleHookReport at h
  rw [if_neg (by simp [hfull])] at h
  split at h
  next => simp at h
  next hstale =>
    split at h
    next => simp at h
    next =>
      split at h
      next route hroute =>
        obtain rfl : route = .accept false := (Prod.mk.inj h).2
        cases suppressedRoute_accept hroute
      next =>
        split at h
        next hpresent =>
          simp only [Bool.and_eq_true, Bool.not_eq_true', HashMap.containsKey] at hpresent
          exact ⟨hpresent.1.1, by simpa using hpresent.2, by simpa using hstale, by simpa using h⟩
        next =>
          split at h
          next =>
            split at h
            · simp at h
            · simp at h
          next => simp at h

/-- A terminal that takes a report of the authority's session, without reopening the gate,
admits the session. -/
theorem admits_of_taken (h : GateSound s) {authority : HookAuthority}
    (ha : s.terminal.hookAuthority = some authority) {report : HookReport}
    (hsame : SameSession report authority) {sessionRef : AgentSessionRef}
    (hsession : report.sessionRef = some sessionRef) (hclosed : reopens s.terminal report = false)
    (htaken : (s.terminal.setHookAuthorityAt report now clock).2.isSome = true) :
    Admits s.terminal report.source report.agentLabel sessionRef
      ∧ s.terminal.hookReportIsNewer report.source report.seq = true := by
  rcases setHookAuthorityAt_cases s.terminal report now clock with
    hset | ⟨_, _, -, -, -, hset⟩
    | ⟨t', mutation, _, takeover, reanchor, _, hset, hroute, howner, hnewer, -⟩
  · rw [hset] at htaken
    cases htaken
  · rw [hset] at htaken
    cases htaken
  · cases reanchor with
    | true =>
        obtain ⟨hfull, hcleared | hreopens⟩ := of_route_reanchor hroute
        · rw [hsame.source] at hcleared
          rw [hsame.source, hsame.agentLabel] at hfull
          exact absurd hcleared (h.uncleared authority ha hfull)
        · rw [hreopens] at hclosed
          cases hclosed
    | false =>
        refine ⟨⟨?_, ?_, ?_, ⟨authority, ha, hsame.source.symm, hsame.agentLabel.symm,
          hsame.sessionRef.symm.trans hsession⟩, fun hfull => ?_⟩, by simpa using hnewer⟩
        · refine Bool.eq_false_iff.mpr fun hidentity => ?_
          simp [setHookAuthorityAt, hidentity] at hset
        · refine Bool.eq_false_iff.mpr fun hexit => ?_
          simp only [setHookAuthorityAt, hexit, if_true] at hset
          split at hset
          · simp at hset
          · simp at hset
        · refine Bool.eq_false_iff.mpr fun hconflict => ?_
          simp [hookReportOwner, hconflict] at howner
        · rw [← hsession]
          exact of_route_accept hfull hroute

/-- In every run that forgets no sequence in use, a report of the authority's session that is
not newer than the accepted one is turned away exactly where the router does not reopen the
gate. There the highest sequence decides, in whatever order the session's reports arrive. -/
theorem reachable_hookOrder {s : Observed} (hs : Reachable Start Remembers observe s)
    {authority : HookAuthority} (ha : s.terminal.hookAuthority = some authority) {n : Nat}
    (hn : s.accepted = some n) :
    (∀ report now clock, SameSession report authority →
        (∀ seq, report.seq = some seq → seq ≤ n) →
        (Rejected s.terminal report now clock ↔ reopens s.terminal report = false))
      ∧ ∀ (arrivals : List (HookReport × Instant × Instant))
          (latest : HookReport × Instant × Instant)
          (highest : Nat) (sessionRef : AgentSessionRef), authority.sessionRef = some sessionRef →
        (∀ arrival ∈ arrivals, SameSession arrival.1 authority) → latest ∈ arrivals →
        latest.1.seq = some highest →
        (∀ arrival ∈ arrivals, arrival = latest ∨
          ∀ seq, arrival.1.seq = some seq → seq < highest) →
        reopens s.terminal latest.1 = false →
        (s.terminal.setHookAuthorityAt latest.1 latest.2.1 latest.2.2).2.isSome = true →
        (arrivals.foldl arrive s.terminal).hookAuthority
          = some (latest.1.authority (some sessionRef) latest.2.1) := by
  have hsound := reachable_gateSound hs
  refine ⟨fun report now clock hsame hseq =>
    rejected_iff_of_gateSound hsound ha hn hsame hseq now clock, ?_⟩
  intro arrivals latest highest sessionRef hsession hsame hlatest hhighest hlower hclosed htaken
  have hlatestSame := hsame latest hlatest
  obtain ⟨hadmits, hnewer⟩ := admits_of_taken hsound ha hlatestSame
    (hlatestSame.sessionRef.trans hsession) hclosed htaken
  refine hadmits.foldl_arrive hlatest hhighest (hhighest ▸ hnewer) (fun arrival hmem => ?_) hlower
  have harrival := hsame arrival hmem
  exact ⟨harrival.source.trans hlatestSame.source.symm,
    harrival.agentLabel.trans hlatestSame.agentLabel.symm, harrival.sessionRef.trans hsession⟩

/-! ### Runs with a replaced session -/

/-- A report of `pi` about one of its sessions. -/
def piReport (path : String) (state : AgentState) (seq : Nat) : HookReport :=
  ⟨"herden:pi", "pi", state, none, some ⟨.path, path⟩, some seq⟩

/-- `pi` starts one session and reports its work. -/
def piSession : List Op :=
  [.detectedAgentProcess .pi 1 1,
    .sessionReport ⟨"herden:pi", "pi", some ⟨.path, "/one.jsonl"⟩, some 1, some "new"⟩ 2,
    .hookReport (piReport "/one.jsonl" .working 20) 3 3]

/-- A second session replaces the first, which becomes stale, and reports its work. -/
def piReplacedSession : List Op := piSession ++
  [.sessionReport ⟨"herden:pi", "pi", some ⟨.path, "/two.jsonl"⟩, some 21, some "new"⟩ 4,
    .hookReport (piReport "/two.jsonl" .working 25) 5 5]

def runFrom (s : Observed) (ops : List Op) : Observed := ops.foldl Observed.next s

theorem reachable_runFrom {allowed : Observed → Op → Prop} (hs : Reachable Start allowed observe s)
    (ops : List Op) (hops : ∀ op ∈ ops, ∀ s, allowed s op) :
    Reachable Start allowed observe (runFrom s ops) := by
  induction ops generalizing s with
  | nil => exact hs
  | cons op rest ih =>
      refine ih (.next op hs (hops op (by simp) s) rfl) fun other hmem => ?_
      exact hops other (by simp [hmem])

/-- In the first session a repeated report is turned away, and of three more reports the one
with the highest sequence stays, though it is not the last to arrive. -/
theorem reachable_hookOrder_pi :
    let s := runFrom ⟨.new, none⟩ piSession
    Rejected s.terminal (piReport "/one.jsonl" .idle 20) 6 6
      ∧ ([(piReport "/one.jsonl" .idle 21, 7, 7), (piReport "/one.jsonl" .blocked 23, 8, 8),
          (piReport "/one.jsonl" .working 22, 9, 9)].foldl arrive s.terminal).hookAuthority
        = some ((piReport "/one.jsonl" .blocked 23).authority (some ⟨.path, "/one.jsonl"⟩) 8) := by
  intro s
  have hstart : Reachable Start Remembers observe ⟨.new, none⟩ := .start rfl
  have hfirst : Reachable Start Remembers observe (runFrom ⟨.new, none⟩ (piSession.take 2)) := by
    refine .next
      (.sessionReport ⟨"herden:pi", "pi", some ⟨.path, "/one.jsonl"⟩, some 1, some "new"⟩ 2)
      (.next (.detectedAgentProcess .pi 1 1) hstart ⟨trivial, fun authority ha => ?_⟩ rfl)
      ⟨trivial, fun authority ha => ?_⟩ rfl
    · cases ha
    · have hnone : ((⟨.new, none⟩ : Observed).next
          (.detectedAgentProcess .pi 1 1)).terminal.hookAuthority = none := by decide +kernel
      rw [hnone] at ha
      cases ha
  have hs : Reachable Start Remembers observe s :=
    .next (.hookReport (piReport "/one.jsonl" .working 20) 3 3) hfirst
      ⟨trivial, fun _ _ h => h⟩ rfl
  have ha : s.terminal.hookAuthority
      = some ((piReport "/one.jsonl" .working 20).authority (some ⟨.path, "/one.jsonl"⟩) 3) := by
    decide +kernel
  have hn : s.accepted = some 20 := by decide +kernel
  obtain ⟨hrejected, horder⟩ := reachable_hookOrder hs ha hn
  constructor
  · refine (hrejected _ 6 6 ⟨rfl, rfl, rfl⟩ fun seq hseq => ?_).mpr (by decide +kernel)
    exact Nat.le_of_eq (Option.some.inj hseq).symm
  · refine horder _ (piReport "/one.jsonl" .blocked 23, 8, 8) 23 _ rfl ?_ (by simp) rfl ?_
      (by decide +kernel) (by decide +kernel)
    · intro arrival hmem
      simp only [List.mem_cons, List.not_mem_nil, or_false] at hmem
      rcases hmem with rfl | rfl | rfl
      · exact ⟨rfl, rfl, rfl⟩
      · exact ⟨rfl, rfl, rfl⟩
      · exact ⟨rfl, rfl, rfl⟩
    · intro arrival hmem
      simp only [List.mem_cons, List.not_mem_nil, or_false] at hmem
      rcases hmem with rfl | rfl | rfl
      · exact .inr fun seq hseq => by simp [piReport] at hseq; omega
      · exact .inl rfl
      · exact .inr fun seq hseq => by simp [piReport] at hseq; omega

/-- After a session was replaced, an older report of the new session is taken: it becomes the
authority and the effective state, and the recorded sequence goes back. -/
theorem older_report_taken_after_replacement :
    ∃ s, Reachable Start (fun s op => s.terminal.Admissible op) observe s
      ∧ s.accepted = some 25
      ∧ (∃ authority, s.terminal.hookAuthority = some authority
        ∧ SameSession (piReport "/two.jsonl" .idle 24) authority)
      ∧ ¬ Rejected s.terminal (piReport "/two.jsonl" .idle 24) 6 6
      ∧ (s.terminal.setHookAuthorityAt (piReport "/two.jsonl" .idle 24) 6 6).1.state = .idle
      ∧ (s.terminal.setHookAuthorityAt (piReport "/two.jsonl" .idle 24) 6
          6).1.hookReportSequences.get "herden:pi" = some 24 := by
  refine ⟨runFrom ⟨.new, none⟩ piReplacedSession, reachable_runFrom (.start rfl) _ ?_,
    by decide +kernel,
        ⟨(piReport "/two.jsonl" .working 25).authority (some ⟨.path, "/two.jsonl"⟩) 5,
      by decide +kernel, ⟨rfl, rfl, rfl⟩⟩, ?_, by decide +kernel, by decide +kernel⟩
  · intro op hmem s
    simp only [piReplacedSession, piSession, List.cons_append, List.nil_append, List.mem_cons,
      List.not_mem_nil, or_false] at hmem
    rcases hmem with rfl | rfl | rfl | rfl | rfl <;> trivial
  · rintro ⟨hnone, -⟩
    revert hnone
    decide +kernel

end Herden.Proofs.Terminal
