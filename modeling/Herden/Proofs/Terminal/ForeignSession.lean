import Herden.Proofs.Terminal.HookOrder

/-!
# `Herden.Proofs.Terminal.ForeignSession`: reports of another session

While a full-lifecycle integration owns the terminal, a report of the same integration for
another session is turned away. It can leave a trace all the same: the router parks it, in a
suppression record of the source, for the case that its session replaces the live one. That
record is read by the router for every later report of the source, those of the live session
included.

`foreign_reports_silence_iff` says when the live session goes on to be heard after any number
of such reports: exactly when none of them was parked and the live session itself is not
recorded as stale.
-/

namespace Herden.Proofs.Terminal

open Herden.Lib (HashMap Reachable)
open Herden.Runtime.Detect
open Herden.Runtime.AgentResume
open Herden.Runtime.Terminal
open Herden.Runtime.Terminal.TerminalState

/-! ### The live session -/

/-- An effective full-lifecycle authority for a session. -/
structure Live (t : TerminalState) (authority : HookAuthority) (sessionRef : AgentSessionRef) :
    Prop where
  current : t.hookAuthority = some authority
  session : authority.sessionRef = some sessionRef
  lifecycle : fullLifecycleHookAuthority authority.source authority.agentLabel = true
  effective : t.hookAuthorityIsEffective authority = true

/-- A report of the authority's source and label for another session. -/
structure Foreign (report : HookReport) (authority : HookAuthority) : Prop where
  source : report.source = authority.source
  agentLabel : report.agentLabel = authority.agentLabel
  session : ∃ sessionRef, report.sessionRef = some sessionRef
    ∧ authority.sessionRef ≠ some sessionRef

/-- The router parks a foreign report: its session is not stale, it is not the cross-talk that
`opencode` is known for, and it has a later sequence than the recorded one. -/
def parks (t : TerminalState) (report : HookReport) : Bool :=
  !t.fullLifecycleHookReportMatchesStaleSession report.source report.agentLabel report.sessionRef
    && !t.opencodeCrossTalk report
    && report.seq.any fun seq =>
      (t.hookReportSequences.get report.source).all fun previous => previous < seq

/-- The report is taken: it becomes the authority and decides the effective state. -/
def Taken (t : TerminalState) (report : HookReport) (now clock : Instant) : Prop :=
  (t.setHookAuthorityAt report now clock).2.isSome = true
    ∧ (t.setHookAuthorityAt report now clock).1.hookAuthority
      = some (report.authority report.sessionRef now)
    ∧ (t.setHookAuthorityAt report now clock).1.state = report.state

section

variable {t : TerminalState} {authority : HookAuthority} {sessionRef : AgentSessionRef}
  {report : HookReport}

/-- An effective full-lifecycle authority has its process in the terminal. -/
theorem Live.processPresent (h : Live t authority sessionRef) :
    t.processPresent authority.agentLabel = true := by
  obtain ⟨agent, hlabel, -⟩ := exists_agentLabel_of_fullLifecycle h.lifecycle
  have heffective := h.effective
  rw [hookAuthorityIsEffective, h.lifecycle, hlabel, parseAgentLabel_agentLabel] at heffective
  rw [TerminalState.processPresent, hlabel, parseAgentLabel_agentLabel]
  simpa using heffective

/-- The foreign report is not for the anchored session. -/
theorem Live.not_anchored (h : Live t authority sessionRef) (hreport : Foreign report authority) :
    t.sessionAnchored report = false := by
  obtain ⟨incoming, hincoming, hne⟩ := hreport.session
  rw [h.session] at hne
  have hanchored : t.anchoredSessionRef report.source report.agentLabel = some sessionRef := by
    simp [anchoredSessionRef, h.current, Option.filter, hreport.source, hreport.agentLabel,
      h.session]
  simp [sessionAnchored, hanchored, hincoming]
  exact fun heq => hne (by rw [heq])

/-- No record stands in the way of the source's reports, or one of an exit. -/
def Unblocked (t : TerminalState) (authority : HookAuthority) : Prop :=
  ∀ record, t.suppressedFullLifecycleHookReports.get authority.source = some record →
    record.agentLabel = authority.agentLabel ∧ record.reason = .processExit

theorem Unblocked.suppressedRoute (h : Unblocked t authority)
    (hsource : report.source = authority.source)
    (hlabel : report.agentLabel = authority.agentLabel) : t.suppressedRoute report = none := by
  unfold TerminalState.suppressedRoute
  split
  next => rfl
  next record hget =>
    rw [hsource] at hget
    obtain ⟨hrecord, hreason⟩ := h record hget
    simp [hrecord, hlabel, hreason]

/-- A report the router holds back is parked, or without effect. -/
theorem routeFullLifecycleHookReport_held
    (hfull : fullLifecycleHookAuthority report.source report.agentLabel = true)
    (hroute : t.suppressedRoute report = none)
    (hheld : (t.processPresent report.agentLabel && t.sessionAnchored report
      && !t.suppressedFullLifecycleHookReports.containsKey report.source) = false)
    (hsession : report.sessionRef = some sessionRef) (now : Instant) :
    (parks t report = false ∧ t.routeFullLifecycleHookReport report now = (t, .ignore))
      ∨ parks t report = true ∧ ∃ seq, t.routeFullLifecycleHookReport report now
        = (t.parkFullLifecycleHookReport report sessionRef seq now, .ignore) := by
  unfold routeFullLifecycleHookReport parks
  simp only [hfull, hroute, hheld, hsession, Bool.not_true, Bool.false_eq_true, if_false]
  cases hstale : t.fullLifecycleHookReportMatchesStaleSession report.source report.agentLabel
      (some sessionRef) with
  | true => exact .inl ⟨rfl, rfl⟩
  | false =>
    cases hcross : t.opencodeCrossTalk report with
    | true => exact .inl ⟨rfl, rfl⟩
    | false =>
      cases hseq : report.seq with
      | none => exact .inl ⟨rfl, rfl⟩
      | some seq =>
        cases hget : t.hookReportSequences.get report.source with
        | none => exact .inr ⟨rfl, seq, rfl⟩
        | some previous =>
          by_cases hle : seq ≤ previous
          · exact .inl ⟨by simpa using hle, by simp [hle]⟩
          · exact .inr ⟨by simpa using hle, seq, by simp [hle]⟩

theorem setHookAuthorityAt_held
    (hfull : fullLifecycleHookAuthority report.source report.agentLabel = true)
    (hroute : t.suppressedRoute report = none)
    (hheld : (t.processPresent report.agentLabel && t.sessionAnchored report
      && !t.suppressedFullLifecycleHookReports.containsKey report.source) = false)
    (hsession : report.sessionRef = some sessionRef) (now clock : Instant) :
    (parks t report = false ∧ t.setHookAuthorityAt report now clock = (t, none))
      ∨ parks t report = true ∧ ∃ seq, t.setHookAuthorityAt report now clock
        = (t.parkFullLifecycleHookReport report sessionRef seq now, none) := by
  have hidentity := sessionIdentityOnlyIntegration_of_fullLifecycle hfull
  have hexit : (!fullLifecycleHookAuthority report.source report.agentLabel
      && t.recentAgentProcessExit.any (fun exit =>
        parseAgentLabel report.agentLabel = some exit.agent)) = false := by
    simp [hfull]
  rcases routeFullLifecycleHookReport_held hfull hroute hheld hsession now with
    ⟨hparks, hrouted⟩ | ⟨hparks, seq, hrouted⟩
  · refine .inl ⟨hparks, ?_⟩
    simp only [setHookAuthorityAt, hidentity, hexit, hrouted, Bool.false_eq_true, if_false]
  · refine .inr ⟨hparks, seq, ?_⟩
    simp only [setHookAuthorityAt, hidentity, hexit, hrouted, Bool.false_eq_true, if_false]

end

/-! ### The trace of foreign reports -/

/-- The terminal after foreign reports: only records changed, and the source has one exactly
when a report was parked. -/
structure Traced (t t' : TerminalState) (authority : HookAuthority) (silenced : Bool) : Prop where
  frame : ∃ suppressed, t' = { t with suppressedFullLifecycleHookReports := suppressed }
  unblocked : Unblocked t' authority
  heard : silenced = false → t' = t
  silenced : silenced = true →
    t'.suppressedFullLifecycleHookReports.containsKey authority.source = true

section

variable {t t' : TerminalState} {authority : HookAuthority} {sessionRef : AgentSessionRef}
  {silenced : Bool}

theorem Traced.live (h : Traced t t' authority silenced) (hlive : Live t authority sessionRef) :
    Live t' authority sessionRef := by
  obtain ⟨suppressed, rfl⟩ := h.frame
  exact ⟨hlive.current, hlive.session, hlive.lifecycle, hlive.effective⟩

theorem Traced.parks_eq (h : Traced t t' authority silenced) (report : HookReport) :
    parks t' report = parks t report := by
  obtain ⟨suppressed, rfl⟩ := h.frame
  rfl

variable {report : HookReport}

/-- Parking leaves an exit's record for the source. -/
theorem Traced.park (h : Traced t t' authority silenced)
    (hsource : report.source = authority.source) (hlabel : report.agentLabel = authority.agentLabel)
    (incoming : AgentSessionRef) (seq : Nat) (now : Instant) :
    Traced t (t'.parkFullLifecycleHookReport report incoming seq now) authority true := by
  obtain ⟨suppressed, hframe⟩ := h.frame
  refine ⟨?_, ?_, fun hfalse => (by cases hfalse), fun _ => ?_⟩
  · unfold parkFullLifecycleHookReport
    exact ⟨_, by rw [hframe]⟩
  · intro record hget
    unfold parkFullLifecycleHookReport at hget
    dsimp only at hget
    rw [hsource, HashMap.get_insert_self] at hget
    obtain rfl := Option.some.inj hget
    cases hold : t'.suppressedFullLifecycleHookReports.get authority.source with
    | none =>
      rw [Option.getD_none]
      split <;> exact ⟨hlabel, rfl⟩
    | some record =>
      rw [Option.getD_some]
      split <;> exact h.unblocked record hold
  · unfold parkFullLifecycleHookReport
    simp only [hsource, HashMap.containsKey, HashMap.get_insert_self, Option.isSome_some]

/-- One foreign report: it is turned away, and silences when it is parked. -/
theorem Traced.step (h : Traced t t' authority silenced) (hlive : Live t authority sessionRef)
    {report : HookReport} (hreport : Foreign report authority) (now clock : Instant) :
    Rejected t' report now clock
      ∧ Traced t (t'.setHookAuthorityAt report now clock).1 authority
        (silenced || parks t report) := by
  obtain ⟨incoming, hincoming, -⟩ := hreport.session
  have hlive' := h.live hlive
  have hfull : fullLifecycleHookAuthority report.source report.agentLabel = true := by
    rw [hreport.source, hreport.agentLabel]
    exact hlive.lifecycle
  have hheld : (t'.processPresent report.agentLabel && t'.sessionAnchored report
      && !t'.suppressedFullLifecycleHookReports.containsKey report.source) = false := by
    rw [hlive'.not_anchored hreport, Bool.and_false, Bool.false_and]
  rcases setHookAuthorityAt_held hfull
      (h.unblocked.suppressedRoute hreport.source hreport.agentLabel) hheld hincoming now clock with
    ⟨hparks, hset⟩ | ⟨hparks, seq, hset⟩
  · refine ⟨rejected_of_isNone (by rw [hset]; rfl), ?_⟩
    rw [hset, ← h.parks_eq, hparks, Bool.or_false]
    exact h
  · refine ⟨rejected_of_isNone (by rw [hset]; rfl), ?_⟩
    rw [hset, ← h.parks_eq, hparks, Bool.or_true]
    exact h.park hreport.source hreport.agentLabel incoming seq now

/-- Any number of foreign reports: all are turned away, and one that is parked silences. -/
theorem Traced.foldl (h : Traced t t' authority silenced) (hlive : Live t authority sessionRef)
    (arrivals : List (HookReport × Instant × Instant))
    (harrivals : ∀ arrival ∈ arrivals, Foreign arrival.1 authority) :
    Traced t (arrivals.foldl arrive t') authority
      (silenced || arrivals.any fun arrival => parks t arrival.1) := by
  induction arrivals generalizing t' silenced with
  | nil =>
      rw [List.any_nil, Bool.or_false]
      exact h
  | cons first rest ih =>
      obtain ⟨-, hfirst⟩ := h.step hlive (harrivals first (by simp)) first.2.1 first.2.2
      have hrest := ih hfirst fun arrival hmem => harrivals arrival (by simp [hmem])
      rw [List.any_cons, ← Bool.or_assoc]
      exact hrest

/-- A live session without a record, and not stale, is heard: its newer reports are taken. -/
theorem Live.taken (hlive : Live t authority sessionRef)
    (hrecord : t.suppressedFullLifecycleHookReports.get authority.source = none)
    (hsame : SameSession report authority)
    (hstale : t.fullLifecycleHookReportMatchesStaleSession authority.source authority.agentLabel
      (some sessionRef) = false)
    (hnewer : t.hookReportIsNewer authority.source report.seq = true) (now clock : Instant) :
    Taken t report now clock := by
  have hsession := hsame.sessionRef.trans hlive.session
  have hfull : fullLifecycleHookAuthority report.source report.agentLabel = true := by
    rw [hsame.source, hsame.agentLabel]
    exact hlive.lifecycle
  have hpresent : t.processPresent report.agentLabel = true := by
    rw [hsame.agentLabel]
    exact hlive.processPresent
  have hroute := routeFullLifecycleHookReport_of_sameSession now hlive.current hsame hsession
    hfull (by rw [hsame.source, hsame.agentLabel, hsession]; exact hstale) hpresent
    (by rw [hsame.source]; exact hrecord)
  obtain ⟨after, mutation, _, hset, -, happlied⟩ := setHookAuthorityAt_taken clock
    (sessionIdentityOnlyIntegration_of_fullLifecycle hfull) (by simp [hfull]) hroute
    (hookReportOwner_of_sameSession hlive.current hsame hsession
      (not_conflicts_of_processPresent hpresent)) (.inr (by rw [hsame.source]; exact hnewer))
  -- The process is still there, so the new authority is effective, and no blocker seen on the
  -- screen overrides it.
  have heffective : after.hookAuthorityIsEffective (report.authority report.sessionRef now)
      = true := by
    have hbefore := hlive.effective
    unfold hookAuthorityIsEffective at hbefore ⊢
    rw [happlied.detected, happlied.exit]
    show (!fullLifecycleHookAuthority report.source report.agentLabel
      || (parseAgentLabel report.agentLabel).all _) = true
    rw [hsame.source, hsame.agentLabel]
    exact hbefore
  have hnoBlocker : after.visibleBlockerOverridesHook = false := by
    have hliveAfter : after.liveFullLifecycleHookAuthority = true := by
      simp only [liveFullLifecycleHookAuthority, happlied.authority, Option.any_some, heffective,
        Bool.true_and]
      exact hfull
    simp [visibleBlockerOverridesHook, hliveAfter]
  unfold Taken
  rw [hset]
  refine ⟨rfl, happlied.authority, ?_⟩
  show after.state = report.state
  rw [happlied.state]
  simp only [arbitratedState, hnoBlocker, happlied.authority, Option.filter, heffective,
    Bool.false_eq_true, if_false, if_true, Option.map_some, Option.getD_some]
  rfl

/-- A session with a record, or a stale one, is not heard. -/
theorem Live.not_taken (hlive : Live t authority sessionRef) (hunblocked : Unblocked t authority)
    (hsame : SameSession report authority)
    (h : t.fullLifecycleHookReportMatchesStaleSession authority.source authority.agentLabel
        (some sessionRef) = true
      ∨ t.suppressedFullLifecycleHookReports.containsKey authority.source = true)
    (now clock : Instant) : ¬ Taken t report now clock := by
  have hsession := hsame.sessionRef.trans hlive.session
  have hfull : fullLifecycleHookAuthority report.source report.agentLabel = true := by
    rw [hsame.source, hsame.agentLabel]
    exact hlive.lifecycle
  rintro ⟨htaken, -⟩
  rcases h with hstale | hrecord
  · rw [← hsame.source, ← hsame.agentLabel, ← hsession] at hstale
    simp [setHookAuthorityAt, routeFullLifecycleHookReport, hfull, hstale,
      sessionIdentityOnlyIntegration_of_fullLifecycle hfull] at htaken
  · have hheld : (t.processPresent report.agentLabel && t.sessionAnchored report
        && !t.suppressedFullLifecycleHookReports.containsKey report.source) = false := by
      rw [hsame.source, hrecord, Bool.not_true, Bool.and_false]
    rcases setHookAuthorityAt_held hfull
        (hunblocked.suppressedRoute hsame.source hsame.agentLabel) hheld hsession now clock with
      ⟨-, hset⟩ | ⟨-, seq, hset⟩
    · rw [hset] at htaken
      cases htaken
    · rw [hset] at htaken
      cases htaken

end

/-- In whatever state a full-lifecycle session is live and its source has no record, reports of
other sessions are turned away, and a newer report of the live session is taken afterwards
exactly when none of them was parked and the live session is not recorded as stale. -/
theorem foreign_reports_silence_iff {t : TerminalState} {authority : HookAuthority}
    {sessionRef : AgentSessionRef} (hlive : Live t authority sessionRef)
    (hrecord : t.suppressedFullLifecycleHookReports.get authority.source = none)
    (foreign : List (HookReport × Instant × Instant))
    (hforeign : ∀ arrival ∈ foreign, Foreign arrival.1 authority) :
    (∀ before arrival after, foreign = before ++ arrival :: after →
        Rejected (before.foldl arrive t) arrival.1 arrival.2.1 arrival.2.2)
      ∧ ∀ report now clock, SameSession report authority →
        t.hookReportIsNewer authority.source report.seq = true →
        (Taken (foreign.foldl arrive t) report now clock ↔
          t.fullLifecycleHookReportMatchesStaleSession authority.source authority.agentLabel
              (some sessionRef) = false
            ∧ ∀ arrival ∈ foreign, parks t arrival.1 = false) := by
  have hunblocked : Unblocked t authority := by
    intro record hget
    rw [hrecord] at hget
    cases hget
  have hstart : Traced t t authority false :=
    ⟨⟨_, rfl⟩, hunblocked, fun _ => rfl, fun h => (by cases h)⟩
  constructor
  · rintro before arrival after rfl
    have hbefore := hstart.foldl hlive before fun other hmem => hforeign other (by simp [hmem])
    exact (hbefore.step hlive (hforeign arrival (by simp)) _ _).1
  · intro report now clock hsame hnewer
    have htraced := hstart.foldl hlive foreign hforeign
    rw [Bool.false_or] at htraced
    constructor
    · intro htaken
      obtain ⟨suppressed, hframe⟩ := htraced.frame
      constructor
      · refine Bool.eq_false_iff.mpr fun hstale => ?_
        refine (htraced.live hlive).not_taken htraced.unblocked hsame (.inl ?_) now clock htaken
        rw [hframe]
        exact hstale
      · refine fun arrival hmem => Bool.eq_false_iff.mpr fun hparks => ?_
        have hsilenced := htraced.silenced (List.any_eq_true.mpr ⟨arrival, hmem, hparks⟩)
        exact (htraced.live hlive).not_taken htraced.unblocked hsame (.inr hsilenced) now clock
          htaken
    · rintro ⟨hstale, hparks⟩
      have hheard := htraced.heard (List.any_eq_false.mpr fun arrival hmem => by
        simp [hparks arrival hmem])
      rw [hheard]
      exact hlive.taken hrecord hsame hstale hnewer now clock

/-- A late report of another session, with a sequence that was already used, does not keep the
first session from being heard. -/
theorem foreign_reports_silence_iff_pi :
    Taken ([(piReport "/two.jsonl" .idle 20, 6, 6)].foldl arrive
      (runFrom ⟨.new, none⟩ piSession).terminal) (piReport "/one.jsonl" .idle 22) 7 7 := by
  let authority := (piReport "/one.jsonl" .working 20).authority (some ⟨.path, "/one.jsonl"⟩) 3
  have hlive : Live (runFrom ⟨.new, none⟩ piSession).terminal authority ⟨.path, "/one.jsonl"⟩ :=
    ⟨by decide +kernel, rfl, by decide +kernel, by decide +kernel⟩
  have hforeign : ∀ arrival ∈ [(piReport "/two.jsonl" .idle 20, (6 : Instant), (6 : Instant))],
      Foreign arrival.1 authority := by
    intro arrival hmem
    obtain rfl := List.mem_singleton.mp hmem
    exact ⟨rfl, rfl, ⟨.path, "/two.jsonl"⟩, rfl, by decide +kernel⟩
  have hiff := (foreign_reports_silence_iff hlive (by decide +kernel) _ hforeign).2
  refine (hiff (piReport "/one.jsonl" .idle 22) 7 7 ⟨rfl, rfl, rfl⟩
    (by decide +kernel)).mpr ⟨by decide +kernel, ?_⟩
  intro arrival hmem
  obtain rfl := List.mem_singleton.mp hmem
  decide +kernel

/-- The first session of `pi` is live at sequence 20. A report of a second session at sequence
21 is turned away and parked, and the first session's report at sequence 22 is not taken: the
terminal still shows it at work. -/
theorem parked_report_silences_session :
    ∃ s, Reachable Start (fun s op => s.terminal.Admissible op) observe s
      ∧ (∃ authority, Live s.terminal authority ⟨.path, "/one.jsonl"⟩
        ∧ s.terminal.suppressedFullLifecycleHookReports.get authority.source = none
        ∧ Foreign (piReport "/two.jsonl" .idle 21) authority
        ∧ SameSession (piReport "/one.jsonl" .idle 22) authority)
      ∧ s.accepted = some 20
      ∧ Rejected s.terminal (piReport "/two.jsonl" .idle 21) 6 6
      ∧ Rejected (s.terminal.setHookAuthorityAt (piReport "/two.jsonl" .idle 21) 6 6).1
        (piReport "/one.jsonl" .idle 22) 7 7
      ∧ (((s.terminal.setHookAuthorityAt (piReport "/two.jsonl" .idle 21) 6 6).1).setHookAuthorityAt
        (piReport "/one.jsonl" .idle 22) 7 7).1.state = .working := by
  let authority := (piReport "/one.jsonl" .working 20).authority (some ⟨.path, "/one.jsonl"⟩) 3
  refine ⟨runFrom ⟨.new, none⟩ piSession, reachable_runFrom (.start rfl) _ ?_,
    ⟨authority, ⟨by decide +kernel, rfl, by decide +kernel, by decide +kernel⟩, by decide +kernel,
      ⟨rfl, rfl, ⟨.path, "/two.jsonl"⟩, rfl, by decide +kernel⟩, ⟨rfl, rfl, rfl⟩⟩,
    by decide +kernel, rejected_of_isNone (by decide +kernel),
    rejected_of_isNone (by decide +kernel), by decide +kernel⟩
  intro op hmem s
  simp only [piSession, List.mem_cons, List.not_mem_nil, or_false] at hmem
  rcases hmem with rfl | rfl | rfl <;> trivial

end Herden.Proofs.Terminal
