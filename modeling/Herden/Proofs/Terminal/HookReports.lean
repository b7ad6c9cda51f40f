import Herden.Proofs.Terminal.Gate

/-!
# `Herden.Proofs.Terminal.HookReports`: which hook reports are taken
-/

namespace Herden.Proofs.Terminal

open Herden.Lib (HashMap Reachable)
open Herden.Runtime.Detect
open Herden.Runtime.AgentResume
open Herden.Runtime.Terminal
open Herden.Runtime.Terminal.TerminalState

/-! ### A report that is taken -/

/-- The terminal after a report became the authority. -/
structure Applied (t t' : TerminalState) (report : HookReport)
    (sessionRef : Option AgentSessionRef) (takeover reanchor : Bool) (now : Instant) : Prop where
  authority : t'.hookAuthority = some (report.authority sessionRef now)
  sequences : t'.hookReportSequences = t.hookReportSequences
  detected : t'.detectedAgent = t.detectedAgent
  exit : t'.recentAgentProcessExit = t.recentAgentProcessExit
  persisted : t'.persistedAgentSession = none
  state : t'.state = t'.arbitratedState
  parked : ∀ source pending, Parked (gate t') source pending → Parked (gate t) source pending
  unsuppressed : (sessionRef.isSome || reanchor) = true →
    t'.suppressedFullLifecycleHookReports.get report.source = none
  untouched : takeover = false → (sessionRef.isSome || reanchor) = false ∨
      t.suppressedFullLifecycleHookReports.get report.source = none →
    t'.suppressedFullLifecycleHookReports = t.suppressedFullLifecycleHookReports
      ∧ t'.staleFullLifecycleHookSessions = t.staleFullLifecycleHookSessions

/-- Ending the source's suppression changes records and stale sessions only. The source has no
record afterwards, if there was something to end. -/
theorem endReportedSuppression_eq (t : TerminalState) (source : String)
    (sessionRef : Option AgentSessionRef) (reanchor : Bool) :
    ∃ suppressed stale, t.endReportedSuppression source sessionRef reanchor
        = { t with
            suppressedFullLifecycleHookReports := suppressed
            staleFullLifecycleHookSessions := stale }
      ∧ ((sessionRef.isSome || reanchor) = true → suppressed.get source = none)
      ∧ ((sessionRef.isSome || reanchor) = false ∨
          t.suppressedFullLifecycleHookReports.get source = none →
        suppressed = t.suppressedFullLifecycleHookReports
          ∧ stale = t.staleFullLifecycleHookSessions)
      ∧ ∀ other record, suppressed.get other = some record →
        t.suppressedFullLifecycleHookReports.get other = some record := by
  unfold endReportedSuppression
  split
  next hends =>
    cases hget : t.suppressedFullLifecycleHookReports.get source with
    | none => exact ⟨_, _, rfl, fun _ => hget, fun _ => ⟨rfl, rfl⟩, fun _ _ h => h⟩
    | some suppressed =>
        have hrecords : ∀ other record,
            (t.suppressedFullLifecycleHookReports.remove source).get other = some record →
            t.suppressedFullLifecycleHookReports.get other = some record := by
          intro other record h
          rw [HashMap.get_remove] at h
          split at h
          · cases h
          · exact h
        have hnot : ¬ ((sessionRef.isSome || reanchor) = false ∨ some suppressed = none) := by
          simp [hends]
        cases hsession : suppressed.sessionRef with
        | none =>
            simp only [hsession]
            exact ⟨_, _, rfl, fun _ => HashMap.get_remove_self _ _, fun h => absurd h hnot,
              hrecords⟩
        | some sessionRef =>
            simp only [hsession]
            exact ⟨_, _, rfl, fun _ => HashMap.get_remove_self _ _, fun h => absurd h hnot,
              hrecords⟩
  next hends =>
    exact ⟨_, _, rfl, fun h => absurd h hends, fun _ => ⟨rfl, rfl⟩, fun _ _ h => h⟩

theorem applyHookReport_applied (t : TerminalState) (report : HookReport)
    (sessionRef : Option AgentSessionRef) (takeover reanchor : Bool) (now clock : Instant) :
    Applied t (t.applyHookReport report sessionRef takeover reanchor now clock).1 report sessionRef
      takeover reanchor now := by
  obtain ⟨name, owner, hname⟩ := reconcileAgentNameOwner_eq t report.agentLabel sessionRef
  -- A takeover leaves a record for the authority it ends.
  obtain ⟨taken, htaken, htakenParked, htakenSame⟩ : ∃ taken,
      (if takeover then (t.reconcileAgentNameOwner report.agentLabel
          sessionRef).suppressCurrentFullLifecycleHookAuthority .hookClear clock
        else t.reconcileAgentNameOwner report.agentLabel sessionRef)
        = { t with
            agentName := name
            agentNameOwner := owner
            suppressedFullLifecycleHookReports := taken }
      ∧ (∀ source pending, Parked { gate t with suppressed := taken } source pending →
        Parked (gate t) source pending)
      ∧ (takeover = false → taken = t.suppressedFullLifecycleHookReports) := by
    rw [hname]
    cases takeover with
    | false => exact ⟨_, rfl, fun _ _ h => h, fun _ => rfl⟩
    | true =>
        obtain ⟨taken, h⟩ := suppressCurrentFullLifecycleHookAuthority_eq
          { t with agentName := name, agentNameOwner := owner } .hookClear clock
        have hparked := parked_suppressCurrentFullLifecycleHookAuthority
          { t with agentName := name, agentNameOwner := owner } .hookClear clock
        rw [h] at hparked
        exact ⟨taken, h, hparked, fun h => nomatch h⟩
  obtain ⟨suppressed, stale, hends, hnone, hsame, hrecords⟩ := endReportedSuppression_eq
    { t with
      agentName := name, agentNameOwner := owner, suppressedFullLifecycleHookReports := taken }
    report.source sessionRef reanchor
  unfold applyHookReport
  dsimp only
  rw [htaken, hends]
  generalize hbase : ({ t with
    agentName := name
    agentNameOwner := owner
    suppressedFullLifecycleHookReports := suppressed
    staleFullLifecycleHookSessions := stale } : TerminalState) = base
  obtain ⟨metadata, hrecompute⟩ := recomputeEffectiveState_eq
    (base.installAuthority (report.authority sessionRef now)) (t.previous now) now
    (by rw [← hbase]; rfl)
  rw [hrecompute, ← hbase]
  exact
    { authority := rfl
      sequences := rfl
      detected := rfl
      exit := rfl
      persisted := rfl
      state := rfl
      parked := fun source pending ⟨record, hget, hpending⟩ =>
        htakenParked source pending ⟨record, hrecords _ _ hget, hpending⟩
      unsuppressed := hnone
      untouched := fun htakeover hcase => by
        have htaken := htakenSame htakeover
        subst htaken
        exact hsame hcase }

/-! ### The three ways of a report -/

variable {report : HookReport} {t : TerminalState}

variable {reanchor takeover : Bool} {sessionRef : Option AgentSessionRef}

/-- A suppression record alone accepts a report only with a new anchor. -/
theorem suppressedRoute_accept (h : t.suppressedRoute report = some (.accept reanchor)) :
    reanchor = true := by
  unfold suppressedRoute at h
  grind

/-- A report is ignored, parked, or accepted. A full-lifecycle report is accepted with the
source's record gone or about to go. -/
theorem routeFullLifecycleHookReport_cases (t : TerminalState) (report : HookReport)
    (now : Instant) :
    t.routeFullLifecycleHookReport report now = (t, .ignore)
      ∨ (∃ sessionRef seq, report.sessionRef = some sessionRef ∧ report.seq = some seq
        ∧ t.suppressedRoute report = none
        ∧ t.routeFullLifecycleHookReport report now
          = (t.parkFullLifecycleHookReport report sessionRef seq now, .ignore))
      ∨ ∃ reanchor, t.routeFullLifecycleHookReport report now = (t, .accept reanchor)
        ∧ (fullLifecycleHookAuthority report.source report.agentLabel = true →
          t.suppressedFullLifecycleHookReports.get report.source = none ∨ reanchor = true) := by
  unfold routeFullLifecycleHookReport
  split
  next hother => exact .inr (.inr ⟨false, rfl, fun hfull => by simp [hfull] at hother⟩)
  next =>
    split
    next => exact .inl rfl
    next =>
      split
      next => exact .inl rfl
      next =>
        split
        next route hroute =>
          cases route with
          | ignore => exact .inl rfl
          | accept reanchor =>
              refine .inr (.inr ⟨reanchor, rfl, fun _ => .inr ?_⟩)
              exact suppressedRoute_accept hroute
        next hroute =>
          split
          next hpresent =>
            simp only [Bool.and_eq_true, Bool.not_eq_true', HashMap.containsKey] at hpresent
            exact .inr (.inr ⟨_, rfl, fun _ => .inl (by simpa using hpresent.2)⟩)
          next =>
            split
            next sessionRef seq hsession hseq =>
              split
              next => exact .inl rfl
              next => exact .inr (.inl ⟨sessionRef, seq, hsession, hseq, hroute, rfl⟩)
            next => exact .inl rfl

/-- The sequence gate: a newer report is recorded, and any other changes nothing. -/
theorem acceptHookReport_cases (t : TerminalState) (source : String) (seq : Option Nat) :
    (t.hookReportIsNewer source seq = false ∧ t.acceptHookReport source seq = (t, false))
      ∨ t.hookReportIsNewer source seq = true ∧ ∃ sequences, sequences.get source = seq
        ∧ t.acceptHookReport source seq = ({ t with hookReportSequences := sequences }, true) := by
  unfold acceptHookReport
  cases hnewer : t.hookReportIsNewer source seq with
  | false => exact .inl ⟨rfl, rfl⟩
  | true =>
      refine .inr ⟨rfl, ?_⟩
      cases seq with
      | some seq => exact ⟨_, HashMap.get_insert_self _ _ _, rfl⟩
      | none =>
          refine ⟨t.hookReportSequences, ?_, rfl⟩
          simpa [hookReportIsNewer] using hnewer

/-- Every report is newer than nothing. -/
theorem hookReportIsNewer_of_none {source : String} (h : t.hookReportSequences.get source = none)
    (seq : Option Nat) : t.hookReportIsNewer source seq = true := by
  unfold hookReportIsNewer
  cases seq with
  | none => simp [h]
  | some seq => simp [h]

/-- A report that is routed on, has an owner and passes the sequence gate becomes the
authority. -/
theorem setHookAuthorityAt_taken {now : Instant} (clock : Instant)
    (hidentity : sessionIdentityOnlyIntegration report.source report.agentLabel = false)
    (hexit : (!fullLifecycleHookAuthority report.source report.agentLabel
      && t.recentAgentProcessExit.any (fun exit =>
        parseAgentLabel report.agentLabel = some exit.agent)) = false)
    (hroute : t.routeFullLifecycleHookReport report now = (t, .accept reanchor))
    (howner : t.hookReportOwner report = some (sessionRef, takeover))
    (hnewer : reanchor = true ∨ t.hookReportIsNewer report.source report.seq = true) :
    ∃ t' mutation sequences, t.setHookAuthorityAt report now clock = (t', some mutation)
      ∧ sequences.get report.source = report.seq
      ∧ Applied { t with hookReportSequences := sequences } t' report sessionRef takeover
        reanchor now := by
  obtain ⟨sequences, hget, haccept⟩ : ∃ sequences, sequences.get report.source = report.seq
      ∧ (if reanchor then
          { t with hookReportSequences := t.hookReportSequences.remove report.source }
        else t).acceptHookReport report.source report.seq
        = ({ t with hookReportSequences := sequences }, true) := by
    cases reanchor with
    | true =>
        have hnone : ({ t with
            hookReportSequences := t.hookReportSequences.remove report.source } :
              TerminalState).hookReportSequences.get report.source = none :=
          HashMap.get_remove_self _ _
        rcases acceptHookReport_cases _ report.source report.seq with h | ⟨-, h⟩
        · rw [hookReportIsNewer_of_none hnone] at h
          cases h.1
        · exact h
    | false =>
        rcases acceptHookReport_cases t report.source report.seq with h | ⟨-, h⟩
        · rw [h.1] at hnewer
          simp at hnewer
        · exact h
  unfold setHookAuthorityAt
  simp only [hidentity, hexit, hroute, howner, haccept, Bool.false_eq_true, if_false]
  exact ⟨_, _, sequences, rfl, hget, applyHookReport_applied _ report sessionRef takeover reanchor
    now clock⟩

/-- What a hook report can do: nothing, be parked, or become the authority with its sequence
recorded. -/
theorem setHookAuthorityAt_cases (t : TerminalState) (report : HookReport) (now clock : Instant) :
    t.setHookAuthorityAt report now clock = (t, none)
      ∨ (∃ sessionRef seq, report.sessionRef = some sessionRef ∧ report.seq = some seq
        ∧ t.suppressedRoute report = none
        ∧ t.setHookAuthorityAt report now clock
          = (t.parkFullLifecycleHookReport report sessionRef seq now, none))
      ∨ ∃ t' mutation sessionRef takeover reanchor sequences,
        t.setHookAuthorityAt report now clock = (t', some mutation)
        ∧ t.routeFullLifecycleHookReport report now = (t, .accept reanchor)
        ∧ t.hookReportOwner report = some (sessionRef, takeover)
        ∧ (reanchor = true ∨ t.hookReportIsNewer report.source report.seq = true)
        ∧ (fullLifecycleHookAuthority report.source report.agentLabel = true →
          t.suppressedFullLifecycleHookReports.get report.source = none ∨ reanchor = true)
        ∧ sequences.get report.source = report.seq
        ∧ Applied { t with hookReportSequences := sequences } t' report sessionRef takeover
          reanchor now := by
  cases hidentity : sessionIdentityOnlyIntegration report.source report.agentLabel with
  | true => exact .inl (by simp [setHookAuthorityAt, hidentity])
  | false =>
    cases hexit : !fullLifecycleHookAuthority report.source report.agentLabel
        && t.recentAgentProcessExit.any (fun exit =>
          parseAgentLabel report.agentLabel = some exit.agent) with
    | true => exact .inl (by simp only [setHookAuthorityAt, hidentity, hexit]; rfl)
    | false =>
      rcases routeFullLifecycleHookReport_cases t report now with
        hroute | ⟨sessionRef, seq, hsession, hseq, hsuppressed, hroute⟩ | ⟨reanchor, hroute, hfull⟩
      · refine .inl ?_
        simp only [setHookAuthorityAt, hidentity, hexit, hroute, Bool.false_eq_true, if_false]
      · refine .inr (.inl ⟨sessionRef, seq, hsession, hseq, hsuppressed, ?_⟩)
        simp only [setHookAuthorityAt, hidentity, hexit, hroute, Bool.false_eq_true, if_false]
      · cases howner : t.hookReportOwner report with
        | none =>
            refine .inl ?_
            simp only [setHookAuthorityAt, hidentity, hexit, hroute, howner, Bool.false_eq_true,
              if_false]
        | some owner =>
            by_cases hnewer : reanchor = true ∨ t.hookReportIsNewer report.source report.seq = true
            · obtain ⟨t', mutation, sequences, hset, hget, happlied⟩ :=
                setHookAuthorityAt_taken clock hidentity hexit hroute howner hnewer
              exact .inr (.inr ⟨t', mutation, owner.1, owner.2, reanchor, sequences, hset, hroute,
                rfl, hnewer, hfull, hget, happlied⟩)
            · refine .inl ?_
              simp only [not_or, Bool.not_eq_true] at hnewer
              have haccept : t.acceptHookReport report.source report.seq = (t, false) := by
                simp [acceptHookReport, hnewer.2]
              simp only [setHookAuthorityAt, hidentity, hexit, hroute, howner, hnewer.1, haccept,
                Bool.false_eq_true, if_false]

/-! ### Runs -/

/-- A terminal, and the sequence of the report its authority comes from. -/
structure Observed where
  terminal : TerminalState
  accepted : Option Nat

/-- The sequence of the report parked under a source. -/
def parkedSeq (t : TerminalState) (source : String) : Option Nat :=
  ((t.suppressedFullLifecycleHookReports.get source).bind
    SuppressedFullLifecycleHookReport.pendingReplacementReport).map
      PendingFullLifecycleHookReport.seq

/-- The sequence of the last accepted report after a mutation. Besides a hook report, only the
adoption of a parked report puts another authority in place. -/
def acceptedAfter (s : Observed) (op : Op) (t' : TerminalState)
    (mutation : Option TerminalStateMutation) : Option Nat :=
  match op with
  | .hookReport report _ _ => if mutation.isSome then report.seq else s.accepted
  | _ =>
      if t'.hookAuthority = s.terminal.hookAuthority then s.accepted
      else t'.hookAuthority.bind fun authority => parkedSeq s.terminal authority.source

def Observed.next (s : Observed) (op : Op) : Observed where
  terminal := (s.terminal.step op).1
  accepted := acceptedAfter s op (s.terminal.step op).1 (s.terminal.step op).2

/-- Every mutation goes through; some report a change. -/
def observe (s : Observed) (op : Op) : Option (Observed × Option TerminalStateMutation) :=
  some (s.next op, (s.terminal.step op).2)

def Start (s : Observed) : Prop := s = ⟨.new, none⟩

/-- The books of the gate: parked reports are filed under their source, a live full-lifecycle
authority has no clear over it, and the gate stands at the accepted report or later. -/
structure GateSound (s : Observed) : Prop where
  filed : ∀ source pending, Parked (gate s.terminal) source pending →
    pending.authority.source = source
  uncleared : ∀ authority, (gate s.terminal).authority = some authority →
    fullLifecycleHookAuthority authority.source authority.agentLabel = true →
    ¬ HookCleared (gate s.terminal) authority.source
  recorded : ∀ authority n, (gate s.terminal).authority = some authority →
    s.accepted = some n →
    ∃ m, (gate s.terminal).sequences.get authority.source = some m ∧ n ≤ m

theorem GateSound.start : GateSound ⟨.new, none⟩ where
  filed source pending := fun ⟨suppressed, hget, _⟩ => by
    cases (HashMap.get_empty source).symm.trans hget
  uncleared authority ha := by cases ha
  recorded authority n ha := by cases ha

variable {s : Observed}

/-- The books stay right under a mutation that forgets no sequence in use. -/
theorem GateSound.mutates (h : GateSound s) {t' : TerminalState}
    (hm : Mutates (gate s.terminal) (gate t')) :
    GateSound ⟨t', if t'.hookAuthority = s.terminal.hookAuthority then s.accepted
      else t'.hookAuthority.bind fun authority => parkedSeq s.terminal authority.source⟩ := by
  refine ⟨fun source pending hp => h.filed source pending (hm.parked source pending hp), ?_, ?_⟩
  · intro authority ha hfull hcleared
    cases hm.step with
    | dropped hnone => cases hnone.symm.trans ha
    | kept hauthority hc _ => exact h.uncleared authority (hauthority ▸ ha) hfull (hc _ hcleared)
    | adopted source pending hparked hauthority _ hnone _ =>
        obtain rfl := Option.some.inj (hauthority.symm.trans ha)
        obtain ⟨suppressed, hget, -⟩ := hcleared
        rw [h.filed source pending hparked] at hget
        cases hnone.symm.trans hget
  · intro authority n ha hn
    dsimp only at hn ha
    cases hm.step with
    | dropped hnone => cases hnone.symm.trans ha
    | kept hauthority _ hs =>
        rw [if_pos (show t'.hookAuthority = s.terminal.hookAuthority from hauthority)] at hn
        obtain ⟨m, hget, hle⟩ := h.recorded authority n (hauthority ▸ ha) hn
        obtain ⟨m', hget', hle'⟩ := hs authority (hauthority ▸ ha) m hget
        exact ⟨m', hget', hle.trans hle'⟩
    | adopted source pending hparked hauthority hget _ hlater =>
        obtain rfl := Option.some.inj (hauthority.symm.trans ha)
        have hsource := h.filed source pending hparked
        refine ⟨pending.seq, hsource ▸ hget, ?_⟩
        split at hn
        next hsame =>
          -- The parked report is the authority already, so the gate stood at its source.
          have hbefore : (gate s.terminal).authority = some pending.authority :=
            hsame.symm.trans ha
          obtain ⟨m, hget', hle⟩ := h.recorded pending.authority n hbefore hn
          exact hle.trans (hlater pending.authority m hbefore hsource (hsource ▸ hget'))
        next =>
          obtain ⟨suppressed, hrecord, hpending⟩ := hparked
          have hseq : parkedSeq s.terminal source = some pending.seq := by
            rw [parkedSeq, show s.terminal.suppressedFullLifecycleHookReports.get source
              = some suppressed from hrecord]
            simp [hpending]
          rw [show t'.hookAuthority = some pending.authority from ha, Option.bind_some, hsource,
            hseq] at hn
          exact Nat.le_of_eq (Option.some.inj hn).symm

/-- Parking a report touches the records only, and files the report under its source. -/
theorem gate_parkFullLifecycleHookReport (t : TerminalState) (report : HookReport)
    (sessionRef : AgentSessionRef) (seq : Nat) (now : Instant) :
    (∀ source pending,
        Parked (gate (t.parkFullLifecycleHookReport report sessionRef seq now)) source pending →
        Parked (gate t) source pending ∨ pending.authority.source = source)
      ∧ ∀ source, HookCleared (gate (t.parkFullLifecycleHookReport report sessionRef seq now))
        source → HookCleared (gate t) source := by
  obtain ⟨hcleared, hparked⟩ := record_of_getD (gate t) report.source
    {
      agentLabel := report.agentLabel
      sessionRef := t.persistedSessionRefOf report.source report.agentLabel
      observedAt := now
      reason := .processExit
      replacementSessionRef := none
      pendingReplacementReport := none } rfl rfl
  unfold parkFullLifecycleHookReport
  constructor
  · rintro source pending ⟨record, hget, hpending⟩
    dsimp only [gate] at hget
    rw [HashMap.get_insert] at hget
    split at hget
    next heq =>
      obtain rfl := Option.some.inj hget
      split at hpending
      · obtain rfl := Option.some.inj hpending
        exact .inr heq.symm
      · exact .inl (heq ▸ hparked pending hpending)
    next => exact .inl ⟨record, hget, hpending⟩
  · rintro source ⟨record, hget, hreason⟩
    dsimp only [gate] at hget
    rw [HashMap.get_insert] at hget
    split at hget
    next heq =>
      obtain rfl := Option.some.inj hget
      refine heq ▸ hcleared ?_
      split at hreason
      · exact hreason
      · exact hreason
    next => exact ⟨record, hget, hreason⟩

/-- A takeover happens only for a report that names its session. -/
theorem hookReportOwner_takeover (h : t.hookReportOwner report = some (sessionRef, takeover))
    (ht : takeover = true) : sessionRef.isSome = true := by
  unfold hookReportOwner foregroundAgentConfirmsHookAuthorityTakeover at h
  dsimp only at h
  split at h
  · cases h
  · split at h
    · cases h
    · split at h
      · cases h
      · split at h
        · cases h
        · obtain ⟨rfl, rfl⟩ := Prod.mk.inj (Option.some.inj h)
          simp only [Bool.and_eq_true] at ht
          obtain ⟨sessionRef, hsession, -⟩ := (Option.any_eq_true _ _).mp ht.2
          simp [hsession]

/-- The books stay right when a report arrives. -/
theorem GateSound.hookReport (h : GateSound s) (report : HookReport) (now clock : Instant) :
    GateSound ⟨(s.terminal.setHookAuthorityAt report now clock).1,
      if (s.terminal.setHookAuthorityAt report now clock).2.isSome then report.seq
      else s.accepted⟩ := by
  rcases setHookAuthorityAt_cases s.terminal report now clock with
    hset | ⟨sessionRef, seq, -, -, -, hset⟩
    | ⟨t', mutation, sessionRef, takeover, reanchor, sequences, hset, -, howner, -, hfull, hget,
      happlied⟩
  · rw [hset]
    exact h
  · rw [hset]
    obtain ⟨hparked, hcleared⟩ :=
      gate_parkFullLifecycleHookReport s.terminal report sessionRef seq now
    refine ⟨fun source pending hp => ?_, fun authority ha hfull hc => ?_, h.recorded⟩
    · exact (hparked source pending hp).elim (h.filed source pending) id
    · exact h.uncleared authority ha hfull (hcleared _ hc)
  · rw [hset]
    refine ⟨fun source pending hp => h.filed source pending (happlied.parked source pending hp),
      fun authority ha hlive hc => ?_, fun authority n ha hn => ?_⟩
    · obtain rfl := Option.some.inj (happlied.authority.symm.trans ha)
      obtain ⟨suppressed, hrecord, hreason⟩ := hc
      by_cases hends : (sessionRef.isSome || reanchor) = true
      · cases (happlied.unsuppressed hends).symm.trans hrecord
      · have htakeover : takeover = false := by
          cases takeover with
          | false => rfl
          | true => simp [hookReportOwner_takeover howner rfl] at hends
        have hsame := (happlied.untouched htakeover (.inl (by simpa using hends))).1
        rcases hfull hlive with hnone | hre
        · rw [show (gate t').suppressed = _ from hsame] at hrecord
          cases hnone.symm.trans hrecord
        · simp [hre] at hends
    · obtain rfl := Option.some.inj (happlied.authority.symm.trans ha)
      refine ⟨n, ?_, le_rfl⟩
      rw [show (gate t').sequences = _ from happlied.sequences]
      exact hget.trans hn

/-- A mutation that may happen and does not forget the sequence of the authority in place. -/
def Remembers (s : Observed) (op : Op) : Prop :=
  s.terminal.Admissible op ∧ ∀ authority, s.terminal.hookAuthority = some authority →
    ¬ Forgets s.terminal authority op

/-- The books are right in every state that a run reaches without forgetting a sequence in
use. -/
theorem reachable_gateSound (h : Reachable Start Remembers observe s) : GateSound s := by
  refine h.invariant _ (fun s hs => ?_) fun s op s' mutation hallowed hstep hs => ?_
  · rw [hs]
    exact .start
  · obtain ⟨rfl, -⟩ := Prod.mk.inj (Option.some.inj hstep)
    by_cases hop : ∃ report now clock, op = .hookReport report now clock
    · obtain ⟨report, now, clock, rfl⟩ := hop
      exact hs.hookReport report now clock
    · have hm := step_mutates s.terminal op hallowed.1
        (fun report now clock heq => hop ⟨report, now, clock, heq⟩) hallowed.2
      have hsound := hs.mutates hm
      cases op with
      | hookReport report now clock => exact absurd ⟨report, now, clock, rfl⟩ hop
      | _ => exact hsound

end Herden.Proofs.Terminal
