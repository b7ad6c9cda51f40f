import Herden.Runtime.Terminal.Detection

/-!
# `Herden.Proofs.Terminal.Frame`: what the terminal's helpers leave alone

The mutations of `TerminalState` are built from helpers that touch few fields each. The theorems
`..._eq` say which: the result is the old state with only those fields changed. The simp lemmas
read off the fields that the gates of hook reports look at.
-/

namespace Herden.Proofs.Terminal

open Herden.Lib (HashMap)
open Herden.Runtime.Detect
open Herden.Runtime.AgentResume
open Herden.Runtime.Terminal
open Herden.Runtime.Terminal.TerminalState

variable (t : TerminalState)

/-! ### Which fields a helper changes -/

theorem reconcileAgentNameOwner_eq (label : String) (sessionRef : Option AgentSessionRef) :
    ∃ name owner, t.reconcileAgentNameOwner label sessionRef
      = { t with agentName := name, agentNameOwner := owner } := by
  unfold reconcileAgentNameOwner
  split
  · exact ⟨_, _, rfl⟩
  · split
    · exact ⟨_, _, rfl⟩
    · split
      · split
        · exact ⟨_, _, rfl⟩
        · split
          · exact ⟨_, _, rfl⟩
          · exact ⟨_, _, rfl⟩
      · exact ⟨_, _, rfl⟩

theorem setReportedResume_eq (resume : Option ReportedAgentResume) :
    ∃ resume' revision, t.setReportedResume resume
      = { t with reportedResume := resume', reportedResumeRevision := revision } := by
  unfold setReportedResume
  split
  · exact ⟨_, _, rfl⟩
  · exact ⟨_, _, rfl⟩

theorem forgetReportedResumeOf_eq (source label : String) :
    ∃ resume revision, t.forgetReportedResumeOf source label
      = { t with reportedResume := resume, reportedResumeRevision := revision } := by
  unfold forgetReportedResumeOf
  split
  · exact setReportedResume_eq t none
  · exact ⟨_, _, rfl⟩

theorem suppressCurrentFullLifecycleHookAuthority_eq
    (reason : FullLifecycleHookSuppressionReason) (clock : Instant) :
    ∃ suppressed, t.suppressCurrentFullLifecycleHookAuthority reason clock
      = { t with suppressedFullLifecycleHookReports := suppressed } := by
  unfold suppressCurrentFullLifecycleHookAuthority
  split
  · split
    · exact ⟨_, rfl⟩
    · exact ⟨_, rfl⟩
  · exact ⟨_, rfl⟩

theorem suppressFullLifecycleHookReport_eq (source label : String)
    (reason : FullLifecycleHookSuppressionReason) (clock : Instant) :
    ∃ suppressed, t.suppressFullLifecycleHookReport source label reason clock
      = { t with suppressedFullLifecycleHookReports := suppressed } := by
  unfold suppressFullLifecycleHookReport
  split
  · exact ⟨_, rfl⟩
  · exact ⟨_, rfl⟩

theorem forgetStaleFullLifecycleHookSession_eq (source label : String)
    (sessionRef : AgentSessionRef) :
    ∃ stale, t.forgetStaleFullLifecycleHookSession source label sessionRef
      = { t with staleFullLifecycleHookSessions := stale } := by
  unfold forgetStaleFullLifecycleHookSession
  split
  · exact ⟨_, rfl⟩
  · exact ⟨_, rfl⟩

theorem rememberStaleFullLifecycleHookSession_foldl_eq
    (stale : List (String × String × AgentSessionRef)) (t : TerminalState) :
    ∃ sessions, stale.foldl (fun self (source, label, sessionRef) =>
        self.rememberStaleFullLifecycleHookSession source label sessionRef) t
      = { t with staleFullLifecycleHookSessions := sessions } := by
  induction stale generalizing t with
  | nil => exact ⟨_, rfl⟩
  | cons entry rest ih =>
      obtain ⟨sessions, h⟩ := ih
          (t.rememberStaleFullLifecycleHookSession entry.1 entry.2.1 entry.2.2)
      exact ⟨sessions, h⟩

theorem foldl_removeSequence_eq
    (entries : List (Sigma fun _ : String => SuppressedFullLifecycleHookReport))
    (t : TerminalState) :
    entries.foldl (fun self entry =>
        { self with hookReportSequences := self.hookReportSequences.remove entry.1 }) t
      = { t with
          hookReportSequences :=
            entries.foldl (fun m entry => m.remove entry.1) t.hookReportSequences } := by
  induction entries generalizing t with
  | nil => rfl
  | cons entry rest ih => exact ih _

/-- The arbitration changes the state and the metadata's expiry flags. When the state noted
down before is the current one, the new state is the arbitrated one. -/
theorem recomputeEffectiveState_eq (previous : Previous) (now : Instant)
    (h : previous.state = t.state) :
    ∃ metadata, (t.recomputeEffectiveState previous now).1
      = { t with agentMetadata := metadata, state := t.arbitratedState } := by
  unfold recomputeEffectiveState
  dsimp only
  split
  next hsame =>
    have hstate : t.arbitratedState = t.state := by
      simp only [Bool.and_eq_true, decide_eq_true_eq] at hsame
      rw [← hsame.1.2, h]
    refine ⟨t.clearExpiryPendingForHiddenMetadata.agentMetadata, ?_⟩
    rw [hstate]
    rfl
  next => exact ⟨_, rfl⟩

/-- The same without a condition on the noted state. -/
theorem recomputeEffectiveState_frame (previous : Previous) (now : Instant) :
    ∃ metadata state, (t.recomputeEffectiveState previous now).1
      = { t with agentMetadata := metadata, state := state } := by
  unfold recomputeEffectiveState
  dsimp only
  split
  · exact ⟨_, _, rfl⟩
  · exact ⟨_, _, rfl⟩

/-! ### The gate -/

/-- The part of a terminal that decides on hook reports. -/
structure Gate where
  authority : Option HookAuthority
  sequences : HashMap String Nat
  suppressed : HashMap String SuppressedFullLifecycleHookReport

def gate (t : TerminalState) : Gate where
  authority := t.hookAuthority
  sequences := t.hookReportSequences
  suppressed := t.suppressedFullLifecycleHookReports

@[simp] theorem gate_reconcileAgentNameOwner (label : String)
    (sessionRef : Option AgentSessionRef) :
    gate (t.reconcileAgentNameOwner label sessionRef) = gate t := by
  obtain ⟨_, _, h⟩ := reconcileAgentNameOwner_eq t label sessionRef
  rw [h]
  rfl

@[simp] theorem gate_setReportedResume (resume : Option ReportedAgentResume) :
    gate (t.setReportedResume resume) = gate t := by
  obtain ⟨_, _, h⟩ := setReportedResume_eq t resume
  rw [h]
  rfl

@[simp] theorem gate_forgetStaleFullLifecycleHookSession (source label : String)
    (sessionRef : AgentSessionRef) :
    gate (t.forgetStaleFullLifecycleHookSession source label sessionRef) = gate t := by
  obtain ⟨_, h⟩ := forgetStaleFullLifecycleHookSession_eq t source label sessionRef
  rw [h]
  rfl

@[simp] theorem gate_recomputeEffectiveState (previous : Previous) (now : Instant) :
    gate (t.recomputeEffectiveState previous now).1 = gate t := by
  obtain ⟨_, _, h⟩ := recomputeEffectiveState_frame t previous now
  rw [h]
  rfl

@[simp] theorem gate_clearAgentName : gate t.clearAgentName = gate t := rfl

@[simp] theorem gate_endAgentSession (agent : Option Agent) (newer : Bool) :
    gate (t.endAgentSession agent newer) = gate t := by
  unfold endAgentSession
  dsimp only
  split
  · split
    · rw [gate_setReportedResume]
      rfl
    · rfl
  · split
    · rw [gate_setReportedResume]
    · rfl

end Herden.Proofs.Terminal
