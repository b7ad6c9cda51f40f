import Herden.Proofs.Terminal.Effective

/-!
# `Herden.Proofs.Terminal.Expiry`: the end of a time to live is reported

Metadata with a time to live shows until its deadline. Nothing happens at the deadline itself:
a poll of `next_agent_metadata_expiry` finds it and `expire_agent_metadata_at` reports the
change. `Watched` follows a terminal through its mutations and polls and keeps the presentation
that was reported last.

A deadline that passed is found only while `expiry_event_pending` is set. The flag is set by a
report that shows at once and taken away when the metadata is hidden. Nothing sets it again when
metadata that was hidden begins to show, so such metadata expires unreported
(`metadata_expires_silently`). And a mutation that comes between a deadline and its
poll compares with a presentation from which the metadata has gone already.

`expiry_announced` is about the runs without these two: no mutation makes metadata show whose
time is running (`revealsNothing`), and a deadline that changes what is shown is polled before
anything else happens, by a poll that finds no older event (`meets`).
-/

namespace Herden.Proofs.Terminal

open Herden.Lib (HashMap Reachable runAll guarded)
open Herden.Runtime.Detect
open Herden.Runtime.AgentResume
open Herden.Runtime.Terminal
open Herden.Runtime.Terminal.TerminalState

/-! ### A terminal that is watched -/

/-- A terminal, the presentation of the last change it reported, and the time of the last
step. -/
structure Watched where
  terminal : TerminalState
  reported : EffectivePresentation
  time : Instant

/-- When a mutation takes the presentation. Expiry is left to the polls, and a respawn or a map
that moves its entries is no mutation of metadata. -/
def mutationTime : Op → Option Instant
  | .detectedState _ _ _ _ now _ => some now
  | .detectedAgentProcess _ now _ => some now
  | .hookReport _ now _ => some now
  | .sessionReport _ clock => some clock
  | .clearHookAuthority _ _ clock => some clock
  | .releaseAgent _ _ _ clock => some clock
  | .clearSelfReportedAgent _ clock => some clock
  | .agentMetadata _ clock => some clock
  | .expireAgentMetadata _ _ => none
  | .respawn => none
  | .rehash _ _ => none

inductive Watch where
  | mutation (op : Op)
  | poll (now : Instant)

namespace Watched

/-- A terminal nothing was reported of. -/
def Start (s : Watched) : Prop := ∃ time, s = ⟨.new, ⟨none, none, ∅⟩, time⟩

/-- The last reported presentation, after a mutation with an outcome. -/
def reportedAfter (s : Watched) (mutation : Option TerminalStateMutation) :
    EffectivePresentation :=
  ((mutation.bind TerminalStateMutation.effectiveStateChange).map
    EffectiveStateChange.presentation).getD s.reported

/-- The terminal after a mutation. -/
def mutated (s : Watched) (op : Op) (time : Instant) : Watched where
  terminal := (s.terminal.step op).1
  reported := s.reportedAfter (s.terminal.step op).2
  time := time

/-- A poll, and the expiry when its deadline is due. -/
def polled (s : Watched) (now : Instant) : Watched :=
  match s.terminal.nextAgentMetadataExpiry now with
  | some deadline =>
      if deadline ≤ now then s.mutated (.expireAgentMetadata deadline now) now
      else { s with time := now }
  | none => { s with time := now }

/-- Time does not go backwards. -/
def step (s : Watched) : Watch → Option (Watched × Unit)
  | .mutation op =>
      match mutationTime op with
      | some time => if s.time ≤ time then some (s.mutated op time, ()) else none
      | none => none
  | .poll now => if s.time ≤ now then some (s.polled now, ()) else none

end Watched

/-! ### The condition on runs -/

/-- Whether a mutation is a report that sets fields or a time to live for the source. -/
def renews : Op → String → Bool
  | .agentMetadata report _, source =>
      report.source = source && (report.title.isSome || report.displayAgent.isSome
        || !report.stateLabels.entries.isEmpty || report.ttl.isSome)
  | _, _ => false

/-- No metadata that was hidden, and whose time to live is still running, shows after the
mutation. -/
def revealsNothing (t : TerminalState) (op : Op) (time : Instant) : Bool :=
  (t.step op).1.agentMetadata.entries.all fun entry =>
    renews op entry.1 || (t.agentMetadata.get entry.1).all fun before =>
      t.agentMetadataIsVisibleIgnoringTtl before || entry.2.ttl.isNone
        || agentMetadataIsExpired entry.2 time
        || !(t.step op).1.agentMetadataIsVisibleIgnoringTtl entry.2

namespace Watched

/-- No deadline that passed since the last step changed what is shown. -/
def showsTheSame (s : Watched) (now : Instant) : Bool :=
  (s.terminal.effectivePresentationAt s.time).same (s.terminal.effectivePresentationAt now)

/-- No expiry was due already at the last step. -/
def noExpiryDue (s : Watched) : Bool :=
  (s.terminal.nextAgentMetadataExpiry s.time).all fun deadline => s.time < deadline

/-- A deadline that changes what is shown is polled before anything else, by a poll that finds
no older event, and no mutation reveals metadata whose time is running. -/
def meets (s : Watched) : Watch → Bool
  | .mutation op => (mutationTime op).all fun time =>
      s.showsTheSame time && revealsNothing s.terminal op time
  | .poll now => s.showsTheSame now || s.noExpiryDue

end Watched

/-- The runs in which every step meets the condition. -/
abbrev WatchedRun (s : Watched) : Prop :=
  Reachable Watched.Start (fun s w => s.meets w = true) Watched.step s

/-! ### Presentations and deadlines -/

variable {p q : EffectivePresentation} {before : Previous}
  {outcome : TerminalState × Option TerminalStateMutation}

theorem same_iff : p.same q = true ↔
    p.title = q.title ∧ p.displayAgent = q.displayAgent
      ∧ p.stateLabels.entries.Perm q.stateLabels.entries := by
  unfold EffectivePresentation.same
  rw [Bool.and_eq_true, Bool.and_eq_true, decide_eq_true_eq, decide_eq_true_eq,
    HashMap.sameEntries_iff_perm, and_assoc]

theorem same_trans {r : EffectivePresentation} (h : p.same q = true) (h' : q.same r = true) :
    p.same r = true := by
  rw [same_iff] at h h' ⊢
  exact ⟨h.1.trans h'.1, h.2.1.trans h'.2.1, h.2.2.trans h'.2.2⟩

variable {metadata : AgentMetadata} {now : Instant} {t u t' : TerminalState} {s : Watched}

theorem mem_values_iff {m : HashMap String AgentMetadata} :
    metadata ∈ m.values ↔ ∃ source, m.get source = some metadata := by
  unfold HashMap.values
  rw [List.mem_map]
  constructor
  · rintro ⟨entry, hmem, rfl⟩
    exact ⟨entry.1, HashMap.get_eq_some_iff.mpr hmem⟩
  · rintro ⟨source, hget⟩
    exact ⟨⟨source, metadata⟩, HashMap.get_eq_some_iff.mp hget, rfl⟩

theorem values_retain (m : HashMap String AgentMetadata) (keep : AgentMetadata → Bool) :
    (m.retain fun _ metadata => keep metadata).values = m.values.filter keep := by
  unfold HashMap.values HashMap.retain
  rw [List.filter_map]
  rfl

/-- Metadata that is valid is visible, and its time is not over where that counts. -/
theorem agentMetadataIsValid_eq (t : TerminalState) (metadata : AgentMetadata) (now : Instant)
    (enforce : Bool) :
    t.agentMetadataIsValid metadata now enforce
      = (t.agentMetadataIsVisibleIgnoringTtl metadata
        && !(enforce && agentMetadataIsExpired metadata now)) := by
  unfold agentMetadataIsValid agentMetadataIsVisibleIgnoringTtl
  cases metadata.title with
  | some title =>
    cases enforce && agentMetadataIsExpired metadata now with
    | true => simp
    | false => simp
  | none =>
    cases metadata.displayAgent with
    | some displayAgent =>
      cases enforce && agentMetadataIsExpired metadata now with
      | true => simp
      | false => simp
    | none =>
      cases metadata.stateLabels.entries.isEmpty with
      | true => simp
      | false =>
        cases enforce && agentMetadataIsExpired metadata now with
        | true => simp
        | false => simp

theorem agentMetadataIsExpired_iff : agentMetadataIsExpired metadata now = true
      ↔ ∃ deadline, agentMetadataExpiry metadata = some deadline ∧ deadline ≤ now := by
  unfold agentMetadataIsExpired
  rw [Option.any_eq_true]
  simp only [ge_iff_le, decide_eq_true_eq]

theorem isSome_agentMetadataExpiry (metadata : AgentMetadata) :
    (agentMetadataExpiry metadata).isSome = metadata.ttl.isSome := by
  unfold agentMetadataExpiry
  rw [Option.isSome_map]

/-- What is over stays over. -/
theorem agentMetadataIsExpired_mono {later : Instant} (hle : now ≤ later)
    (h : agentMetadataIsExpired metadata now = true) :
    agentMetadataIsExpired metadata later = true := by
  rw [agentMetadataIsExpired_iff] at h ⊢
  obtain ⟨deadline, hdeadline, hpassed⟩ := h
  exact ⟨deadline, hdeadline, hpassed.trans hle⟩

/-- Metadata of the terminal that shows and has a time to live waits for its expiry. -/
def Waits (t : TerminalState) (now : Instant) : Prop :=
  ∀ metadata ∈ t.agentMetadata.values, t.agentMetadataIsVisibleIgnoringTtl metadata = true →
    metadata.ttl.isSome = true → agentMetadataIsExpired metadata now = false →
      metadata.expiryEventPending = true

theorem agentMetadataMatchesGuards_of_visible
    (h : t.agentMetadataIsVisibleIgnoringTtl metadata = true) :
    t.agentMetadataMatchesGuards metadata = true := by
  unfold agentMetadataIsVisibleIgnoringTtl at h
  exact (Bool.and_eq_true_iff.mp h).2

/-- A pending event of metadata whose guards match is found, or an earlier one. -/
theorem nextAgentMetadataExpiry_le {deadline : Instant} (now : Instant)
    (hmem : metadata ∈ t.agentMetadata.values)
    (hguards : t.agentMetadataMatchesGuards metadata = true)
    (hpending : metadata.expiryEventPending = true)
    (hdeadline : agentMetadataExpiry metadata = some deadline) :
    ∃ next, t.nextAgentMetadataExpiry now = some next ∧ next ≤ deadline := by
  unfold nextAgentMetadataExpiry
  dsimp only
  generalize hlist : List.filter _ _ = deadlines
  have hlisted : deadline ∈ deadlines := by
    rw [← hlist, List.mem_filter, List.mem_filterMap]
    refine ⟨⟨metadata, List.mem_filter.mpr ⟨hmem, hguards⟩, hdeadline⟩, ?_⟩
    rw [Bool.or_eq_true]
    right
    rw [List.any_eq_true]
    exact ⟨metadata, hmem, by simp [hpending, hguards, hdeadline]⟩
  cases hmin : deadlines.min? with
  | none =>
    rw [List.min?_eq_none_iff] at hmin
    rw [hmin] at hlisted
    cases hlisted
  | some next => exact ⟨next, rfl, (List.min?_eq_some_iff.mp hmin).2 deadline hlisted⟩

/-- A deadline that is found and has passed is one with a pending event. -/
theorem nextAgentMetadataExpiry_pending {next : Instant}
    (h : t.nextAgentMetadataExpiry now = some next) (hdue : next ≤ now) :
    ∃ metadata ∈ t.agentMetadata.values, metadata.expiryEventPending = true
      ∧ t.agentMetadataMatchesGuards metadata = true
      ∧ agentMetadataExpiry metadata = some next := by
  unfold nextAgentMetadataExpiry at h
  have hmem := (List.min?_eq_some_iff.mp h).1
  have hfound := (List.mem_filter.mp hmem).2
  rw [Bool.or_eq_true, decide_eq_true_eq, List.any_eq_true] at hfound
  rcases hfound with hlater | ⟨metadata, hmem, hpending⟩
  · exact absurd hdue (Nat.not_le.mpr hlater)
  · simp only [Bool.and_eq_true, decide_eq_true_eq] at hpending
    exact ⟨metadata, hmem, hpending.1.1, hpending.1.2, hpending.2⟩

/-! ### Polls -/

section

variable {t : TerminalState}

variable {now time : Instant}

/-- While no deadline of visible metadata passes, the same is shown. -/
theorem presentation_eq_of_expired
    (h : ∀ metadata ∈ t.agentMetadata.values, t.agentMetadataIsVisibleIgnoringTtl metadata = true →
      agentMetadataIsExpired metadata now = agentMetadataIsExpired metadata time) :
    t.effectivePresentationAt now = t.effectivePresentationAt time := by
  apply presentation_eq_of_valid
  apply List.filter_congr
  intro metadata hmem
  rw [agentMetadataIsValid_eq, agentMetadataIsValid_eq]
  cases hvisible : t.agentMetadataIsVisibleIgnoringTtl metadata with
  | false => rfl
  | true => rw [h metadata hmem hvisible]

/-- The arbitration changes nothing that is shown. -/
theorem presentation_recomputeEffectiveState (u : TerminalState) (previous : Previous)
    (now later : Instant) :
    (u.recomputeEffectiveState previous now).1.effectivePresentationAt later
      = u.effectivePresentationAt later := by
  unfold recomputeEffectiveState
  dsimp only
  split
  · exact clearExpiryPendingForHiddenMetadata_presentation u later true
  · exact clearExpiryPendingForHiddenMetadata_presentation u later true

/-- What is shown changes with time only when an event is due. -/
theorem nextAgentMetadataExpiry_due (hwaits : Waits t time) (hle : time ≤ now)
    (h : t.effectivePresentationAt now ≠ t.effectivePresentationAt time) :
    ∃ deadline, t.nextAgentMetadataExpiry now = some deadline ∧ deadline ≤ now := by
  by_contra hnone
  apply h
  apply presentation_eq_of_expired
  intro metadata hmem hvisible
  cases hbefore : agentMetadataIsExpired metadata time with
  | true => exact agentMetadataIsExpired_mono hle hbefore
  | false =>
    cases hafter : agentMetadataIsExpired metadata now with
    | false => rfl
    | true =>
      -- its time passed in between, so its event is pending
      exfalso
      obtain ⟨deadline, hdeadline, hpassed⟩ := agentMetadataIsExpired_iff.mp hafter
      have httl : metadata.ttl.isSome = true := by
        rw [← isSome_agentMetadataExpiry, hdeadline]
        rfl
      have hpending := hwaits metadata hmem hvisible httl hbefore
      obtain ⟨next, hnext, hearlier⟩ := nextAgentMetadataExpiry_le now hmem
        (agentMetadataMatchesGuards_of_visible hvisible) hpending hdeadline
      exact hnone ⟨next, hnext, hearlier.trans hpassed⟩

/-- The presentation an expiry compares with is the one of the last step, when no event was due
then. -/
theorem beforeExpiry_presentation {deadline : Instant} (hwaits : Waits t time)
    (hnext : t.nextAgentMetadataExpiry now = some deadline) (hdue : deadline ≤ now)
    (hnotDue : ∀ next, t.nextAgentMetadataExpiry time = some next → time < next) :
    (beforeExpiry t deadline now).presentation = t.effectivePresentationAt time := by
  -- the deadline lies after the last step
  have hafter : time < deadline := by
    obtain ⟨metadata, hmem, hpending, hguards, hdeadline⟩ :=
      nextAgentMetadataExpiry_pending hnext hdue
    obtain ⟨next, hfound, hearlier⟩ :=
      nextAgentMetadataExpiry_le time hmem hguards hpending hdeadline
    exact Nat.lt_of_lt_of_le (hnotDue next hfound) hearlier
  show (withoutStaleMetadata t deadline now).effectivePresentationAtWithTtl now false = _
  apply presentation_eq_of_valid
  unfold validAgentMetadata
  rw [show (withoutStaleMetadata t deadline now).agentMetadata.values = _ from
    values_retain t.agentMetadata _, List.filter_filter]
  apply List.filter_congr
  intro metadata hmem
  have hvisible : (withoutStaleMetadata t deadline now).agentMetadataIsVisibleIgnoringTtl metadata
      = t.agentMetadataIsVisibleIgnoringTtl metadata := rfl
  rw [agentMetadataIsValid_eq, agentMetadataIsValid_eq, hvisible]
  cases hshows : t.agentMetadataIsVisibleIgnoringTtl metadata with
  | false => rfl
  | true =>
    cases hexpiry : agentMetadataExpiry metadata with
    | none => simp [agentMetadataIsExpired, hexpiry]
    | some own =>
      by_cases hlater : time < own
      · -- it showed at the last step, its event is pending, and the deadline is the first
        have httl : metadata.ttl.isSome = true := by
          rw [← isSome_agentMetadataExpiry, hexpiry]
          rfl
        have hshown : agentMetadataIsExpired metadata time = false := by
          simp [agentMetadataIsExpired, hexpiry, hlater]
        obtain ⟨next, hfound, hearlier⟩ := nextAgentMetadataExpiry_le now hmem
          (agentMetadataMatchesGuards_of_visible hshows)
          (hwaits metadata hmem hshows httl hshown) hexpiry
        rw [hnext] at hfound
        obtain rfl := Option.some.inj hfound
        simp [hshown, hearlier]
      · -- it was over at the last step, and is removed as stale
        have hover : own ≤ time := Nat.le_of_not_lt hlater
        have hstale : own < deadline := Nat.lt_of_le_of_lt hover hafter
        have hpassed : own ≤ now := hstale.le.trans hdue
        simp [agentMetadataIsExpired, hexpiry, hover, hstale, hpassed]

/-- The entries an expiry removes do not show at its time. -/
theorem presentation_expireAgentMetadataAt (deadline now : Instant) :
    (t.expireAgentMetadataAt deadline now).1.effectivePresentationAt now
      = t.effectivePresentationAt now := by
  have hretain : ∀ (u : TerminalState) (keep : AgentMetadata → Bool),
      (∀ metadata, agentMetadataIsExpired metadata now = false → keep metadata = true) →
      ({ u with agentMetadata := u.agentMetadata.retain fun _ metadata => keep metadata
        }).effectivePresentationAt now = u.effectivePresentationAt now := by
    intro u keep hkeep
    apply presentation_eq_of_valid
    unfold validAgentMetadata
    dsimp only
    rw [values_retain, List.filter_filter]
    apply List.filter_congr
    intro metadata _
    rw [agentMetadataIsValid_eq, agentMetadataIsValid_eq]
    cases hexpired : agentMetadataIsExpired metadata now with
    | true => simp
    | false =>
      rw [hkeep metadata hexpired]
      exact Bool.and_true _
  have hstale : (withoutStaleMetadata t deadline now).effectivePresentationAt now
      = t.effectivePresentationAt now := by
    apply hretain t
    intro metadata hrunning
    have hdue : (agentMetadataExpiry metadata).any (fun own => own ≤ now) = false := hrunning
    rw [hdue]
    rfl
  unfold expireAgentMetadataAt
  dsimp only
  split
  · exact hstale
  · rw [← hstale, presentation_recomputeEffectiveState]
    apply hretain (withoutStaleMetadata t deadline now)
    intro metadata hrunning
    have hdue : (agentMetadataExpiry metadata).any (fun own => own ≤ now) = false := hrunning
    rw [hdue]
    rfl

end

/-! ### What mutations do to metadata -/

/-- The metadata after is metadata from before, and what shows keeps its flag. -/
def Kept (t t' : TerminalState) : Prop :=
  ∀ source after, t'.agentMetadata.get source = some after →
    ∃ before, t.agentMetadata.get source = some before
      ∧ after = { before with expiryEventPending := after.expiryEventPending }
      ∧ (t'.agentMetadataIsVisibleIgnoringTtl after = true →
        after.expiryEventPending = before.expiryEventPending)

/-- No metadata is new. -/
def Carried (t u : TerminalState) : Prop :=
  ∀ source metadata, u.agentMetadata.get source = some metadata →
    t.agentMetadata.get source = some metadata

theorem Carried.of_eq (h : u.agentMetadata = t.agentMetadata) : Carried t u := by
  intro source metadata hget
  rw [← h]
  exact hget

theorem Carried.trans {w : TerminalState} (h : Carried t u) (h' : Carried u w) :
    Carried t w := fun source metadata hget => h source metadata (h' source metadata hget)

/-- Guards look at the label and at the source of the authority. -/
theorem agentMetadataIsVisibleIgnoringTtl_eq_of_view (h : view t' = view t)
    (metadata : AgentMetadata) :
    t'.agentMetadataIsVisibleIgnoringTtl metadata
        = t.agentMetadataIsVisibleIgnoringTtl metadata := by
  have hview : ∀ u : TerminalState, u.agentMetadataIsVisibleIgnoringTtl metadata
      = (view u).terminal.agentMetadataIsVisibleIgnoringTtl metadata := fun _ => rfl
  rw [hview t', hview t, h]

theorem Kept.of_view (h : view t' = view t) : Kept t t' := by
  intro source after hget
  have hmetadata : t'.agentMetadata = t.agentMetadata := congrArg View.metadata h
  rw [hmetadata] at hget
  exact ⟨after, hget, rfl, fun _ => rfl⟩

/-- Gates that leave the view alone may come before. -/
theorem Kept.of_view_left (hview : view u = view t) (h : Kept u t') : Kept t t' := by
  intro source after hget
  have hmetadata : u.agentMetadata = t.agentMetadata := congrArg View.metadata hview
  obtain ⟨before, hbefore, hrest⟩ := h source after hget
  rw [hmetadata] at hbefore
  exact ⟨before, hbefore, hrest⟩

/-- Only the flags of what is hidden change. -/
theorem get_clearExpiryPendingForHiddenMetadata {source : String} {after : AgentMetadata}
    (h : t.clearExpiryPendingForHiddenMetadata.agentMetadata.get source = some after) :
    ∃ before, t.agentMetadata.get source = some before
      ∧ after = { before with expiryEventPending := after.expiryEventPending }
      ∧ (t.agentMetadataIsVisibleIgnoringTtl after = true →
        after.expiryEventPending = before.expiryEventPending) := by
  change (t.agentMetadata.mapValues _).get source = some after at h
  rw [HashMap.get_mapValues, Option.map_eq_some_iff] at h
  obtain ⟨before, hget, hafter⟩ := h
  refine ⟨before, hget, ?_⟩
  split at hafter
  next hhidden =>
    rw [← hafter]
    refine ⟨rfl, ?_⟩
    intro hvisible
    have hbefore : t.agentMetadataIsVisibleIgnoringTtl before = true := hvisible
    rw [hbefore] at hhidden
    simp at hhidden
  next =>
    rw [← hafter]
    exact ⟨rfl, fun _ => rfl⟩

/-- A mutation that ends with the arbitration, and perhaps with a change that does not show. -/
theorem Kept.recompute {base : TerminalState} {previous : Previous} (hbase : Carried t base)
    (hview : view t' = view (base.recomputeEffectiveState previous now).1) : Kept t t' := by
  intro source after hget
  have hmetadata : t'.agentMetadata = base.clearExpiryPendingForHiddenMetadata.agentMetadata := by
    refine (congrArg View.metadata hview).trans ?_
    show (base.recomputeEffectiveState previous now).1.agentMetadata = _
    unfold recomputeEffectiveState
    dsimp only
    split
    · rfl
    · rfl
  have hvisible : t'.agentMetadataIsVisibleIgnoringTtl after
      = base.agentMetadataIsVisibleIgnoringTtl after := by
    rw [agentMetadataIsVisibleIgnoringTtl_eq_of_view hview]
    obtain ⟨_, _, hframe⟩ := recomputeEffectiveState_frame base previous now
    rw [hframe]
    rfl
  rw [hmetadata] at hget
  obtain ⟨before, hbefore, hsame, hflag⟩ := get_clearExpiryPendingForHiddenMetadata hget
  refine ⟨before, hbase source before hbefore, hsame, ?_⟩
  rw [hvisible]
  exact hflag

section

variable (t : TerminalState)

@[simp] theorem agentMetadata_reconcileAgentNameOwner (label : String)
    (sessionRef : Option AgentSessionRef) :
    (t.reconcileAgentNameOwner label sessionRef).agentMetadata = t.agentMetadata := by
  obtain ⟨_, _, h⟩ := reconcileAgentNameOwner_eq t label sessionRef
  rw [h]

@[simp] theorem agentMetadata_suppressCurrentFullLifecycleHookAuthority
    (reason : FullLifecycleHookSuppressionReason) (clock : Instant) :
    (t.suppressCurrentFullLifecycleHookAuthority reason clock).agentMetadata
      = t.agentMetadata := by
  obtain ⟨_, h⟩ := suppressCurrentFullLifecycleHookAuthority_eq t reason clock
  rw [h]

@[simp] theorem agentMetadata_suppressFullLifecycleHookReport (source label : String)
    (reason : FullLifecycleHookSuppressionReason) (clock : Instant) :
    (t.suppressFullLifecycleHookReport source label reason clock).agentMetadata
      = t.agentMetadata := by
  obtain ⟨_, h⟩ := suppressFullLifecycleHookReport_eq t source label reason clock
  rw [h]

@[simp] theorem agentMetadata_forgetStaleFullLifecycleHookSession (source label : String)
    (sessionRef : AgentSessionRef) :
    (t.forgetStaleFullLifecycleHookSession source label sessionRef).agentMetadata
      = t.agentMetadata := by
  obtain ⟨_, h⟩ := forgetStaleFullLifecycleHookSession_eq t source label sessionRef
  rw [h]

@[simp] theorem agentMetadata_setReportedResume (resume : Option ReportedAgentResume) :
    (t.setReportedResume resume).agentMetadata = t.agentMetadata := by
  obtain ⟨_, _, h⟩ := setReportedResume_eq t resume
  rw [h]

@[simp] theorem agentMetadata_forgetReportedResumeOf (source label : String) :
    (t.forgetReportedResumeOf source label).agentMetadata = t.agentMetadata := by
  obtain ⟨_, _, h⟩ := forgetReportedResumeOf_eq t source label
  rw [h]

@[simp] theorem agentMetadata_endReportedSuppression (source : String)
    (sessionRef : Option AgentSessionRef) (reanchor : Bool) :
    (t.endReportedSuppression source sessionRef reanchor).agentMetadata = t.agentMetadata := by
  obtain ⟨_, _, h, -⟩ := endReportedSuppression_eq t source sessionRef reanchor
  rw [h]

theorem agentMetadata_adoptReplacement_foldl (replacements : List ValidatedReplacement)
    (t : TerminalState) :
    (replacements.foldl adoptReplacement t).agentMetadata = t.agentMetadata := by
  induction replacements generalizing t with
  | nil => rfl
  | cons replacement rest ih =>
    rw [List.foldl_cons, ih]
    obtain ⟨source, label, sessionRef, pending⟩ := replacement
    unfold adoptReplacement
    cases pending with
    | none => simp
    | some pending => simp

@[simp] theorem agentMetadata_clearFullLifecycleHookSuppressionForDetectedAgent
    (previousDetectedAgent detectedAgent : Option Agent) :
    (t.clearFullLifecycleHookSuppressionForDetectedAgent previousDetectedAgent
      detectedAgent).agentMetadata = t.agentMetadata := by
  unfold clearFullLifecycleHookSuppressionForDetectedAgent
  cases detectedAgent with
  | none => rfl
  | some detected =>
    dsimp only
    split
    · rfl
    · obtain ⟨sessions, hsessions⟩ := rememberStaleFullLifecycleHookSession_foldl_eq _ _
      rw [hsessions, agentMetadata_adoptReplacement_foldl]

@[simp] theorem agentMetadata_endReplacedAuthority (source label : String)
    (sessionRef : AgentSessionRef) (replaced : Option AgentSessionRef)
    (replacementAllowed takeoverAllowed : Bool) (clock : Instant) :
    (t.endReplacedAuthority source label sessionRef replaced replacementAllowed takeoverAllowed
      clock).agentMetadata = t.agentMetadata := by
  have hforget : ∀ u : TerminalState, (if replacementAllowed || takeoverAllowed then
      u.forgetStaleFullLifecycleHookSession source label sessionRef else u).agentMetadata
        = u.agentMetadata := by
    intro u
    split
    · exact agentMetadata_forgetStaleFullLifecycleHookSession u source label sessionRef
    · rfl
  have hcodex : ∀ test : Bool, (if test then { t with hookAuthority := none } else t).agentMetadata
      = t.agentMetadata := by
    intro test
    cases test with
    | true => rfl
    | false => rfl
  unfold endReplacedAuthority
  dsimp only
  cases replaced with
  | some replaced =>
    show (if replacementAllowed || takeoverAllowed then _ else _ : TerminalState).agentMetadata = _
    rw [hforget, hcodex]
  | none =>
    dsimp only
    split
    · show (suppressCurrentFullLifecycleHookAuthority _ _ _).agentMetadata = _
      rw [agentMetadata_suppressCurrentFullLifecycleHookAuthority, hforget, hcodex]
    · rw [hforget, hcodex]

@[simp] theorem agentMetadata_dropReleasedAgent (source label : String)
    (processOwnsAgent preserve : Bool) (clock : Instant) :
    (t.dropReleasedAgent source label processOwnsAgent preserve clock).agentMetadata
      = t.agentMetadata := by
  unfold dropReleasedAgent
  dsimp only
  rw [agentMetadata_forgetReportedResumeOf]
  dsimp only
  split
  · exact agentMetadata_suppressFullLifecycleHookReport t source label .hookClear clock
  · exact agentMetadata_suppressFullLifecycleHookReport t source label .hookClear clock

/-- An exit takes metadata of the agent away. -/
theorem carried_applyProcessExit (agent : Option Agent) (newer : Bool) (now : Instant) :
    Carried t (t.applyProcessExit agent newer now) := by
  have hrenew : (t.renewSuppressions agent now).agentMetadata = t.agentMetadata := by
    unfold renewSuppressions
    dsimp only
    rw [foldl_removeSequence_eq]
    obtain ⟨sessions, hsessions⟩ := rememberStaleFullLifecycleHookSession_foldl_eq _ _
    rw [hsessions]
  have hofficial : ∀ u : TerminalState,
      (u.suppressOfficialSession agent now).agentMetadata = u.agentMetadata := by
    intro u
    unfold suppressOfficialSession
    split
    · rfl
    · rfl
  have hauthority : ∀ u : TerminalState,
      (u.endAgentAuthority agent newer).agentMetadata = u.agentMetadata := by
    intro u
    unfold endAgentAuthority
    split
    · split
      · rfl
      · rfl
    · rfl
  have hsession : ∀ u : TerminalState,
      (u.endAgentSession agent newer).agentMetadata = u.agentMetadata := by
    intro u
    unfold endAgentSession
    dsimp only
    split
    · split
      · rw [agentMetadata_setReportedResume]
      · rfl
    · split
      · rw [agentMetadata_setReportedResume]
      · rfl
  have hparts : Carried t ((((t.renewSuppressions agent now).suppressOfficialSession agent
      now).endAgentAuthority agent newer).endAgentSession agent newer) := by
    apply Carried.of_eq
    rw [hsession, hauthority, hofficial, hrenew]
  apply hparts.trans
  cases agent with
  | none => exact .of_eq rfl
  | some agent =>
    intro source metadata hget
    change (HashMap.retain _ _).get source = some metadata at hget
    rw [HashMap.get_retain, Option.filter_eq_some_iff] at hget
    exact hget.1

theorem agentMetadata_dropConflictingAuthority (previousDetectedAgent agent : Option Agent)
    (now clock : Instant) :
    (t.dropConflictingAuthority previousDetectedAgent agent now clock).agentMetadata
      = t.agentMetadata := by
  unfold dropConflictingAuthority
  split
  · exact agentMetadata_suppressCurrentFullLifecycleHookAuthority t .hookClear clock
  · rfl

theorem carried_applyDetection (agent : Option Agent) (fallbackState : AgentState)
    (visibleBlocker processExited : Bool) (now clock : Instant) :
    Carried t (t.applyDetection agent fallbackState visibleBlocker processExited now clock) := by
  obtain ⟨ready, name, owner, hnoted⟩ := noteDetectedAgent_eq t agent fallbackState processExited
  unfold applyDetection
  dsimp only
  rw [hnoted]
  generalize hseen : (if !processExited then clearFullLifecycleHookSuppressionForDetectedAgent _ _ _
    else _) = u
  have hu : u.agentMetadata = t.agentMetadata := by
    rw [← hseen]
    split
    · rw [agentMetadata_clearFullLifecycleHookSuppressionForDetectedAgent]
    · rfl
  have hname : ∀ w : TerminalState, (if agent.isNone && w.recentAgentProcessExit.isSome then
      w.clearAgentName else w).agentMetadata = w.agentMetadata := by
    intro w
    split
    · rfl
    · rfl
  have hexit : ∀ w : TerminalState, Carried w (if processExited then
      w.applyProcessExit agent (processExited && t.newerCustomAuthority agent now) now else w) := by
    intro w
    split
    · exact carried_applyProcessExit w _ _ _
    · exact .of_eq rfl
  have hfallback : Carried t
      (u.noteFallback agent fallbackState visibleBlocker processExited now) :=
    .of_eq hu
  refine (hfallback.trans (hexit _)).trans (.of_eq ?_)
  rw [hname, agentMetadata_dropConflictingAuthority]

/-! ### Every mutation but reports of metadata -/

theorem applyHookReport_kept (report : HookReport) (sessionRef : Option AgentSessionRef)
    (takeover reanchor : Bool) (now clock : Instant) :
    Kept t (t.applyHookReport report sessionRef takeover reanchor now clock).1 := by
  unfold applyHookReport
  dsimp only
  refine .recompute (.of_eq ?_) rfl
  show (endReportedSuppression _ _ _ _).agentMetadata = _
  rw [agentMetadata_endReportedSuppression]
  split
  · rw [agentMetadata_suppressCurrentFullLifecycleHookAuthority,
      agentMetadata_reconcileAgentNameOwner]
  · rw [agentMetadata_reconcileAgentNameOwner]

theorem setHookAuthorityAt_kept (report : HookReport) (now clock : Instant) :
    Kept t (t.setHookAuthorityAt report now clock).1 := by
  unfold setHookAuthorityAt
  split
  · exact .of_view rfl
  · split
    · exact .of_view rfl
    · rcases routeFullLifecycleHookReport_cases t report now with
        hroute | ⟨sessionRef, seq, -, -, -, hroute⟩ | ⟨reanchor, hroute, -⟩
      · rw [hroute]
        exact .of_view rfl
      · rw [hroute]
        exact .of_view rfl
      · rw [hroute]
        dsimp only
        split
        · exact .of_view rfl
        next sessionRef takeover howner =>
          generalize hanchor : (if reanchor then
            { t with hookReportSequences := t.hookReportSequences.remove report.source }
            else t) = anchored
          have hanchored : view anchored = view t := by
            rw [← hanchor]
            split
            · rfl
            · rfl
          have hview := (view_acceptHookReport anchored report.source report.seq).trans hanchored
          split
          next u haccept =>
            rw [haccept] at hview
            exact .of_view hview
          next u haccept =>
            rw [haccept] at hview
            exact .of_view_left hview (applyHookReport_kept u report sessionRef takeover reanchor
              now clock)

theorem startFullLifecycleSession_kept (report : SessionReport) (sessionRef : AgentSessionRef)
    (clock : Instant) :
    Kept t (t.startFullLifecycleSession report sessionRef clock).1 := by
  unfold startFullLifecycleSession
  dsimp only
  split
  · exact .of_view rfl
  · split
    · exact .of_view rfl
    next seq hseq =>
      split
      · exact .of_view rfl
      · split
        · refine .recompute (.of_eq ?_) rfl
          rw [agentMetadata_clearFullLifecycleHookSuppressionForDetectedAgent]
          rfl
        · exact .of_view rfl

theorem applySessionReport_kept (source label : String) (sessionRef : AgentSessionRef)
    (replaced : Option AgentSessionRef) (replacementAllowed takeoverAllowed : Bool)
    (clock : Instant) :
    Kept t (t.applySessionReport source label sessionRef replaced replacementAllowed
      takeoverAllowed clock).1 := by
  unfold applySessionReport
  dsimp only
  refine .recompute (.of_eq ?_) rfl
  show (reconcileAgentNameOwner _ _ _).agentMetadata = _
  rw [agentMetadata_reconcileAgentNameOwner, agentMetadata_endReplacedAuthority]

theorem setAgentSessionRefForSessionStart_kept (report : SessionReport) (clock : Instant) :
    Kept t (t.setAgentSessionRefForSessionStart report clock).1 := by
  unfold setAgentSessionRefForSessionStart
  split
  · exact .of_view rfl
  next sessionRef hsession =>
    dsimp only
    split
    · exact .of_view rfl
    · generalize hselected : (if isUnsequencedOpencodeSelection report.source report.agentLabel
          report.sessionStartSource report.seq && t.processPresent report.agentLabel then
        { t with
          suppressedFullLifecycleHookReports :=
            t.suppressedFullLifecycleHookReports.remove report.source } else t) = u
      have hu : view u = view t := by
        rw [← hselected]
        split
        · rfl
        · rfl
      split
      · exact .of_view_left hu (startFullLifecycleSession_kept u report sessionRef clock)
      · generalize haccept : (if isUnsequencedOpencodeSelection report.source report.agentLabel
          report.sessionStartSource report.seq then (u, true)
          else u.acceptHookReport report.source report.seq) = accepted
        have haccepted : view accepted.1 = view t := by
          rw [← haccept]
          split
          · exact hu
          · exact (view_acceptHookReport u _ _).trans hu
        split
        · exact .of_view haccepted
        · split
          · exact .of_view haccepted
          · exact .of_view_left haccepted (applySessionReport_kept accepted.1 _ _ _ _ _ _ clock)

theorem clearHookAuthorityWithMutation_kept (source : Option String) (seq : Option Nat)
    (clock : Instant) :
    Kept t (t.clearHookAuthorityWithMutation source seq clock).1 := by
  unfold clearHookAuthorityWithMutation
  split
  · exact .of_view rfl
  next authority _ =>
    split
    · exact .of_view rfl
    · dsimp only
      have hview := view_acceptHookReport t (source.getD authority.source) seq
      split
      next u haccept =>
        rw [haccept] at hview
        exact .of_view hview
      next u haccept =>
        rw [haccept] at hview
        refine .of_view_left hview (.recompute (.of_eq ?_) rfl)
        show (forgetReportedResumeOf _ _ _).agentMetadata = _
        rw [agentMetadata_forgetReportedResumeOf]
        exact agentMetadata_suppressCurrentFullLifecycleHookAuthority u .hookClear clock

theorem releaseAgentWithMutation_kept (source label : String) (seq : Option Nat)
    (clock : Instant) :
    Kept t (t.releaseAgentWithMutation source label seq clock).1 := by
  unfold releaseAgentWithMutation
  split
  · exact .of_view rfl
  · dsimp only
    split
    · exact .of_view rfl
    · have hview := view_acceptHookReport t source seq
      split
      next u haccept =>
        rw [haccept] at hview
        exact .of_view hview
      next u haccept =>
        rw [haccept] at hview
        exact .of_view_left hview
          (.recompute (.of_eq (agentMetadata_dropReleasedAgent u source label _ _ clock)) rfl)

theorem clearSelfReportedAgent_kept (observedAt clock : Instant) :
    Kept t (t.clearSelfReportedAgent observedAt clock).1 := by
  unfold clearSelfReportedAgent
  split
  · exact .of_view rfl
  · dsimp only
    refine .recompute (.of_eq ?_) rfl
    exact agentMetadata_setReportedResume { t with hookAuthority := none } none

theorem setDetectedStateWithScreenSignalsAt_kept (agent : Option Agent)
    (fallbackState : AgentState) (visibleBlocker processExited : Bool) (now clock : Instant) :
    Kept t (t.setDetectedStateWithScreenSignalsAt agent fallbackState visibleBlocker
      processExited now clock).1 := by
  unfold setDetectedStateWithScreenSignalsAt
  dsimp only
  split
  · refine .recompute (.of_eq ?_) rfl
    split
    · rfl
    · rfl
  · split
    · exact .recompute (.of_eq rfl) rfl
    · exact .recompute (carried_applyDetection t agent fallbackState visibleBlocker processExited
        now clock) rfl

theorem setDetectedAgentProcessAt_kept (agent : Agent) (now clock : Instant) :
    Kept t (t.setDetectedAgentProcessAt agent now clock).1 := by
  have hkept := setDetectedStateWithScreenSignalsAt_kept t (some agent) .unknown false false now
    clock
  unfold setDetectedAgentProcessAt
  dsimp only
  split
  · exact hkept
  · exact hkept

theorem expireAgentMetadataAt_kept (deadline now : Instant) :
    Kept t (t.expireAgentMetadataAt deadline now).1 := by
  have hretain : ∀ (u : TerminalState) (keep : AgentMetadata → Bool),
      Carried u { u with
        agentMetadata := u.agentMetadata.retain fun _ metadata => keep metadata } := by
    intro u keep source metadata hget
    change (HashMap.retain _ _).get source = some metadata at hget
    rw [HashMap.get_retain, Option.filter_eq_some_iff] at hget
    exact hget.1
  unfold expireAgentMetadataAt
  dsimp only
  split
  · intro source after hget
    exact ⟨after, hretain t _ source after hget, rfl, fun _ => rfl⟩
  · have hstale : Carried t (withoutStaleMetadata t deadline now) := hretain t _
    have hdue := hretain (withoutStaleMetadata t deadline now) fun metadata =>
      !(agentMetadataExpiry metadata).any fun own => own ≤ now
    exact .recompute (hstale.trans hdue) rfl

/-- Every mutation but a report of metadata. -/
theorem step_kept {op : Op} {time : Instant} (htime : mutationTime op = some time)
    (hreport : ∀ report clock, op ≠ .agentMetadata report clock) : Kept t (t.step op).1 := by
  cases op with
  | detectedState agent fallbackState visibleBlocker processExited now clock =>
    exact setDetectedStateWithScreenSignalsAt_kept t agent fallbackState visibleBlocker
      processExited now clock
  | detectedAgentProcess agent now clock => exact setDetectedAgentProcessAt_kept t agent now clock
  | hookReport report now clock => exact setHookAuthorityAt_kept t report now clock
  | sessionReport report clock => exact setAgentSessionRefForSessionStart_kept t report clock
  | clearHookAuthority source seq clock =>
    exact clearHookAuthorityWithMutation_kept t source seq clock
  | releaseAgent source label seq clock =>
    exact releaseAgentWithMutation_kept t source label seq clock
  | clearSelfReportedAgent observedAt clock => exact clearSelfReportedAgent_kept t observedAt clock
  | agentMetadata report clock => exact absurd rfl (hreport report clock)
  | expireAgentMetadata deadline now => cases htime
  | respawn => cases htime
  | rehash suppressed metadata => cases htime

end

/-! ### What shows waits -/

section

variable {t : TerminalState} {time now : Instant}

variable {t' : TerminalState} {source : String} {clock : Instant}

/-- A mutation that keeps metadata, and reveals none, keeps it waiting. -/
theorem Waits.kept (h : Waits t time) (hle : time ≤ now) (hkept : Kept t t')
    (hrevealed : ∀ source before after, t.agentMetadata.get source = some before →
      t'.agentMetadata.get source = some after → after.ttl.isSome = true →
      agentMetadataIsExpired after now = false →
      t'.agentMetadataIsVisibleIgnoringTtl after = true →
        t.agentMetadataIsVisibleIgnoringTtl before = true) : Waits t' now := by
  intro after hmem hvisible httl hrunning
  obtain ⟨source, hget⟩ := mem_values_iff.mp hmem
  obtain ⟨before, hbefore, hsame, hflag⟩ := hkept source after hget
  have hshown := hrevealed source before after hbefore hget httl hrunning hvisible
  rw [hflag hvisible]
  apply h before (mem_values_iff.mpr ⟨source, hbefore⟩) hshown
  · rw [hsame] at httl
    exact httl
  · -- its time was running at the last step, as it still is
    rw [hsame] at hrunning
    cases hexpired : agentMetadataIsExpired before time with
    | false => rfl
    | true =>
      have hover : agentMetadataIsExpired before now = true :=
        agentMetadataIsExpired_mono hle hexpired
      have hrunning : agentMetadataIsExpired before now = false := hrunning
      rw [hover] at hrunning
      cases hrunning

/-- Time alone does no harm. -/
theorem Waits.later (h : Waits t time) (hle : time ≤ now) : Waits t now := by
  apply h.kept hle (.of_view rfl)
  intro source before after hbefore hafter _ _ hvisible
  rw [hbefore] at hafter
  obtain rfl := Option.some.inj hafter
  exact hvisible

/-- What `revealsNothing` says of one entry. -/
theorem visible_of_revealsNothing {op : Op} (h : revealsNothing t op now = true)
    {before after : AgentMetadata} (hrenews : renews op source = false)
    (hbefore : t.agentMetadata.get source = some before)
    (hafter : (t.step op).1.agentMetadata.get source = some after) (httl : after.ttl.isSome = true)
    (hrunning : agentMetadataIsExpired after now = false)
    (hvisible : (t.step op).1.agentMetadataIsVisibleIgnoringTtl after = true) :
    t.agentMetadataIsVisibleIgnoringTtl before = true := by
  unfold revealsNothing at h
  have hentry := List.all_eq_true.mp h ⟨source, after⟩ (HashMap.get_eq_some_iff.mp hafter)
  have hisNone : after.ttl.isNone = false := by
    cases hnone : after.ttl with
    | none =>
      rw [hnone] at httl
      cases httl
    | some ttl => rfl
  rw [hrenews, hbefore] at hentry
  simpa [hisNone, hrunning, hvisible] using hentry

/-! ### Reports of metadata -/

/-- Clearing the flags of what is hidden once more. -/
theorem Kept.clearExpiryPendingForHiddenMetadata (h : Kept t t') :
    Kept t t'.clearExpiryPendingForHiddenMetadata := by
  intro source after hget
  obtain ⟨between, hbetween, hsame, hflag⟩ := get_clearExpiryPendingForHiddenMetadata hget
  obtain ⟨before, hbefore, hsame', hflag'⟩ := h source between hbetween
  refine ⟨before, hbefore, ?_, ?_⟩
  · rw [hsame, hsame']
  · intro hvisible
    have hvisible : t'.agentMetadataIsVisibleIgnoringTtl after = true := hvisible
    have hbetweenVisible : t'.agentMetadataIsVisibleIgnoringTtl between = true := by
      rw [hsame] at hvisible
      exact hvisible
    rw [hflag hvisible, hflag' hbetweenVisible]

/-- The terminal with the reported metadata stored, before the arbitration. -/
def stored (t : TerminalState) (report : AgentMetadataReport) (clock : Instant) : TerminalState :=
  (t.dropExpiredMetadata report.source clock).storeMetadata report clock

/-- A report of metadata does nothing that shows, or it is stored. It does not touch guards. -/
theorem setAgentMetadata_cases (t : TerminalState) (report : AgentMetadataReport)
    (clock : Instant) :
    view (t.setAgentMetadata report clock).1 = view t
      ∨ Kept (stored t report clock) (t.setAgentMetadata report clock).1
        ∧ ∀ metadata, (t.setAgentMetadata report clock).1.agentMetadataIsVisibleIgnoringTtl metadata
          = t.agentMetadataIsVisibleIgnoringTtl metadata := by
  unfold setAgentMetadata
  split
  · exact .inl rfl
  · dsimp only
    have hview := view_acceptMetadataReport t report.source report.seq false
      (metadataReportAgent report.source report.agentLabel report.appliesToSource)
    split
    next u _ haccept =>
      rw [haccept] at hview
      exact .inl hview
    next u haccept =>
      rw [haccept] at hview
      exact .inl hview
    next u haccept =>
      right
      rw [haccept] at hview
      have hstored : (stored u report clock).agentMetadata
          = (stored t report clock).agentMetadata := by
        have hread : ∀ w : TerminalState, (stored w report clock).agentMetadata
            = (stored (view w).terminal report clock).agentMetadata := fun _ => rfl
        rw [hread u, hread t]
        rw [show view u = view t from hview]
      have hguards : ∀ metadata, u.agentMetadataIsVisibleIgnoringTtl metadata
          = t.agentMetadataIsVisibleIgnoringTtl metadata :=
        agentMetadataIsVisibleIgnoringTtl_eq_of_view hview
      have hcarried : Carried (stored t report clock) (stored u report clock) := .of_eq hstored
      have hkept : Kept (stored t report clock) ((stored u report clock).recomputeEffectiveState
          ((u.dropExpiredMetadata report.source clock).previous clock) clock).1 :=
        .recompute hcarried rfl
      have hvisible : ∀ metadata, ((stored u report clock).recomputeEffectiveState
          ((u.dropExpiredMetadata report.source clock).previous clock)
            clock).1.agentMetadataIsVisibleIgnoringTtl metadata
          = t.agentMetadataIsVisibleIgnoringTtl metadata := by
        intro metadata
        rw [← hguards]
        obtain ⟨_, _, hframe⟩ := recomputeEffectiveState_frame (stored u report clock)
          ((u.dropExpiredMetadata report.source clock).previous clock) clock
        rw [hframe]
        rfl
      split
      · exact ⟨hkept.clearExpiryPendingForHiddenMetadata, hvisible⟩
      · exact ⟨hkept, hvisible⟩

/-- The entry of the reporting source in the store. -/
theorem get_stored_self (t : TerminalState) (report : AgentMetadataReport) (clock : Instant) :
    (stored t report clock).agentMetadata.get report.source
      = some { (t.dropExpiredMetadata report.source clock).reportedMetadata report clock with
          expiryEventPending :=
            if report.ttl.isSome && t.agentMetadataIsVisibleIgnoringTtl
              ((t.dropExpiredMetadata report.source clock).reportedMetadata report clock) then true
            else ((t.dropExpiredMetadata report.source clock).reportedMetadata report
              clock).expiryEventPending } :=
  HashMap.get_insert_self _ _ _

variable {report : AgentMetadataReport}

/-- The entries of the others. -/
theorem get_stored_of_ne {t : TerminalState} (h : source ≠ report.source) :
    (stored t report clock).agentMetadata.get source = t.agentMetadata.get source := by
  refine (HashMap.get_insert_of_ne _ h _).trans ?_
  show (if _ then _ else _ : HashMap String AgentMetadata).get source = _
  split
  · exact HashMap.get_remove_of_ne _ h
  · rfl

/-- The reported entry of a source with a time to live that the report does not name: the entry
was there before, and the report sets nothing. -/
theorem reportedMetadata_of_ttl {u : TerminalState} (hreport : report.ttl = none)
    (httl : (u.reportedMetadata report clock).ttl.isSome = true) :
    renews (.agentMetadata report clock) report.source = false
      ∧ ∃ before, u.agentMetadata.get report.source = some before
        ∧ agentMetadataExpiry (u.reportedMetadata report clock) = agentMetadataExpiry before
        ∧ (u.reportedMetadata report clock).expiryEventPending = before.expiryEventPending := by
  unfold reportedMetadata at httl ⊢
  dsimp only at httl ⊢
  split at httl
  next hclears =>
    rw [if_pos hclears]
    cases hget : u.agentMetadata.get report.source with
    | none =>
      exfalso
      rw [hget] at httl
      simp [patchMetadata, hreport] at httl
    | some before =>
      rw [hget] at httl
      simp only [Option.getD_some] at httl ⊢
      cases hset : (report.title.isSome || report.displayAgent.isSome
          || !report.stateLabels.entries.isEmpty) with
      | true =>
        exfalso
        simp [patchMetadata, hset, hreport] at httl
      | false =>
        refine ⟨?_, before, rfl, ?_, ?_⟩
        · simp only [renews, hset, hreport]
          simp
        · simp [patchMetadata, hset, hreport, agentMetadataExpiry]
        · simp [patchMetadata, hset, hreport]
  next =>
    rw [hreport] at httl
    cases httl

theorem Waits.setAgentMetadata (h : Waits t time) (hle : time ≤ now)
    (hreveals : revealsNothing t (.agentMetadata report now) now = true) :
    Waits (t.setAgentMetadata report now).1 now := by
  rcases setAgentMetadata_cases t report now with hview | ⟨hkept, hguards⟩
  · -- the report was not taken
    apply h.kept hle (.of_view hview)
    intro source before after hbefore hafter _ _ hvisible
    have hmetadata : (t.setAgentMetadata report now).1.agentMetadata = t.agentMetadata :=
      congrArg View.metadata hview
    rw [hmetadata, hbefore] at hafter
    obtain rfl := Option.some.inj hafter
    rw [← agentMetadataIsVisibleIgnoringTtl_eq_of_view hview]
    exact hvisible
  · intro after hmem hvisible httl hrunning
    obtain ⟨source, hget⟩ := mem_values_iff.mp hmem
    obtain ⟨entry, hentry, hsame, hflag⟩ := hkept source after hget
    rw [hflag hvisible]
    have hentryVisible : t.agentMetadataIsVisibleIgnoringTtl entry = true := by
      rw [hguards, hsame] at hvisible
      exact hvisible
    have hentryTtl : entry.ttl.isSome = true := by
      rw [hsame] at httl
      exact httl
    have hentryRunning : agentMetadataIsExpired entry now = false := by
      rw [hsame] at hrunning
      exact hrunning
    by_cases hsource : source = report.source
    · subst hsource
      rw [get_stored_self] at hentry
      obtain rfl := Option.some.inj hentry
      cases hreport : report.ttl with
      | some ttl =>
        -- a visible report with a time to live waits from the start
        have hvisible : t.agentMetadataIsVisibleIgnoringTtl
            ((t.dropExpiredMetadata report.source now).reportedMetadata report now) = true :=
          hentryVisible
        simp [hvisible]
      | none =>
        -- the report cleared fields of an entry with a time to live
        obtain ⟨hrenews, before, hbefore, hexpiry, hpending⟩ :=
          reportedMetadata_of_ttl hreport hentryTtl
        have hbefore : t.agentMetadata.get report.source = some before := by
          change (if _ then _ else _ : HashMap String AgentMetadata).get report.source
            = some before at hbefore
          split at hbefore
          · rw [HashMap.get_remove_self] at hbefore
            cases hbefore
          · exact hbefore
        have hbeforeTtl : before.ttl.isSome = true := by
          rw [← isSome_agentMetadataExpiry, ← hexpiry, isSome_agentMetadataExpiry]
          exact hentryTtl
        have hbeforeRunning : agentMetadataIsExpired before time = false := by
          have hnow : agentMetadataIsExpired before now = false := by
            unfold agentMetadataIsExpired at hentryRunning ⊢
            rw [← hexpiry]
            exact hentryRunning
          cases hexpired : agentMetadataIsExpired before time with
          | false => rfl
          | true =>
            rw [agentMetadataIsExpired_mono hle hexpired] at hnow
            cases hnow
        have hshown := visible_of_revealsNothing hreveals hrenews hbefore hget httl hrunning
          hvisible
        simp only [Option.isSome_none, Bool.false_and, Bool.false_eq_true, if_false]
        rw [hpending]
        exact h before (mem_values_iff.mpr ⟨_, hbefore⟩) hshown hbeforeTtl hbeforeRunning
    · rw [get_stored_of_ne hsource] at hentry
      apply h entry (mem_values_iff.mpr ⟨source, hentry⟩) hentryVisible hentryTtl
      cases hexpired : agentMetadataIsExpired entry time with
      | false => rfl
      | true =>
        rw [agentMetadataIsExpired_mono hle hexpired] at hentryRunning
        cases hentryRunning

/-- A mutation that reveals nothing. -/
theorem Waits.step {op : Op} (h : Waits t time) (hle : time ≤ now)
    (htime : mutationTime op = some now) (hreveals : revealsNothing t op now = true) :
    Waits (t.step op).1 now := by
  by_cases hreport : ∃ report clock, op = .agentMetadata report clock
  · obtain ⟨report, clock, rfl⟩ := hreport
    obtain rfl : clock = now := Option.some.inj htime
    exact h.setAgentMetadata hle hreveals
  · have hother : ∀ report clock, op ≠ .agentMetadata report clock := fun report clock heq =>
      hreport ⟨report, clock, heq⟩
    apply h.kept hle (step_kept t htime hother)
    intro source before after hbefore hafter httl hrunning hvisible
    apply visible_of_revealsNothing hreveals _ hbefore hafter httl hrunning hvisible
    cases op with
    | agentMetadata report clock => exact absurd rfl (hother report clock)
    | _ => rfl

/-- An expiry touches no guards. -/
theorem Waits.expireAgentMetadataAt (h : Waits t time) (hle : time ≤ now) (deadline : Instant) :
    Waits (t.expireAgentMetadataAt deadline now).1 now := by
  apply h.kept hle (expireAgentMetadataAt_kept t deadline now)
  intro source before after hbefore hafter _ _ hvisible
  obtain ⟨entry, hentry, hsame, -⟩ := expireAgentMetadataAt_kept t deadline now source after hafter
  rw [hbefore] at hentry
  obtain rfl := Option.some.inj hentry
  rw [hsame] at hvisible
  have hguards : ∀ metadata, (t.expireAgentMetadataAt deadline
      now).1.agentMetadataIsVisibleIgnoringTtl metadata
        = t.agentMetadataIsVisibleIgnoringTtl metadata := by
    intro metadata
    unfold TerminalState.expireAgentMetadataAt
    dsimp only
    split
    · rfl
    · obtain ⟨_, _, hframe⟩ := recomputeEffectiveState_frame
        { withoutStaleMetadata t deadline now with
          agentMetadata := (withoutStaleMetadata t deadline now).agentMetadata.retain
            fun _ metadata => !(agentMetadataExpiry metadata).any fun own => own ≤ now }
        (beforeExpiry t deadline now) now
      exact (congrArg (fun u => agentMetadataIsVisibleIgnoringTtl u metadata) hframe).trans rfl
  rw [hguards] at hvisible
  exact hvisible

end

/-! ### Runs -/

/-- The reported presentation is the one shown at the last step, and what shows waits. -/
structure Announced (s : Watched) : Prop where
  shown : s.reported.same (s.terminal.effectivePresentationAt s.time) = true
  waits : Waits s.terminal s.time

/-- A report carries what is shown, so only silence needs a reason. -/
theorem same_reportedAfter_of_quiet (hsound : Sound s.terminal before now outcome)
    (hquiet : outcome.2.bind TerminalStateMutation.effectiveStateChange = none →
      s.reported.same (outcome.1.effectivePresentationAt now) = true) :
    (s.reportedAfter outcome.2).same (outcome.1.effectivePresentationAt now) = true := by
  unfold Watched.reportedAfter
  cases hchange : outcome.2.bind TerminalStateMutation.effectiveStateChange with
  | none => exact hquiet hchange
  | some change =>
    obtain ⟨-, -, -, -, -, -, -, hpresentation⟩ := hsound.2.fields change hchange
    show change.presentation.same _ = true
    rw [hpresentation]
    exact same_self _

/-- A mutation that compares with the reported presentation is silent only when that is still
what is shown. -/
theorem same_reportedAfter (hsound : Sound s.terminal before now outcome)
    (h : s.reported.same before.presentation = true) :
    (s.reportedAfter outcome.2).same (outcome.1.effectivePresentationAt now) = true := by
  apply same_reportedAfter_of_quiet hsound
  intro hchange
  have hquiet := hsound.2.isSome_iff
  rw [hchange] at hquiet
  simp only [Option.isSome_none, Bool.false_eq_true, false_iff, not_not] at hquiet
  exact same_trans h hquiet.2.2

theorem Announced.mutated {op : Op} {time : Instant} (h : Announced s) (hle : s.time ≤ time)
    (htime : mutationTime op = some time) (hsame : s.showsTheSame time = true)
    (hreveals : revealsNothing s.terminal op time = true) : Announced (s.mutated op time) where
  shown := by
    have hnoted : noted s.terminal op = some (s.terminal.previous time, time) := by
      cases op with
      | expireAgentMetadata deadline now => cases htime
      | respawn => cases htime
      | rehash suppressed metadata => cases htime
      | _ =>
        cases htime
        rfl
    exact same_reportedAfter (step_sound s.terminal hnoted) (same_trans h.shown hsame)
  waits := h.waits.step hle htime hreveals

/-- A poll leaves a terminal whose presentation was reported. -/
theorem Announced.polled (h : Announced s) (hle : s.time ≤ now)
    (hmeets : s.meets (.poll now) = true) : Announced (s.polled now) := by
  -- without an event that is due, what is shown is what was shown
  have hquiet : (¬ ∃ deadline, s.terminal.nextAgentMetadataExpiry now = some deadline
      ∧ deadline ≤ now) → s.reported.same (s.terminal.effectivePresentationAt now) = true := by
    intro hnone
    have hstill : s.terminal.effectivePresentationAt now
        = s.terminal.effectivePresentationAt s.time := by
      by_contra hchanged
      exact hnone (nextAgentMetadataExpiry_due h.waits hle hchanged)
    rw [hstill]
    exact h.shown
  unfold Watched.polled
  split
  next deadline hnext =>
    split
    next hdue =>
      refine ⟨?_, h.waits.expireAgentMetadataAt hle deadline⟩
      have hmeets : (s.showsTheSame now || s.noExpiryDue) = true := hmeets
      rw [Bool.or_eq_true] at hmeets
      rcases hmeets with hsame | hnotDue
      · -- nothing that showed ended, so a report or none is right
        apply same_reportedAfter_of_quiet (expireAgentMetadataAt_sound s.terminal deadline now)
        intro _
        rw [presentation_expireAgentMetadataAt]
        exact same_trans h.shown hsame
      · -- the expiry compares with what showed at the last step
        have hnotDue : ∀ next, s.terminal.nextAgentMetadataExpiry s.time = some next →
            s.time < next := by
          intro next hfound
          unfold Watched.noExpiryDue at hnotDue
          rw [hfound] at hnotDue
          exact of_decide_eq_true hnotDue
        apply same_reportedAfter (expireAgentMetadataAt_sound s.terminal deadline now)
        rw [beforeExpiry_presentation h.waits hnext hdue hnotDue]
        exact h.shown
    next hnotDue =>
      refine ⟨hquiet ?_, h.waits.later hle⟩
      rintro ⟨next, hfound, hpassed⟩
      rw [hnext] at hfound
      obtain rfl := Option.some.inj hfound
      exact hnotDue hpassed
  next hnone =>
    refine ⟨hquiet ?_, h.waits.later hle⟩
    rintro ⟨next, hfound, -⟩
    rw [hnone] at hfound
    cases hfound

theorem time_polled (s : Watched) (now : Instant) : (s.polled now).time = now := by
  unfold Watched.polled
  split
  · split
    · rfl
    · rfl
  · rfl

theorem announced_of_watchedRun (h : WatchedRun s) : Announced s := by
  refine h.invariant Announced ?_ ?_
  · rintro s ⟨time, rfl⟩
    refine ⟨rfl, ?_⟩
    intro metadata hmem
    cases hmem
  · intro s w s' answer hmeets hstep hannounced
    cases w with
    | mutation op =>
      unfold Watched.step at hstep
      dsimp only at hstep
      split at hstep
      next time htime =>
        split at hstep
        next hle =>
          obtain ⟨rfl, -⟩ := Prod.mk.inj (Option.some.inj hstep)
          have hmeets : (mutationTime op).all (fun time => s.showsTheSame time
              && revealsNothing s.terminal op time) = true := hmeets
          rw [htime, Option.all_some, Bool.and_eq_true] at hmeets
          exact hannounced.mutated hle htime hmeets.1 hmeets.2
        · cases hstep
      · cases hstep
    | poll now =>
      unfold Watched.step at hstep
      dsimp only at hstep
      split at hstep
      next hle =>
        obtain ⟨rfl, -⟩ := Prod.mk.inj (Option.some.inj hstep)
        exact hannounced.polled hle hmeets
      · cases hstep

/-- In a run that meets the condition, the presentation last reported after a poll and the
expiry that follows it is the one in force. And whenever time alone has made the two differ, a
poll finds a deadline that has passed. -/
theorem expiry_announced {s : Watched} (h : WatchedRun s) {now : Instant} (hle : s.time ≤ now) :
    (s.meets (.poll now) = true →
      (s.polled now).reported.same ((s.polled now).terminal.effectivePresentationAt now) = true)
      ∧ (s.reported.same (s.terminal.effectivePresentationAt now) = false →
        ∃ deadline, s.terminal.nextAgentMetadataExpiry now = some deadline ∧ deadline ≤ now) := by
  have hannounced := announced_of_watchedRun h
  constructor
  · intro hmeets
    have hpolled := (hannounced.polled hle hmeets).shown
    rw [time_polled] at hpolled
    exact hpolled
  · intro hdiffers
    apply nextAgentMetadataExpiry_due hannounced.waits hle
    intro hstill
    rw [hstill, hannounced.shown] at hdiffers
    cases hdiffers

/-- A title of pi's for five nanoseconds. -/
def piTitle : AgentMetadataReport :=
  { shortTitle with agentLabel := some "pi" }

/-- The same source takes the title back. -/
def noTitle : AgentMetadataReport :=
  { shortTitle with title := none, ttl := none }

def newWatched : Watched := ⟨.new, ⟨none, none, ∅⟩, 0⟩

/-- Pi is detected, reports a title, and a poll at nine finds that its time is over. -/
theorem expiry_announced_pi :
    ∃ s, WatchedRun s ∧ s.time ≤ 9 ∧ s.reported.title = some "build"
      ∧ (s.polled 9).reported.same ((s.polled 9).terminal.effectivePresentationAt 9) = true
      ∧ (s.polled 9).reported.title = none
      ∧ ∃ deadline, s.terminal.nextAgentMetadataExpiry 9 = some deadline ∧ deadline ≤ 9 := by
  have hrun : (runAll (guarded Watched.meets Watched.step) newWatched
      [.mutation (.detectedState (some .pi) .idle false false 1 1),
        .mutation (.agentMetadata piTitle 2), .poll 3]).any (fun s =>
      s.time = 3 && s.reported.title = some "build" && s.meets (.poll 9)
        && (s.polled 9).reported.title = none
        && !s.reported.same (s.terminal.effectivePresentationAt 9)) = true := by
    decide +kernel
  obtain ⟨s, hsome, hends⟩ := (Option.any_eq_true _ _).mp hrun
  simp only [Bool.and_eq_true, decide_eq_true_eq, Bool.not_eq_true'] at hends
  obtain ⟨⟨⟨⟨htime, htitle⟩, hmeets⟩, hgone⟩, hdiffers⟩ := hends
  have hreached : WatchedRun s := Reachable.runAll (fun _ _ h => h) (.start ⟨0, rfl⟩) hsome
  have hle : s.time ≤ 9 := by
    rw [htime]
    decide
  obtain ⟨hpolled, hfound⟩ := expiry_announced hreached hle
  exact ⟨s, hreached, hle, htitle, hpolled hmeets, hgone, hfound hdiffers⟩

/-- Two ways for a title to end unreported. It is reported before pi is seen and shows from then
on, with no event pending for it. Or its source reports again after the deadline and before the
poll. -/
theorem metadata_expires_silently :
    (∃ s, Reachable Watched.Start (fun _ _ => True) Watched.step s ∧ s.time ≤ 10
      ∧ s.reported.title = some "build"
      ∧ s.terminal.nextAgentMetadataExpiry 10 = none
      ∧ (s.polled 10).reported.same
        ((s.polled 10).terminal.effectivePresentationAt 10) = false)
    ∧ ∃ s, Reachable Watched.Start (fun _ _ => True) Watched.step s ∧ s.time ≤ 10
      ∧ s.reported.title = some "build"
      ∧ (s.polled 10).reported.same
        ((s.polled 10).terminal.effectivePresentationAt 10) = false := by
  have hhidden : (runAll (guarded (fun _ _ => true) Watched.step) newWatched
      [.mutation (.agentMetadata piTitle 1),
        .mutation (.detectedState (some .pi) .idle false false 2 2)]).any (fun s =>
      s.time ≤ 10 && s.reported.title = some "build"
        && s.terminal.nextAgentMetadataExpiry 10 = none
        && !(s.polled 10).reported.same
          ((s.polled 10).terminal.effectivePresentationAt 10)) = true := by
    decide +kernel
  have hlate : (runAll (guarded (fun _ _ => true) Watched.step) newWatched
      [.mutation (.agentMetadata shortTitle 1), .mutation (.agentMetadata noTitle 7)]).any
        (fun s => s.time ≤ 10 && s.reported.title = some "build"
          && !(s.polled 10).reported.same
            ((s.polled 10).terminal.effectivePresentationAt 10)) = true := by
    decide +kernel
  constructor
  · obtain ⟨s, hsome, hends⟩ := (Option.any_eq_true _ _).mp hhidden
    simp only [Bool.and_eq_true, decide_eq_true_eq, Bool.not_eq_true'] at hends
    obtain ⟨⟨⟨hle, htitle⟩, hnone⟩, hdiffers⟩ := hends
    exact ⟨s, Reachable.runAll (fun _ _ _ => trivial) (.start ⟨0, rfl⟩) hsome, hle, htitle, hnone,
      hdiffers⟩
  · obtain ⟨s, hsome, hends⟩ := (Option.any_eq_true _ _).mp hlate
    simp only [Bool.and_eq_true, decide_eq_true_eq, Bool.not_eq_true'] at hends
    obtain ⟨⟨hle, htitle⟩, hdiffers⟩ := hends
    exact ⟨s, Reachable.runAll (fun _ _ _ => trivial) (.start ⟨0, rfl⟩) hsome, hle, htitle,
      hdiffers⟩

end Herden.Proofs.Terminal
