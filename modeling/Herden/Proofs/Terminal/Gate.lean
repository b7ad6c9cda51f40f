import Mathlib.Data.List.Induction
import Herden.Lib.Run
import Herden.Proofs.Terminal.Frame

/-!
# `Herden.Proofs.Terminal.Gate`: the sequence gate along a run
-/

namespace Herden.Proofs.Terminal

open Herden.Lib (HashMap)
open Herden.Runtime.Detect
open Herden.Runtime.AgentResume
open Herden.Runtime.Terminal
open Herden.Runtime.Terminal.TerminalState

/-! ### What a mutation other than a report does to the authority -/

/-- The source is under a record that a clear or a release left. -/
def HookCleared (g : Gate) (source : String) : Prop :=
  ∃ suppressed, g.suppressed.get source = some suppressed ∧ suppressed.reason = .hookClear

/-- The recorded sequence of a source is still there, or a later one is. -/
def SequenceKept (g g' : Gate) (source : String) : Prop :=
  ∀ m, g.sequences.get source = some m → ∃ m', g'.sequences.get source = some m' ∧ m ≤ m'

/-- A report is parked under a source. -/
def Parked (g : Gate) (source : String) (pending : PendingFullLifecycleHookReport) : Prop :=
  ∃ suppressed, g.suppressed.get source = some suppressed
    ∧ suppressed.pendingReplacementReport = some pending

/-- What a mutation can do to the authority: end it, leave it in place with its sequence, or
put a parked report in its place. -/
inductive GateStep (g g' : Gate) : Prop
  | dropped : g'.authority = none → GateStep g g'
  | kept : g'.authority = g.authority →
      (∀ source, HookCleared g' source → HookCleared g source) →
      (∀ authority, g.authority = some authority → SequenceKept g g' authority.source) →
      GateStep g g'
  | adopted (source : String) (pending : PendingFullLifecycleHookReport) :
      Parked g source pending → g'.authority = some pending.authority →
      g'.sequences.get source = some pending.seq →
      g'.suppressed.get source = none →
      (∀ authority m, g.authority = some authority → authority.source = source →
        g.sequences.get source = some m → m ≤ pending.seq) → GateStep g g'

/-- A mutation that parks no report. -/
structure Mutates (g g' : Gate) : Prop where
  parked : ∀ source pending, Parked g' source pending → Parked g source pending
  step : GateStep g g'

theorem Mutates.refl (g : Gate) : Mutates g g where
  parked _ _ h := h
  step := .kept rfl (fun _ h => h) (fun _ _ m hm => ⟨m, hm, le_rfl⟩)

variable {g : Gate} {detected : Agent}

variable {g' g₁ : Gate} {source : String} {suppressed : SuppressedFullLifecycleHookReport}

/-- A mutation that leaves authority and sequences in place and then goes on. -/
theorem Mutates.of_kept (h : Mutates g₁ g')
    (hparked : ∀ source pending, Parked g₁ source pending → Parked g source pending)
    (hauthority : g₁.authority = g.authority)
    (hcleared : ∀ source, HookCleared g₁ source → HookCleared g source)
    (hsequence : ∀ authority, g.authority = some authority →
      SequenceKept g g₁ authority.source) : Mutates g g' := by
  refine ⟨fun source pending hp => hparked _ _ (h.parked source pending hp), ?_⟩
  cases h.step with
  | dropped hnone => exact .dropped hnone
  | kept ha hc hs =>
      refine .kept (ha.trans hauthority) (fun source hsource => hcleared _ (hc source hsource)) ?_
      intro authority hg m hm
      obtain ⟨m₁, hm₁, hle₁⟩ := hsequence authority hg m hm
      obtain ⟨m', hm', hle'⟩ := hs authority (hauthority.trans hg) m₁ hm₁
      exact ⟨m', hm', hle₁.trans hle'⟩
  | adopted source pending hp ha hs hn hlater =>
      refine .adopted source pending (hparked _ _ hp) ha hs hn ?_
      rintro authority m hg rfl hm
      obtain ⟨m₁, hm₁, hle₁⟩ := hsequence authority hg m hm
      exact hle₁.trans (hlater authority m₁ (hauthority.trans hg) rfl hm₁)

/-- A mutation that goes on to end the authority. -/
theorem Mutates.dropped (h : Mutates g g₁) (hauthority : g'.authority = none)
    (hparked : ∀ source pending, Parked g' source pending → Parked g₁ source pending) :
    Mutates g g' where
  parked source pending hp := h.parked source pending (hparked source pending hp)
  step := .dropped hauthority

variable {t : TerminalState}

/-! ### Detection lifts suppressions -/

/-- Detection of the agent forgets the source's sequence: the source belongs to the agent and
no replacement session waits under it. -/
def detectionForgets (g : Gate) (detected : Agent) (source : String) : Bool :=
  fullLifecycleHookAuthority source (agentLabel detected)
    && !(g.suppressed.get source).any fun suppressed =>
      suppressionLifted detected suppressed && suppressed.reason = .processExit

theorem gate_adoptReplacement (t : TerminalState) (replacement : ValidatedReplacement) :
    gate (t.adoptReplacement replacement) = match replacement.pending with
      | none => gate t
      | some pending =>
          { gate t with
            authority := some pending.authority
            sequences := (gate t).sequences.insert replacement.source pending.seq } := by
  have hgate : gate ((t.forgetStaleFullLifecycleHookSession replacement.source
      replacement.agentLabel replacement.sessionRef).reconcileAgentNameOwner
        replacement.agentLabel (some replacement.sessionRef)) = gate t := by
    rw [gate_reconcileAgentNameOwner, gate_forgetStaleFullLifecycleHookSession]
  unfold adoptReplacement
  dsimp only
  rw [← hgate]
  cases replacement.pending with
  | none => rfl
  | some pending => rfl

/-- Adopting some replacements leaves the records alone, leaves the authority or puts one of
the parked reports in its place, and lowers no sequence below a parked one. -/
theorem gate_adoptReplacement_foldl (replacements : List ValidatedReplacement)
    (t : TerminalState) :
    (gate (replacements.foldl adoptReplacement t)).suppressed = (gate t).suppressed
      ∧ ((gate (replacements.foldl adoptReplacement t)).authority = (gate t).authority
        ∨ ∃ replacement ∈ replacements, ∃ pending, replacement.pending = some pending
          ∧ (gate (replacements.foldl adoptReplacement t)).authority = some pending.authority
          ∧ (gate (replacements.foldl adoptReplacement t)).sequences.get replacement.source
            = some pending.seq)
      ∧ ∀ source m, (gate t).sequences.get source = some m →
        (∀ replacement ∈ replacements, ∀ pending, replacement.source = source →
          replacement.pending = some pending → m ≤ pending.seq) →
        ∃ m', (gate (replacements.foldl adoptReplacement t)).sequences.get source = some m'
          ∧ m ≤ m' := by
  -- The last replacement with a parked report decides, so the induction is on the end.
  induction replacements using List.reverseRecOn with
  | nil => exact ⟨rfl, .inl rfl, fun source m hm _ => ⟨m, hm, le_rfl⟩⟩
  | append_singleton replacements last ih =>
      obtain ⟨hsuppressed, hauthority, hsequence⟩ := ih
      simp only [List.foldl_append, List.foldl_cons, List.foldl_nil]
      generalize replacements.foldl adoptReplacement t = u at *
      have hgate := gate_adoptReplacement u last
      cases hpending : last.pending with
      | none =>
          rw [hpending] at hgate
          rw [hgate]
          refine ⟨hsuppressed, ?_, fun source m hm hle => ?_⟩
          · refine hauthority.imp_right ?_
            rintro ⟨replacement, hmem, h⟩
            exact ⟨replacement, List.mem_append_left _ hmem, h⟩
          · exact hsequence source m hm fun replacement hmem =>
              hle replacement (List.mem_append_left _ hmem)
      | some pending =>
          rw [hpending] at hgate
          rw [hgate]
          refine ⟨hsuppressed, .inr ⟨last, by simp, pending, hpending, rfl, by simp⟩,
            fun source m hm hle => ?_⟩
          obtain ⟨m', hm', hmm'⟩ := hsequence source m hm fun replacement hmem =>
            hle replacement (List.mem_append_left _ hmem)
          dsimp only
          rw [HashMap.get_insert]
          split
          next heq => exact ⟨pending.seq, rfl, hle last (by simp) pending heq.symm hpending⟩
          next => exact ⟨m', hm', hmm'⟩

/-- What a validated replacement comes from. -/
theorem mem_validatedReplacements {replacement : ValidatedReplacement}
    (h : replacement ∈ t.validatedReplacements detected) :
    ∃ suppressed, t.suppressedFullLifecycleHookReports.get replacement.source = some suppressed
      ∧ suppressionLifted detected suppressed = true ∧ suppressed.reason = .processExit
      ∧ ∀ pending, replacement.pending = some pending →
        suppressed.pendingReplacementReport = some pending
        ∧ (t.hookReportSequences.get replacement.source).all (fun seq => pending.seq > seq) := by
  simp only [validatedReplacements, liftedSuppressions, List.mem_filterMap, List.mem_filter] at h
  obtain ⟨⟨source, suppressed⟩, ⟨hmem, hlifted⟩, hreplacement⟩ := h
  have hget := HashMap.get_eq_some_iff.mpr hmem
  cases hreason : suppressed.reason with
  | hookClear => simp [validatedReplacement, hreason] at hreplacement
  | processExit =>
      simp only [validatedReplacement, hreason, Option.map_eq_some_iff] at hreplacement
      obtain ⟨sessionRef, _, rfl⟩ := hreplacement
      refine ⟨suppressed, hget, hlifted, hreason, fun pending hpending => ?_⟩
      obtain ⟨hp, htest⟩ := Option.filter_eq_some_iff.mp hpending
      simp only [Bool.and_eq_true] at htest
      exact ⟨hp, htest.2⟩

/-- Every replacement waiting under a lifted record of an exit is validated. -/
theorem exists_validatedReplacement
    (hget : t.suppressedFullLifecycleHookReports.get source = some suppressed)
    (hlifted : suppressionLifted detected suppressed = true)
    (hreason : suppressed.reason = .processExit) :
    ∃ replacement ∈ t.validatedReplacements detected, replacement.source = source := by
  have hsome : suppressed.replacementSessionRef.isSome = true := by
    simp only [suppressionLifted, hreason, Bool.and_eq_true, Bool.or_eq_true] at hlifted
    simpa using hlifted.2
  obtain ⟨sessionRef, hsessionRef⟩ := Option.isSome_iff_exists.mp hsome
  have hmem : (⟨source, suppressed⟩ : Sigma _) ∈ t.liftedSuppressions detected :=
    List.mem_filter.mpr ⟨HashMap.get_eq_some_iff.mp hget, hlifted⟩
  obtain ⟨replacement, hvalidated, hsource⟩ : ∃ replacement,
      t.validatedReplacement source suppressed = some replacement
        ∧ replacement.source = source := by
    simp [validatedReplacement, hreason, hsessionRef]
  exact ⟨replacement, List.mem_filterMap.mpr ⟨_, hmem, hvalidated⟩, hsource⟩

/-- A newly detected agent lifts its records and forgets its sources' sequences; then the
validated replacements are adopted. -/
theorem clearFullLifecycleHookSuppressionForDetectedAgent_eq {previousDetectedAgent : Option Agent}
    (hnew : previousDetectedAgent ≠ some detected) :
    ∃ base, t.clearFullLifecycleHookSuppressionForDetectedAgent previousDetectedAgent
          (some detected) = (t.validatedReplacements detected).foldl adoptReplacement base
      ∧ (gate base).authority = (gate t).authority
      ∧ (gate base).sequences = (gate t).sequences.retain (fun source _ =>
          (t.validatedReplacements detected).any (fun replacement => replacement.source = source)
            || !fullLifecycleHookAuthority source (agentLabel detected))
      ∧ (gate base).suppressed = (gate t).suppressed.retain
          (fun _ suppressed => !suppressionLifted detected suppressed) := by
  obtain ⟨sessions, hsessions⟩ := rememberStaleFullLifecycleHookSession_foldl_eq
    ((t.liftedSuppressions detected).filterMap fun entry =>
      (liftedStaleSession entry.2).map fun sessionRef =>
        (entry.1, entry.2.agentLabel, sessionRef))
    { t with
      suppressedFullLifecycleHookReports :=
        t.suppressedFullLifecycleHookReports.retain fun _ suppressed =>
          !suppressionLifted detected suppressed }
  unfold clearFullLifecycleHookSuppressionForDetectedAgent
  dsimp only
  rw [if_neg hnew, hsessions]
  exact ⟨_, rfl, rfl, rfl, rfl⟩

/-- Detection of an agent keeps the authority and its sequence unless it forgets the
sequence, or adopts a parked report. -/
theorem clearFullLifecycleHookSuppressionForDetectedAgent_mutates
    (previousDetectedAgent detectedAgent : Option Agent)
    (hforget : ∀ authority detected, (gate t).authority = some authority →
      detectedAgent = some detected → previousDetectedAgent ≠ some detected →
      detectionForgets (gate t) detected authority.source = false) :
    Mutates (gate t) (gate (t.clearFullLifecycleHookSuppressionForDetectedAgent
      previousDetectedAgent detectedAgent)) := by
  cases detectedAgent with
  | none => exact .refl _
  | some detected =>
      by_cases hnew : previousDetectedAgent = some detected
      · simp only [clearFullLifecycleHookSuppressionForDetectedAgent, if_pos hnew]
        exact .refl _
      · obtain ⟨base, hbase, hauthority, hsequences, hsuppressed⟩ :=
          clearFullLifecycleHookSuppressionForDetectedAgent_eq (t := t) hnew
        rw [hbase]
        obtain ⟨hrecords, hadopt, hsequence⟩ :=
          gate_adoptReplacement_foldl (t.validatedReplacements detected) base
        rw [hsuppressed] at hrecords
        have hsubset : ∀ source suppressed,
            (gate ((t.validatedReplacements detected).foldl adoptReplacement base)).suppressed.get
              source = some suppressed → (gate t).suppressed.get source = some suppressed := by
          intro source suppressed hget
          rw [hrecords, HashMap.get_retain, Option.filter_eq_some_iff] at hget
          exact hget.1
        refine ⟨fun source pending ⟨suppressed, hget, hpending⟩ =>
          ⟨suppressed, hsubset _ _ hget, hpending⟩, ?_⟩
        rcases hadopt with hkept | ⟨replacement, hmem, pending, hpending, hadopted, hget⟩
        · refine .kept (hkept.trans hauthority) ?_ ?_
          · rintro source ⟨suppressed, hsource, hreason⟩
            exact ⟨suppressed, hsubset _ _ hsource, hreason⟩
          · intro authority ha m hm
            refine hsequence _ m ?_ fun replacement hmem pending hsource hpending => ?_
            · rw [hsequences, HashMap.get_retain, hm, Option.filter_eq_some_iff]
              refine ⟨rfl, ?_⟩
              have hf := hforget authority detected ha rfl hnew
              simp only [detectionForgets, Bool.and_eq_false_iff, Bool.not_eq_false'] at hf
              rcases hf with hf | hf
              · simp [hf]
              · obtain ⟨suppressed, hget, hlifted⟩ := (Option.any_eq_true _ _).mp hf
                simp only [Bool.and_eq_true, decide_eq_true_eq] at hlifted
                obtain ⟨replacement, hmem, hsource⟩ :=
                  exists_validatedReplacement hget hlifted.1 hlifted.2
                simp only [Bool.or_eq_true, List.any_eq_true, decide_eq_true_eq]
                exact .inl ⟨replacement, hmem, hsource⟩
            · obtain ⟨_, _, _, _, hparked⟩ := mem_validatedReplacements hmem
              have hlater := (hparked pending hpending).2
              rw [hsource, show t.hookReportSequences.get authority.source = some m from hm]
                at hlater
              exact Nat.le_of_lt (by simpa using hlater)
        · obtain ⟨suppressed, hparked, hlifted, _, hfrom⟩ := mem_validatedReplacements hmem
          refine .adopted replacement.source pending
            ⟨suppressed, hparked, (hfrom pending hpending).1⟩ hadopted hget ?_ ?_
          · rw [hrecords, HashMap.get_retain,
              show (gate t).suppressed.get replacement.source = some suppressed from hparked]
            simp [Option.filter, hlifted]
          · intro authority m _ _ hm
            have hlater := (hfrom pending hpending).2
            rw [show t.hookReportSequences.get replacement.source = some m from hm] at hlater
            exact Nat.le_of_lt (by simpa using hlater)

/-! ### Exits -/

/-- The exit of the agent forgets the source's sequence: it renews a record of the source, or
the agent's official session is the source's. -/
def exitForgets (t : TerminalState) (agent : Option Agent) (source : String) : Bool :=
  (t.suppressedFullLifecycleHookReports.get source).any (exitRenews agent)
    || (t.officialSession agent).any fun session => session.1 = source

/-- A new record with nothing parked parks no report. -/
theorem parked_insert (hnone : suppressed.pendingReplacementReport = none) : ∀ other pending,
      Parked { g with suppressed := g.suppressed.insert source suppressed } other pending →
      Parked g other pending := by
  rintro other pending ⟨found, hget, hpending⟩
  dsimp only at hget
  rw [HashMap.get_insert] at hget
  split at hget
  · obtain rfl := Option.some.inj hget
    rw [hnone] at hpending
    cases hpending
  · exact ⟨found, hget, hpending⟩

theorem parked_suppressCurrentFullLifecycleHookAuthority (t : TerminalState)
    (reason : FullLifecycleHookSuppressionReason) (clock : Instant) :
    ∀ source pending,
      Parked (gate (t.suppressCurrentFullLifecycleHookAuthority reason clock)) source pending →
      Parked (gate t) source pending := by
  unfold suppressCurrentFullLifecycleHookAuthority
  split
  · split
    · intro source pending h
      refine parked_insert (g := gate t) ?_ source pending h
      rfl
    · exact fun _ _ h => h
  · exact fun _ _ h => h

/-- The first part of an exit: the authority stays, the sequences of the renewed records go,
and the records keep their reasons. -/
theorem gate_renewSuppressions (t : TerminalState) (agent : Option Agent) (now : Instant) :
    (gate (t.renewSuppressions agent now)).authority = (gate t).authority
      ∧ (∀ source, (gate (t.renewSuppressions agent now)).sequences.get source
        = if (t.suppressedFullLifecycleHookReports.get source).any (exitRenews agent) then none
          else (gate t).sequences.get source)
      ∧ (∀ source suppressed',
        (gate (t.renewSuppressions agent now)).suppressed.get source = some suppressed' →
        ∃ suppressed, (gate t).suppressed.get source = some suppressed
          ∧ suppressed'.reason = suppressed.reason
          ∧ ∀ pending, suppressed'.pendingReplacementReport = some pending →
            suppressed.pendingReplacementReport = some pending) := by
  unfold renewSuppressions
  dsimp only
  rw [foldl_removeSequence_eq]
  obtain ⟨sessions, hsessions⟩ := rememberStaleFullLifecycleHookSession_foldl_eq _ _
  rw [hsessions]
  refine ⟨rfl, fun source => ?_, fun source suppressed' hget => ?_⟩
  · dsimp only [gate]
    rw [HashMap.get_foldl_remove, HashMap.any_filter_entries]
  · dsimp only [gate] at hget
    rw [HashMap.get_mapValues, Option.map_eq_some_iff] at hget
    obtain ⟨suppressed, hget, rfl⟩ := hget
    refine ⟨suppressed, hget, ?_, fun pending hpending => ?_⟩
    · split <;> rfl
    · split at hpending
      · cases hpending
      · exact hpending

/-- The second part of an exit: the authority stays and the official source's sequence goes.
The new record is no clear. -/
theorem gate_suppressOfficialSession (t : TerminalState) (agent : Option Agent) (now : Instant) :
    (gate (t.suppressOfficialSession agent now)).authority = (gate t).authority
      ∧ (∀ source, (gate (t.suppressOfficialSession agent now)).sequences.get source
        = if (t.officialSession agent).any (fun session => session.1 = source) then none
          else (gate t).sequences.get source)
      ∧ (∀ source, HookCleared (gate (t.suppressOfficialSession agent now)) source →
        HookCleared (gate t) source)
      ∧ (∀ source pending, Parked (gate (t.suppressOfficialSession agent now)) source pending →
        Parked (gate t) source pending) := by
  unfold suppressOfficialSession
  cases t.officialSession agent with
  | none => exact ⟨rfl, fun _ => rfl, fun _ h => h, fun _ _ h => h⟩
  | some session =>
      obtain ⟨source, label, sessionRef⟩ := session
      refine ⟨rfl, fun other => ?_, ?_, ?_⟩
      · refine (HashMap.get_remove _ _ _).trans ?_
        by_cases h : other = source
        · simp [h]
        · have h' : source ≠ other := Ne.symm h
          simp [h, h', gate]
      · rintro other ⟨suppressed, hget, hreason⟩
        dsimp only [gate, suppressFullLifecycleHookReportWithSessionRef] at hget
        rw [HashMap.get_insert] at hget
        split at hget
        · obtain rfl := Option.some.inj hget
          cases hreason
        · exact ⟨suppressed, hget, hreason⟩
      · intro other pending h
        refine parked_insert (g := { gate t with
          sequences := t.hookReportSequences.remove source }) ?_ other pending h
        rfl

/-- The third part of an exit: the agent's authority ends unless a custom reporter's is newer,
and otherwise nothing changes. -/
theorem endAgentAuthority_cases (t : TerminalState) (agent : Option Agent) (newer : Bool) :
    (gate (t.endAgentAuthority agent newer)).suppressed = (gate t).suppressed
      ∧ ((gate (t.endAgentAuthority agent newer)).authority = none
        ∨ t.endAgentAuthority agent newer = t ∧ ∀ authority, (gate t).authority = some authority →
          parseAgentLabel authority.agentLabel = agent → newer = true) := by
  unfold endAgentAuthority
  split
  next authority ha =>
    split
    next => exact ⟨rfl, .inl rfl⟩
    next hkeep =>
      refine ⟨rfl, .inr ⟨rfl, fun other hother hagent => ?_⟩⟩
      have hsame : some authority = some other := ha.symm.trans hother
      obtain rfl := Option.some.inj hsame
      simpa [hagent] using hkeep
  next ha => exact ⟨rfl, .inl ha⟩

/-- An exit ends the authority of the agent that exited. It keeps another one, with its
sequence unless it forgets that. -/
theorem applyProcessExit_mutates (t : TerminalState) (agent : Option Agent) (newer : Bool)
    (now : Instant)
    (hforget : ∀ authority, (gate t).authority = some authority →
      (parseAgentLabel authority.agentLabel = agent → newer = true) →
      exitForgets t agent authority.source = false) :
    Mutates (gate t) (gate (t.applyProcessExit agent newer now)) := by
  have hmetadata : gate (t.applyProcessExit agent newer now)
      = gate (((t.renewSuppressions agent now).suppressOfficialSession agent now).endAgentAuthority
          agent newer) := by
    unfold applyProcessExit
    cases agent with
    | none => exact gate_endAgentSession _ _ _
    | some agent => exact gate_endAgentSession _ _ _
  rw [hmetadata]
  obtain ⟨hauthority₁, hsequences₁, hrecords₁⟩ := gate_renewSuppressions t agent now
  have hofficial : (t.renewSuppressions agent now).officialSession agent
      = t.officialSession agent := by
    unfold renewSuppressions
    dsimp only
    rw [foldl_removeSequence_eq]
    obtain ⟨sessions, hsessions⟩ := rememberStaleFullLifecycleHookSession_foldl_eq _ _
    rw [hsessions]
    rfl
  obtain ⟨hauthority₂, hsequences₂, hcleared₂, hparked₂⟩ :=
    gate_suppressOfficialSession (t.renewSuppressions agent now) agent now
  generalize (t.renewSuppressions agent now).suppressOfficialSession agent now = u at *
  obtain ⟨hsuppressed, hend⟩ := endAgentAuthority_cases u agent newer
  have hparked : ∀ source pending, Parked (gate u) source pending →
      Parked (gate t) source pending := by
    intro source pending hp
    obtain ⟨suppressed', hget, hpending⟩ := hparked₂ source pending hp
    obtain ⟨suppressed, hget₀, -, hfrom⟩ := hrecords₁ source suppressed' hget
    exact ⟨suppressed, hget₀, hfrom pending hpending⟩
  rcases hend with hnone | ⟨hsame, hnewer⟩
  · refine ⟨fun source pending ⟨suppressed, hget, hpending⟩ => ?_, .dropped hnone⟩
    rw [hsuppressed] at hget
    exact hparked source pending ⟨suppressed, hget, hpending⟩
  · rw [hsame]
    refine ⟨hparked, .kept (hauthority₂.trans hauthority₁) ?_ ?_⟩
    · intro source hsource
      obtain ⟨suppressed', hget, hreason⟩ := hcleared₂ source hsource
      obtain ⟨suppressed, hget₀, hreason₀, -⟩ := hrecords₁ source suppressed' hget
      exact ⟨suppressed, hget₀, hreason₀ ▸ hreason⟩
    · intro authority ha m hm
      have hkept := hforget authority ha
        (hnewer authority ((hauthority₂.trans hauthority₁).trans ha))
      simp only [exitForgets, Bool.or_eq_false_iff] at hkept
      refine ⟨m, ?_, le_rfl⟩
      rw [hsequences₂, hofficial, hsequences₁]
      simp [hkept.1, hkept.2, hm]

/-! ### Detections -/

/-- An authority that gives way to detection ends; otherwise nothing changes. -/
theorem dropConflictingAuthority_mutates (t : TerminalState)
    (previousDetectedAgent agent : Option Agent) (now clock : Instant) :
    gate (t.dropConflictingAuthority previousDetectedAgent agent now clock) = gate t
      ∨ (gate (t.dropConflictingAuthority previousDetectedAgent agent now clock)).authority = none
        ∧ ∀ source pending,
          Parked (gate (t.dropConflictingAuthority previousDetectedAgent agent now clock)) source
            pending → Parked (gate t) source pending := by
  unfold dropConflictingAuthority
  split
  · exact .inr ⟨rfl, parked_suppressCurrentFullLifecycleHookAuthority t .hookClear clock⟩
  · exact .inl rfl

/-- The agent is seen anew: it was not the one detected, or its exit was recorded since. -/
def newlyDetected (t : TerminalState) (detected : Agent) (now : Instant) : Bool :=
  t.detectedAgent ≠ some detected
    || t.recentAgentProcessExit.any fun exit => exit.agent = detected && exit.observedAt < now

theorem noteDetectedAgent_eq (t : TerminalState) (agent : Option Agent)
    (fallbackState : AgentState) (processExited : Bool) :
    ∃ ready name owner, t.noteDetectedAgent agent fallbackState processExited
      = { t with
          detectedAgent := agent
          codexPromptReady := ready
          agentName := name
          agentNameOwner := owner } := by
  unfold noteDetectedAgent
  cases agent with
  | none => exact ⟨_, _, _, rfl⟩
  | some agent =>
      obtain ⟨name, owner, h⟩ := reconcileAgentNameOwner_eq _ (agentLabel agent) none
      exact ⟨_, name, owner, h⟩

/-- A detection that is taken changes the gate as its exit, or its newly seen agent, does. -/
theorem applyDetection_mutates (t : TerminalState) (agent : Option Agent)
    (fallbackState : AgentState) (visibleBlocker processExited : Bool) (now clock : Instant)
    (hseen : processExited = false → ∀ authority detected, (gate t).authority = some authority →
      agent = some detected → newlyDetected t detected now = true →
      detectionForgets (gate t) detected authority.source = false)
    (hexit : processExited = true → ∀ authority, (gate t).authority = some authority →
      (parseAgentLabel authority.agentLabel = agent → t.newerCustomAuthority agent now = true) →
      exitForgets t agent authority.source = false) :
    Mutates (gate t) (gate (t.applyDetection agent fallbackState visibleBlocker processExited now
      clock)) := by
  obtain ⟨ready, name, owner, hnoted⟩ := noteDetectedAgent_eq t agent fallbackState processExited
  have hname : ∀ u : TerminalState, gate (if agent.isNone && u.recentAgentProcessExit.isSome then
      u.clearAgentName else u) = gate u := by
    intro u
    split <;> rfl
  -- What happens before the conflict test, in the two kinds of detection.
  have hbefore : ∀ u : TerminalState, Mutates (gate t) (gate u) →
      Mutates (gate t) (gate (u.dropConflictingAuthority t.detectedAgent agent now clock)) := by
    intro u hu
    rcases dropConflictingAuthority_mutates u t.detectedAgent agent now clock with
      hsame | ⟨hnone, hparked⟩
    · rw [hsame]
      exact hu
    · exact hu.dropped hnone hparked
  unfold applyDetection
  dsimp only
  rw [hname]
  refine hbefore _ ?_
  rw [hnoted]
  cases processExited with
  | true =>
      simp only [Bool.not_true, Bool.false_eq_true, if_false, if_true, Bool.true_and]
      exact applyProcessExit_mutates (noteFallback { t with
          detectedAgent := agent
          codexPromptReady := ready
          agentName := name
          agentNameOwner := owner } agent fallbackState visibleBlocker true now) agent _ now
        (hexit rfl)
  | false =>
      simp only [Bool.not_false, if_true, Bool.false_eq_true, if_false, Bool.true_and]
      refine clearFullLifecycleHookSuppressionForDetectedAgent_mutates
        (t := { t with
          detectedAgent := agent
          codexPromptReady := ready
          agentName := name
          agentNameOwner := owner }) _ agent ?_
      intro authority detected ha hagent hnew
      refine hseen rfl authority detected ha hagent ?_
      subst hagent
      simp only [newlyDetected, Bool.or_eq_true]
      split at hnew
      next hreplaced =>
        refine .inr ?_
        simpa using hreplaced
      next => exact .inl (by simpa using hnew)

/-- A detection that is taken: no live hook overrides it, and no record is newer than it. -/
def detectionTaken (t : TerminalState) (agent : Option Agent) (now : Instant) : Bool :=
  !t.shouldIgnoreDetectedStateUnderFullLifecycleHook agent false
    && !t.detectedStateObservedBeforeReleaseSuppression agent now

/-- A detection of a running agent forgets the sequence of the authority in place: it is
taken, sees the agent anew, and the authority's source belongs to the agent. -/
def ForgottenByDetection (t : TerminalState) (authority : HookAuthority)
    (agent : Option Agent) (now : Instant) : Prop :=
  ∃ detected, agent = some detected ∧ detectionTaken t agent now = true
    ∧ newlyDetected t detected now = true
    ∧ detectionForgets (gate t) detected authority.source = true

/-- An exit forgets the sequence of an authority that it leaves in place. -/
def ForgottenByExit (t : TerminalState) (authority : HookAuthority) (agent : Option Agent)
    (now : Instant) : Prop :=
  (parseAgentLabel authority.agentLabel = agent → t.newerCustomAuthority agent now = true)
    ∧ exitForgets t agent authority.source = true

theorem setDetectedStateWithScreenSignalsAt_mutates (t : TerminalState) (agent : Option Agent)
    (fallbackState : AgentState) (visibleBlocker processExited : Bool) (now clock : Instant)
    (hkeep : ∀ authority, t.hookAuthority = some authority →
      if processExited then ¬ ForgottenByExit t authority agent now
      else ¬ ForgottenByDetection t authority agent now) :
    Mutates (gate t) (gate (t.setDetectedStateWithScreenSignalsAt agent fallbackState
      visibleBlocker processExited now clock).1) := by
  unfold setDetectedStateWithScreenSignalsAt
  dsimp only
  split
  next =>
    rw [gate_recomputeEffectiveState]
    split <;> exact .refl _
  next hignore =>
    split
    next =>
      rw [gate_recomputeEffectiveState]
      exact .refl _
    next hbefore =>
      change Mutates (gate t) (gate (recomputeEffectiveState _ _ now).1)
      rw [gate_recomputeEffectiveState]
      refine applyDetection_mutates t agent fallbackState visibleBlocker processExited now clock
        ?_ ?_
      · rintro rfl authority detected ha hagent hnew
        have hnot := hkeep authority ha
        simp only [Bool.false_eq_true, if_false] at hnot
        refine Bool.eq_false_iff.mpr fun hforgets => hnot ⟨detected, hagent, ?_, hnew, hforgets⟩
        simp only [detectionTaken, Bool.and_eq_true, Bool.not_eq_true']
        exact ⟨by simpa using hignore, by simpa using hbefore⟩
      · rintro rfl authority ha hnewer
        have hnot := hkeep authority ha
        simp only [if_true] at hnot
        exact Bool.eq_false_iff.mpr fun hforgets => hnot ⟨hnewer, hforgets⟩

theorem setDetectedAgentProcessAt_mutates (t : TerminalState) (agent : Agent) (now clock : Instant)
    (hkeep : ∀ authority, t.hookAuthority = some authority →
      ¬ ForgottenByDetection t authority (some agent) now) :
    Mutates (gate t) (gate (t.setDetectedAgentProcessAt agent now clock).1) := by
  unfold setDetectedAgentProcessAt
  dsimp only
  have h := setDetectedStateWithScreenSignalsAt_mutates t (some agent) .unknown false false now
    clock hkeep
  split
  · exact h
  · exact h

/-! ### Session reports, clears and releases -/

/-- The sequence gate only moves up. -/
theorem gate_acceptHookReport (t : TerminalState) (source : String) (seq : Option Nat) :
    (gate (t.acceptHookReport source seq).1).authority = (gate t).authority
      ∧ (gate (t.acceptHookReport source seq).1).suppressed = (gate t).suppressed
      ∧ ∀ other, SequenceKept (gate t) (gate (t.acceptHookReport source seq).1) other := by
  unfold acceptHookReport
  split
  next => exact ⟨rfl, rfl, fun _ m hm => ⟨m, hm, le_rfl⟩⟩
  next hnewer =>
    cases seq with
    | none => exact ⟨rfl, rfl, fun _ m hm => ⟨m, hm, le_rfl⟩⟩
    | some seq =>
        refine ⟨rfl, rfl, fun other m hm => ?_⟩
        by_cases h : other = source
        · subst h
          refine ⟨seq, HashMap.get_insert_self _ _ _, Nat.le_of_lt ?_⟩
          simpa [hookReportIsNewer, show t.hookReportSequences.get other = some m from hm]
            using hnewer
        · exact ⟨m, (HashMap.get_insert_of_ne _ h _).trans hm, le_rfl⟩

/-- Passing the sequence gate, then going on. -/
theorem acceptHookReport_mutates (t : TerminalState) (source : String) (seq : Option Nat)
    (h : Mutates (gate (t.acceptHookReport source seq).1) g) : Mutates (gate t) g := by
  obtain ⟨hauthority, hsuppressed, hsequence⟩ := gate_acceptHookReport t source seq
  refine h.of_kept (fun other pending ⟨suppressed, hget, hpending⟩ => ?_) hauthority
    (fun other ⟨suppressed, hget, hreason⟩ => ?_) fun authority _ => hsequence authority.source
  · exact ⟨suppressed, hsuppressed ▸ hget, hpending⟩
  · exact ⟨suppressed, hsuppressed ▸ hget, hreason⟩

/-- A change to the record of one source that neither parks a report nor makes it a clear. -/
theorem gate_insertRecord (g : Gate) (source : String)
    (suppressed : SuppressedFullLifecycleHookReport)
    (hparked : ∀ pending, suppressed.pendingReplacementReport = some pending →
      Parked g source pending)
    (hcleared : suppressed.reason = .hookClear → HookCleared g source) :
    (∀ other pending,
        Parked { g with suppressed := g.suppressed.insert source suppressed } other pending →
        Parked g other pending)
      ∧ ∀ other, HookCleared { g with suppressed := g.suppressed.insert source suppressed } other →
        HookCleared g other := by
  constructor
  · rintro other pending ⟨found, hget, hpending⟩
    dsimp only at hget
    rw [HashMap.get_insert] at hget
    split at hget
    next heq =>
      obtain rfl := Option.some.inj hget
      exact heq ▸ hparked pending hpending
    next => exact ⟨found, hget, hpending⟩
  · rintro other ⟨found, hget, hreason⟩
    dsimp only at hget
    rw [HashMap.get_insert] at hget
    split at hget
    next heq =>
      obtain rfl := Option.some.inj hget
      exact heq ▸ hcleared hreason
    next => exact ⟨found, hget, hreason⟩

/-- The record a session report works on: the source's own, or a fresh one of an exit. -/
theorem record_of_getD (g : Gate) (source : String)
    (fresh : SuppressedFullLifecycleHookReport) (hreason : fresh.reason = .processExit)
    (hpending : fresh.pendingReplacementReport = none) :
    (((g.suppressed.get source).getD fresh).reason = .hookClear → HookCleared g source)
      ∧ ∀ pending,
        ((g.suppressed.get source).getD fresh).pendingReplacementReport = some pending →
        Parked g source pending := by
  cases hget : g.suppressed.get source with
  | none =>
      constructor
      · intro h
        rw [Option.getD_none, hreason] at h
        cases h
      · intro pending h
        rw [Option.getD_none, hpending] at h
        cases h
  | some found => exact ⟨fun h => ⟨found, hget, h⟩, fun pending h => ⟨found, hget, h⟩⟩

/-- An unsequenced selection changes the source's record only. -/
theorem parkSelectedSession_mutates (t : TerminalState) (source label : String)
    (sessionRef : AgentSessionRef) (clock : Instant) :
    Mutates (gate t) (gate (t.parkSelectedSession source label sessionRef clock)) := by
  obtain ⟨hcleared, -⟩ := record_of_getD (gate t) source
    {
      agentLabel := label
      sessionRef := t.anchoredSessionRef source label
      observedAt := clock
      reason := .processExit
      replacementSessionRef := none
      pendingReplacementReport := none } rfl rfl
  unfold parkSelectedSession
  obtain ⟨hparked', hcleared'⟩ := gate_insertRecord (gate t) source
    { (t.suppressedFullLifecycleHookReports.get source).getD _ with
      replacementSessionRef := some sessionRef
      pendingReplacementReport := none } (fun pending hp => nomatch hp) hcleared
  exact ⟨hparked', .kept rfl hcleared' fun _ _ m hm => ⟨m, hm, le_rfl⟩⟩

theorem nameReplacement_frame (suppressed : SuppressedFullLifecycleHookReport)
    (sessionRef : AgentSessionRef) :
    (nameReplacement suppressed sessionRef).reason = suppressed.reason
      ∧ ∀ pending,
        (nameReplacement suppressed sessionRef).pendingReplacementReport = some pending →
        suppressed.pendingReplacementReport = some pending := by
  unfold nameReplacement
  split
  · exact ⟨rfl, fun pending h => (Option.filter_eq_some_iff.mp h).1⟩
  · exact ⟨rfl, fun pending h => h⟩

/-- A session start parks no report and records a later sequence. -/
theorem parkSessionStart_mutates (t : TerminalState) (source label : String)
    (sessionRef : AgentSessionRef) (seq : Nat) (clock : Instant)
    (hnewer : (t.hookReportSequences.get source).any (fun previous => seq ≤ previous) = false)
    (h : Mutates (gate (t.parkSessionStart source label sessionRef seq clock)) g) :
    Mutates (gate t) g := by
  obtain ⟨hcleared, hparked⟩ := record_of_getD (gate t) source
    {
      agentLabel := label
      sessionRef := none
      observedAt := clock
      reason := .processExit
      replacementSessionRef := none
      pendingReplacementReport := none } rfl rfl
  obtain ⟨hreason, hpending⟩ := nameReplacement_frame
    ((t.suppressedFullLifecycleHookReports.get source).getD _) sessionRef
  obtain ⟨hparked', hcleared'⟩ := gate_insertRecord (gate t) source _
    (fun pending hp => hparked pending (hpending pending hp))
    (fun hr => hcleared (hreason.symm.trans hr))
  refine h.of_kept hparked' rfl hcleared' fun authority _ m hm => ?_
  refine (em (authority.source = source)).elim (fun heq => ?_) fun hne => ?_
  · refine ⟨seq, ?_, Nat.le_of_lt ?_⟩
    · rw [heq]
      exact HashMap.get_insert_self _ _ _
    · rw [heq] at hm
      rw [show t.hookReportSequences.get source = some m from hm] at hnewer
      simpa using hnewer
  · exact ⟨m, (HashMap.get_insert_of_ne _ hne _).trans hm, le_rfl⟩

/-- A session start forgets the sequence of the authority in place: the process is there, so
the start acts like a detection of the agent. -/
def ForgottenBySessionStart (t : TerminalState) (authority : HookAuthority)
    (report : SessionReport) (clock : Instant) : Prop :=
  ∃ sessionRef seq detected, report.sessionRef = some sessionRef ∧ report.seq = some seq
    ∧ parseAgentLabel report.agentLabel = some detected
    ∧ t.processPresent report.agentLabel = true
    ∧ fullLifecycleHookAuthority report.source report.agentLabel = true
    ∧ sessionStartSourceIsRecognized report.sessionStartSource = true
    ∧ (t.generationGated report.source report.agentLabel = true
      ∨ t.sessionKnown report.source report.agentLabel = false)
    ∧ (t.hookReportSequences.get report.source).any (fun previous => seq ≤ previous) = false
    ∧ detectionForgets (gate (t.parkSessionStart report.source report.agentLabel sessionRef seq
        clock)) detected authority.source = true

theorem startFullLifecycleSession_mutates (t : TerminalState) (report : SessionReport)
    (sessionRef : AgentSessionRef) (clock : Instant)
    (hkeep : ∀ authority seq detected, t.hookAuthority = some authority →
      report.seq = some seq → parseAgentLabel report.agentLabel = some detected →
      t.processPresent report.agentLabel = true →
      sessionStartSourceIsRecognized report.sessionStartSource = true →
      (t.hookReportSequences.get report.source).any (fun previous => seq ≤ previous) = false →
      detectionForgets (gate (t.parkSessionStart report.source report.agentLabel sessionRef seq
        clock)) detected authority.source = false) :
    Mutates (gate t) (gate (t.startFullLifecycleSession report sessionRef clock).1) := by
  unfold startFullLifecycleSession
  dsimp only
  split
  next => exact .refl _
  next hrecognized =>
    split
    next => exact .refl _
    next seq hseq =>
      split
      next => exact .refl _
      next hnewer =>
        have hnewer := Bool.eq_false_iff.mpr hnewer
        split
        next hpresent =>
          rw [gate_recomputeEffectiveState]
          refine parkSessionStart_mutates t report.source report.agentLabel sessionRef seq clock
            hnewer ?_
          refine clearFullLifecycleHookSuppressionForDetectedAgent_mutates _ _ ?_
          intro authority detected ha hdetected _
          exact hkeep authority seq detected ha hseq hdetected hpresent
            (by simpa using hrecognized) hnewer
        next => exact parkSessionStart_mutates t _ _ _ seq clock hnewer (.refl _)

/-- A session report ends the authority or leaves the gate as it is. -/
theorem endReplacedAuthority_mutates (t : TerminalState) (source label : String)
    (sessionRef : AgentSessionRef) (replaced : Option AgentSessionRef)
    (replacementAllowed takeoverAllowed : Bool) (clock : Instant) :
    Mutates (gate t) (gate (t.endReplacedAuthority source label sessionRef replaced
      replacementAllowed takeoverAllowed clock)) := by
  -- The first two changes end the authority or leave the gate alone.
  have hfirst : ∀ u : TerminalState, gate (if replacementAllowed || takeoverAllowed then
      u.forgetStaleFullLifecycleHookSession source label sessionRef else u) = gate u := by
    intro u
    split
    · exact gate_forgetStaleFullLifecycleHookSession u source label sessionRef
    · rfl
  unfold endReplacedAuthority
  dsimp only
  generalize hu : (if integrationIs source label "codex" "codex" && replacementAllowed
      && t.hookAuthority.any (fun authority => authority.source = source
        && authority.agentLabel = label && authority.sessionRef ≠ some sessionRef) then
    { t with hookAuthority := none } else t) = u
  have hstart : Mutates (gate t) (gate u) := by
    subst hu
    split
    · exact (Mutates.refl (gate t)).dropped rfl fun _ _ h => h
    · exact .refl _
  have hsecond := hfirst u
  generalize (if replacementAllowed || takeoverAllowed then
    u.forgetStaleFullLifecycleHookSession source label sessionRef else u) = v at *
  rw [← hsecond] at hstart
  cases replaced with
  | some replaced => exact hstart.dropped rfl fun _ _ h => h
  | none =>
      dsimp only
      split
      · exact hstart.dropped rfl
          (parked_suppressCurrentFullLifecycleHookAuthority v .hookClear clock)
      · exact hstart

theorem applySessionReport_mutates (t : TerminalState) (source label : String)
    (sessionRef : AgentSessionRef) (replaced : Option AgentSessionRef)
    (replacementAllowed takeoverAllowed : Bool) (clock : Instant) :
    Mutates (gate t) (gate (t.applySessionReport source label sessionRef replaced
      replacementAllowed takeoverAllowed clock).1) := by
  have h := endReplacedAuthority_mutates t source label sessionRef replaced replacementAllowed
    takeoverAllowed clock
  unfold applySessionReport
  dsimp only
  rw [gate_recomputeEffectiveState]
  generalize t.endReplacedAuthority source label sessionRef replaced replacementAllowed
    takeoverAllowed clock = u at *
  rw [← gate_reconcileAgentNameOwner u label (some sessionRef)] at h
  exact h

theorem setAgentSessionRefForSessionStart_mutates (t : TerminalState) (report : SessionReport)
    (clock : Instant)
    (hkeep : ∀ authority, t.hookAuthority = some authority →
      ¬ ForgottenBySessionStart t authority report clock) :
    Mutates (gate t) (gate (t.setAgentSessionRefForSessionStart report clock).1) := by
  unfold setAgentSessionRefForSessionStart
  split
  next => exact .refl _
  next sessionRef hsession =>
    dsimp only
    split
    next => exact parkSelectedSession_mutates t _ _ sessionRef clock
    next hselection =>
      -- A selection that the process confirms only drops the source's record.
      generalize hu : (if isUnsequencedOpencodeSelection report.source report.agentLabel
          report.sessionStartSource report.seq && t.processPresent report.agentLabel then
        { t with
          suppressedFullLifecycleHookReports :=
            t.suppressedFullLifecycleHookReports.remove report.source } else t) = u
      split
      next hstart =>
        simp only [Bool.and_eq_true, Bool.not_eq_true', Bool.or_eq_true] at hstart
        have hsame : u = t := by
          rw [← hu, if_neg (by simp [hstart.1.2])]
        rw [hsame]
        refine startFullLifecycleSession_mutates t report sessionRef clock ?_
        intro authority seq detected ha hseq hdetected hpresent hrecognized hnewer
        refine Bool.eq_false_iff.mpr fun hforgets => hkeep authority ha
          ⟨sessionRef, seq, detected, hsession, hseq, hdetected, hpresent, hstart.1.1, hrecognized,
            ?_, hnewer, hforgets⟩
        rcases hstart.2 with (habsent | hgated) | hknown
        · rw [hpresent] at habsent
          cases habsent
        · exact .inl hgated
        · exact .inr hknown
      next =>
        have hrecords : ∀ source suppressed, (gate u).suppressed.get source = some suppressed →
            (gate t).suppressed.get source = some suppressed := by
          subst hu
          intro source suppressed hget
          split at hget
          · dsimp only [gate] at hget
            rw [HashMap.get_remove] at hget
            split at hget
            · cases hget
            · exact hget
          · exact hget
        have hauthority : (gate u).authority = (gate t).authority := by
          subst hu
          split <;> rfl
        have hsequences : (gate u).sequences = (gate t).sequences := by
          subst hu
          split <;> rfl
        suffices hmutates : Mutates (gate u) _ from hmutates.of_kept
          (fun source pending h => h.imp fun _ hget => ⟨hrecords _ _ hget.1, hget.2⟩) hauthority
          (fun source h => h.imp fun _ hget => ⟨hrecords _ _ hget.1, hget.2⟩)
          (fun authority _ m hm => ⟨m, by rw [hsequences, hm], le_rfl⟩)
        have haccept : ∀ {g : Gate}, Mutates (gate (if isUnsequencedOpencodeSelection report.source
            report.agentLabel report.sessionStartSource report.seq then (u, true)
            else u.acceptHookReport report.source report.seq).1) g → Mutates (gate u) g := by
          intro g h
          split at h
          · exact h
          · exact acceptHookReport_mutates u report.source report.seq h
        generalize (if isUnsequencedOpencodeSelection report.source report.agentLabel
          report.sessionStartSource report.seq then (u, true)
          else u.acceptHookReport report.source report.seq) = w at *
        refine haccept ?_
        split
        · exact .refl _
        · split
          · exact .refl _
          · exact applySessionReport_mutates w.1 _ _ _ _ _ _ clock

/-- A clear that is taken ends the authority. -/
theorem clearHookAuthorityWithMutation_mutates (t : TerminalState) (source : Option String)
    (seq : Option Nat) (clock : Instant) :
    Mutates (gate t) (gate (t.clearHookAuthorityWithMutation source seq clock).1) := by
  unfold clearHookAuthorityWithMutation
  split
  next => exact .refl _
  next authority _ =>
    split
    next => exact .refl _
    next =>
      dsimp only
      split
      next u hu =>
        refine acceptHookReport_mutates t (source.getD authority.source) seq ?_
        rw [hu]
        exact .refl _
      next u hu =>
        refine acceptHookReport_mutates t (source.getD authority.source) seq ?_
        rw [hu, gate_recomputeEffectiveState]
        obtain ⟨resume, revision, hresume⟩ := forgetReportedResumeOf_eq
          { u.suppressCurrentFullLifecycleHookAuthority .hookClear clock with
            hookAuthority := none } authority.source authority.agentLabel
        rw [hresume]
        exact (Mutates.refl (gate u)).dropped rfl
          (parked_suppressCurrentFullLifecycleHookAuthority u .hookClear clock)

theorem parked_suppressFullLifecycleHookReport (t : TerminalState) (source label : String)
    (reason : FullLifecycleHookSuppressionReason) (clock : Instant) :
    ∀ other pending,
      Parked (gate (t.suppressFullLifecycleHookReport source label reason clock)) other pending →
      Parked (gate t) other pending := by
  unfold suppressFullLifecycleHookReport
  split
  · intro other pending h
    refine parked_insert (g := gate t) ?_ other pending h
    rfl
  · exact fun _ _ h => h

theorem dropReleasedAgent_mutates (t : TerminalState) (source label : String)
    (processOwnsAgent preserve : Bool) (clock : Instant) :
    Mutates (gate t)
      (gate (t.dropReleasedAgent source label processOwnsAgent preserve clock)) := by
  have hparked := parked_suppressFullLifecycleHookReport t source label .hookClear clock
  have hscreen : ∀ u : TerminalState,
      gate (if !processOwnsAgent then u.resetFallback.clearAgentName else u) = gate u := by
    intro u
    split <;> rfl
  unfold dropReleasedAgent
  dsimp only
  generalize t.suppressFullLifecycleHookReport source label .hookClear clock = u at *
  have hscreen := hscreen u
  generalize (if !processOwnsAgent then u.resetFallback.clearAgentName else u) = v at *
  obtain ⟨resume, revision, hresume⟩ := forgetReportedResumeOf_eq { v with hookAuthority := none }
    source label
  rw [hresume]
  rw [← hscreen] at hparked
  exact (Mutates.refl (gate t)).dropped rfl hparked

/-- A release that is taken ends the authority. -/
theorem releaseAgentWithMutation_mutates (t : TerminalState) (source label : String)
    (seq : Option Nat) (clock : Instant) :
    Mutates (gate t) (gate (t.releaseAgentWithMutation source label seq clock).1) := by
  unfold releaseAgentWithMutation
  split
  next => exact .refl _
  next =>
    dsimp only
    split
    next => exact .refl _
    next =>
      split
      next u hu =>
        refine acceptHookReport_mutates t source seq ?_
        rw [hu]
        exact .refl _
      next u hu =>
        refine acceptHookReport_mutates t source seq ?_
        rw [hu, gate_recomputeEffectiveState]
        exact dropReleasedAgent_mutates u source label _ _ clock

theorem clearSelfReportedAgent_mutates (t : TerminalState) (observedAt clock : Instant) :
    Mutates (gate t) (gate (t.clearSelfReportedAgent observedAt clock).1) := by
  unfold clearSelfReportedAgent
  split
  next => exact .refl _
  next =>
    dsimp only
    rw [gate_recomputeEffectiveState, gate_clearAgentName]
    obtain ⟨resume, revision, hresume⟩ := setReportedResume_eq { t with hookAuthority := none } none
    rw [hresume]
    exact (Mutates.refl (gate t)).dropped rfl fun _ _ h => h

/-! ### Metadata -/

theorem gate_acceptMetadataReport (t : TerminalState) (source : String) (seq : Option Nat)
    (includesTokens : Bool) (agent : Option Agent) :
    gate (t.acceptMetadataReport source seq includesTokens agent).1 = gate t := by
  unfold acceptMetadataReport
  split
  · rfl
  · split
    · rfl
    · split
      · rfl
      · rfl

theorem gate_setAgentMetadata (t : TerminalState) (report : AgentMetadataReport)
    (clock : Instant) : gate (t.setAgentMetadata report clock).1 = gate t := by
  unfold setAgentMetadata
  split
  · rfl
  · dsimp only
    have hgate := gate_acceptMetadataReport t report.source report.seq false
      (metadataReportAgent report.source report.agentLabel report.appliesToSource)
    split
    next u _ hu =>
      rw [hu] at hgate
      exact hgate
    next u hu =>
      rw [hu] at hgate
      exact hgate
    next u hu =>
      rw [hu] at hgate
      split
      · exact (gate_recomputeEffectiveState _ _ _).trans hgate
      · exact (gate_recomputeEffectiveState _ _ _).trans hgate

theorem gate_expireAgentMetadataAt (t : TerminalState) (scheduledDeadline now : Instant) :
    gate (t.expireAgentMetadataAt scheduledDeadline now).1 = gate t := by
  unfold expireAgentMetadataAt
  dsimp only
  split
  · rfl
  · exact gate_recomputeEffectiveState _ _ _

/-! ### Every mutation but a report -/

/-- The mutation forgets the sequence of the authority in place. -/
def Forgets (t : TerminalState) (authority : HookAuthority) : Op → Prop
  | .detectedState agent _ _ processExited now _ =>
      if processExited then ForgottenByExit t authority agent now
      else ForgottenByDetection t authority agent now
  | .detectedAgentProcess agent now _ => ForgottenByDetection t authority (some agent) now
  | .sessionReport report clock => ForgottenBySessionStart t authority report clock
  | _ => False

/-- What any mutation other than a hook report does, when it forgets no sequence in use. -/
theorem step_mutates (t : TerminalState) (op : Op) (hadmissible : t.Admissible op)
    (hop : ∀ report now clock, op ≠ .hookReport report now clock)
    (hkeep : ∀ authority, t.hookAuthority = some authority → ¬ Forgets t authority op) :
    Mutates (gate t) (gate (t.step op).1) := by
  cases op with
  | detectedState agent fallbackState visibleBlocker processExited now clock =>
      refine setDetectedStateWithScreenSignalsAt_mutates t agent fallbackState visibleBlocker
        processExited now clock fun authority ha => ?_
      have h := hkeep authority ha
      cases processExited <;> exact h
  | detectedAgentProcess agent now clock =>
      exact setDetectedAgentProcessAt_mutates t agent now clock hkeep
  | hookReport report now clock => exact absurd rfl (hop report now clock)
  | sessionReport report clock =>
      exact setAgentSessionRefForSessionStart_mutates t report clock hkeep
  | clearHookAuthority source seq clock =>
      exact clearHookAuthorityWithMutation_mutates t source seq clock
  | releaseAgent source label seq clock =>
      exact releaseAgentWithMutation_mutates t source label seq clock
  | clearSelfReportedAgent observedAt clock =>
      exact clearSelfReportedAgent_mutates t observedAt clock
  | agentMetadata report clock =>
      show Mutates (gate t) (gate (t.setAgentMetadata report clock).1)
      rw [gate_setAgentMetadata]
      exact .refl _
  | expireAgentMetadata scheduledDeadline now =>
      show Mutates (gate t) (gate (t.expireAgentMetadataAt scheduledDeadline now).1)
      rw [gate_expireAgentMetadataAt]
      exact .refl _
  | respawn =>
      refine (Mutates.refl (gate t)).dropped rfl ?_
      rintro source pending ⟨suppressed, hget, -⟩
      cases (HashMap.get_empty source).symm.trans hget
  | rehash suppressed metadata =>
      have hget : ∀ source, suppressed.get source
          = t.suppressedFullLifecycleHookReports.get source :=
        HashMap.get_eq_of_perm hadmissible.1
      refine ⟨?_, .kept rfl ?_ fun _ _ m hm => ⟨m, hm, le_rfl⟩⟩
      · rintro source pending ⟨found, hfound, hpending⟩
        exact ⟨found, (hget source).symm.trans hfound, hpending⟩
      · rintro source ⟨found, hfound, hreason⟩
        exact ⟨found, (hget source).symm.trans hfound, hreason⟩

end Herden.Proofs.Terminal
