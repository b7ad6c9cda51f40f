import Herden.Lib.Run
import Herden.Plugin.ActivityHook

/-!
# `Herden.Proofs.ActivityHook`: when the Live Activity converges

A process of the hook compares the agents with the last state it read before its sleep, and
records what it sent after its push. A second process that reads, lists or stops in between
works with a state that is about to be replaced, and then the recorded statuses can stay behind
the agents. `Undisturbed` rules out these overlaps, step by step. In a run of undisturbed steps the
recorded statuses are those of the agents once all processes have finished.

The claim file makes every process but the last to write it give up. So as long as one process
is on its way to its listing (`Willing`), some process will list the agents. `Progress` is the
invariant: what is being sent or was last sent agrees with the agents, or a process is willing,
or one has not started yet and will not stop early.
-/

namespace Herden.Proofs.ActivityHook

open Herden.Lib
open Herden.Plugin.ActivityHook

/-! ### Maps of statuses -/

/-- The same statuses of the same panes. -/
def Same (left right : StatusMap) : Prop := ∀ pane, left.get pane = right.get pane

theorem eq_of_all_zip {P : String → Bool} {left right : List String}
    (hlength : left.length = right.length)
    (h : (left.zip right).all (fun keys => keys.1 = keys.2 && P keys.1) = true) :
    left = right ∧ ∀ key ∈ left, P key = true := by
  induction left generalizing right with
  | nil =>
    cases right with
    | nil => exact ⟨rfl, fun _ hmem => absurd hmem List.not_mem_nil⟩
    | cons key rest => cases hlength
  | cons key rest ih =>
    cases right with
    | nil => cases hlength
    | cons other others =>
      rw [List.zip_cons_cons, List.all_cons, Bool.and_eq_true, Bool.and_eq_true] at h
      obtain ⟨heq, hrest⟩ := ih (Nat.succ.inj hlength) h.2
      obtain rfl : key = other := of_decide_eq_true h.1.1
      refine ⟨by rw [heq], fun k hk => ?_⟩
      cases List.mem_cons.mp hk with
      | inl hkey => rw [hkey]; exact h.1.2
      | inr hmem => exact hrest k hmem

theorem same_of_sameStatusMap {left right : StatusMap} (h : sameStatusMap left right = true) :
    Same left right := by
  rw [sameStatusMap, Bool.and_eq_true] at h
  obtain ⟨hkeys, hvalues⟩ :=
    eq_of_all_zip (P := fun key => left.get key = right.get key) (of_decide_eq_true h.1) h.2
  intro pane
  by_cases hleft : pane ∈ left.keys
  · exact of_decide_eq_true (hvalues pane (List.mem_mergeSort.mpr hleft))
  · -- a pane without a status on the left has none on the right
    have hright : pane ∉ right.keys := by
      intro hmem
      have hsorted : pane ∈ right.keys.mergeSort (· ≤ ·) := List.mem_mergeSort.mpr hmem
      rw [← hkeys] at hsorted
      exact hleft (List.mem_mergeSort.mp hsorted)
    rw [HashMap.mem_keys_iff, HashMap.containsKey, Bool.not_eq_true, Option.isSome_eq_false_iff,
      Option.isNone_iff_eq_none] at hleft hright
    rw [hleft, hright]

theorem isEmpty_iff {statuses : StatusMap} :
    statuses.entries.isEmpty = true ↔ ∀ pane, statuses.get pane = none := by
  rw [List.isEmpty_iff]
  constructor
  · intro h pane
    rw [Option.eq_none_iff_forall_ne_some]
    intro status hstatus
    rw [HashMap.get_eq_some_iff, h] at hstatus
    cases hstatus
  · intro h
    rw [List.eq_nil_iff_forall_not_mem]
    rintro ⟨pane, status⟩ hmem
    rw [← HashMap.get_eq_some_iff, h pane] at hmem
    cases hmem

theorem Same.isEmpty {left right : StatusMap} (h : Same left right) :
    left.entries.isEmpty = true ↔ right.entries.isEmpty = true := by
  rw [isEmpty_iff, isEmpty_iff]
  constructor
  · intro hleft pane
    rw [← h pane, hleft pane]
  · intro hright pane
    rw [h pane, hright pane]

theorem not_claimSuperseded_self (claim : Claim) : claimSuperseded claim (some claim) = false := by
  simp [claimSuperseded]

section

variable (toLowerCase : String → String)

/-! ### The condition on a run -/

/-- The eligible statuses of the agents. -/
def current (state : State) : StatusMap := eligibleStatusMap toLowerCase state.shared.agents

/-- No process is between its listing and the end of its push. -/
def NobodyPushing (state : State) : Prop :=
  ∀ pid push remaining, state.process pid ≠ .pushing push remaining

/-- The file says what the process read before its sleep. -/
def Unmoved (last now : Option LastState) : Prop :=
  ∃ before after, last = some before ∧ now = some after ∧ before.ended = after.ended ∧
    Same before.statuses after.statuses

/-- No other process is pushing when a process lists the agents or stops before that, and a
process that finds nothing to send compared with what the file still says. -/
def Undisturbed (state : State) : Op → Prop
  | .run pid =>
      match state.process pid with
      | .started event =>
          (isEnded state.shared.lastState && !isEligible event.status) = true →
            NobodyPushing state
      | .listing last _ =>
          NobodyPushing state ∧
            (suppressed last (current toLowerCase state) = true →
              Unmoved last state.shared.lastState)
      | _ => True
  | _ => True

/-- The last state is that of the agents, and it is what was last delivered. -/
def Recorded (state : State) : Prop :=
  ∃ last, state.shared.lastState = some last ∧ Same last.statuses (current toLowerCase state) ∧
    (last.ended = true ↔ (current toLowerCase state).entries.isEmpty = true) ∧
    ∀ entry, state.shared.sent.getLast? = some entry → entry.2.statuses = last.statuses

/-- No process runs yet, some device is registered, and the last state is missing or right. -/
def Init (state : State) : Prop :=
  (∀ pid, state.process pid = .absent) ∧ state.shared.devices ≠ [] ∧ state.shared.sent = [] ∧
    (state.shared.lastState = none ∨ Recorded toLowerCase state)

/-! ### The invariant -/

/-- A process on its way to its listing. -/
def Willing (claim : Option Claim) : Phase → Prop
  | .read _ | .stamped _ _ | .elected _ | .listing _ _ => True
  | .sleeping _ ours => claimSuperseded ours claim = false
  | _ => False

/-- The statuses that are being sent, or else those of the file. -/
inductive Effective (state : State) : Option StatusMap → Prop
  | pushing {pid : Nat} {push : Push} {remaining : List Device}
      (h : state.process pid = .pushing push remaining) : Effective state (some push.statuses)
  | file (h : NobodyPushing state) : Effective state (state.shared.lastState.map (·.statuses))

/-- What does not depend on the agents. -/
structure Core (state : State) : Prop where
  devices : state.shared.devices ≠ []
  listing : ∀ pid last devices, state.process pid = .listing last devices → devices ≠ []
  ended : ∀ last, state.shared.lastState = some last →
    (last.ended = true ↔ last.statuses.entries.isEmpty = true)
  push : ∀ pid push remaining, state.process pid = .pushing push remaining →
    (push.event = .ended ↔ push.statuses.entries.isEmpty = true)
  one : ∀ pid pid' push push' remaining remaining', state.process pid = .pushing push remaining →
    state.process pid' = .pushing push' remaining' → pid = pid'
  sent : ∀ pid push, state.process pid = .pushing push [] →
    ∃ device, state.shared.sent.getLast? = some (device, push)
  recorded : NobodyPushing state → ∀ entry, state.shared.sent.getLast? = some entry →
    ∃ last, state.shared.lastState = some last ∧ entry.2.statuses = last.statuses

/-- No process has started, and there is no last state. -/
def Fresh (state : State) : Prop :=
  (∀ pid, state.process pid = .absent) ∧ state.shared.lastState = none

def Agrees (state : State) : Prop :=
  ∃ statuses, Effective state (some statuses) ∧ Same statuses (current toLowerCase state)

def SomeWilling (state : State) : Prop :=
  ∃ pid, Willing state.shared.claim (state.process pid)

/-- Some process that has not read the last state yet. -/
def SomeStarted (state : State) (P : Event → Prop) : Prop :=
  ∃ pid event, state.process pid = .started event ∧ P event

/-- The activity has not ended. -/
def Open (state : State) : Prop :=
  ∃ statuses, Effective state statuses ∧
    ∀ map, statuses = some map → map.entries.isEmpty = false

def Progress (state : State) : Prop :=
  Fresh state ∨ Agrees toLowerCase state ∨ SomeWilling state ∨
    SomeStarted state (fun event => isEligible event.status = true) ∨
    Open state ∧ SomeStarted state (fun _ => True)

end

/-! ### Steps of a process that does not push -/

section

variable {toLowerCase : String → String} {state : State} {pid : Nat} {shared : Shared}
  {phase : Phase}

/-- From here on, the process that moves pushes neither before nor after its step. -/
structure Quiet (state : State) (pid : Nat) (phase : Phase) : Prop where
  before : ∀ push remaining, state.process pid ≠ .pushing push remaining
  after : ∀ push remaining, phase ≠ .pushing push remaining

variable {push : Push} {statuses : Option StatusMap}

theorem Quiet.process {remaining : List Device} (h : Quiet state pid phase) (other : Nat) :
    (state.set pid shared phase).process other = .pushing push remaining ↔
      state.process other = .pushing push remaining := by
  by_cases hother : other = pid
  · subst hother
    rw [System.process_set_self]
    exact ⟨fun hafter => absurd hafter (h.after _ _), fun hbefore => absurd hbefore (h.before _ _)⟩
  · rw [System.process_set_of_ne state hother]

theorem Quiet.nobodyPushing (h : Quiet state pid phase) :
    NobodyPushing (state.set pid shared phase) ↔ NobodyPushing state := by
  constructor
  · intro hnobody other push remaining hpushing
    exact hnobody other push remaining ((h.process other).mpr hpushing)
  · intro hnobody other push remaining hpushing
    exact hnobody other push remaining ((h.process other).mp hpushing)

theorem Quiet.effective (h : Quiet state pid phase)
    (hlast : shared.lastState = state.shared.lastState) (heff : Effective state statuses) :
    Effective (state.set pid shared phase) statuses := by
  cases heff with
  | pushing hpushing => exact Effective.pushing ((h.process _).mpr hpushing)
  | file hnobody =>
    rw [← hlast]
    exact Effective.file (h.nobodyPushing.mpr hnobody)

theorem Core.quiet (hcore : Core state) (h : Quiet state pid phase)
    (hdevices : shared.devices = state.shared.devices)
    (hlast : shared.lastState = state.shared.lastState)
    (hsent : shared.sent = state.shared.sent)
    (hlisting : ∀ last devices, phase = .listing last devices → devices ≠ []) :
    Core (state.set pid shared phase) where
  devices := by
    rw [System.shared_set, hdevices]
    exact hcore.devices
  listing := by
    apply System.forall_set (Q := fun _ (phase : Phase) => ∀ last devices,
      phase = .listing last devices → devices ≠ [])
    · exact hlisting
    · intro other _
      exact hcore.listing other
  ended last := by
    rw [System.shared_set, hlast]
    exact hcore.ended last
  push other push remaining hpushing :=
    hcore.push other push remaining ((h.process other).mp hpushing)
  one other other' push push' remaining remaining' hpushing hpushing' :=
    hcore.one other other' push push' remaining remaining' ((h.process other).mp hpushing)
      ((h.process other').mp hpushing')
  sent other push hpushing := by
    rw [System.shared_set, hsent]
    exact hcore.sent other push ((h.process other).mp hpushing)
  recorded hnobody := by
    rw [System.shared_set, hsent, hlast]
    exact hcore.recorded (h.nobodyPushing.mp hnobody)

/-- A process that becomes willing is enough. -/
theorem progress_willing (h : Willing shared.claim phase) :
    Progress toLowerCase (state.set pid shared phase) := by
  refine Or.inr (Or.inr (Or.inl ⟨pid, ?_⟩))
  rw [System.process_set_self]
  exact h

theorem agrees_set (hagrees : Agrees toLowerCase state)
    (heff : ∀ statuses, Effective state statuses → Effective (state.set pid shared phase) statuses)
    (hagents : shared.agents = state.shared.agents) :
    Agrees toLowerCase (state.set pid shared phase) := by
  obtain ⟨statuses, h, hsame⟩ := hagrees
  refine ⟨statuses, heff _ h, ?_⟩
  rw [current, System.shared_set, hagents]
  exact hsame

theorem someWilling_set (hwilling : SomeWilling state)
    (hclaim : shared.claim = state.shared.claim)
    (hnot : ¬ Willing state.shared.claim (state.process pid)) :
    SomeWilling (state.set pid shared phase) := by
  rw [SomeWilling, System.shared_set, hclaim]
  exact System.exists_set shared phase hwilling (fun h => absurd h hnot) (fun _ _ h => h)

theorem someStarted_set {P : Event → Prop} (hstarted : SomeStarted state P)
    (hnot : ∀ event, state.process pid = .started event → ¬ P event) :
    SomeStarted (state.set pid shared phase) P := by
  obtain ⟨other, event, hevent, hP⟩ := hstarted
  have hne : other ≠ pid := by
    rintro rfl
    exact hnot event hevent hP
  exact ⟨other, event, by rw [System.process_set_of_ne state hne]; exact hevent, hP⟩

/-- A process that is neither willing nor waiting to start leaves nothing undone, as long as
what is being sent stays the same. -/
theorem progress_leave (hprogress : Progress toLowerCase state)
    (heff : ∀ statuses, Effective state statuses → Effective (state.set pid shared phase) statuses)
    (hagents : shared.agents = state.shared.agents)
    (hclaim : shared.claim = state.shared.claim)
    (hwilling : ¬ Willing state.shared.claim (state.process pid))
    (hstarted : ∀ event, state.process pid ≠ .started event)
    (habsent : state.process pid ≠ .absent) :
    Progress toLowerCase (state.set pid shared phase) := by
  rcases hprogress with hfresh | hagrees | hwill | heligible | ⟨⟨statuses, h, hopen⟩, hstart⟩
  · exact absurd (hfresh.1 pid) habsent
  · exact Or.inr (Or.inl (agrees_set hagrees heff hagents))
  · exact Or.inr (Or.inr (Or.inl (someWilling_set hwill hclaim hwilling)))
  · exact Or.inr (Or.inr (Or.inr (Or.inl
      (someStarted_set heligible fun event hevent => absurd hevent (hstarted event)))))
  · exact Or.inr (Or.inr (Or.inr (Or.inr ⟨⟨statuses, heff _ h, hopen⟩,
      someStarted_set hstart fun event hevent => absurd hevent (hstarted event)⟩)))

/-- A process that stops early, with an event that is not eligible, while the activity has
ended and nobody is pushing. -/
theorem progress_stop {event : Event} (hprogress : Progress toLowerCase state)
    (hcore : Core state) (hevent : state.process pid = .started event)
    (hended : isEnded state.shared.lastState = true) (heligible : isEligible event.status = false)
    (hnobody : NobodyPushing state) :
    Progress toLowerCase (state.set pid state.shared .finished) := by
  have hquiet : Quiet state pid .finished :=
    ⟨fun _ _ h => hnobody _ _ _ h, fun _ _ h => (by cases h)⟩
  rcases hprogress with hfresh | hagrees | hwill | hstart | ⟨⟨statuses, heff, hopen⟩, _⟩
  · rw [hfresh.1 pid] at hevent
    cases hevent
  · exact Or.inr (Or.inl (agrees_set hagrees (fun _ => hquiet.effective rfl) rfl))
  · refine Or.inr (Or.inr (Or.inl (someWilling_set hwill rfl ?_)))
    rw [hevent]
    exact id
  · refine Or.inr (Or.inr (Or.inr (Or.inl (someStarted_set hstart ?_))))
    intro other hother
    rw [hevent] at hother
    cases hother
    rw [heligible]
    exact Bool.false_ne_true
  · -- an ended activity has no statuses, so it is not open
    cases heff with
    | pushing hpushing => exact absurd hpushing (hnobody _ _ _)
    | file _ =>
      rw [Plugin.ActivityHook.isEnded, Option.any_eq_true] at hended
      obtain ⟨last, hlast, hflag⟩ := hended
      have hempty := (hcore.ended last hlast).mp hflag
      rw [hopen last.statuses (by rw [hlast]; rfl)] at hempty
      cases hempty

/-! ### Steps of a process that pushes -/

/-- Nothing to send, compared with what the file still says: the file agrees with the agents. -/
theorem same_of_suppressed {last : Option LastState} {statuses : StatusMap}
    (hcore : Core state) (hsuppressed : suppressed last statuses = true)
    (hunmoved : Unmoved last state.shared.lastState) :
    ∃ now, state.shared.lastState = some now ∧ Same now.statuses statuses := by
  obtain ⟨before, after, hlast, hnow, hflag, hsame⟩ := hunmoved
  refine ⟨after, hnow, ?_⟩
  rw [suppressed, hlast, Bool.or_eq_true, Bool.and_eq_true] at hsuppressed
  cases hsuppressed with
  | inl h =>
    have hstatuses : Same statuses before.statuses := same_of_sameStatusMap h
    intro pane
    rw [← hsame pane, hstatuses pane]
  | inr h =>
    -- both are empty
    have hempty := (hcore.ended after hnow).mp (hflag.symm.trans h.2)
    intro pane
    rw [isEmpty_iff.mp hempty pane, isEmpty_iff.mp h.1 pane]

theorem event_pushFor {last : Option LastState} {statuses : StatusMap} {now : Nat} :
    (pushFor last statuses now).event = .ended ↔
      (pushFor last statuses now).statuses.entries.isEmpty = true := by
  show (if statuses.entries.isEmpty then PushEvent.ended else .update) = .ended ↔
    statuses.entries.isEmpty = true
  split
  next h => exact ⟨fun _ => h, fun _ => rfl⟩
  next h => exact ⟨fun h' => (by cases h'), fun h' => absurd h' h⟩

/-- The process starts its push while nobody else is pushing. -/
theorem Core.startPush {devices : List Device} (hcore : Core state) (hnobody : NobodyPushing state)
    (hdevices : devices ≠ [])
    (hevent : push.event = .ended ↔ push.statuses.entries.isEmpty = true) :
    Core (state.set pid state.shared (.pushing push devices)) := by
  -- the one process that pushes is this one
  have hself : ∀ other push' remaining,
      (state.set pid state.shared (.pushing push devices)).process other
        = .pushing push' remaining → other = pid ∧ push' = push ∧ remaining = devices := by
    intro other push' remaining hother
    by_cases hne : other = pid
    · subst hne
      rw [System.process_set_self] at hother
      cases hother
      exact ⟨rfl, rfl, rfl⟩
    · rw [System.process_set_of_ne state hne] at hother
      exact absurd hother (hnobody _ _ _)
  constructor
  · exact hcore.devices
  · apply System.forall_set (Q := fun _ (phase : Phase) => ∀ last devices,
      phase = .listing last devices → devices ≠ [])
    · intro last devices h
      cases h
    · intro other _
      exact hcore.listing other
  · exact hcore.ended
  · intro other push' remaining hother
    obtain ⟨_, rfl, _⟩ := hself _ _ _ hother
    exact hevent
  · intro other other' push' push'' remaining remaining' hother hother'
    rw [(hself _ _ _ hother).1, (hself _ _ _ hother').1]
  · intro other push' hother
    exact absurd (hself _ _ _ hother).2.2.symm hdevices
  · intro hnone
    exact absurd (System.process_set_self _ _ _ _) (hnone pid push devices)

/-- One more device gets the push. -/
theorem Core.deliver {device : Device} {rest : List Device} (hcore : Core state)
    (hpushing : state.process pid = .pushing push (device :: rest)) :
    Core (state.set pid { state.shared with sent := state.shared.sent ++ [(device, push)] }
      (.pushing push rest)) := by
  generalize hset : state.set pid
    { state.shared with sent := state.shared.sent ++ [(device, push)] } (.pushing push rest) = after
  have hself : ∀ other push' remaining, after.process other = .pushing push' remaining →
      other = pid ∧ push' = push := by
    intro other push' remaining hother
    rw [← hset] at hother
    by_cases hne : other = pid
    · subst hne
      rw [System.process_set_self] at hother
      cases hother
      exact ⟨rfl, rfl⟩
    · rw [System.process_set_of_ne state hne] at hother
      exact absurd (hcore.one _ _ _ _ _ _ hother hpushing) hne
  have hsent : after.shared.sent = state.shared.sent ++ [(device, push)] := by rw [← hset]; rfl
  constructor
  · rw [← hset]
    exact hcore.devices
  · rw [← hset]
    apply System.forall_set (Q := fun _ (phase : Phase) => ∀ last devices,
      phase = .listing last devices → devices ≠ [])
    · intro last devices h
      cases h
    · intro other _
      exact hcore.listing other
  · rw [← hset]
    exact hcore.ended
  · intro other push' remaining hother
    obtain ⟨_, rfl⟩ := hself _ _ _ hother
    exact hcore.push pid push' _ hpushing
  · intro other other' push' push'' remaining remaining' hother hother'
    rw [(hself _ _ _ hother).1, (hself _ _ _ hother').1]
  · intro other push' hother
    obtain ⟨_, rfl⟩ := hself _ _ _ hother
    exact ⟨device, by rw [hsent, List.getLast?_concat]⟩
  · intro hnone
    have : after.process pid = .pushing push rest := by rw [← hset, System.process_set_self]
    exact absurd this (hnone pid push rest)

/-- The push is over and recorded. -/
theorem Core.record (hcore : Core state) (hpushing : state.process pid = .pushing push []) :
    NobodyPushing (state.set pid { state.shared with
      lastState := some ⟨state.shared.clock, push.statuses, push.event = .ended⟩ } .finished) ∧
    Core (state.set pid { state.shared with
      lastState := some ⟨state.shared.clock, push.statuses, push.event = .ended⟩ } .finished) := by
  have hnobody : NobodyPushing (state.set pid { state.shared with
      lastState := some ⟨state.shared.clock, push.statuses, push.event = .ended⟩ } .finished) := by
    intro other push' remaining hother
    by_cases hne : other = pid
    · subst hne
      rw [System.process_set_self] at hother
      cases hother
    · rw [System.process_set_of_ne state hne] at hother
      exact hne (hcore.one _ _ _ _ _ _ hother hpushing)
  refine ⟨hnobody, ?_⟩
  constructor
  · exact hcore.devices
  · apply System.forall_set (Q := fun _ (phase : Phase) => ∀ last devices,
      phase = .listing last devices → devices ≠ [])
    · intro last devices h
      cases h
    · intro other _
      exact hcore.listing other
  · intro last hlast
    cases hlast
    rw [decide_eq_true_iff]
    exact hcore.push pid push [] hpushing
  · intro other push' remaining hother
    exact absurd hother (hnobody _ _ _)
  · intro other other' push' push'' remaining remaining' hother
    exact absurd hother (hnobody _ _ _)
  · intro other push' hother
    exact absurd hother (hnobody _ _ _)
  · intro _ entry hentry
    obtain ⟨device, hlast⟩ := hcore.sent pid push hpushing
    rw [System.shared_set, hlast] at hentry
    cases hentry
    exact ⟨_, rfl, rfl⟩

theorem effective_deliver {remaining rest : List Device}
    (hpushing : state.process pid = .pushing push remaining) (h : Effective state statuses) :
    Effective (state.set pid shared (.pushing push rest)) statuses := by
  cases h with
  | @pushing other push' remaining' hother =>
    by_cases hne : other = pid
    · subst hne
      rw [hpushing] at hother
      cases hother
      exact Effective.pushing (System.process_set_self _ _ _ _)
    · exact Effective.pushing ((System.process_set_of_ne state hne _ _).trans hother)
  | file hnobody => exact absurd hpushing (hnobody _ _ _)

theorem effective_record {last : LastState} (hcore : Core state)
    (hpushing : state.process pid = .pushing push [])
    (hnobody : NobodyPushing (state.set pid shared phase)) (hlast : shared.lastState = some last)
    (hstatuses : last.statuses = push.statuses) (h : Effective state statuses) :
    Effective (state.set pid shared phase) statuses := by
  cases h with
  | @pushing other push' remaining' hother =>
    obtain rfl := hcore.one _ _ _ _ _ _ hother hpushing
    rw [hpushing] at hother
    cases hother
    have hfile := Effective.file hnobody
    rw [System.shared_set, hlast, Option.map_some, hstatuses] at hfile
    exact hfile
  | file hnone => exact absurd hpushing (hnone _ _ _)

/-! ### Every step keeps the invariant -/

/-- The invariant of a run. -/
structure Inv (toLowerCase : String → String) (state : State) : Prop where
  core : Core state
  progress : Progress toLowerCase state

theorem Inv.run {next : Shared × Phase} (h : Inv toLowerCase state)
    (hundisturbed : Undisturbed toLowerCase state (.run pid))
    (hnext : advance toLowerCase pid state.shared (state.process pid) = some next) :
    Inv toLowerCase (state.set pid next.1 next.2) := by
  obtain ⟨hcore, hprogress⟩ := h
  have hdevices : state.shared.devices.isEmpty = false :=
    List.isEmpty_eq_false_iff.mpr hcore.devices
  rw [Undisturbed] at hundisturbed
  -- a phase that does not push is quiet if the next one does not push either
  have hquiet : ∀ phase, (∀ push remaining, state.process pid ≠ .pushing push remaining) →
      (∀ push remaining, phase ≠ .pushing push remaining) → Quiet state pid phase :=
    fun _ hbefore hafter => ⟨hbefore, hafter⟩
  cases hphase : state.process pid with
  | absent =>
    rw [hphase] at hnext
    cases hnext
  | finished =>
    rw [hphase] at hnext
    cases hnext
  | started event =>
    rw [hphase] at hnext hundisturbed
    rw [advance, hdevices, if_neg Bool.false_ne_true] at hnext
    split at hnext
    next hstop =>
      cases hnext
      have hq := hquiet .finished (by simp [hphase]) (by simp)
      rw [Bool.and_eq_true, Bool.not_eq_true'] at hstop
      have hnobody := hundisturbed (by simp [hstop])
      exact ⟨hcore.quiet hq rfl rfl rfl (by simp),
        progress_stop hprogress hcore hphase hstop.1 hstop.2 hnobody⟩
    next =>
      cases hnext
      exact ⟨hcore.quiet (hquiet _ (by simp [hphase]) (by simp)) rfl rfl rfl (by simp),
        progress_willing trivial⟩
  | read last =>
    rw [hphase] at hnext
    cases hnext
    exact ⟨hcore.quiet (hquiet _ (by simp [hphase]) (by simp)) rfl rfl rfl (by simp),
      progress_willing trivial⟩
  | stamped last claim =>
    rw [hphase] at hnext
    cases hnext
    exact ⟨hcore.quiet (hquiet _ (by simp [hphase]) (by simp)) rfl rfl rfl (by simp),
      progress_willing (not_claimSuperseded_self claim)⟩
  | sleeping last claim =>
    rw [hphase, advance] at hnext
    split at hnext
    next hsuperseded =>
      cases hnext
      have hq := hquiet .finished (by simp [hphase]) (by simp)
      refine ⟨hcore.quiet hq rfl rfl rfl (by simp),
        progress_leave hprogress (fun _ => hq.effective rfl) rfl rfl ?_ (by simp [hphase])
          (by simp [hphase])⟩
      rw [hphase]
      intro hwilling
      rw [Willing, hsuperseded] at hwilling
      cases hwilling
    next =>
      cases hnext
      exact ⟨hcore.quiet (hquiet _ (by simp [hphase]) (by simp)) rfl rfl rfl (by simp),
        progress_willing trivial⟩
  | elected last =>
    rw [hphase, advance, hdevices, if_neg Bool.false_ne_true] at hnext
    cases hnext
    refine ⟨hcore.quiet (hquiet _ (by simp [hphase]) (by simp)) rfl rfl rfl ?_,
      progress_willing trivial⟩
    intro last' devices h
    cases h
    exact hcore.devices
  | listing last devices =>
    rw [hphase] at hnext hundisturbed
    obtain ⟨hnobody, hunmoved⟩ := hundisturbed
    rw [advance] at hnext
    split at hnext
    next hsuppressed =>
      cases hnext
      have hq := hquiet .finished (by simp [hphase]) (by simp)
      refine ⟨hcore.quiet hq rfl rfl rfl (by simp), Or.inr (Or.inl ?_)⟩
      obtain ⟨now, hnow, hsame⟩ := same_of_suppressed hcore hsuppressed (hunmoved hsuppressed)
      refine ⟨now.statuses, ?_, hsame⟩
      have hfile := Effective.file hnobody
      rw [hnow] at hfile
      exact hq.effective rfl hfile
    next =>
      cases hnext
      refine ⟨hcore.startPush hnobody (hcore.listing pid last devices hphase) event_pushFor,
        Or.inr (Or.inl ⟨_, Effective.pushing (System.process_set_self _ _ _ _), ?_⟩)⟩
      intro pane
      rfl
  | pushing push remaining =>
    rw [hphase] at hnext
    have hnotWilling : ¬ Willing state.shared.claim (state.process pid) := by
      rw [hphase]
      exact id
    cases remaining with
    | nil =>
      cases hnext
      obtain ⟨hnobody, hafter⟩ := hcore.record hphase
      exact ⟨hafter, progress_leave hprogress
        (fun _ => effective_record hcore hphase hnobody rfl rfl) rfl rfl hnotWilling
        (by simp [hphase]) (by simp [hphase])⟩
    | cons device rest =>
      cases hnext
      exact ⟨hcore.deliver hphase, progress_leave hprogress (fun _ => effective_deliver hphase)
        rfl rfl hnotWilling (by simp [hphase]) (by simp [hphase])⟩

/-- An agent changes its status and a process starts. -/
theorem Inv.change {agents : List Agent} {event : Event} (h : Inv toLowerCase state)
    (habsent : state.process pid = .absent)
    (hchange : StatusChange (current toLowerCase state) (eligibleStatusMap toLowerCase agents)
      event) :
    Inv toLowerCase (state.set pid { state.shared with agents := agents } (.started event)) := by
  obtain ⟨hcore, hprogress⟩ := h
  have hquiet : Quiet state pid (.started event) := ⟨by simp [habsent], by simp⟩
  have heff : ∀ statuses, Effective state statuses →
      Effective
          (state.set pid { state.shared with agents := agents } (.started event)) statuses := by
    intro statuses h
    refine hquiet.effective ?_ h
    rfl
  have hstarted : ∀ P : Event → Prop, P event →
      SomeStarted (state.set pid { state.shared with agents := agents } (.started event)) P :=
    fun P hP => ⟨pid, event, System.process_set_self _ _ _ _, hP⟩
  refine ⟨hcore.quiet hquiet rfl rfl rfl (by simp), ?_⟩
  cases heligible : isEligible event.status with
  | true => exact Or.inr (Or.inr (Or.inr (Or.inl (hstarted _ heligible))))
  | false =>
    rcases hprogress with hfresh | ⟨statuses, h, hsame⟩ | hwill | hstart | ⟨⟨statuses, h, hopen⟩, _⟩
    · -- without a last state nothing has ended
      have hnobody : NobodyPushing state := by
        intro other push remaining hother
        rw [hfresh.1 other] at hother
        cases hother
      refine Or.inr (Or.inr (Or.inr (Or.inr ⟨⟨_, heff _ (Effective.file hnobody), ?_⟩,
        hstarted _ trivial⟩)))
      intro map hmap
      rw [hfresh.2] at hmap
      cases hmap
    · cases hempty : statuses.entries.isEmpty with
      | true =>
        -- there was no status to lose
        refine Or.inr (Or.inl ⟨statuses, heff _ h, ?_⟩)
        intro pane
        have hbefore : (current toLowerCase state).get pane = none := by
          rw [← hsame pane, isEmpty_iff.mp hempty pane]
        rw [isEmpty_iff.mp hempty pane, current, System.shared_set]
        by_cases hpane : pane = event.paneId
        · rw [hpane, hchange.2, heligible, if_neg Bool.false_ne_true]
        · rw [hchange.1 pane hpane, hbefore]
      | false =>
        refine Or.inr (Or.inr (Or.inr (Or.inr ⟨⟨_, heff _ h, ?_⟩, hstarted _ trivial⟩)))
        intro map hmap
        cases hmap
        exact hempty
    · refine Or.inr (Or.inr (Or.inl (someWilling_set hwill rfl ?_)))
      rw [habsent]
      exact id
    · exact Or.inr (Or.inr (Or.inr (Or.inl (someStarted_set hstart (by simp [habsent])))))
    · exact Or.inr (Or.inr (Or.inr (Or.inr ⟨⟨_, heff _ h, hopen⟩, hstarted _ trivial⟩)))

/-- The clock and the registered devices have no part in it. -/
theorem Inv.environment (h : Inv toLowerCase state) (hdevices : shared.devices ≠ [])
    (hagents : shared.agents = state.shared.agents)
    (hlast : shared.lastState = state.shared.lastState)
    (hclaim : shared.claim = state.shared.claim) (hsent : shared.sent = state.shared.sent) :
    Inv toLowerCase { state with shared := shared } := by
  obtain ⟨hcore, hprogress⟩ := h
  have heff : ∀ statuses, Effective state statuses →
      Effective { state with shared := shared } statuses := by
    intro statuses h
    cases h with
    | pushing hpushing => exact Effective.pushing hpushing
    | file hnobody =>
      rw [← hlast]
      exact @Effective.file { state with shared := shared } hnobody
  constructor
  · exact ⟨hdevices, hcore.listing, hlast ▸ hcore.ended, hcore.push, hcore.one,
      hsent ▸ hcore.sent, fun hnobody => hsent ▸ hlast ▸ hcore.recorded hnobody⟩
  · rcases hprogress with hfresh | ⟨statuses, h, hsame⟩ | hwill | hstart |
      ⟨⟨statuses, h, hopen⟩, hstart⟩
    · exact Or.inl ⟨hfresh.1, hlast.trans hfresh.2⟩
    · refine Or.inr (Or.inl ⟨statuses, heff _ h, ?_⟩)
      show Same statuses (eligibleStatusMap toLowerCase shared.agents)
      rw [hagents]
      exact hsame
    · refine Or.inr (Or.inr (Or.inl ?_))
      show ∃ pid, Willing shared.claim (state.process pid)
      rw [hclaim]
      exact hwill
    · exact Or.inr (Or.inr (Or.inr (Or.inl hstart)))
    · exact Or.inr (Or.inr (Or.inr (Or.inr ⟨⟨statuses, heff _ h, hopen⟩, hstart⟩)))

theorem Inv.step {op : Op} {next : State} {answer : Unit} (h : Inv toLowerCase state)
    (hallowed : Allowed toLowerCase state op) (hundisturbed : Undisturbed toLowerCase state op)
    (hstep : step toLowerCase state op = some (next, answer)) : Inv toLowerCase next := by
  cases op with
  | change agents event pid =>
    cases hstep
    exact h.change hallowed.1 hallowed.2
  | tick now =>
    cases hstep
    exact h.environment h.core.devices rfl rfl rfl rfl
  | register devices =>
    cases hstep
    exact h.environment hallowed rfl rfl rfl rfl
  | run pid =>
    rw [Plugin.ActivityHook.step, Option.map_eq_some_iff] at hstep
    obtain ⟨next', hnext, heq⟩ := hstep
    cases heq
    exact h.run hundisturbed hnext

theorem inv_of_init (h : Init toLowerCase state) : Inv toLowerCase state := by
  obtain ⟨habsent, hdevices, hsent, hlast⟩ := h
  have hnobody : NobodyPushing state := by
    intro pid push remaining hpushing
    rw [habsent pid] at hpushing
    cases hpushing
  have hended : ∀ last, state.shared.lastState = some last →
      (last.ended = true ↔ last.statuses.entries.isEmpty = true) := by
    intro last hsome
    cases hlast with
    | inl hnone => rw [hnone] at hsome; cases hsome
    | inr hrecorded =>
      obtain ⟨last', hlast', hsame, hflag, _⟩ := hrecorded
      rw [hlast'] at hsome
      cases hsome
      rw [hflag, hsame.isEmpty]
  constructor
  · refine ⟨hdevices, ?_, hended, ?_, ?_, ?_, ?_⟩
    · intro pid last devices hlisting
      rw [habsent pid] at hlisting
      cases hlisting
    · intro pid push remaining hpushing
      exact absurd hpushing (hnobody _ _ _)
    · intro pid pid' push push' remaining remaining' hpushing
      exact absurd hpushing (hnobody _ _ _)
    · intro pid push hpushing
      exact absurd hpushing (hnobody _ _ _)
    · intro _ entry hentry
      rw [hsent] at hentry
      cases hentry
  · cases hlast with
    | inl hnone => exact Or.inl ⟨habsent, hnone⟩
    | inr hrecorded =>
      obtain ⟨last, hlast, hsame, _⟩ := hrecorded
      have hfile := Effective.file hnobody
      rw [hlast] at hfile
      exact Or.inr (Or.inl ⟨last.statuses, hfile, hsame⟩)

/-! ### Whole runs -/

/-- Every process has come to its end. -/
def AllFinished (state : State) : Prop :=
  ∀ pid, state.process pid = .absent ∨ state.process pid = .finished

/-- With nothing left to run, progress means that the last state is right. -/
theorem Inv.recorded (h : Inv toLowerCase state) (hfinished : AllFinished state)
    (hstarted : ∃ pid, state.process pid ≠ .absent) : Recorded toLowerCase state := by
  have hnobody : NobodyPushing state := by
    intro pid push remaining hpushing
    rcases hfinished pid with hpid | hpid
    · rw [hpid] at hpushing
      cases hpushing
    · rw [hpid] at hpushing
      cases hpushing
  have hnostart : ∀ P, ¬ SomeStarted state P := by
    rintro P ⟨pid, event, hevent, _⟩
    rcases hfinished pid with hpid | hpid
    · rw [hpid] at hevent
      cases hevent
    · rw [hpid] at hevent
      cases hevent
  rcases h.progress with hfresh | ⟨statuses, heff, hsame⟩ | ⟨pid, hwilling⟩ | hstart | ⟨_, hstart⟩
  · obtain ⟨pid, hpid⟩ := hstarted
    exact absurd (hfresh.1 pid) hpid
  · generalize hsome : some statuses = effective at heff
    cases heff with
    | pushing hpushing => exact absurd hpushing (hnobody _ _ _)
    | file _ =>
      obtain ⟨last, hlast, hstatuses⟩ := Option.map_eq_some_iff.mp hsome.symm
      subst hstatuses
      refine ⟨last, hlast, hsame, (h.core.ended last hlast).trans hsame.isEmpty, ?_⟩
      intro entry hentry
      obtain ⟨last', hlast', heq⟩ := h.core.recorded hnobody entry hentry
      rw [hlast] at hlast'
      cases hlast'
      exact heq
  · rcases hfinished pid with hpid | hpid
    · rw [hpid] at hwilling
      exact hwilling.elim
    · rw [hpid] at hwilling
      exact hwilling.elim
  · exact absurd hstart (hnostart _)
  · exact absurd hstart (hnostart _)

/-- In a run of undisturbed steps, whatever their order, the recorded statuses are those of the
agents when all processes have finished. -/
theorem recorded_of_undisturbed
    (h : Reachable (Init toLowerCase)
      (fun state op => Allowed toLowerCase state op ∧ Undisturbed toLowerCase state op)
      (step toLowerCase) state)
    (hfinished : AllFinished state) (hstarted : ∃ pid, state.process pid ≠ .absent) :
    Recorded toLowerCase state := by
  have hinv : Inv toLowerCase state := by
    apply h.invariant (fun state => Inv toLowerCase state)
    · intro first hfirst
      exact inv_of_init hfirst
    · intro before op after answer hop hstep hbefore
      exact hbefore.step hop.1 hop.2 hstep
  exact hinv.recorded hfinished hstarted

end

/-! ### One process, and two that overlap -/

/-- A process moves from one phase to the next, and the others stay. -/
theorem step_run {toLowerCase : String → String} {state : State} {pid : Nat}
    {shared shared' : Shared} {phase phase' : Phase}
    (h : advance toLowerCase pid shared phase = some (shared', phase')) :
    step toLowerCase (state.set pid shared phase) (.run pid)
      = some (state.set pid shared' phase', ()) := by
  rw [step, System.shared_set, System.process_set_self, h]
  simp

/-- A host with one agent and one device. -/
def host (status : String) (lastState : Option LastState) : Shared where
  agents := [⟨some "w1:p1", some status⟩]
  devices := ["iphone"]
  lastState := lastState
  claim := none
  clock := 0
  sent := []

/-- Nothing runs yet. -/
def quiet (shared : Shared) : State := ⟨shared, fun _ => .absent⟩

theorem statusChange_host (before after : String) (lastState lastState' : Option LastState)
    (heligible : isEligible after = true) (hlower : after.toLower = after) :
    StatusChange (eligibleStatusMap String.toLower (host before lastState).agents)
      (eligibleStatusMap String.toLower (host after lastState').agents) ⟨"w1:p1", after⟩ := by
  have hmap : ∀ status : String, eligibleStatusMap String.toLower [⟨some "w1:p1", some status⟩]
      = if isEligible status.toLower then HashMap.insert ∅ "w1:p1" status.toLower else ∅ := by
    intro status
    cases heligible : isEligible status.toLower with
    | true => simp [eligibleStatusMap, parseEligible, heligible]
    | false => simp [eligibleStatusMap, parseEligible, heligible]
  rw [host, host, hmap, hmap, hlower, heligible]
  refine ⟨fun pane hpane => ?_, by simp [heligible]⟩
  rw [if_pos rfl, HashMap.get_insert_of_ne _ hpane, HashMap.get_empty]
  split
  · rw [HashMap.get_insert_of_ne _ hpane, HashMap.get_empty]
  · rw [HashMap.get_empty]

/-- The first push of a host: nothing was sent before. -/
def firstPush : Push :=
  pushFor none (eligibleStatusMap String.toLower (host "working" none).agents) 0

def afterFirst : Shared :=
  { host "working" none with
    claim := some ⟨1, 0⟩
    sent := [("iphone", firstPush)]
    lastState := some ⟨0, firstPush.statuses, firstPush.event = .ended⟩ }

/-- What the host is like when its one process has started, with the claim of the process once
it is there. -/
def running (claim : Option Claim) : Shared := { host "working" none with claim := claim }

/-- An undisturbed run takes process 1 of an idle host to this phase. -/
def Reaches (shared : Shared) (phase : Phase) : Prop :=
  Reachable (Init String.toLower) (fun state op => Allowed String.toLower state op ∧
    Undisturbed String.toLower state op) (step String.toLower)
    ((quiet (host "idle" none)).set 1 shared phase)

/-- One process that starts, pushes and records on its own. -/
theorem recorded_of_undisturbed_first_push :
    Recorded String.toLower ((quiet (host "idle" none)).set 1 afterFirst .finished) := by
  have hnobody : ∀ shared phase, (∀ push remaining, phase ≠ Phase.pushing push remaining) →
      NobodyPushing ((quiet (host "idle" none)).set 1 shared phase) := by
    intro shared phase hphase
    have hquiet : Quiet (quiet (host "idle" none)) 1 phase := ⟨fun _ _ h => (by cases h), hphase⟩
    rw [hquiet.nobodyPushing]
    intro pid push remaining h
    cases h
  have hstarted : Reaches (running none) (.started ⟨"w1:p1", "working"⟩) :=
    Reachable.next (Op.change (host "working" none).agents ⟨"w1:p1", "working"⟩ 1)
      (Reachable.start ⟨fun _ => rfl, List.cons_ne_nil _ _, rfl, Or.inl rfl⟩)
      ⟨⟨rfl, statusChange_host "idle" "working" none none (by decide +kernel)
        (by decide +kernel)⟩, trivial⟩ rfl
  have hread : Reaches (running none) (.read none) := by
    refine Reachable.next (Op.run 1) hstarted ⟨trivial, ?_⟩ (step_run rfl)
    rw [Undisturbed, System.process_set_self]
    intro h
    cases h
  have hstamped : Reaches (running none) (.stamped none ⟨1, 0⟩) := by
    refine Reachable.next (Op.run 1) hread ⟨trivial, ?_⟩ (step_run rfl)
    rw [Undisturbed, System.process_set_self]
    trivial
  have hsleeping : Reaches (running (some ⟨1, 0⟩)) (.sleeping none ⟨1, 0⟩) := by
    refine Reachable.next (Op.run 1) hstamped ⟨trivial, ?_⟩ (step_run rfl)
    rw [Undisturbed, System.process_set_self]
    trivial
  have helected : Reaches (running (some ⟨1, 0⟩)) (.elected none) := by
    refine Reachable.next (Op.run 1) hsleeping ⟨trivial, ?_⟩ (step_run rfl)
    rw [Undisturbed, System.process_set_self]
    trivial
  have hlisting : Reaches (running (some ⟨1, 0⟩)) (.listing none ["iphone"]) := by
    refine Reachable.next (Op.run 1) helected ⟨trivial, ?_⟩ (step_run rfl)
    rw [Undisturbed, System.process_set_self]
    trivial
  have hpushing : Reaches (running (some ⟨1, 0⟩)) (.pushing firstPush ["iphone"]) := by
    refine Reachable.next (Op.run 1) hlisting ⟨trivial, ?_⟩ (step_run ?_)
    · rw [Undisturbed, System.process_set_self]
      exact ⟨hnobody _ _ (by simp),
        fun h => (by simp [suppressed, Plugin.ActivityHook.isEnded] at h)⟩
    · simp [advance, suppressed, Plugin.ActivityHook.isEnded, firstPush, host, running]
  have hdelivered : Reaches { running (some ⟨1, 0⟩) with sent := [("iphone", firstPush)] }
      (.pushing firstPush []) := by
    refine Reachable.next (Op.run 1) hpushing ⟨trivial, ?_⟩ (step_run rfl)
    rw [Undisturbed, System.process_set_self]
    trivial
  have hrecorded : Reaches afterFirst .finished := by
    refine Reachable.next (Op.run 1) hdelivered ⟨trivial, ?_⟩ (step_run rfl)
    rw [Undisturbed, System.process_set_self]
    trivial
  apply recorded_of_undisturbed hrecorded
  · apply System.forall_set (Q := fun _ phase => phase = Phase.absent ∨ phase = .finished)
    · exact Or.inr rfl
    · intro pid _
      exact Or.inl rfl
  · refine ⟨1, ?_⟩
    rw [System.process_set_self]
    intro h
    cases h

/-- The agent was last seen at work. -/
def seen : LastState :=
  ⟨0, eligibleStatusMap String.toLower [⟨some "w1:p1", some "working"⟩], false⟩

/-- The push of a process that listed the agent while it was blocked. -/
def blockedPush : Push :=
  pushFor (some seen) (eligibleStatusMap String.toLower (host "blocked" none).agents) 0

/-- The host after `blockedPush` has started, and after the agent has gone on. -/
def overlapping (status : String) (claim : Option Claim) : Shared :=
  { host status (some seen) with claim := claim }

def atWork : State := quiet (host "working" (some seen))

/-- Process 1 is in the middle of its push. -/
def midPush : State :=
  atWork.set 1 (overlapping "blocked" (some ⟨1, 0⟩)) (.pushing blockedPush ["iphone"])

/-- Process 2 has found nothing to send. -/
def overlooked : State := midPush.set 2 (overlapping "working" (some ⟨2, 0⟩)) .finished

/-- Process 1 has recorded its push. -/
def leftBehind : State :=
  overlooked.set 1 { overlapping "working" (some ⟨2, 0⟩) with
    sent := [("iphone", blockedPush)]
    lastState := some ⟨0, blockedPush.statuses, blockedPush.event = .ended⟩ } .finished

/-- A run, whatever overlaps in it. -/
def Runs (state : State) : Prop :=
  Reachable (Init String.toLower) (Allowed String.toLower) (step String.toLower) state

theorem runs_midPush : Runs midPush := by
  have hinit : Init String.toLower atWork := by
    refine ⟨fun _ => rfl, List.cons_ne_nil _ _, rfl, Or.inr ⟨seen, rfl, fun _ => rfl, ?_, ?_⟩⟩
    · decide +kernel
    · intro entry h
      cases h
  have hstarted : Runs
      (atWork.set 1 (overlapping "blocked" none) (.started ⟨"w1:p1", "blocked"⟩)) :=
    Reachable.next (Op.change (host "blocked" none).agents ⟨"w1:p1", "blocked"⟩ 1)
      (Reachable.start hinit)
      ⟨rfl, statusChange_host "working" "blocked" (some seen) none (by decide)
        (by decide +kernel)⟩ rfl
  have hread : Runs (atWork.set 1 (overlapping "blocked" none) (.read (some seen))) :=
    Reachable.next (Op.run 1) hstarted trivial (step_run rfl)
  have hstamped : Runs (atWork.set 1 (overlapping "blocked" none)
      (.stamped (some seen) ⟨1, 0⟩)) :=
    Reachable.next (Op.run 1) hread trivial (step_run rfl)
  have hsleeping : Runs (atWork.set 1 (overlapping "blocked" (some ⟨1, 0⟩))
      (.sleeping (some seen) ⟨1, 0⟩)) :=
    Reachable.next (Op.run 1) hstamped trivial (step_run rfl)
  have helected : Runs (atWork.set 1 (overlapping "blocked" (some ⟨1, 0⟩))
      (.elected (some seen))) :=
    Reachable.next (Op.run 1) hsleeping trivial (step_run rfl)
  have hlisting : Runs (atWork.set 1 (overlapping "blocked" (some ⟨1, 0⟩))
      (.listing (some seen) ["iphone"])) :=
    Reachable.next (Op.run 1) helected trivial (step_run rfl)
  refine Reachable.next (Op.run 1) hlisting trivial (step_run ?_)
  have hsuppressed : suppressed (some seen)
      (eligibleStatusMap String.toLower (host "blocked" none).agents) = false := by decide +kernel
  show (if suppressed (some seen)
    (eligibleStatusMap String.toLower (host "blocked" none).agents) = true then _ else _) = _
  rw [hsuppressed, if_neg Bool.false_ne_true]
  rfl

theorem runs_overlooked : Runs overlooked := by
  have hstarted : Runs (midPush.set 2 (overlapping "working" (some ⟨1, 0⟩))
      (.started ⟨"w1:p1", "working"⟩)) :=
    Reachable.next (Op.change (host "working" none).agents ⟨"w1:p1", "working"⟩ 2) runs_midPush
      ⟨rfl, statusChange_host "blocked" "working" (some seen) none (by decide)
        (by decide +kernel)⟩ rfl
  have hread : Runs (midPush.set 2 (overlapping "working" (some ⟨1, 0⟩)) (.read (some seen))) :=
    Reachable.next (Op.run 2) hstarted trivial (step_run rfl)
  have hstamped : Runs (midPush.set 2 (overlapping "working" (some ⟨1, 0⟩))
      (.stamped (some seen) ⟨2, 0⟩)) :=
    Reachable.next (Op.run 2) hread trivial (step_run rfl)
  have hsleeping : Runs (midPush.set 2 (overlapping "working" (some ⟨2, 0⟩))
      (.sleeping (some seen) ⟨2, 0⟩)) :=
    Reachable.next (Op.run 2) hstamped trivial (step_run rfl)
  have helected : Runs (midPush.set 2 (overlapping "working" (some ⟨2, 0⟩))
      (.elected (some seen))) :=
    Reachable.next (Op.run 2) hsleeping trivial (step_run rfl)
  have hlisting : Runs (midPush.set 2 (overlapping "working" (some ⟨2, 0⟩))
      (.listing (some seen) ["iphone"])) :=
    Reachable.next (Op.run 2) helected trivial (step_run rfl)
  refine Reachable.next (Op.run 2) hlisting trivial (step_run ?_)
  -- the file still says what the process read, since the push is not recorded yet
  have hsuppressed : suppressed (some seen)
      (eligibleStatusMap String.toLower (host "working" none).agents) = true := by decide +kernel
  show (if suppressed (some seen)
    (eligibleStatusMap String.toLower (host "working" none).agents) = true then _ else _) = _
  rw [hsuppressed, if_pos rfl]

theorem runs_leftBehind : Runs leftBehind := by
  have hdelivered : Runs (overlooked.set 1 { overlapping "working" (some ⟨2, 0⟩) with
      sent := [("iphone", blockedPush)] } (.pushing blockedPush [])) :=
    Reachable.next (Op.run 1) runs_overlooked trivial rfl
  exact Reachable.next (Op.run 1) hdelivered trivial (step_run rfl)

/-- A change is lost while a push is on its way: both processes have finished, the agent is at
work, and the last state says that it is blocked. -/
theorem status_left_behind :
    ¬ ∀ state, Reachable (Init String.toLower) (Allowed String.toLower)
        (step String.toLower) state →
      AllFinished state → (∃ pid, state.process pid ≠ .absent) →
      Recorded String.toLower state := by
  intro hall
  have hfinished : AllFinished leftBehind := by
    apply System.forall_set (Q := fun _ phase => phase = Phase.absent ∨ phase = .finished)
    · exact Or.inr rfl
    · intro pid hone
      by_cases htwo : pid = 2
      · subst htwo
        exact Or.inr rfl
      · rw [overlooked, System.process_set_of_ne _ htwo, midPush, System.process_set_of_ne _ hone]
        exact Or.inl rfl
  obtain ⟨last, hlast, hsame, _⟩ := hall leftBehind runs_leftBehind hfinished
    ⟨1, fun h => (by rw [leftBehind, System.process_set_self] at h; cases h)⟩
  cases hlast
  have hpane := hsame "w1:p1"
  revert hpane
  decide +kernel

end Herden.Proofs.ActivityHook
