import Herden.Lib.Run
import Herden.Proofs.EventHub
import Herden.Runtime.AgentWait

/-!
# `Herden.Proofs.AgentWait`: what a wait for an agent can miss

A call of `wait_for_agent` polls the hub's history while others push. Between two polls a status can
come and go, and the event of it is all that is left. The call reads with `events_after`, which does
not tell whether events after the cursor have been dropped: when 512 newer events were pushed, a
status that the caller waited for is gone, and so is the release or the end of the pane.
`transient_status_evicted` is a run that ends in a timeout for that reason. The subscriptions of the
same module read with `events_after_checked` and report lost events.

`Retains` says that at a history read every event that decides the wait is still in the hub.
`wait_misses_nothing` is about every interleaving in which the reads meet it.
-/

namespace Herden.Proofs.AgentWait

open Herden.Lib (Reachable numberedFrom runAll guarded)
open Herden.Runtime.AgentEvents
open Herden.Runtime.AgentWait
open Herden.Runtime.Events (EventHub)
open Herden.Proofs.EventHub

/-! ### The call among the pushes -/

/-- The hub and one call, with what happened: the events pushed, the sequences at the cursor read
and at the last history read, the agent of the first probe, and the agents of all probes. -/
structure System where
  hub : Hub
  pushed : List Envelope
  pc : Pc
  cursor : Nat
  lastRead : Nat
  initial : Option AgentInfo
  probes : List AgentInfo

inductive Op where
  | push (event : Envelope)
  | call (input : Input)

def start : System := ⟨.default, [], .cursorRead, 0, 0, none, []⟩

/-- What a step of the call adds to the record. -/
def observe (s : System) : Pc → Input → System
  | .cursorRead, .none =>
    { s with cursor := s.hub.currentSequence, lastRead := s.hub.currentSequence }
  | .initialProbe _, .agent (.ok agent) =>
    { s with initial := some agent, probes := s.probes ++ [agent] }
  | .historyRead _ _, .none => { s with lastRead := s.hub.currentSequence }
  | .probe _ _ _, .agent (.ok agent) => { s with probes := s.probes ++ [agent] }
  | .lastProbe _, .agent (.ok agent) => { s with probes := s.probes ++ [agent] }
  | _, _ => s

def step (requestId : Text) (params : AgentWaitParams) (s : System) : Op → System
  | .push event => { s with hub := s.hub.push event, pushed := s.pushed ++ [event] }
  | .call input =>
    { observe s s.pc input with pc := callStep requestId params s.hub s.pc input }

def machine (requestId : Text) (params : AgentWaitParams) (s : System) (op : Op) :
    Option (System × Unit) :=
  some (step requestId params s op, ())

/-! ### What is promised -/

/-- The event gives the pane a status of `until`, or reports it released, closed, exited or
moved. -/
def Decides (paneId : Text) (until_ : List AgentStatus) : EventData → Prop
  | .paneAgentDetected pane _ released _ => pane = paneId ∧ released = true
  | .paneAgentStatusChanged change => change.paneId = paneId ∧ change.agentStatus ∈ until_
  | .paneMoved previous => previous = paneId
  | .paneClosed pane => pane = paneId
  | .paneExited pane => pane = paneId
  | _ => False

instance (paneId : Text) (until_ : List AgentStatus) : DecidablePred (Decides paneId until_)
  | .paneAgentDetected pane _ released _ =>
    inferInstanceAs (Decidable (pane = paneId ∧ released = true))
  | .paneAgentStatusChanged change =>
    inferInstanceAs (Decidable (change.paneId = paneId ∧ change.agentStatus ∈ until_))
  | .paneMoved previous => inferInstanceAs (Decidable (previous = paneId))
  | .paneClosed pane => inferInstanceAs (Decidable (pane = paneId))
  | .paneExited pane => inferInstanceAs (Decidable (pane = paneId))
  | .paneUpdated _ => inferInstanceAs (Decidable False)
  | .other => inferInstanceAs (Decidable False)

/-- The event shows the status of the pane. -/
def Shows (paneId : Text) (status : AgentStatus) : EventData → Prop
  | .paneAgentDetected pane _ released finalStatus =>
    pane = paneId ∧ released = true ∧ finalStatus = some status
  | .paneAgentStatusChanged change => change.paneId = paneId ∧ change.agentStatus = status
  | _ => False

/-- The identity check of a probe, against the first one. -/
def identifies (params : AgentWaitParams) (initial agent : AgentInfo) : Bool :=
  agentWaitIdentityMatches agent initial.terminalId
    (initial.name.filter fun name => name = params.target) initial.agent

/-- An event between the cursor and the last read decides the wait. -/
def Missed (params : AgentWaitParams) (s : System) (initial : AgentInfo) : Prop :=
  ∃ entry ∈ numberedFrom 0 s.pushed, s.cursor < entry.1 ∧ entry.1 ≤ s.lastRead ∧
    Decides initial.paneId (agentWaitStatuses params.until_) entry.2.data

/-- The status was shown after the call began: by an event of the pane, or by a probe. -/
def Shown (params : AgentWaitParams) (s : System) (initial : AgentInfo) (status : AgentStatus) :
    Prop :=
  status ∈ agentWaitStatuses params.until_ ∧
    ((∃ entry ∈ numberedFrom 0 s.pushed, s.cursor < entry.1 ∧
        Shows initial.paneId status entry.2.data) ∨
      ∃ agent ∈ s.probes, identifies params initial agent = true ∧ agent.agentStatus = status)

structure Waits (params : AgentWaitParams) (s : System) : Prop where
  timeout : ∀ response, s.pc = .answered (.timeout response) →
    ∃ initial, s.initial = some initial ∧ ¬ Missed params s initial
  matched : ∀ agent, s.pc = .answered (.matched agent) →
    ∃ initial, s.initial = some initial ∧ Shown params s initial agent.agentStatus

/-- The events that decide the wait are still in the hub when the history is read. -/
def Retains (s : System) : Op → Prop
  | .push _ => True
  | .call _ => ∀ wait last, s.pc = .historyRead wait last →
    ∀ entry ∈ numberedFrom 0 s.pushed, last < entry.1 →
      Decides wait.initial.paneId wait.until_ entry.2.data → entry ∈ s.hub.events

/-! ### The loop over the events -/

/-- What the loop leaves, given the events and the values it started with. -/
def ScanHolds (wait : ResolvedAgentWait) (events : List (Nat × Envelope)) (last : Nat)
    (probing : Bool) (matched : Option AgentStatus) : Scanned → Prop
  | .returned (.matched agent) => matched = some agent.agentStatus ∨
    agent.agentStatus ∈ wait.until_ ∧
      ∃ entry ∈ events, Shows wait.initial.paneId agent.agentStatus entry.2.data
  | .returned (.notRunning _) => True
  | .returned _ => False
  | .scanned last' shouldProbe matched' =>
    (last' = last ∨ ∃ entry ∈ events, entry.1 = last') ∧
    (probing = true → shouldProbe = true) ∧
    (matched' = none → matched = none ∧
      ∀ entry ∈ events, ¬ Decides wait.initial.paneId wait.until_ entry.2.data) ∧
    ∀ status, matched' = some status → matched = some status ∨
      shouldProbe = true ∧ status ∈ wait.until_ ∧
        ∃ entry ∈ events, Shows wait.initial.paneId status entry.2.data

section Scan

variable {wait : ResolvedAgentWait} {events : List (Nat × Envelope)} {sequence last : Nat}
  {event : Envelope} {probing : Bool} {matched : Option AgentStatus} {result : Scanned}

/-- An event that decides nothing, before the others. It may ask for a probe. -/
theorem ScanHolds.quiet {asks : Bool} (hasks : probing = true → asks = true)
    (hquiet : ¬ Decides wait.initial.paneId wait.until_ event.data)
    (h : ScanHolds wait events sequence asks matched result) :
    ScanHolds wait ((sequence, event) :: events) last probing matched result := by
  cases result with
  | returned answer =>
    cases answer with
    | matched agent =>
      refine h.imp id fun ⟨huntil, entry, hmem, hshows⟩ => ?_
      exact ⟨huntil, entry, List.mem_cons_of_mem _ hmem, hshows⟩
    | notRunning response => trivial
    | _ => exact h
  | scanned last' shouldProbe matched' =>
    obtain ⟨hlast, hprobing, hnone, hsome⟩ := h
    refine ⟨?_, hprobing ∘ hasks, ?_, ?_⟩
    · obtain hsame | ⟨entry, hmem, heq⟩ := hlast
      · exact .inr ⟨(sequence, event), List.mem_cons_self, hsame.symm⟩
      · exact .inr ⟨entry, List.mem_cons_of_mem _ hmem, heq⟩
    · intro hmatched
      obtain ⟨hbefore, hall⟩ := hnone hmatched
      refine ⟨hbefore, ?_⟩
      intro entry hmem
      obtain heq | hmem := List.mem_cons.mp hmem
      · rw [heq]
        exact hquiet
      · exact hall entry hmem
    · intro status hmatched
      refine (hsome status hmatched).imp id fun ⟨hprobe, huntil, entry, hmem, hshows⟩ => ?_
      exact ⟨hprobe, huntil, entry, List.mem_cons_of_mem _ hmem, hshows⟩

/-- An event that gives the pane a status of `until`, before the others. -/
theorem ScanHolds.status {change : PaneAgentStatusChangedEvent}
    (hdata : event.data = .paneAgentStatusChanged change)
    (hpane : change.paneId = wait.initial.paneId) (huntil : change.agentStatus ∈ wait.until_)
    (h : ScanHolds wait events sequence true (some change.agentStatus) result) :
    ScanHolds wait ((sequence, event) :: events) last probing matched result := by
  have hshows : ∀ status, some change.agentStatus = some status → status ∈ wait.until_ ∧
      ∃ entry ∈ (sequence, event) :: events,
        Shows wait.initial.paneId status entry.2.data := by
    intro status heq
    cases heq
    refine ⟨huntil, (sequence, event), List.mem_cons_self, ?_⟩
    rw [hdata]
    exact ⟨hpane, rfl⟩
  cases result with
  | returned answer =>
    cases answer with
    | matched agent =>
      obtain hsame | ⟨huntil', entry, hmem, hlater⟩ := h
      · exact .inr (hshows _ hsame)
      · exact .inr ⟨huntil', entry, List.mem_cons_of_mem _ hmem, hlater⟩
    | notRunning response => trivial
    | _ => exact h
  | scanned last' shouldProbe matched' =>
    obtain ⟨hlast, hprobing, hnone, hsome⟩ := h
    refine ⟨?_, fun _ => hprobing rfl, ?_, ?_⟩
    · obtain hsame | ⟨entry, hmem, heq⟩ := hlast
      · exact .inr ⟨(sequence, event), List.mem_cons_self, hsame.symm⟩
      · exact .inr ⟨entry, List.mem_cons_of_mem _ hmem, heq⟩
    · intro hmatched
      cases (hnone hmatched).1
    · intro status hmatched
      obtain hsame | ⟨hprobe, huntil', entry, hmem, hlater⟩ := hsome status hmatched
      · exact .inr ⟨hprobing rfl, hshows status hsame⟩
      · exact .inr ⟨hprobe, huntil', entry, List.mem_cons_of_mem _ hmem, hlater⟩

end Scan

variable {wait : ResolvedAgentWait} {params : AgentWaitParams} {s t : System} {last : Nat}

theorem scan_holds (requestId : Text) (haccept : wait.acceptTransientStatus = true)
    (events : List (Nat × Envelope)) (last : Nat) (probing : Bool) (matched : Option AgentStatus) :
    ScanHolds wait events last probing matched
      (scan requestId wait events last probing matched) := by
  induction events generalizing last probing matched with
  | nil =>
    refine ⟨.inl rfl, id, ?_, fun status hstatus => .inl hstatus⟩
    intro hnone
    exact ⟨hnone, fun entry hmem => by cases hmem⟩
  | cons entry events ih =>
    obtain ⟨sequence, event⟩ := entry
    have hother : ¬ Decides wait.initial.paneId wait.until_ event.data →
        ScanHolds wait ((sequence, event) :: events) last probing matched
          (scan requestId wait events sequence probing matched) := fun hquiet =>
      (ih sequence probing matched).quiet id hquiet
    have hasks : ¬ Decides wait.initial.paneId wait.until_ event.data →
        ScanHolds wait ((sequence, event) :: events) last probing matched
          (scan requestId wait events sequence true matched) := fun hquiet =>
      (ih sequence true matched).quiet (fun _ => rfl) hquiet
    unfold scan
    cases hdata : event.data with
    | paneAgentDetected pane agent released finalStatus =>
      rw [hdata] at hother hasks
      dsimp only
      split
      next hpane =>
        split
        next hreleased =>
          split
          next status hstatus =>
            -- the final status, when it is one of `until`, or the status seen before
            rw [Option.or_eq_some_iff] at hstatus
            obtain hfinal | ⟨-, hbefore⟩ := hstatus
            · obtain ⟨hfinal, huntil⟩ := Option.filter_eq_some_iff.mp hfinal
              refine .inr ⟨by simpa using huntil, (sequence, event), List.mem_cons_self, ?_⟩
              rw [hdata]
              exact ⟨hpane, hreleased, hfinal⟩
            · exact .inl hbefore
          next => trivial
        next hkept =>
          split
          · trivial
          · exact hasks fun hdecides => hkept hdecides.2
      next hpane => exact hother fun hdecides => hpane hdecides.1
    | paneAgentStatusChanged change =>
      rw [hdata] at hother hasks
      dsimp only
      split
      next hpane =>
        split
        next huntil =>
          have hmem : change.agentStatus ∈ wait.until_ := by simpa using huntil.2
          exact (ih sequence true (some change.agentStatus)).status hdata hpane hmem
        next huntil =>
          refine hasks fun hdecides => huntil ⟨haccept, ?_⟩
          simpa using hdecides.2
      next hpane => exact hother fun hdecides => hpane hdecides.1
    | paneUpdated pane =>
      rw [hdata] at hother hasks
      dsimp only
      split
      · exact hasks id
      · exact hother id
    | paneMoved previous =>
      rw [hdata] at hother
      dsimp only
      split
      next => trivial
      next hpane => exact hother hpane
    | paneClosed pane =>
      rw [hdata] at hother
      dsimp only
      split
      next => trivial
      next hpane => exact hother hpane
    | paneExited pane =>
      rw [hdata] at hother
      dsimp only
      split
      next => trivial
      next hpane => exact hother hpane
    | other =>
      rw [hdata] at hother
      exact hother id

/-! ### The invariant -/

/-- The wait is that of this call. -/
structure Ours (params : AgentWaitParams) (s : System) (wait : ResolvedAgentWait) : Prop where
  initial : s.initial = some wait.initial
  until_eq : wait.until_ = agentWaitStatuses params.until_
  target : wait.target = params.target
  accepts : wait.acceptTransientStatus = true

/-- The call has read everything up to its last read, and nothing of it decides the wait. -/
structure Clean (params : AgentWaitParams) (s : System) (wait : ResolvedAgentWait) (last : Nat) :
    Prop where
  ours : Ours params s wait
  last_le : last ≤ s.lastRead
  cursor_le : s.cursor ≤ last
  missed : ¬ Missed params s wait.initial

/-- What holds where the call stands. -/
def AtPc (params : AgentWaitParams) (s : System) : Pc → Prop
  | .cursorRead => True
  | .initialProbe last => s.cursor = last ∧ s.lastRead = last
  | .connectionCheck wait last => Clean params s wait last
  | .historyRead wait last => Clean params s wait last
  | .probe wait last none => Clean params s wait last
  | .probe wait _ (some status) => Ours params s wait ∧ Shown params s wait.initial status
  | .deadlineCheck wait last => Clean params s wait last
  | .lastProbe wait => ∃ last, Clean params s wait last
  | .sleep wait last => Clean params s wait last
  | .answered (.timeout _) => ∃ initial, s.initial = some initial ∧ ¬ Missed params s initial
  | .answered (.matched agent) =>
    ∃ initial, s.initial = some initial ∧ Shown params s initial agent.agentStatus
  | .answered _ => True

structure Inv (params : AgentWaitParams) (s : System) : Prop where
  logged : Logged s.hub s.pushed
  lastRead_le : s.lastRead ≤ s.pushed.length
  place : AtPc params s s.pc

theorem Ours.identifies (h : Ours params s wait) (agent : AgentInfo) :
    wait.identityMatches agent = AgentWait.identifies params wait.initial agent := by
  unfold ResolvedAgentWait.identityMatches ResolvedAgentWait.expectedName AgentWait.identifies
  rw [h.target]

/-- The first probe passes the identity check. -/
theorem identifies_self (params : AgentWaitParams) (initial : AgentInfo) :
    identifies params initial initial = true := by
  have hname : (initial.name.filter fun name => decide (name = params.target)).all
      (fun name => decide (initial.name = some name)) = true := by
    cases initial.name with
    | none => rfl
    | some name =>
      by_cases htarget : name = params.target
      · simp [Option.filter, htarget]
      · simp [Option.filter, htarget]
  unfold identifies agentWaitIdentityMatches
  rw [hname]
  cases initial.agent with
  | none => simp
  | some agent => simp

variable {agent : AgentInfo} {seq : Option Nat} {entry : Nat × Envelope} {pushed : List Envelope}

theorem agentWaitMatches_mem {until_ : List AgentStatus}
    (h : agentWaitMatches agent until_ seq = true) : agent.agentStatus ∈ until_ := by
  simp only [agentWaitMatches, Bool.and_eq_true] at h
  simpa using h.1

/-! ### Pushes -/

theorem mem_numberedFrom_of_append {event : Envelope}
    (hmem : entry ∈ numberedFrom 0 (pushed ++ [event])) (hle : entry.1 ≤ pushed.length) :
    entry ∈ numberedFrom 0 pushed := by
  rw [Lib.numberedFrom_append, List.mem_append] at hmem
  obtain hbefore | hlast := hmem
  · exact hbefore
  · have hlt := (Lib.lt_of_mem_numberedFrom hlast).1
    omega

theorem mem_numberedFrom_append (event : Envelope) (hmem : entry ∈ numberedFrom 0 pushed) :
    entry ∈ numberedFrom 0 (pushed ++ [event]) := by
  rw [Lib.numberedFrom_append, List.mem_append]
  exact .inl hmem

/-- Nothing that the call relies on is lost. -/
structure Grows (params : AgentWaitParams) (s t : System) : Prop where
  initial : t.initial = s.initial
  cursor : t.cursor = s.cursor
  lastRead : t.lastRead = s.lastRead
  missed : ∀ initial, Missed params t initial → Missed params s initial
  shown : ∀ initial status, Shown params s initial status → Shown params t initial status

theorem Ours.grow (h : Ours params s wait) (hgrows : Grows params s t) : Ours params t wait :=
  ⟨hgrows.initial.trans h.initial, h.until_eq, h.target, h.accepts⟩

theorem Clean.grow (h : Clean params s wait last) (hgrows : Grows params s t) :
    Clean params t wait last :=
  ⟨h.ours.grow hgrows, hgrows.lastRead ▸ h.last_le, hgrows.cursor ▸ h.cursor_le,
    fun hmissed => h.missed (hgrows.missed wait.initial hmissed)⟩

theorem AtPc.grow {pc : Pc} (h : AtPc params s pc) (hgrows : Grows params s t) :
    AtPc params t pc := by
  cases pc with
  | cursorRead => trivial
  | initialProbe last => exact ⟨hgrows.cursor.trans h.1, hgrows.lastRead.trans h.2⟩
  | connectionCheck wait last => exact Clean.grow h hgrows
  | historyRead wait last => exact Clean.grow h hgrows
  | probe wait last matched =>
    cases matched with
    | none => exact Clean.grow h hgrows
    | some status => exact ⟨h.1.grow hgrows, hgrows.shown wait.initial status h.2⟩
  | deadlineCheck wait last => exact Clean.grow h hgrows
  | lastProbe wait =>
    obtain ⟨last, hclean⟩ := h
    exact ⟨last, hclean.grow hgrows⟩
  | sleep wait last => exact Clean.grow h hgrows
  | answered answer =>
    cases answer with
    | timeout response =>
      obtain ⟨initial, hsome, hnone⟩ := h
      exact ⟨initial, hgrows.initial.trans hsome, fun hm => hnone (hgrows.missed initial hm)⟩
    | matched agent =>
      obtain ⟨initial, hsome, hshown⟩ := h
      exact ⟨initial, hgrows.initial.trans hsome, hgrows.shown initial agent.agentStatus hshown⟩
    | _ => trivial

theorem inv_push (h : Inv params s) (event : Envelope) :
    Inv params { s with hub := s.hub.push event, pushed := s.pushed ++ [event] } := by
  refine ⟨h.logged.push event, ?_, AtPc.grow h.place ⟨rfl, rfl, rfl, ?_, ?_⟩⟩
  · have hle := h.lastRead_le
    simp only [List.length_append, List.length_singleton]
    omega
  · intro initial ⟨entry, hmem, hcursor, hread, hdecides⟩
    have hle : entry.1 ≤ s.pushed.length := le_trans hread h.lastRead_le
    exact ⟨entry, mem_numberedFrom_of_append hmem hle, hcursor, hread, hdecides⟩
  · intro initial status ⟨huntil, hwhere⟩
    refine ⟨huntil, hwhere.imp (fun ⟨entry, hmem, hcursor, hshows⟩ => ?_) id⟩
    exact ⟨entry, mem_numberedFrom_append event hmem, hcursor, hshows⟩

/-! ### Steps of the call -/

/-- A probe only adds to the record. -/
theorem grows_probe (params : AgentWaitParams) (s : System) (agent : AgentInfo) (pc : Pc) :
    Grows params s { s with probes := s.probes ++ [agent], pc := pc } := by
  refine ⟨rfl, rfl, rfl, fun _ hmissed => hmissed, ?_⟩
  intro initial status ⟨huntil, hwhere⟩
  refine ⟨huntil, hwhere.imp id fun ⟨other, hmem, hidentity, hstatus⟩ => ?_⟩
  exact ⟨other, List.mem_append_left _ hmem, hidentity, hstatus⟩

theorem grows_pc (params : AgentWaitParams) (s : System) (pc : Pc) :
    Grows params s { s with pc := pc } :=
  ⟨rfl, rfl, rfl, fun _ hmissed => hmissed, fun _ _ hshown => hshown⟩

/-- A probe that passes the identity check and has a status of `until` shows it. -/
theorem shown_of_probe (hours : Ours params s wait) (hmem : agent ∈ s.probes)
    (hidentity : wait.identityMatches agent = true)
    (hmatches : agentWaitMatches agent wait.until_ seq = true) :
    Shown params s wait.initial agent.agentStatus := by
  refine ⟨hours.until_eq ▸ agentWaitMatches_mem hmatches, .inr ⟨agent, hmem, ?_, rfl⟩⟩
  rw [← hours.identifies agent]
  exact hidentity

theorem inv_resolve (hplace : AtPc params s (.initialProbe last)) (initial : AgentInfo) (pc : Pc) :
    AtPc params { s with initial := some initial, probes := s.probes ++ [initial], pc := pc }
      (resolve params last initial) := by
  obtain ⟨hcursor, hread⟩ := hplace
  unfold resolve
  dsimp only
  split
  next hmatches =>
    refine ⟨initial, rfl, agentWaitMatches_mem hmatches, .inr ⟨initial, ?_, ?_, rfl⟩⟩
    · exact List.mem_append_right _ (List.mem_singleton_self _)
    · exact identifies_self params initial
  next =>
    refine ⟨⟨rfl, rfl, rfl, rfl⟩, hread.ge, hcursor.le, ?_⟩
    -- nothing is between the cursor and the last read
    intro ⟨entry, _, hlow, hhigh, _⟩
    have hlow' : s.cursor < entry.1 := hlow
    have hhigh' : entry.1 ≤ s.lastRead := hhigh
    omega

/-- A history read that finds every event that decides the wait. -/
theorem inv_historyRead (requestId : Text) (h : Inv params s) (hclean : Clean params s wait last)
    (hretains : ∀ entry ∈ numberedFrom 0 s.pushed, last < entry.1 →
      Decides wait.initial.paneId wait.until_ entry.2.data → entry ∈ s.hub.events) (pc : Pc) :
    AtPc params { s with lastRead := s.hub.currentSequence, pc := pc }
      (match scan requestId wait (s.hub.eventsAfter last) last false none with
        | .returned answer => .answered answer
        | .scanned last true matched => .probe wait last matched
        | .scanned last false _ => .deadlineCheck wait last) := by
  have hscan := scan_holds requestId hclean.ours.accepts (s.hub.eventsAfter last) last false none
  have hread : s.lastRead ≤ s.hub.currentSequence := by
    rw [h.logged.currentSequence]
    exact h.lastRead_le
  have hmem : ∀ entry ∈ s.hub.eventsAfter last, entry ∈ numberedFrom 0 s.pushed ∧
      last < entry.1 := by
    intro entry hentry
    obtain ⟨hevents, hlt⟩ := (h.logged.mem_eventsAfter last entry).mp hentry
    exact ⟨((h.logged.mem_events entry).mp hevents).1, hlt⟩
  have hours : Ours params { s with lastRead := s.hub.currentSequence, pc := pc } wait :=
    ⟨hclean.ours.initial, hclean.ours.until_eq, hclean.ours.target, hclean.ours.accepts⟩
  have hshown : ∀ status, status ∈ wait.until_ ∧ (∃ entry ∈ s.hub.eventsAfter last,
      Shows wait.initial.paneId status entry.2.data) →
        Shown params { s with lastRead := s.hub.currentSequence, pc := pc } wait.initial
          status := by
    intro status ⟨huntil, entry, hentry, hshows⟩
    obtain ⟨hpushed, hlt⟩ := hmem entry hentry
    have hcursor := hclean.cursor_le
    exact ⟨hclean.ours.until_eq ▸ huntil, .inl ⟨entry, hpushed, by
      show s.cursor < entry.1
      omega, hshows⟩⟩
  have hdone : ∀ last', (last' = last ∨ ∃ entry ∈ s.hub.eventsAfter last, entry.1 = last') →
      (∀ entry ∈ s.hub.eventsAfter last,
        ¬ Decides wait.initial.paneId wait.until_ entry.2.data) →
      Clean params { s with lastRead := s.hub.currentSequence, pc := pc } wait last' := by
    intro last' hlast hall
    refine ⟨hours, ?_, ?_, ?_⟩
    · show last' ≤ s.hub.currentSequence
      obtain hsame | ⟨entry, hentry, heq⟩ := hlast
      · have hle := hclean.last_le
        omega
      · have hle := (Lib.lt_of_mem_numberedFrom (hmem entry hentry).1).2
        rw [h.logged.currentSequence]
        omega
    · show s.cursor ≤ last'
      have hcursor := hclean.cursor_le
      obtain hsame | ⟨entry, hentry, heq⟩ := hlast
      · omega
      · have hlt := (hmem entry hentry).2
        omega
    · intro ⟨entry, hpushed, hcursor, hle, hdecides⟩
      rw [← hclean.ours.until_eq] at hdecides
      by_cases hold : entry.1 ≤ s.lastRead
      · exact hclean.missed ⟨entry, hpushed, hcursor, hold, hclean.ours.until_eq ▸ hdecides⟩
      · have hlt : last < entry.1 := by
          have hle := hclean.last_le
          omega
        have hkept := hretains entry hpushed hlt hdecides
        exact hall entry ((h.logged.mem_eventsAfter last entry).mpr ⟨hkept, hlt⟩) hdecides
  split
  next answer heq =>
    rw [heq] at hscan
    cases answer with
    | matched agent =>
      obtain hnone | hseen := hscan
      · cases hnone
      · exact ⟨wait.initial, hclean.ours.initial, hshown agent.agentStatus hseen⟩
    | timeout response => exact absurd hscan id
    | _ => trivial
  next last' matched heq =>
    rw [heq] at hscan
    obtain ⟨hlast, -, hnone, hsome⟩ := hscan
    cases matched with
    | none => exact hdone last' hlast (hnone rfl).2
    | some status =>
      obtain hbefore | ⟨-, hseen⟩ := hsome status rfl
      · cases hbefore
      · exact ⟨hours, hshown status hseen⟩
  next last' matched heq =>
    rw [heq] at hscan
    obtain ⟨hlast, -, hnone, hsome⟩ := hscan
    cases matched with
    | none => exact hdone last' hlast (hnone rfl).2
    | some status =>
      obtain hbefore | ⟨hprobe, -⟩ := hsome status rfl
      · cases hbefore
      · cases hprobe

/-- A step of the call. -/
theorem atPc_call (requestId : Text) (h : Inv params s) (input : Input)
    (hretains : Retains s (.call input)) :
    AtPc params { observe s s.pc input with pc := callStep requestId params s.hub s.pc input }
      (callStep requestId params s.hub s.pc input) := by
  have hplace := h.place
  have hreads := hretains
  generalize hpc : s.pc = pc at hplace hreads ⊢
  generalize hnext : callStep requestId params s.hub pc input = next
  unfold callStep at hnext
  split at hnext
  next =>
    subst hnext
    exact ⟨rfl, rfl⟩
  next last initial =>
    subst hnext
    exact inv_resolve hplace initial _
  next =>
    subst hnext
    trivial
  next wait last =>
    subst hnext
    have hclean : Clean params s wait last := hplace
    exact hclean.grow (grows_pc params s _)
  next =>
    subst hnext
    trivial
  next =>
    subst hnext
    trivial
  next wait last =>
    subst hnext
    exact inv_historyRead requestId h hplace (hretains wait last hpc) _
  next =>
    subst hnext
    trivial
  next wait last matched current =>
    have hgrows : Grows params s { s with probes := s.probes ++ [current], pc := next } :=
      grows_probe params s current next
    have hmem : current ∈ s.probes ++ [current] :=
      List.mem_append_right _ (List.mem_singleton_self _)
    split at hnext
    · subst hnext
      trivial
    next hidentity =>
      rw [not_not] at hidentity
      split at hnext
      next status =>
        subst hnext
        obtain ⟨hours, hshown⟩ := hplace
        exact ⟨wait.initial, hours.initial, hgrows.shown wait.initial status hshown⟩
      next =>
        have hclean : Clean params s wait last := hplace
        split at hnext
        next hmatches =>
          subst hnext
          exact ⟨wait.initial, hclean.ours.initial,
            shown_of_probe (hclean.ours.grow hgrows) hmem hidentity hmatches⟩
        next =>
          subst hnext
          exact hclean.grow hgrows
  next wait last reached =>
    have hclean : Clean params s wait last := hplace
    split at hnext
    · subst hnext
      exact ⟨last, hclean.grow (grows_pc params s _)⟩
    · subst hnext
      exact hclean.grow (grows_pc params s _)
  next =>
    subst hnext
    trivial
  next wait current =>
    have hgrows : Grows params s { s with probes := s.probes ++ [current], pc := next } :=
      grows_probe params s current next
    have hmem : current ∈ s.probes ++ [current] :=
      List.mem_append_right _ (List.mem_singleton_self _)
    obtain ⟨last, hclean⟩ := hplace
    split at hnext
    · subst hnext
      trivial
    next hidentity =>
      rw [not_not] at hidentity
      split at hnext
      next hmatches =>
        subst hnext
        exact ⟨wait.initial, hclean.ours.initial,
          shown_of_probe (hclean.ours.grow hgrows) hmem hidentity hmatches⟩
      next =>
        subst hnext
        exact ⟨wait.initial, hclean.ours.initial, (hclean.grow hgrows).missed⟩
  next wait last =>
    subst hnext
    have hclean : Clean params s wait last := hplace
    exact hclean.grow (grows_pc params s _)
  next =>
    -- the input does not belong to the step, and nothing is recorded
    subst hnext
    have hsame : observe s pc input = s := by
      unfold observe
      split
      all_goals first
        | rfl
        | grind
    rw [hsame]
    exact hplace.grow (grows_pc params s _)

theorem inv_step (requestId : Text) (h : Inv params s) (op : Op) (hretains : Retains s op) :
    Inv params (step requestId params s op) := by
  cases op with
  | push event => exact inv_push h event
  | call input =>
    have hkept : (observe s s.pc input).hub = s.hub ∧
        (observe s s.pc input).pushed = s.pushed ∧
          (observe s s.pc input).lastRead ≤ s.pushed.length := by
      have hle := h.lastRead_le
      have hcurrent := h.logged.currentSequence
      unfold observe
      split
      · exact ⟨rfl, rfl, hcurrent.le⟩
      · exact ⟨rfl, rfl, hle⟩
      · exact ⟨rfl, rfl, hcurrent.le⟩
      · exact ⟨rfl, rfl, hle⟩
      · exact ⟨rfl, rfl, hle⟩
      · exact ⟨rfl, rfl, hle⟩
    obtain ⟨hhub, hpushed, hread⟩ := hkept
    refine ⟨?_, ?_, atPc_call requestId h input hretains⟩
    · show Logged (observe s s.pc input).hub (observe s s.pc input).pushed
      rw [hhub, hpushed]
      exact h.logged
    · show (observe s s.pc input).lastRead ≤ (observe s s.pc input).pushed.length
      rw [hpushed]
      exact hread

/-! ### Runs -/

/-- In every interleaving of pushes with the call in which the events that decide the wait are still
in the hub when the history is read, a timeout means that no such event was pushed between the
cursor and the last read, and a match is of a status that was shown after the call began. -/
theorem wait_misses_nothing {requestId : Text} {params : AgentWaitParams} {s : System}
    (hreach : Reachable (· = start) Retains (machine requestId params) s) : Waits params s := by
  have h : Inv params s := by
    refine hreach.invariant (Inv params) ?_ ?_
    · intro s hstart
      rw [hstart]
      exact ⟨logged_default, le_rfl, trivial⟩
    · intro s op t answer hretains hstep h
      cases hstep
      exact inv_step requestId h op hretains
  have hplace := h.place
  refine ⟨?_, ?_⟩
  · intro response hpc
    rw [hpc] at hplace
    exact hplace
  · intro agent hpc
    rw [hpc] at hplace
    exact hplace

def retains (s : System) : Op → Bool
  | .push _ => true
  | .call _ =>
    match s.pc with
    | .historyRead wait last => (numberedFrom 0 s.pushed).all fun entry =>
      entry.1 ≤ last || !decide (Decides wait.initial.paneId wait.until_ entry.2.data) ||
        s.hub.events.contains entry
    | _ => true

theorem retains_of_test (s : System) (op : Op) (htest : retains s op = true) : Retains s op := by
  cases op with
  | push event => trivial
  | call input =>
    intro wait last hpc entry hmem hlt hdecides
    simp only [retains, hpc, List.all_eq_true] at htest
    have hentry := htest entry hmem
    simpa [not_le.mpr hlt, hdecides] using hentry

def agentAt (status : AgentStatus) : AgentInfo := ⟨['t'], none, none, status, ['p'], 0⟩

def statusEvent (status : AgentStatus) : Envelope :=
  ⟨.paneAgentStatusChanged, .paneAgentStatusChanged ⟨['p'], ['w'], status, none, none, none, []⟩⟩

def waitForDone : AgentWaitParams := ⟨['p'], [.done], some 0⟩

/-- The agent is done for a moment, between the first probe and the history read. -/
def transient : List Op :=
  [.call .none, .call (.agent (.ok (agentAt .working))), .call (.shouldStop (some false)),
    .push (statusEvent .done), .push (statusEvent .working), .call .none,
    .call (.agent (.ok (agentAt .working)))]

theorem wait_misses_nothing_transient :
    ∃ s, s.pc = .answered (.matched (agentAt .done)) ∧ Waits waitForDone s := by
  have hrun : (runAll (guarded retains (machine ['r'] waitForDone)) start transient).any
      (fun s => decide (s.pc = .answered (.matched (agentAt .done)))) = true := by
    decide +kernel
  obtain ⟨s, hsome, hends⟩ := (Option.any_eq_true _ _).mp hrun
  exact ⟨s, of_decide_eq_true hends,
    wait_misses_nothing (Reachable.runAll retains_of_test (.start rfl) hsome)⟩

/-! ### A status that is gone when the history is read -/

/-- An event that does not concern the pane. -/
def otherEvent : Envelope := ⟨.layoutUpdated, .other⟩

theorem scan_others (requestId : Text) (wait : ResolvedAgentWait) (count n : Nat) (probing : Bool)
    (matched : Option AgentStatus) :
    scan requestId wait (numberedFrom n (List.replicate count otherEvent)) n probing matched
      = .scanned (n + count) probing matched := by
  induction count generalizing n with
  | zero => rfl
  | succ count ih =>
    rw [List.replicate_succ, numberedFrom, scan]
    show scan requestId wait _ (n + 1) probing matched = _
    rw [ih (n + 1), Nat.add_right_comm, Nat.add_assoc]

/-- The state after a list of pushes. -/
def pushAll (s : System) (events : List Envelope) : System :=
  { s with hub := events.foldl EventHub.push s.hub, pushed := s.pushed ++ events }

theorem reachable_pushAll {requestId : Text}
    (hreach : Reachable (· = start) (fun _ _ => True) (machine requestId params) s)
    (events : List Envelope) :
    Reachable (· = start) (fun _ _ => True) (machine requestId params) (pushAll s events) := by
  induction events generalizing s with
  | nil => simpa [pushAll] using hreach
  | cons event events ih =>
    have hnext := ih (Reachable.next (.push event) hreach trivial rfl)
    simpa [pushAll, step] using hnext

theorem logged_pushAll (h : Logged s.hub s.pushed) (events : List Envelope) :
    Logged (pushAll s events).hub (pushAll s events).pushed := by
  induction events generalizing s with
  | nil => simpa [pushAll] using h
  | cons event events ih =>
    have hnext := ih (s := step [] ⟨[], [], none⟩ s (.push event)) (h.push event)
    simpa [pushAll, step] using hnext

/-- The agent is done for a moment, and events of others follow before the history is read. -/
def flood (count : Nat) : List Envelope :=
  statusEvent .done :: statusEvent .working :: List.replicate count otherEvent

/-- The wait of the call. -/
def waitOfCall : ResolvedAgentWait :=
  ⟨['p'], [.done], some 0, agentAt .working, 0, none, true, .status⟩

/-- The call when it is about to read the history. -/
def aboutToRead : System :=
  ⟨.default, [], .historyRead waitOfCall 0, 0, 0, some (agentAt .working), [agentAt .working]⟩

theorem reachable_aboutToRead :
    Reachable (· = start) (fun _ _ => True) (machine ['r'] waitForDone) aboutToRead := by
  have hrun : runAll (guarded (fun _ _ => true) (machine ['r'] waitForDone)) start
      [.call .none, .call (.agent (.ok (agentAt .working))), .call (.shouldStop (some false))]
        = some aboutToRead := rfl
  exact Reachable.runAll (fun _ _ _ => trivial) (.start rfl) hrun

section Flood

variable {count : Nat} (hcount : count + 1 = EventHub.maxEvents)

include hcount

/-- The history that is left holds the return to `working` and nothing that decides the wait. -/
theorem scan_flood :
    scan ['r'] waitOfCall ((pushAll aboutToRead (flood count)).hub.eventsAfter 0) 0 false none
      = .scanned (count + 2) true none := by
  have hlogged := logged_pushAll (s := aboutToRead) logged_default (flood count)
  have hlength : (pushAll aboutToRead (flood count)).pushed.length = count + 2 := by
    simp [pushAll, aboutToRead, flood]
  have hevicted : evicted (pushAll aboutToRead (flood count)).pushed = 1 := by
    rw [evicted, hlength]
    omega
  have hevents : (pushAll aboutToRead (flood count)).hub.eventsAfter 0
      = numberedFrom 1 (statusEvent .working :: List.replicate count otherEvent) := by
    have hall := hlogged.events
    rw [hevicted] at hall
    simp only [EventHub.eventsAfter, hlogged.healthy, Bool.false_eq_true, if_false]
    rw [List.filter_eq_self.mpr, hall]
    · simp [pushAll, aboutToRead, flood]
    · intro entry hmem
      rw [hall] at hmem
      have hlt := (Lib.lt_of_mem_numberedFrom hmem).1
      simpa using Nat.lt_of_le_of_lt (Nat.zero_le _) hlt
  rw [hevents, numberedFrom, scan]
  show scan ['r'] _ (numberedFrom 2 (List.replicate count otherEvent)) 2 true none = _
  rw [scan_others, Nat.add_comm]

/-- The rest of the call: a probe, the deadline, and the last probe. -/
theorem flood_times_out : ∃ s,
    Reachable (· = start) (fun _ _ => True) (machine ['r'] waitForDone) s ∧
      s.pc = .answered (.timeout (agentWaitTimeout ['r'] .status (agentAt .working))) ∧
        s.initial = some (agentAt .working) ∧ s.cursor = 0 ∧ s.lastRead = count + 2 ∧
          s.pushed = flood count := by
  have hread : step ['r'] waitForDone (pushAll aboutToRead (flood count)) (.call .none)
      = { pushAll aboutToRead (flood count) with
          lastRead := count + 2
          pc := .probe waitOfCall (count + 2) none } := by
    have hcurrent := (logged_pushAll (s := aboutToRead) logged_default
      (flood count)).currentSequence
    have hlength : (pushAll aboutToRead (flood count)).pushed.length = count + 2 := by
      simp [pushAll, aboutToRead, flood]
    have hpc : (pushAll aboutToRead (flood count)).pc = .historyRead waitOfCall 0 := rfl
    simp only [step, hpc, observe, callStep, scan_flood hcount, hcurrent, hlength]
  have hreach := Reachable.next (.call .none)
    (reachable_pushAll reachable_aboutToRead (flood count)) trivial
    (congrArg (fun s => some (s, ())) hread)
  have hprobed := Reachable.next (.call (.agent (.ok (agentAt .working)))) hreach trivial rfl
  have hdeadline := Reachable.next (.call (.deadlineReached true)) hprobed trivial rfl
  have hlast := Reachable.next (.call (.agent (.ok (agentAt .working)))) hdeadline trivial rfl
  exact ⟨_, hlast, rfl, rfl, rfl, rfl, rfl⟩

end Flood

/-- The call times out although the pane got a status of `until` after the cursor was read and
before the last history read: 511 events of others have been pushed since. -/
theorem transient_status_evicted : ∃ s response initial,
    Reachable (· = start) (fun _ _ => True) (machine ['r'] waitForDone) s ∧
      s.pc = .answered (.timeout response) ∧ s.initial = some initial ∧
        Missed waitForDone s initial ∧ ¬ Waits waitForDone s := by
  obtain ⟨count, hcount⟩ : ∃ count, count + 1 = EventHub.maxEvents := ⟨511, rfl⟩
  obtain ⟨s, hreach, hpc, hinitial, hcursor, hread, hpushed⟩ := flood_times_out hcount
  have hmissed : Missed waitForDone s (agentAt .working) := by
    refine ⟨(1, statusEvent .done), ?_, ?_, ?_, ?_⟩
    · rw [hpushed, flood, numberedFrom]
      exact List.mem_cons_self
    · rw [hcursor]
      decide
    · rw [hread]
      exact Nat.le_add_left 1 (count + 1)
    · decide
  refine ⟨s, _, agentAt .working, hreach, hpc, hinitial, hmissed, ?_⟩
  intro hwaits
  obtain ⟨initial, hsome, hnone⟩ := hwaits.timeout _ hpc
  cases Option.some.inj (hinitial.symm.trans hsome)
  exact hnone hmissed

end Herden.Proofs.AgentWait
