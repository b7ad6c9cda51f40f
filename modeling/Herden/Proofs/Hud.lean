import Herden.Lib.Run
import Herden.Glasses.Hud

/-!
# `Herden.Proofs.Hud`: a dictated phrase and the Space on the lens

In the detail view a dictated phrase goes to the selected agent. The lens shows the lines of the
last output read (`System.source`). Nothing in the model ties the two together, and they come apart:

- `refresh` selects the first agent when the wearer has not moved the selection, and a click opens
  the agent at the initial selection without counting as a move. So the next snapshot that sorts
  another agent first takes the selection away (`dictation_leaves_the_lens`). A spoken `open` sets
  `userSelected` and is not affected.
- `refresh` also selects the first agent when the selected one is gone.
- A spoken `open` in the detail view moves the selection before the new output is there. When the
  read is given up (sleep, a closed microphone, an agent that is gone), the old lines stay.

`Keeps` says of a step that it does none of this. `dictation_on_the_lens` is then about whole runs:
while every step keeps, the selected agent is the one whose lines are shown.
-/

namespace Herden.Proofs.Hud

open Herden.Lib (Reachable runAll guarded)
open Herden.Glasses.Hud

/-- The selected agent, if there is one, is the agent whose output was read. -/
def Shows (s : System) : Prop :=
  ∀ agent, s.model.selectedAgent = some agent → agent.target = s.source

/-- The lens shows lines of output, and nothing is on its way. -/
def Reading (s : System) : Prop := s.model.view = .detail ∧ s.model.outputLoading = false

/-- What the wearer relies on.

- `selected`: the selected agent is the one whose output read produced the lines;
- `dictated`: so a dictated phrase goes there;
- `replaced`: when that agent is not visible any more, no other agent is selected. -/
structure OnTheLens (s : System) : Prop where
  selected : Reading s → ∀ agent, s.model.selectedAgent = some agent →
    ∃ target, agent.target = some target ∧ s.source = some target
  dictated : Reading s → ∀ target, s.dictationTarget = some target → s.source = some target
  replaced : Reading s → (∀ agent ∈ s.model.visible, agent.target ≠ s.source) →
    s.model.selectedAgent = none

/-- The agents that a refresh will show. -/
def refreshedAgents (localeCompare : Text → Text → Int) (hosts : List HostSettings)
    (sources : List (Text × Snapshot)) (hidden : List Text) : List Agent :=
  match HudModel.projected localeCompare hosts sources hidden with
  | some snapshot => snapshot.agents
  | none => []

/-- A new list of agents is no danger to the shown one: the list is empty; or the selection is not
the wearer's and the shown agent is first; or it is the wearer's and the shown agent is the first
with the id of the selected one. -/
def Tracked (s : System) (agents : List Agent) : Prop :=
  agents = [] ∨
    (s.model.userSelected = false ∨ s.model.selectedAgent = none) ∧
      (∃ first rest, agents = first :: rest ∧ first.target = s.source) ∨
    s.model.userSelected = true ∧ ∃ agent found, s.model.selectedAgent = some agent ∧
      agents.find? (fun other => other.id = agent.id) = some found ∧ found.target = s.source

/-- The condition on a step.

- A refresh of the detail view with nothing loading keeps track of the shown agent.
- The lens does not go to sleep in the detail view while another agent's output is loading.
- A spoken `open` in the detail view finds an agent with a Host and a pane.
- A read of the current request ends on the agent it was started for, or, when it is given up in
  the detail view, the selected agent is still the shown one. -/
def Keeps (localeCompare : Text → Text → Int) (s : System) : Op → Prop
  | .refresh hosts sources _ hidden =>
    Reading s → Tracked s (refreshedAgents localeCompare hosts sources hidden)
  | .sleep =>
    s.awake = true → s.model.view = .detail → s.model.outputLoading = true → Shows s
  | .voice session (.open position) =>
    s.sessionIsCurrent session = true → s.model.view = .detail → 1 ≤ position →
      ∀ agent, s.model.visible[(position - 1).toNat]? = some agent → agent.target.isSome
  | .voice session .close =>
    s.sessionIsCurrent session = true → s.awake = true → s.model.view = .detail →
      s.model.outputLoading = true → Shows s
  | .readDone index _ =>
    ∀ read, s.reads[index]? = some read → read.request = s.model.outputRequest →
      (s.readIsCurrent read = true → ∀ agent, s.model.selectedAgent = some agent →
        agent.target = some read.target) ∧
      (s.readIsCurrent read = false → s.model.view = .detail → Shows s)
  | .refreshDone (some lines) =>
    ∀ read, s.detailRead = some read → read.request = s.model.outputRequest →
      s.model.view = .detail → lines ≠ s.model.output →
        ∀ agent, s.model.selectedAgent = some agent → agent.id = read.agentId →
          agent.target = some read.target
  | _ => True

/-- The invariant of a run whose steps keep: lines in the detail view come from a read, and while
nothing is loading the selected agent is the one that was read. -/
structure Inv (s : System) : Prop where
  read : s.model.view = .detail → s.source.isSome
  shows : Reading s → Shows s

variable {s : System}

theorem Inv.onTheLens (h : Inv s) : OnTheLens s := by
  have hselected : Reading s → ∀ agent, s.model.selectedAgent = some agent →
      ∃ target, agent.target = some target ∧ s.source = some target := by
    intro hreading agent hagent
    obtain ⟨target, htarget⟩ := Option.isSome_iff_exists.mp (h.read hreading.1)
    exact ⟨target, (h.shows hreading agent hagent).trans htarget, htarget⟩
  refine ⟨hselected, ?_, ?_⟩
  · intro hreading target htarget
    rw [System.dictationTarget, hreading.1] at htarget
    obtain ⟨agent, hagent, hagentTarget⟩ := Option.bind_eq_some_iff.mp htarget
    rw [← h.shows hreading agent hagent, hagentTarget]
  · intro hreading hgone
    cases hagent : s.model.selectedAgent with
    | none => rfl
    | some agent =>
      have hmem : agent ∈ s.model.visible := List.mem_of_getElem? hagent
      exact absurd (h.shows hreading agent hagent) (hgone agent hmem)

/-! ### What the pieces of the app leave alone -/

/-- The parts that the invariant reads are the same. -/
structure Alike (s t : System) : Prop where
  view : t.model.view = s.model.view
  loading : t.model.outputLoading = s.model.outputLoading
  selected : t.model.selectedAgent = s.model.selectedAgent
  source : t.source = s.source

theorem Inv.alike {t : System} (h : Inv s) (halike : Alike s t) : Inv t := by
  refine ⟨?_, ?_⟩
  · rw [halike.view, halike.source]
    exact h.read
  · intro hreading agent hagent
    rw [halike.selected] at hagent
    rw [halike.source]
    refine h.shows ⟨?_, ?_⟩ agent hagent
    · rw [← halike.view]
      exact hreading.1
    · rw [← halike.loading]
      exact hreading.2

/-- In the list view the invariant asks for nothing. -/
theorem inv_of_list (h : s.model.view = .list) : Inv s := by
  refine ⟨?_, ?_⟩
  · intro hdetail
    rw [h] at hdetail
    cases hdetail
  · rintro ⟨hdetail, -⟩
    rw [h] at hdetail
    cases hdetail

/-- While output is loading the invariant only asks for a read. -/
theorem inv_of_loading (hread : s.model.view = .detail → s.source.isSome)
    (hloading : s.model.outputLoading = true) : Inv s := by
  refine ⟨hread, ?_⟩
  rintro ⟨-, hdone⟩
  rw [hloading] at hdone
  cases hdone

theorem stopMic_inv (h : Inv s) : Inv s.stopMic :=
  h.alike ⟨rfl, rfl, rfl, rfl⟩

theorem startMic_inv (h : Inv s) : Inv s.startMic := by
  unfold System.startMic
  split
  · exact h
  · exact h.alike ⟨rfl, rfl, rfl, rfl⟩

theorem goToSleep_inv (h : Inv s)
    (hshows : s.awake = true → s.model.view = .detail → s.model.outputLoading = true → Shows s) :
    Inv s.goToSleep := by
  unfold System.goToSleep
  split
  next hawake =>
    refine ⟨h.read, ?_⟩
    intro hreading
    cases hloading : s.model.outputLoading with
    | true => exact hshows hawake hreading.1 hloading
    | false => exact h.shows ⟨hreading.1, hloading⟩
  · exact h

theorem move_inv (h : Inv s) (direction distance : Int) :
    Inv { s with model := s.model.move direction distance } := by
  cases hview : s.model.view with
  | list =>
    refine inv_of_list ?_
    simp only [HudModel.move, hview]
  | detail =>
    refine h.alike ⟨?_, ?_, ?_, rfl⟩
    · simp only [HudModel.move, hview]
    · simp only [HudModel.move, hview]
    · simp only [HudModel.move, hview, HudModel.selectedAgent, HudModel.visible]

/-- A read that starts keeps the invariant when it has somewhere to go. -/
theorem openSelectedOutput_inv (hread : s.model.view = .detail → s.source.isSome)
    (session : Option Nat)
    (htarget : s.model.view = .detail →
      ∃ agent, s.model.selectedAgent = some agent ∧ agent.target.isSome) :
    Inv (s.openSelectedOutput session) := by
  cases hview : s.model.view with
  | list =>
    refine inv_of_list ?_
    unfold System.openSelectedOutput
    simp only
    split
    · exact hview
    · split <;> exact hview
  | detail =>
    obtain ⟨agent, hagent, hsome⟩ := htarget hview
    obtain ⟨target, htarget⟩ := Option.isSome_iff_exists.mp hsome
    have hopen : s.openSelectedOutput session = { s with
        model := s.model.beginOutput.1
        reads := s.reads ++ [⟨s.model.beginOutput.2, agent.id, target, session⟩] } := by
      simp only [System.openSelectedOutput, hagent, htarget]
    rw [hopen]
    exact inv_of_loading hread rfl

/-! ### The steps that can lose the agent -/

theorem visible_refresh (model : HudModel) (localeCompare : Text → Text → Int)
    (sources : List (Text × Snapshot)) (onlineHosts hidden : List Text) :
    (model.refresh localeCompare sources onlineHosts hidden).visible
      = refreshedAgents localeCompare model.hosts sources hidden := rfl

/-- Where a refresh leaves the selection: on the first agent with the id of the selected one when
the selection is the wearer's, else on the first agent. -/
theorem selected_refresh (model : HudModel) (localeCompare : Text → Text → Int)
    (sources : List (Text × Snapshot)) (onlineHosts hidden : List Text) :
    (model.refresh localeCompare sources onlineHosts hidden).selected
      = match (refreshedAgents localeCompare model.hosts sources hidden).findIdx?
          (fun agent => some agent.id = model.selectedAgent.map (·.id)) with
        | some index => if model.userSelected then index else 0
        | none => 0 := rfl

theorem refresh_inv (h : Inv s) (localeCompare : Text → Text → Int) (hosts : List HostSettings)
    (sources : List (Text × Snapshot)) (onlineHosts hidden : List Text)
    (hkeeps : Reading s → Tracked s (refreshedAgents localeCompare hosts sources hidden)) :
    Inv { s with
      model :=
          { s.model with hosts := hosts }.refresh localeCompare sources onlineHosts hidden } := by
  refine ⟨h.read, ?_⟩
  intro hreading agent hagent
  have hbefore : Reading s := hreading
  have hcurrent : ({ s.model with hosts := hosts } : HudModel).selectedAgent
      = s.model.selectedAgent := rfl
  rw [HudModel.selectedAgent, visible_refresh, selected_refresh, hcurrent] at hagent
  show agent.target = s.source
  obtain hempty | ⟨hfirst, first, rest, hagents, htarget⟩ | ⟨huser, selected, found, hselected,
    hfind, htarget⟩ := hkeeps hbefore
  · rw [hempty] at hagent
    cases hagent
  · -- The selection falls back to the first agent.
    have hzero : (match (refreshedAgents localeCompare hosts sources hidden).findIdx?
          (fun agent => some agent.id = s.model.selectedAgent.map (·.id)) with
        | some index => if s.model.userSelected then index else 0
        | none => 0) = 0 := by
      split
      next index hindex =>
        obtain huser | hnone := hfirst
        · rw [if_neg (by rw [huser]; exact Bool.false_ne_true)]
        · rw [hnone] at hindex
          have hp := (List.findIdx?_eq_some_iff_getElem.mp hindex).2.1
          simp at hp
      · rfl
    rw [hzero, hagents] at hagent
    cases hagent
    exact htarget
  · obtain ⟨hp, before, after, hsplit, hbefore⟩ := List.find?_eq_some_iff_append.mp hfind
    have hindex : (refreshedAgents localeCompare hosts sources hidden).findIdx?
        (fun agent => some agent.id = s.model.selectedAgent.map (·.id)) = some before.length := by
      have hnone : before.findIdx? (fun agent => agent.id = selected.id) = none := by
        rw [List.findIdx?_eq_none_iff]
        intro other hmem
        simpa using hbefore other hmem
      rw [hselected, hsplit]
      simp only [Option.map_some, Option.some.injEq, List.findIdx?_append, hnone,
        List.findIdx?_cons, hp, if_true, Option.map_some, Option.none_or, Nat.zero_add]
    rw [hindex] at hagent
    simp only [huser, if_true, hsplit, List.getElem?_append_right (le_refl before.length),
      Nat.sub_self, List.getElem?_cons_zero, Option.some.injEq] at hagent
    rw [← hagent]
    exact htarget

theorem finishRead_inv (h : Inv s) (read : OpenRead) (lines : List Text)
    (hcurrent : read.request = s.model.outputRequest → s.readIsCurrent read = true →
      ∀ agent, s.model.selectedAgent = some agent → agent.target = some read.target)
    (hstale : read.request = s.model.outputRequest → s.readIsCurrent read = false →
      s.model.view = .detail → Shows s) : Inv (s.finishRead read lines) := by
  unfold System.finishRead
  cases hread : s.readIsCurrent read with
  | true =>
    have hrequest : read.request = s.model.outputRequest := by
      simp only [System.readIsCurrent, Bool.and_eq_true, decide_eq_true_eq] at hread
      exact hread.1.1
    simp only [hrequest, if_true]
    exact ⟨fun _ => rfl, fun _ agent hagent => hcurrent hrequest hread agent hagent⟩
  | false =>
    simp only [Bool.false_eq_true, if_false]
    split
    next hrequest => exact ⟨h.read, fun hreading => hstale hrequest hread hreading.1⟩
    · exact h

theorem updateOutput_alike (model : HudModel) (lines : List Text) :
    (model.updateOutput lines).view = model.view ∧
      (model.updateOutput lines).selectedAgent = model.selectedAgent ∧
      (model.updateOutput lines).outputLoading = model.outputLoading := by
  unfold HudModel.updateOutput
  split
  · exact ⟨rfl, rfl, rfl⟩
  · exact ⟨rfl, rfl, rfl⟩

theorem finishRefresh_inv (h : Inv s) (read : DetailRead) (lines : Option (List Text))
    (hkeeps : ∀ shown, lines = some shown → read.request = s.model.outputRequest →
      s.model.view = .detail → shown ≠ s.model.output →
        ∀ agent, s.model.selectedAgent = some agent → agent.id = read.agentId →
          agent.target = some read.target) : Inv (s.finishRefresh read lines) := by
  have hcleared : Inv { s with detailRead := none } := h.alike ⟨rfl, rfl, rfl, rfl⟩
  unfold System.finishRefresh
  cases lines with
  | none => exact hcleared
  | some shown =>
    simp only
    split
    · exact hcleared
    next hcurrent =>
      simp only [not_or, not_not] at hcurrent
      obtain ⟨hrequest, hview, hid⟩ := hcurrent
      obtain ⟨hviewSame, hselectedSame, hloadingSame⟩ := updateOutput_alike s.model shown
      by_cases hsame : shown = s.model.output
      · rw [if_pos hsame]
        exact h.alike ⟨hviewSame, hloadingSame, hselectedSame, rfl⟩
      · rw [if_neg hsame]
        refine ⟨fun _ => rfl, ?_⟩
        intro hreading agent hagent
        rw [hselectedSame] at hagent
        rw [hagent] at hid
        exact hkeeps shown rfl hrequest hview hsame agent hagent (Option.some.inj hid)

theorem selectPosition_cases {model after : HudModel} {position : Int}
    (h : model.selectPosition position = some after) :
    1 ≤ position ∧ after.view = model.view ∧
      after.selectedAgent = model.visible[(position - 1).toNat]? ∧ after.selectedAgent.isSome := by
  unfold HudModel.selectPosition at h
  simp only at h
  split at h
  · cases h
  next hinside =>
    cases h
    simp only [not_or, Int.not_lt, ge_iff_le, Int.not_le] at hinside
    refine ⟨by omega, rfl, rfl, ?_⟩
    show (model.visible[(position - 1).toNat]?).isSome
    rw [List.getElem?_eq_getElem (by omega)]
    rfl

theorem runVoiceCommand_inv (h : Inv s) (localeCompare : Text → Text → Int) (session : Nat)
    (command : VoiceCommand) (hkeeps : Keeps localeCompare s (.voice session command)) :
    Inv (s.runVoiceCommand session command) := by
  unfold System.runVoiceCommand
  split
  · exact h
  next hcurrent =>
    have hcurrent : s.sessionIsCurrent session = true := not_not.mp hcurrent
    cases command with
    | «open» position =>
      simp only
      split
      · exact h
      next model hselect =>
        obtain ⟨hpos, hview, hselected, hsome⟩ := selectPosition_cases hselect
        have hread : model.view = .detail → s.source.isSome := by
          rw [hview]
          exact h.read
        refine openSelectedOutput_inv hread _ ?_
        intro hdetail
        obtain ⟨agent, hagent⟩ := Option.isSome_iff_exists.mp hsome
        refine ⟨agent, hagent, hkeeps hcurrent (hview ▸ hdetail) hpos agent ?_⟩
        rw [← hselected]
        exact hagent
    | back => exact inv_of_list rfl
    | page direction => exact move_inv h direction outputWindowSize
    | close => exact goToSleep_inv h (hkeeps hcurrent)
    | dictate => exact h
    | unknown => exact h

/-- A step that keeps the shown agent keeps the invariant. -/
theorem step_inv (h : Inv s) (localeCompare : Text → Text → Int) (op : Op)
    (hkeeps : Keeps localeCompare s op) : Inv (s.step localeCompare op) := by
  cases op with
  | refresh hosts sources onlineHosts hidden =>
    exact refresh_inv h localeCompare hosts sources onlineHosts hidden hkeeps
  | click =>
    simp only [System.step]
    split
    next hlist =>
      refine openSelectedOutput_inv h.read none ?_
      intro hdetail
      rw [hlist.2.1] at hdetail
      cases hdetail
    · exact h
  | doubleClick =>
    simp only [System.step]
    split
    · exact h
    · split
      · exact stopMic_inv h
      · exact inv_of_list rfl
  | scroll direction =>
    simp only [System.step]
    split
    · exact move_inv h direction 1
    · exact h
  | sleep => exact goToSleep_inv h hkeeps
  | wake =>
    simp only [System.step, System.wakeUp]
    split
    · exact h
    · have hawake : Inv { s with awake := true } := h.alike ⟨rfl, rfl, rfl, rfl⟩
      exact startMic_inv hawake
  | micFailed =>
    simp only [System.step]
    split
    · exact stopMic_inv h
    · exact h
  | voice session command => exact runVoiceCommand_inv h localeCompare session command hkeeps
  | readDone index lines =>
    simp only [System.step]
    split
    · exact h
    next read hread =>
      have herased : Inv { s with reads := s.reads.eraseIdx index } :=
        h.alike ⟨rfl, rfl, rfl, rfl⟩
      exact finishRead_inv herased read lines
        (fun hrequest => (hkeeps read hread hrequest).1)
        (fun hrequest => (hkeeps read hread hrequest).2)
  | refreshOutput =>
    simp only [System.step, System.refreshSelectedOutput]
    split
    · exact h
    · split
      · exact h
      · split
        · exact h
        · exact h.alike ⟨rfl, rfl, rfl, rfl⟩
  | refreshDone lines =>
    simp only [System.step]
    split
    · exact h
    next read hread =>
      refine finishRefresh_inv h read lines ?_
      rintro shown rfl
      exact hkeeps read hread

/-- The app as a machine. -/
def machine (localeCompare : Text → Text → Int) (s : System) (op : Op) : Option (System × Unit) :=
  some (s.step localeCompare op, ())

/-- In every run whose steps keep the shown agent, a dictated phrase goes to the Space on the
lens. -/
theorem dictation_on_the_lens {localeCompare : Text → Text → Int} {s : System}
    (h : Reachable (fun s => s = System.new) (Keeps localeCompare) (machine localeCompare) s) :
    OnTheLens s := by
  have hinv : Inv s := by
    refine h.invariant Inv ?_ ?_
    · rintro _ rfl
      exact inv_of_list rfl
    · intro s op t answer hkeeps hstep hinv
      cases hstep
      exact step_inv hinv localeCompare op hkeeps
  exact hinv.onTheLens

/-! ### Two runs -/

/-- A collation that agrees with the phone's on lower-case letters. -/
def codeCompare : Text → Text → Int
  | [], [] => 0
  | [], _ :: _ => -1
  | _ :: _, [] => 1
  | a :: left, b :: right =>
    if a = b then codeCompare left right else if a.toNat < b.toNat then -1 else 1

def desk : HostSettings := ⟨['h'], ['h']⟩

/-- An agent as its Host reports it. -/
def reported (name : Char) (status : Status) : Agent := ⟨[name], [name], status, none, none, none⟩

/-- A refresh with the agents `a` and `b` of one Host. -/
def report (a b : Status) : Op :=
  .refresh [desk] [(['h'], ⟨[reported 'a' a, reported 'b' b]⟩)] [['h']] []

/-- The wearer clicks the first agent, and then the second asks a question. -/
def clickThenQuestion : List Op :=
  [.wake, report .idle .idle, .click, .readDone 0 [['o', 'k']], report .idle .blocked]

/-- The lens shows the output of `a`, and a dictated phrase goes to `b`. -/
theorem dictation_leaves_the_lens :
    ∃ s, Reachable (fun s => s = System.new) (fun _ _ => True) (machine codeCompare) s ∧
      Reading s ∧ s.source = some (['h'], ['a']) ∧ s.dictationTarget = some (['h'], ['b']) ∧
      ¬ OnTheLens s := by
  have hrun : (runAll (guarded (fun _ _ => true) (machine codeCompare)) System.new
      clickThenQuestion).any (fun s => decide (s.model.view = .detail ∧
        s.model.outputLoading = false ∧ s.source = some (['h'], ['a']) ∧
        s.dictationTarget = some (['h'], ['b']))) = true := by
    decide +kernel
  obtain ⟨s, hsome, hends⟩ := (Option.any_eq_true _ _).mp hrun
  obtain ⟨hview, hloading, hsource, htarget⟩ := of_decide_eq_true hends
  refine ⟨s, Reachable.runAll (fun _ _ _ => trivial) (.start rfl) hsome, ⟨hview, hloading⟩, hsource,
    htarget, ?_⟩
  intro hlens
  have hsame := hlens.dictated ⟨hview, hloading⟩ _ htarget
  rw [hsource] at hsame
  exact absurd hsame (by decide)

/-- The wearer opens the second agent by voice, and then it asks a question. -/
def openThenQuestion : List Op :=
  [.wake, report .idle .idle, .voice 1 (.open 2), .readDone 0 [['o', 'k']], report .idle .blocked]

/-- A test for `Keeps` that covers the run. -/
def keepsTest (s : System) : Op → Bool
  | .wake => true
  | .refresh hosts sources _ hidden =>
    decide (s.model.view = .list) || s.model.userSelected && s.model.selectedAgent.any fun agent =>
      ((refreshedAgents codeCompare hosts sources hidden).find? fun other =>
        other.id = agent.id).any fun found => found.target = s.source
  | .voice _ (.open _) => decide (s.model.view = .list)
  | .readDone index _ =>
    s.reads[index]?.all fun read => s.readIsCurrent read &&
      s.model.selectedAgent.all fun agent => agent.target = some read.target
  | _ => false

theorem keeps_of_keepsTest {s : System} {op : Op} (h : keepsTest s op = true) :
    Keeps codeCompare s op := by
  cases op with
  | wake => trivial
  | refresh hosts sources onlineHosts hidden =>
    intro hreading
    simp only [keepsTest, Bool.or_eq_true, Bool.and_eq_true, decide_eq_true_eq] at h
    obtain hlist | ⟨huser, hagent⟩ := h
    · rw [hreading.1] at hlist
      cases hlist
    · obtain ⟨agent, hselected, hfound⟩ := (Option.any_eq_true _ _).mp hagent
      obtain ⟨found, hfind, htarget⟩ := (Option.any_eq_true _ _).mp hfound
      exact Or.inr (Or.inr ⟨huser, agent, found, hselected, hfind, of_decide_eq_true htarget⟩)
  | voice session command =>
    cases command with
    | «open» position =>
      intro _ hdetail
      have hlist : s.model.view = .list := of_decide_eq_true h
      rw [hdetail] at hlist
      cases hlist
    | back => cases h
    | page => cases h
    | close => cases h
    | dictate => cases h
    | unknown => cases h
  | readDone index lines =>
    intro read hread _
    simp only [keepsTest, hread, Option.all_some, Bool.and_eq_true] at h
    refine ⟨?_, ?_⟩
    · intro _ agent hagent
      have htarget := h.2
      rw [hagent, Option.all_some] at htarget
      exact of_decide_eq_true htarget
    · intro hstale
      rw [h.1] at hstale
      cases hstale
  | click => cases h
  | doubleClick => cases h
  | scroll => cases h
  | sleep => cases h
  | micFailed => cases h
  | refreshOutput => cases h
  | refreshDone => cases h

theorem dictation_on_the_lens_openThenQuestion :
    ∃ s, Reachable (fun s => s = System.new) (Keeps codeCompare) (machine codeCompare) s ∧
      s.model.selected = 0 ∧ s.dictationTarget = some (['h'], ['b']) ∧ OnTheLens s := by
  have hrun : (runAll (guarded keepsTest (machine codeCompare)) System.new
      openThenQuestion).any (fun s => decide (s.model.selected = 0 ∧
        s.dictationTarget = some (['h'], ['b']))) = true := by
    decide +kernel
  obtain ⟨s, hsome, hends⟩ := (Option.any_eq_true _ _).mp hrun
  obtain ⟨hselected, htarget⟩ := of_decide_eq_true hends
  have hreach : Reachable (fun s => s = System.new) (Keeps codeCompare) (machine codeCompare) s :=
    Reachable.runAll (fun _ _ => keeps_of_keepsTest) (.start rfl) hsome
  exact ⟨s, hreach, hselected, htarget, dictation_on_the_lens hreach⟩

end Herden.Proofs.Hud
