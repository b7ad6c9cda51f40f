import Herden.Proofs.EventsSession.Runs

/-!
# `Herden.Proofs.EventsSession.Owned`: one run belongs to the current activation

`Owned` says what keeps the runs of an `EventsSession` apart in every reachable state: the run that
was not cancelled is the one of `runTask`, it has the generation of the current activation, and the
live stream is the one it reads. `activationIsCurrent` therefore answers yes to that run and to no
other (`Owned.isCurrent_iff`), and another run never reads the live stream (`Owned.stale_stream`).

The lifecycle moves between two kinds of states. A teardown leaves no run and no live stream
(`TornDown`), and a new activation starts a run where there is none (`Spawned`).
-/

namespace Herden.Proofs.EventsSession

open Herden.App.Events
open Herden.App.EventsSession

structure Owned (s : System) : Prop where
  ids : ∀ i (run : Run), s.runs[i]? = some run → run.id = i
  task : ∀ i (run : Run), s.runs[i]? = some run → run.isCancelled = false → s.session.runTask
      = some i
  current : ∀ i, s.session.runTask = some i → s.session.phase = .active ∧
    ∃ run : Run, s.runs[i]? = some run ∧ run.generation = s.session.activationGeneration ∧
      run.isCancelled = false
  idle : s.session.runTask = none → s.session.liveStream = none
  live : ∀ i (run : Run), s.session.runTask = some i → s.runs[i]? = some run →
    s.session.liveStream = streamAt run.pc
  own : ∀ i (run : Run) stream, s.runs[i]? = some run → streamAt run.pc = some stream → stream.run
      = i
  winding : s.winding.isSome = true → s.session.runTask = none

/-! ### Whose the activation is -/

variable {i : Nat} {run : Run} {s t : System} {runs : List Run}

theorem Owned.isCurrent_iff (h : Owned s) (hrun : s.runs[i]? = some run) :
    s.session.activationIsCurrent run = true ↔ s.session.runTask = some i := by
  simp only [Session.activationIsCurrent, decide_eq_true_eq]
  constructor
  · intro ⟨_, _, hcancelled⟩
    exact h.task i run hrun hcancelled
  · intro htask
    obtain ⟨hphase, other, hother, hgeneration, hcancelled⟩ := h.current i htask
    have hsame : other = run := Option.some.inj (hother.symm.trans hrun)
    subst hsame
    exact ⟨hphase, hgeneration.symm, hcancelled⟩

/-- The live stream is the one that its run reads, and the activation of that run is current. -/
theorem Owned.live_run (h : Owned s) {stream : EventStream}
    (hlive : s.session.liveStream = some stream) : s.session.runTask = some stream.run ∧
      ∃ run : Run, s.runs[stream.run]? = some run ∧ run.pc = .streaming stream := by
  cases htask : s.session.runTask with
  | none =>
    rw [h.idle htask] at hlive
    cases hlive
  | some i =>
    obtain ⟨-, run, hrun, -, -⟩ := h.current i htask
    have hstream : streamAt run.pc = some stream := (h.live i run htask hrun).symm.trans hlive
    have hown : stream.run = i := h.own i run stream hrun hstream
    refine ⟨congrArg some hown.symm, run, hown ▸ hrun, ?_⟩
    cases hpc : run.pc <;> simp [hpc, streamAt] at hstream
    exact congrArg Pc.streaming hstream

/-- A run of another activation does not read the live stream. -/
theorem Owned.stale_stream (h : Owned s) (hrun : s.runs[i]? = some run)
    (hstale : s.session.runTask ≠ some i) (stream : EventStream)
    (hstream : streamAt run.pc = some stream) : s.session.liveStream ≠ some stream := by
  intro hlive
  rw [← h.own i run stream hrun hstream] at hstale
  exact hstale (h.live_run hlive).1

/-! ### Lists of runs -/

theorem getElem?_set_cases {j : Nat} {after : Run} (hrun : (runs.set i after)[j]? = some run) :
    (j = i ∧ run = after) ∨ (j ≠ i ∧ runs[j]? = some run) := by
  rw [List.getElem?_set] at hrun
  split at hrun
  next heq =>
    split at hrun
    · exact .inl ⟨heq.symm, (Option.some.inj hrun).symm⟩
    · cases hrun
  next hne => exact .inr ⟨Ne.symm hne, hrun⟩

theorem getElem?_set_same {before after : Run} (hrun : runs[i]? = some before) :
    (runs.set i after)[i]? = some after := by
  obtain ⟨hlt, -⟩ := List.getElem?_eq_some_iff.mp hrun
  exact List.getElem?_set_self hlt

theorem getElem?_append_cases {last : Run} (hrun : (runs ++ [last])[i]? = some run) :
    runs[i]? = some run ∨ (i = runs.length ∧ run = last) := by
  obtain hlt | hge := lt_or_ge i runs.length
  · exact .inl (by rwa [List.getElem?_append_left hlt] at hrun)
  · rw [List.getElem?_append_right hge] at hrun
    cases hsub : i - runs.length with
    | zero =>
      rw [hsub] at hrun
      exact .inr ⟨by omega, (Option.some.inj hrun).symm⟩
    | succ n =>
      rw [hsub] at hrun
      cases hrun

/-! ### Steps of a run -/

/-- The fields that a run's step leaves to the lifecycle, whichever run it is. -/
theorem Owned.run_frame (h : Owned s) (hrun : s.runs[i]? = some run) (answer : Session.Answer) :
    Frame s.session run (s.session.runStep run run.pc answer) := by
  by_cases hcurrent : s.session.activationIsCurrent run = true
  · exact (runStep_kept hcurrent answer).frame
  · have hstale : s.session.runTask ≠ some i := fun htask =>
      hcurrent ((h.isCurrent_iff hrun).mpr htask)
    exact (runStep_stale (by simpa using hcurrent) (h.stale_stream hrun hstale) answer).1.frame

/-- What holds of the place of the current run holds after every step of a run, when a step of that
run keeps it and a step of another run keeps what it reads of the session. -/
theorem Owned.run_place (h : Owned s) (hrun : s.runs[i]? = some run) (answer : Session.Answer)
    (P : Session → Run → Prop)
    (hplace : ∀ j other, s.session.runTask = some j → s.runs[j]? = some other → P s.session other)
    (hkept : s.session.activationIsCurrent run = true → P s.session run →
      P (s.session.runStep run run.pc answer).1 (s.session.runStep run run.pc answer).2)
    (hstale : s.session.activationIsCurrent run = false → ∀ other, P s.session other →
      P (s.session.runStep run run.pc answer).1 other) :
    ∀ j other, (s.session.runStep run run.pc answer).1.runTask = some j →
      (s.runs.set i (s.session.runStep run run.pc answer).2)[j]? = some other →
        P (s.session.runStep run run.pc answer).1 other := by
  intro j other htask hother
  rw [(h.run_frame hrun answer).task] at htask
  obtain ⟨hsame, heq⟩ | ⟨hne, hbefore⟩ := getElem?_set_cases hother
  · subst hsame
    rw [heq]
    exact hkept ((h.isCurrent_iff hrun).mpr htask) (hplace j run htask hrun)
  · refine hstale ?_ other (hplace j other htask hbefore)
    rw [Bool.eq_false_iff]
    intro hcurrent
    rw [(h.isCurrent_iff hrun).mp hcurrent] at htask
    exact hne (Option.some.inj htask).symm

theorem owned_run (h : Owned s) (i : Nat) (answer : Session.Answer) :
    Owned (s.step (.run i answer)) := by
  simp only [System.step]
  split
  next => exact h
  next run hrun =>
    have hframe : Frame s.session run (s.session.runStep run run.pc answer) :=
      h.run_frame hrun answer
    have hown : ∀ stream, streamAt (s.session.runStep run run.pc answer).2.pc = some stream →
        stream.run = run.id := by
      have hbefore : ∀ stream, streamAt run.pc = some stream → stream.run = run.id := by
        intro stream hstream
        rw [h.ids i run hrun]
        exact h.own i run stream hrun hstream
      by_cases hcurrent : s.session.activationIsCurrent run = true
      · exact (runStep_kept hcurrent answer).own hbefore
      · have hstale : s.session.runTask ≠ some i := fun htask =>
          hcurrent ((h.isCurrent_iff hrun).mpr htask)
        exact (runStep_stale (by simpa using hcurrent) (h.stale_stream hrun hstale)
          answer).1.own hbefore
    refine ⟨?_, ?_, ?_, ?_, ?_, ?_, ?_⟩
    · intro j other hother
      obtain ⟨hsame, heq⟩ | ⟨-, hbefore⟩ := getElem?_set_cases hother
      · rw [heq, hframe.runId, hsame]
        exact h.ids i run hrun
      · exact h.ids j other hbefore
    · intro j other hother hcancelled
      rw [hframe.task]
      obtain ⟨hsame, heq⟩ | ⟨-, hbefore⟩ := getElem?_set_cases hother
      · rw [heq, hframe.isCancelled] at hcancelled
        rw [hsame]
        exact h.task i run hrun hcancelled
      · exact h.task j other hbefore hcancelled
    · intro j htask
      rw [hframe.task] at htask
      obtain ⟨hphase, other, hother, hgeneration, hcancelled⟩ := h.current j htask
      refine ⟨hframe.phase.trans hphase, ?_⟩
      by_cases hsame : j = i
      · subst hsame
        cases Option.some.inj (hother.symm.trans hrun)
        refine ⟨_, getElem?_set_same hrun, ?_, ?_⟩
        · rw [hframe.runGeneration, hgeneration]
          exact hframe.generation.symm
        · exact hframe.isCancelled.trans hcancelled
      · refine ⟨other, ?_, hgeneration.trans hframe.generation.symm, hcancelled⟩
        rw [List.getElem?_set_ne (Ne.symm hsame)]
        exact hother
    · intro htask
      rw [hframe.task] at htask
      have hstale : s.session.runTask ≠ some i := by
        rw [htask]
        simp
      have hnot : s.session.activationIsCurrent run = false := by
        rw [Bool.eq_false_iff]
        exact fun hcurrent => hstale ((h.isCurrent_iff hrun).mp hcurrent)
      exact (runStep_stale hnot (h.stale_stream hrun hstale) answer).1.live.trans (h.idle htask)
    · refine h.run_place hrun answer (fun session run => session.liveStream = streamAt run.pc)
        h.live ?_ ?_
      · exact fun hcurrent => (runStep_kept hcurrent answer).live
      · intro hnot other hlive
        have hstale : s.session.runTask ≠ some i := fun htask =>
          absurd ((h.isCurrent_iff hrun).mpr htask) (by simp [hnot])
        exact (runStep_stale hnot (h.stale_stream hrun hstale) answer).1.live.trans hlive
    · intro j other stream hother hstream
      obtain ⟨hsame, heq⟩ | ⟨-, hbefore⟩ := getElem?_set_cases hother
      · rw [heq] at hstream
        rw [hown stream hstream, hsame]
        exact h.ids i run hrun
      · exact h.own j other stream hbefore hstream
    · intro hwinding
      exact hframe.task.trans (h.winding hwinding)

/-! ### Teardown and activation -/

/-- The Transport is closed, current, or about to be closed by a teardown. -/
def InHand (s : System) (transport : Nat) : Prop :=
  transport ∈ s.session.closedTransports ∨ s.session.currentTransport = some transport ∨
    ∃ after, s.winding = some (.closing transport, after)

/-- A teardown up to its first `await`: the run is cancelled. -/
structure TornDown (s t : System) : Prop where
  task : t.session.runTask = none
  live : t.session.liveStream = none
  runs : ∀ (i : Nat) (run : Run), t.runs[i]? = some run → ∃ before : Run,
    s.runs[i]? = some before ∧ run.id = before.id ∧ run.pc = before.pc ∧
      (run.isCancelled = false → before.isCancelled = false ∧ s.session.runTask ≠ some i)
  kept : ∀ (i : Nat) (before : Run), s.runs[i]? = some before →
    ∃ run : Run, t.runs[i]? = some run ∧ run.pc = before.pc
  next : t.session.nextTransport = s.session.nextTransport
  accounts : ∀ transport, InHand s transport → InHand t transport

/-- A new run, where there is none. -/
structure Spawned (s t : System) : Prop where
  idle : s.session.runTask = none
  runs : t.runs = s.runs ++ [⟨s.runs.length, t.session.activationGeneration, false, 0, .starting⟩]
  task : t.session.runTask = some s.runs.length
  phase : t.session.phase = .active
  live : t.session.liveStream = s.session.liveStream
  winding : t.winding = none
  next : t.session.nextTransport = s.session.nextTransport
  accounts : ∀ transport, InHand s transport → InHand t transport

/-- A step of the lifecycle between these two, or one that changes nothing. -/
structure Quiet (s t : System) : Prop where
  runs : t.runs = s.runs
  task : t.session.runTask = s.session.runTask
  live : t.session.liveStream = s.session.liveStream
  same : s.session.runTask = none ∨ t.session = s.session
  winding : t.winding.isSome = true → s.session.runTask = none
  next : t.session.nextTransport = s.session.nextTransport
  accounts : ∀ transport, InHand s transport → InHand t transport

theorem getElem?_cancelRun (runs : List Run) (id i : Nat) :
    (System.cancelRun runs id)[i]?
      = if id = i then runs[i]?.map fun run => { run with isCancelled := true } else runs[i]? := by
  rw [System.cancelRun, List.getElem?_modify]
  split
  · rfl
  · simp

/-- The runs after a teardown: the one of `runTask` is cancelled. -/
def cancelled (s : System) : List Run :=
  match s.session.runTask with
  | none => s.runs
  | some id => System.cancelRun s.runs id

theorem cancelled_runs (s : System) (i : Nat) (run : Run)
    (hrun : (cancelled s)[i]? = some run) :
    ∃ before : Run, s.runs[i]? = some before ∧ run.id = before.id ∧ run.pc = before.pc ∧
      (run.isCancelled = false → before.isCancelled = false ∧ s.session.runTask ≠ some i) := by
  unfold cancelled at hrun
  cases htask : s.session.runTask with
  | none =>
    rw [htask] at hrun
    exact ⟨run, hrun, rfl, rfl, fun hopen => ⟨hopen, by simp⟩⟩
  | some id =>
    rw [htask] at hrun
    dsimp only at hrun
    rw [getElem?_cancelRun] at hrun
    split at hrun
    · obtain ⟨before, hbefore, heq⟩ := Option.map_eq_some_iff.mp hrun
      subst heq
      exact ⟨before, hbefore, rfl, rfl, fun hopen => by cases hopen⟩
    next hne =>
      exact ⟨run, hrun, rfl, rfl, fun hopen => ⟨hopen, fun heq => hne (Option.some.inj heq)⟩⟩

theorem cancelled_kept (s : System) (i : Nat) (before : Run)
    (hrun : s.runs[i]? = some before) :
    ∃ run : Run, (cancelled s)[i]? = some run ∧ run.pc = before.pc := by
  unfold cancelled
  cases s.session.runTask with
  | none => exact ⟨before, hrun, rfl⟩
  | some id =>
    dsimp only
    rw [getElem?_cancelRun]
    split
    · exact ⟨{ before with isCancelled := true }, by rw [hrun]; rfl, rfl⟩
    · exact ⟨before, hrun, rfl⟩

theorem windDown_tornDown (hwinding : s.winding = none) (after : AfterWindDown) :
    TornDown s (s.windDown after) := by
  have hruns := cancelled_runs s
  have hkept := cancelled_kept s
  have hbefore : ∀ transport, InHand s transport →
      transport ∈ s.session.closedTransports ∨ s.session.currentTransport = some transport := by
    intro transport hhand
    refine hhand.imp id fun hother => hother.resolve_right ?_
    rw [hwinding]
    simp
  unfold System.windDown
  dsimp only
  split
  next hlive =>
    unfold System.closeTransport
    dsimp only
    split
    next hnone =>
      refine ⟨rfl, rfl, hruns, hkept, rfl, ?_⟩
      intro transport hhand
      exact (hbefore transport hhand).imp id .inl
    next current hsome =>
      refine ⟨rfl, rfl, hruns, hkept, rfl, ?_⟩
      intro transport hhand
      obtain hclosed | hcurrent := hbefore transport hhand
      · exact .inl hclosed
      · cases hsome.symm.trans hcurrent
        exact .inr (.inr ⟨after, rfl⟩)
  next stream hlive =>
    refine ⟨rfl, rfl, hruns, hkept, rfl, ?_⟩
    intro transport hhand
    exact (hbefore transport hhand).imp id .inl

/-- The states of the lifecycle that `Owned` tells apart. -/
theorem Owned.idle_of_phase (h : Owned s) (hphase : s.session.phase ≠ .active) :
    s.session.runTask = none := by
  cases htask : s.session.runTask with
  | none => rfl
  | some i => exact absurd (h.current i htask).1 hphase

theorem activate_cases (h : Owned s) (hwinding : s.winding = none) :
    s.activate = s ∨ Spawned s s.activate := by
  unfold System.activate
  split
  next => exact .inl rfl
  next hphase =>
    have hsuspended : s.session.phase = .suspended := not_not.mp hphase
    have hidle : s.session.runTask = none :=
      h.idle_of_phase (by rw [hsuspended]; decide)
    exact .inr ⟨hidle, rfl, rfl, rfl, rfl, hwinding, rfl, fun _ hhand => hhand⟩

/-- A transition does nothing, tears down, or starts a run. -/
theorem transition_cases (h : Owned s) (hwinding : s.winding = none) (transition : Transition) :
    s.transition transition = s ∨ TornDown s (s.transition transition) ∨
      Spawned s (s.transition transition) := by
  cases transition with
  | activate => exact (activate_cases h hwinding).imp id .inr
  | restart =>
    simp only [System.transition, System.restart]
    split
    next => exact (activate_cases h hwinding).imp id .inr
    next =>
      refine .inr (.inl ?_)
      obtain ⟨htask, hlive, hruns, hkept, hnext, haccounts⟩ := windDown_tornDown
        (s := { s with
          session := { s.session with
            activationGeneration := s.session.activationGeneration + 1 }.yieldUpdate
              (.status .connecting) }) hwinding
        (.restart (s.session.activationGeneration + 1))
      exact ⟨htask, hlive, hruns, hkept, hnext, haccounts⟩
  | deactivate =>
    simp only [System.transition, System.deactivate]
    split
    next => exact .inl rfl
    next =>
      refine .inr (.inl ?_)
      obtain ⟨htask, hlive, hruns, hkept, hnext, haccounts⟩ := windDown_tornDown
        (s := { s with session := { s.session with phase := .suspended } }) hwinding .deactivate
      exact ⟨htask, hlive, hruns, hkept, hnext, haccounts⟩
  | finish =>
    simp only [System.transition, System.finish]
    split
    next => exact .inl rfl
    next =>
      refine .inr (.inl ?_)
      obtain ⟨htask, hlive, hruns, hkept, hnext, haccounts⟩ := windDown_tornDown
        (s := { s with session := { s.session with phase := .ended } }) hwinding .finish
      exact ⟨htask, hlive, hruns, hkept, hnext, haccounts⟩

theorem closeTransport_quiet (hidle : s.session.runTask = none)
    (hwinding : ∀ transport after, s.winding ≠ some (.closing transport, after))
    (after : AfterWindDown) : Quiet s (s.closeTransport after) := by
  have hbefore : ∀ transport, InHand s transport →
      transport ∈ s.session.closedTransports ∨ s.session.currentTransport = some transport := by
    intro transport hhand
    refine hhand.imp id fun hother => hother.resolve_right ?_
    intro ⟨after, hclosing⟩
    exact hwinding transport after hclosing
  unfold System.closeTransport
  split
  next hnone =>
    refine ⟨rfl, rfl, rfl, .inl hidle, fun _ => hidle, rfl, ?_⟩
    intro transport hhand
    exact (hbefore transport hhand).imp id .inl
  next current hsome =>
    refine ⟨rfl, rfl, rfl, .inl hidle, fun _ => hidle, rfl, ?_⟩
    intro transport hhand
    obtain hclosed | hcurrent := hbefore transport hhand
    · exact .inl hclosed
    · cases hsome.symm.trans hcurrent
      exact .inr (.inr ⟨after, rfl⟩)

/-- The session after the resets at the end of `windDown`. -/
def cleared (s : Session) : Session :=
  { s with
    transportSuspect := false
    pendingKeepaliveFailure := none
    resubscribeRequested := false }.dropPaneSubscriptions.1

theorem cleared_alike (s : Session) : Alike s (cleared s) := by
  unfold cleared
  obtain hsame | hfiltered := dropPaneSubscriptions_cases { s with
    transportSuspect := false
    pendingKeepaliveFailure := none
    resubscribeRequested := false }
  · rw [hsame]
    exact ⟨rfl, rfl, rfl, rfl, rfl, rfl, rfl⟩
  · rw [hfiltered]
    exact ⟨rfl, rfl, rfl, rfl, rfl, rfl, rfl⟩

theorem windDownDone_cases (hidle : s.session.runTask = none)
    (hwinding : ∀ transport after, s.winding ≠ some (.closing transport, after))
    (after : AfterWindDown) :
    Quiet s (s.windDownDone after) ∨ Spawned s (s.windDownDone after) := by
  have halike : Alike s.session (cleared s.session) := cleared_alike s.session
  have haccounts : ∀ transport, InHand s transport →
      transport ∈ (cleared s.session).closedTransports ∨
        (cleared s.session).currentTransport = some transport := by
    intro transport hhand
    rw [halike.closed, halike.transport]
    refine hhand.imp id fun hother => hother.resolve_right ?_
    intro ⟨after, hclosing⟩
    exact hwinding transport after hclosing
  have hquiet : Quiet s { s with session := cleared s.session, winding := none } :=
    ⟨rfl, halike.task, halike.live, .inl hidle, fun _ => hidle, halike.next,
      fun transport hhand => (haccounts transport hhand).imp id .inl⟩
  unfold System.windDownDone
  cases after with
  | restart generation =>
    dsimp only
    split
    next hcurrent =>
      obtain ⟨hphase, hgeneration⟩ := hcurrent
      subst hgeneration
      exact .inr ⟨hidle, rfl, rfl, hphase, halike.live, rfl, halike.next,
        fun transport hhand => (haccounts transport hhand).imp id .inl⟩
    next => exact .inl hquiet
  | deactivate =>
    exact .inl ⟨rfl, halike.task, halike.live, .inl hidle, fun _ => hidle, halike.next,
      fun transport hhand => (haccounts transport hhand).imp id .inl⟩
  | finish =>
    exact .inl ⟨rfl, halike.task, halike.live, .inl hidle, fun _ => hidle, halike.next,
      fun transport hhand => (haccounts transport hhand).imp id .inl⟩

theorem windDownStep_cases (h : Owned s) : Quiet s s.windDownStep ∨ Spawned s s.windDownStep := by
  unfold System.windDownStep
  cases hwinding : s.winding with
  | none =>
    refine .inl ⟨rfl, rfl, rfl, .inr rfl, ?_, rfl, fun _ hhand => hhand⟩
    rw [hwinding]
    intro hsome
    cases hsome
  | some winding =>
    have hidle : s.session.runTask = none := h.winding (by rw [hwinding]; rfl)
    obtain ⟨place, after⟩ := winding
    cases place with
    | endingStream stream =>
      exact .inl (closeTransport_quiet hidle (by rw [hwinding]; simp) after)
    | closing transport =>
      refine .inl ⟨rfl, rfl, rfl, .inl hidle, fun _ => hidle, rfl, ?_⟩
      intro other hhand
      obtain hclosed | hcurrent | ⟨after, hclosing⟩ := hhand
      · exact .inl (List.mem_cons_of_mem _ hclosed)
      · exact .inr (.inl hcurrent)
      · rw [hwinding] at hclosing
        cases hclosing
        exact .inl List.mem_cons_self
    | waitingForTerminalIdle =>
      exact windDownDone_cases hidle (by rw [hwinding]; simp) after

/-! ### Every step keeps it -/

theorem owned_of_tornDown (h : Owned s) (htorn : TornDown s t) : Owned t := by
  refine ⟨?_, ?_, ?_, fun _ => htorn.live, ?_, ?_, fun _ => htorn.task⟩
  · intro i run hrun
    obtain ⟨before, hbefore, hid, -, -⟩ := htorn.runs i run hrun
    exact hid.trans (h.ids i before hbefore)
  · intro i run hrun hopen
    obtain ⟨before, hbefore, -, -, hcancelled⟩ := htorn.runs i run hrun
    obtain ⟨hopen', hother⟩ := hcancelled hopen
    exact absurd (h.task i before hbefore hopen') hother
  · intro i htask
    rw [htorn.task] at htask
    cases htask
  · intro i run htask
    rw [htorn.task] at htask
    cases htask
  · intro i run stream hrun hstream
    obtain ⟨before, hbefore, -, hpc, -⟩ := htorn.runs i run hrun
    exact h.own i before stream hbefore (hpc ▸ hstream)

theorem owned_of_spawned (h : Owned s) (hspawned : Spawned s t) : Owned t := by
  have hcases : ∀ i (run : Run), t.runs[i]? = some run → s.runs[i]? = some run ∨
      (i = s.runs.length ∧
        run = ⟨s.runs.length, t.session.activationGeneration, false, 0, .starting⟩) := by
    intro i run hrun
    rw [hspawned.runs] at hrun
    exact getElem?_append_cases hrun
  refine ⟨?_, ?_, ?_, ?_, ?_, ?_, ?_⟩
  · intro i run hrun
    obtain hbefore | ⟨rfl, rfl⟩ := hcases i run hrun
    · exact h.ids i run hbefore
    · rfl
  · intro i run hrun hopen
    obtain hbefore | ⟨rfl, rfl⟩ := hcases i run hrun
    · have htask := h.task i run hbefore hopen
      rw [hspawned.idle] at htask
      cases htask
    · exact hspawned.task
  · intro i htask
    have hlast : i = s.runs.length := Option.some.inj (htask.symm.trans hspawned.task)
    subst hlast
    refine ⟨hspawned.phase,
      ⟨s.runs.length, t.session.activationGeneration, false, 0, .starting⟩, ?_, rfl, rfl⟩
    rw [hspawned.runs]
    exact List.getElem?_concat_length
  · intro hnone
    rw [hspawned.task] at hnone
    cases hnone
  · intro i run htask hrun
    have hlast : i = s.runs.length := Option.some.inj (htask.symm.trans hspawned.task)
    obtain hbefore | ⟨-, rfl⟩ := hcases i run hrun
    · obtain ⟨hlt, -⟩ := List.getElem?_eq_some_iff.mp hbefore
      omega
    · exact hspawned.live.trans (h.idle hspawned.idle)
  · intro i run stream hrun hstream
    obtain hbefore | ⟨-, rfl⟩ := hcases i run hrun
    · exact h.own i run stream hbefore hstream
    · cases hstream
  · rw [hspawned.winding]
    intro hsome
    cases hsome

theorem owned_of_quiet (h : Owned s) (hquiet : Quiet s t) : Owned t := by
  refine ⟨?_, ?_, ?_, ?_, ?_, ?_, ?_⟩
  · rw [hquiet.runs]
    exact h.ids
  · rw [hquiet.runs, hquiet.task]
    exact h.task
  · intro i htask
    rw [hquiet.task] at htask
    obtain hidle | hsame := hquiet.same
    · rw [hidle] at htask
      cases htask
    · rw [hquiet.runs, hsame]
      exact h.current i htask
  · rw [hquiet.task, hquiet.live]
    exact h.idle
  · rw [hquiet.task, hquiet.runs, hquiet.live]
    exact h.live
  · rw [hquiet.runs]
    exact h.own
  · rw [hquiet.task]
    exact hquiet.winding

/-- What a step can do: a step of a run, a change of the set, a failed keepalive, or the
lifecycle. -/
theorem step_cases (h : Owned s) (op : System.Op) : (∃ i answer, op = .run i answer) ∨
    (∃ subscriptions, op = .updateSubscriptions subscriptions) ∨
    (∃ failure stream, op = .keepaliveDidFail failure stream) ∨
    Quiet s (s.step op) ∨ TornDown s (s.step op) ∨ Spawned s (s.step op) := by
  have hsame : ∀ t : System, t.runs = s.runs → t.session = s.session → t.winding = s.winding →
      Quiet s t := by
    intro t hruns hsession hwinding
    refine ⟨hruns, by rw [hsession], by rw [hsession], .inr hsession, ?_, by rw [hsession], ?_⟩
    · rw [hwinding]
      exact h.winding
    · unfold InHand
      rw [hsession, hwinding]
      exact fun _ => id
  cases op with
  | run i answer => exact .inl ⟨i, answer, rfl⟩
  | updateSubscriptions subscriptions => exact .inr (.inl ⟨subscriptions, rfl⟩)
  | keepaliveDidFail failure stream => exact .inr (.inr (.inl ⟨failure, stream, rfl⟩))
  | enqueue transition => exact .inr (.inr (.inr (.inl (hsame _ rfl rfl rfl))))
  | updateDone => exact .inr (.inr (.inr (.inl (hsame _ rfl rfl rfl))))
  | windDown =>
    obtain hquiet | hspawned := windDownStep_cases h
    · exact .inr (.inr (.inr (.inl hquiet)))
    · exact .inr (.inr (.inr (.inr (.inr hspawned))))
  | transition =>
    simp only [System.step]
    split
    next transition rest hwinding _ =>
      have hrest : Owned { s with lifecycle := rest } :=
        ⟨h.ids, h.task, h.current, h.idle, h.live, h.own, h.winding⟩
      obtain hnone | htorn | hspawned := transition_cases hrest hwinding transition
      · rw [hnone]
        exact .inr (.inr (.inr (.inl (hsame _ rfl rfl rfl))))
      · exact .inr (.inr (.inr (.inr (.inl ⟨htorn.task, htorn.live, htorn.runs, htorn.kept,
          htorn.next, htorn.accounts⟩))))
      · exact .inr (.inr (.inr (.inr (.inr ⟨hspawned.idle, hspawned.runs, hspawned.task,
          hspawned.phase, hspawned.live, hspawned.winding, hspawned.next, hspawned.accounts⟩))))
    next => exact .inr (.inr (.inr (.inl (hsame _ rfl rfl rfl))))

theorem owned_step (h : Owned s) (op : System.Op) : Owned (s.step op) := by
  obtain ⟨i, answer, rfl⟩ | ⟨subscriptions, rfl⟩ | ⟨failure, stream, rfl⟩ | hquiet | htorn |
    hspawned := step_cases h op
  · exact owned_run h i answer
  · simp only [System.step, System.updateSubscriptions]
    split
    · exact h
    · split
      · exact ⟨h.ids, h.task, h.current, h.idle, h.live, h.own, h.winding⟩
      · exact ⟨h.ids, h.task, h.current, h.idle, h.live, h.own, h.winding⟩
  · simp only [System.step, System.keepaliveDidFail]
    split
    · exact ⟨h.ids, h.task, h.current, h.idle, h.live, h.own, h.winding⟩
    · exact h
  · exact owned_of_quiet h hquiet
  · exact owned_of_tornDown h htorn
  · exact owned_of_spawned h hspawned

theorem owned_new (policy : ReconnectPolicy) (subscriptions : List EventSubscription) :
    Owned (.new policy subscriptions) := by
  refine ⟨?_, ?_, ?_, fun _ => rfl, ?_, ?_, fun _ => rfl⟩
  · intro i run hrun
    simp [System.new] at hrun
  · intro i run hrun
    simp [System.new] at hrun
  · intro i htask
    cases htask
  · intro i run htask
    cases htask
  · intro i run stream hrun
    simp [System.new] at hrun

/-! ### Runs of the system -/

def machine (s : System) (op : System.Op) : Option (System × Unit) := some (s.step op, ())

def isNew (s : System) : Prop := ∃ policy subscriptions, s = .new policy subscriptions

end Herden.Proofs.EventsSession
