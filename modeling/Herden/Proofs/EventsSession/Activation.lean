import Herden.Lib.Run
import Herden.Proofs.EventsSession.Owned

/-!
# `Herden.Proofs.EventsSession.Activation`: a stale activation leaves the current one alone

A teardown does not wait for the run it cancels, so the run's awaits can return in a later
activation. After every `await` but one the run asks whether its activation is still current. The
exception is `isConnected` in `ensureTransport`: the answer `false` removes `currentTransport`, which
by then can be the Transport of a newer activation. Nothing closes that Transport, and the newer
activation goes on without it: `late_check_drops_transport`. The comment at `run` says that a stale
run is harmless, and `windDown` relies on it.

`ChecksInTime` excludes that answer to a run that is not current. `stale_run_is_harmless` is about
every run of the system that meets it. `Tracked` is the invariant: the current run stands where its
Transport is the current one or where there is none, and every Transport is in somebody's hands.
-/

namespace Herden.Proofs.EventsSession

open Herden.Lib (Reachable runAll guarded)
open Herden.App.Events
open Herden.App.EventsSession

/-- The answer `false` of `isConnected` does not come to a run whose activation is over. -/
def ChecksInTime (s : System) : System.Op → Prop
  | .run i answer => ∀ run : Run, s.runs[i]? = some run →
    s.session.activationIsCurrent run = false → dropsTransport run.pc answer = false
  | _ => True

/-- The step changes nothing that the current activation relies on, and says nothing. -/
structure Harmless (before after : Session) : Prop where
  currentTransport : after.currentTransport = before.currentTransport
  transportGeneration : after.transportGeneration = before.transportGeneration
  liveStream : after.liveStream = before.liveStream
  yielded : after.yielded = before.yielded

/-- A Transport that `connect` returned is closed, current, or in a step that is not over. -/
def Held (s : System) (transport : Nat) : Prop :=
  InHand s transport ∨ ∃ (i : Nat) (run : Run), s.runs[i]? = some run ∧
    heldAt run.pc = some transport

structure Undisturbed (s : System) : Prop where
  stale : ∀ (i : Nat) (run : Run) answer, s.runs[i]? = some run →
    s.session.activationIsCurrent run = false → ChecksInTime s (.run i answer) →
      Harmless s.session (s.step (.run i answer)).session
  held : ∀ transport < s.session.nextTransport, Held s transport
  live : ∀ stream, s.session.liveStream = some stream →
    s.session.currentTransport = some stream.transport

structure Tracked (s : System) : Prop where
  place : ∀ (i : Nat) (run : Run), s.session.runTask = some i → s.runs[i]? = some run →
    TransportAt s.session run.pc
  held : ∀ transport < s.session.nextTransport, Held s transport

/-! ### Steps of a run -/

variable {s : System}

/-- A run that holds a Transport keeps it until it is closed or installed, and the others keep
theirs. -/
theorem held_run {i : Nat} {run : Run} (hrun : s.runs[i]? = some run)
    (hheld : ∀ transport < s.session.nextTransport, Held s transport) {after : Session × Run}
    (haccounts : ∀ t, Accounted s.session run.pc t → Accounted after.1 after.2.pc t)
    (hfresh : ∀ t, s.session.nextTransport ≤ t → t < after.1.nextTransport →
      Accounted after.1 after.2.pc t) : ∀ transport < after.1.nextTransport,
      Held { s with session := after.1, runs := s.runs.set i after.2 } transport := by
  intro transport hlt
  have hown : Accounted after.1 after.2.pc transport →
      Held { s with session := after.1, runs := s.runs.set i after.2 } transport := by
    intro haccounted
    obtain hclosed | hcurrent | hhere := haccounted
    · exact .inl (.inl hclosed)
    · exact .inl (.inr (.inl hcurrent))
    · exact .inr ⟨i, after.2, getElem?_set_same hrun, hhere⟩
  obtain hold | hnew := lt_or_ge transport s.session.nextTransport
  · obtain (hclosed | hcurrent | ⟨rest, hclosing⟩) | ⟨j, other, hother, hhere⟩ :=
      hheld transport hold
    · exact hown (haccounts transport (.inl hclosed))
    · exact hown (haccounts transport (.inr (.inl hcurrent)))
    · exact .inl (.inr (.inr ⟨rest, hclosing⟩))
    · by_cases hsame : j = i
      · subst hsame
        cases Option.some.inj (hother.symm.trans hrun)
        exact hown (haccounts transport (.inr (.inr hhere)))
      · refine .inr ⟨j, other, ?_, hhere⟩
        rw [List.getElem?_set_ne (Ne.symm hsame)]
        exact hother
  · exact hown (hfresh transport hnew hlt)

theorem tracked_run (h : Owned s) (htracked : Tracked s) (i : Nat) (answer : Session.Answer)
    (hintime : ChecksInTime s (.run i answer)) : Tracked (s.step (.run i answer)) := by
  simp only [System.step]
  split
  next => exact htracked
  next run hrun =>
    by_cases hcurrent : s.session.activationIsCurrent run = true
    · have htask := (h.isCurrent_iff hrun).mp hcurrent
      have hkept := runStep_kept hcurrent answer
      have hplace := htracked.place i run htask hrun
      refine ⟨?_, held_run hrun htracked.held (hkept.accounts hplace) hkept.fresh⟩
      refine h.run_place hrun answer (fun session run => TransportAt session run.pc)
        htracked.place ?_ ?_
      · exact fun _ => hkept.transport
      · intro hnot
        rw [hcurrent] at hnot
        cases hnot
    · have hnot : s.session.activationIsCurrent run = false := by simpa using hcurrent
      have hstale : s.session.runTask ≠ some i := fun htask =>
        hcurrent ((h.isCurrent_iff hrun).mpr htask)
      have htidy := (runStep_stale hnot (h.stale_stream hrun hstale) answer).2
        (hintime run hrun hnot)
      refine ⟨?_, held_run hrun htracked.held htidy.accounts htidy.fresh⟩
      refine h.run_place hrun answer (fun session run => TransportAt session run.pc)
        htracked.place ?_ ?_
      · exact fun hother => absurd hother hcurrent
      · intro _ other hplace
        unfold TransportAt
        rw [htidy.transport]
        exact hplace

/-! ### Every step -/

/-- The hands of the lifecycle keep what they have, and no run loses its place. -/
theorem held_of_runs {t : System} (hnext : t.session.nextTransport = s.session.nextTransport)
    (haccounts : ∀ transport, InHand s transport → InHand t transport)
    (hruns : ∀ (i : Nat) (before : Run), s.runs[i]? = some before →
      ∃ run : Run, t.runs[i]? = some run ∧ run.pc = before.pc)
    (hheld : ∀ transport < s.session.nextTransport, Held s transport) :
    ∀ transport < t.session.nextTransport, Held t transport := by
  intro transport hlt
  rw [hnext] at hlt
  obtain hhand | ⟨i, before, hbefore, hhere⟩ := hheld transport hlt
  · exact .inl (haccounts transport hhand)
  · obtain ⟨run, hrun, hpc⟩ := hruns i before hbefore
    exact .inr ⟨i, run, hrun, hpc ▸ hhere⟩

theorem tracked_step (h : Owned s) (htracked : Tracked s) (op : System.Op)
    (hintime : ChecksInTime s op) : Tracked (s.step op) := by
  obtain ⟨i, answer, rfl⟩ | ⟨subscriptions, rfl⟩ | ⟨failure, stream, rfl⟩ | hquiet | htorn |
    hspawned := step_cases h op
  · exact tracked_run h htracked i answer hintime
  · simp only [System.step, System.updateSubscriptions]
    split
    · exact htracked
    · split
      · exact ⟨htracked.place, htracked.held⟩
      · exact ⟨htracked.place, htracked.held⟩
  · simp only [System.step, System.keepaliveDidFail]
    split
    · exact ⟨htracked.place, htracked.held⟩
    · exact htracked
  · refine ⟨?_, held_of_runs hquiet.next hquiet.accounts ?_ htracked.held⟩
    · intro i run htask hrun
      rw [hquiet.task] at htask
      obtain hidle | hsame := hquiet.same
      · rw [hidle] at htask
        cases htask
      · rw [hquiet.runs] at hrun
        rw [hsame]
        exact htracked.place i run htask hrun
    · intro i before hbefore
      exact ⟨before, by rw [hquiet.runs]; exact hbefore, rfl⟩
  · refine ⟨?_, held_of_runs htorn.next htorn.accounts htorn.kept htracked.held⟩
    intro i run htask
    rw [htorn.task] at htask
    cases htask
  · refine ⟨?_, held_of_runs hspawned.next hspawned.accounts ?_ htracked.held⟩
    · intro i run htask hrun
      have hlast : i = s.runs.length := Option.some.inj (htask.symm.trans hspawned.task)
      rw [hspawned.runs] at hrun
      obtain hbefore | ⟨-, rfl⟩ := getElem?_append_cases hrun
      · obtain ⟨hlt, -⟩ := List.getElem?_eq_some_iff.mp hbefore
        omega
      · trivial
    · intro i before hbefore
      refine ⟨before, ?_, rfl⟩
      rw [hspawned.runs]
      obtain ⟨hlt, -⟩ := List.getElem?_eq_some_iff.mp hbefore
      rw [List.getElem?_append_left hlt]
      exact hbefore

/-- In every run of the system in which no stale run gets the answer `false` of `isConnected`, a
stale run changes nothing that the current activation relies on, no Transport is lost, and the live
stream is on the current Transport. -/
theorem stale_run_is_harmless {s : System} (hreach : Reachable isNew ChecksInTime machine s) :
    Undisturbed s := by
  have hinv : Owned s ∧ Tracked s := by
    refine hreach.invariant (fun s => Owned s ∧ Tracked s) ?_ ?_
    · intro s ⟨policy, subscriptions, hnew⟩
      subst hnew
      refine ⟨owned_new policy subscriptions, ⟨?_, ?_⟩⟩
      · intro i run htask
        cases htask
      · intro transport hlt
        exact absurd hlt (Nat.not_lt_zero _)
    · intro s op t answer hintime hstep ⟨h, htracked⟩
      cases hstep
      exact ⟨owned_step h op, tracked_step h htracked op hintime⟩
  obtain ⟨h, htracked⟩ := hinv
  refine ⟨?_, htracked.held, ?_⟩
  · intro i run answer hrun hnot hintime
    have hstale : s.session.runTask ≠ some i := fun htask =>
      absurd ((h.isCurrent_iff hrun).mpr htask) (by simp [hnot])
    obtain ⟨hunmoved, htidy⟩ := runStep_stale hnot (h.stale_stream hrun hstale) answer
    simp only [System.step, hrun]
    exact ⟨(htidy (hintime run hrun hnot)).transport, hunmoved.generation, hunmoved.live,
      hunmoved.yielded⟩
  · intro stream hlive
    obtain ⟨htask, run, hrun, hpc⟩ := h.live_run hlive
    have hplace : TransportAt s.session run.pc := htracked.place stream.run run htask hrun
    rw [hpc] at hplace
    exact hplace

/-! ### Runs -/

def checksInTime (s : System) : System.Op → Bool
  | .run i answer => (s.runs[i]?).all fun run =>
    s.session.activationIsCurrent run || !dropsTransport run.pc answer
  | _ => true

theorem checksInTime_of_test (s : System) (op : System.Op) (htest : checksInTime s op = true) :
    ChecksInTime s op := by
  cases op with
  | run i answer =>
    intro run hrun hnot
    simpa [checksInTime, hrun, hnot] using htest
  | _ => trivial

/-- A run connects, loses its stream and asks whether its Transport is connected. The session is
suspended and resumed meanwhile, and a second run connects. -/
def resumed : List System.Op :=
  [.enqueue .activate, .transition, .run 0 .proceed, .run 0 .proceed, .run 0 .proceed,
    .run 0 .proceed, .run 0 .proceed, .run 0 .proceed, .enqueue .deactivate, .transition, .windDown,
    .windDown, .enqueue .activate, .transition, .run 1 .proceed, .run 1 .proceed, .run 1 .proceed,
    .run 1 .proceed]

/-- The first run's question is answered with `true`. -/
theorem stale_run_is_harmless_resumed :
    ∃ (s : System) (run : Run), s.runs[0]? = some run ∧
      s.session.activationIsCurrent run = false ∧ run.pc = .checking 0 ∧
        s.session.liveStream.isSome = true ∧ ChecksInTime s (.run 0 (.connected true)) ∧
          Undisturbed s := by
  have hrun : (runAll (guarded checksInTime machine) (.new ⟨1, 2, 30⟩ []) resumed).any
      (fun s => decide (s.runs[0]? = some ⟨0, 1, true, 1, .checking 0⟩ ∧
        s.session.activationIsCurrent ⟨0, 1, true, 1, .checking 0⟩ = false ∧
          s.session.liveStream.isSome = true)) = true := by decide +kernel
  obtain ⟨s, hsome, hends⟩ := (Option.any_eq_true _ _).mp hrun
  obtain ⟨hfirst, hnot, hlive⟩ := of_decide_eq_true hends
  refine ⟨s, _, hfirst, hnot, rfl, hlive, ?_, stale_run_is_harmless
    (Reachable.runAll checksInTime_of_test (.start ⟨_, _, rfl⟩) hsome)⟩
  intro run hrun _
  cases Option.some.inj (hfirst.symm.trans hrun)
  rfl

/-- The question is answered with `false`: the first run, which is not current, removes the second
run's Transport. Nobody closes it, and the live stream goes on without a current Transport. -/
theorem late_check_drops_transport : ∃ (s : System) (run : Run),
    Reachable isNew (fun _ _ => True) machine s ∧ s.runs[0]? = some run ∧
      s.session.activationIsCurrent run = false ∧
        ¬ Harmless s.session (s.step (.run 0 (.connected false))).session ∧
          ¬ Undisturbed (s.step (.run 0 (.connected false))) ∧
            ¬ Held (s.step (.run 0 (.connected false))) 1 := by
  have hrun : (runAll (guarded (fun _ _ => true) machine) (.new ⟨1, 2, 30⟩ []) resumed).any
      (fun s => decide (s.runs[0]? = some ⟨0, 1, true, 1, .checking 0⟩ ∧
        s.session.activationIsCurrent ⟨0, 1, true, 1, .checking 0⟩ = false ∧
          s.session.currentTransport = some 1 ∧
            (s.step (.run 0 (.connected false))).session.currentTransport = none ∧
            (s.step (.run 0 (.connected false))).session.nextTransport = 2 ∧
            (s.step (.run 0 (.connected false))).session.closedTransports = [0] ∧
            (s.step (.run 0 (.connected false))).winding = none ∧
            ((s.step (.run 0 (.connected false))).runs.all
              fun run => decide (heldAt run.pc ≠ some 1)) = true)) = true := by decide +kernel
  obtain ⟨s, hsome, hends⟩ := (Option.any_eq_true _ _).mp hrun
  obtain ⟨hfirst, hnot, hbefore, hafter, hnext, hclosed, hwinding, hall⟩ :=
    of_decide_eq_true hends
  have hlost : ¬ Held (s.step (.run 0 (.connected false))) 1 := by
    intro hheld
    obtain (hmem | hcurrent | ⟨after, hclosing⟩) | ⟨i, run, hrun, hhere⟩ := hheld
    · rw [hclosed] at hmem
      simp at hmem
    · rw [hafter] at hcurrent
      cases hcurrent
    · rw [hwinding] at hclosing
      cases hclosing
    · have hother := List.all_eq_true.mp hall run (List.mem_of_getElem? hrun)
      exact of_decide_eq_true hother hhere
  refine ⟨s, _, Reachable.runAll (fun _ _ _ => trivial) (.start ⟨_, _, rfl⟩) hsome, hfirst, hnot,
    ?_, ?_, hlost⟩
  · intro hharmless
    have hsame := hharmless.currentTransport
    rw [hafter, hbefore] at hsame
    cases hsame
  · intro hundisturbed
    exact hlost (hundisturbed.held 1 (by rw [hnext]; decide))

end Herden.Proofs.EventsSession
