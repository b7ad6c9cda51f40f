import Herden.Lib.Run
import Herden.Proofs.EventsSession.Owned

/-!
# `Herden.Proofs.EventsSession.Subscriptions`: the set that was asked for takes effect

`updateSubscriptions` stores its set at once and has the live stream replaced. While there is no
live stream, it relies on the next subscribe to carry the new set. A subscribe request that is
already in flight carries the old one: when it returns, its stream becomes live and nothing asks for
another. `update_overtaken` is such a run. The comment at `updateSubscriptions` promises that the
set takes effect on the next subscribe while there is no stream.

`KeepsRequest` excludes an update that changes the set while the request of the current activation
is in flight. `requested_set_is_installed` is about every run whose updates meet it: the live stream
has the current set, unless its replacement is requested. The invariant is `SetAt` at the place of
the current run.
-/

namespace Herden.Proofs.EventsSession

open Herden.Lib (Reachable runAll guarded)
open Herden.App.Events
open Herden.App.EventsSession

/-- With no call in progress and no replacement requested, the live stream has the current set. -/
def Installed (s : System) : Prop :=
  ∀ stream, s.session.liveStream = some stream → s.session.resubscribeRequested = false →
    s.updatesInProgress = 0 → stream.subscriptions = s.session.subscriptions

/-- An update that changes the set does not come while the subscribe request of the current
activation is in flight. -/
def KeepsRequest (s : System) : System.Op → Prop
  | .updateSubscriptions subscriptions => s.session.subscriptions = subscriptions ∨
    ∀ (i : Nat) (run : Run) transport carried, s.session.runTask = some i →
      s.runs[i]? = some run → run.pc ≠ .subscribing transport carried
  | _ => True

/-- The current run's request or stream has the current set. -/
def CarriesSet (s : System) : Prop :=
  ∀ (i : Nat) (run : Run), s.session.runTask = some i → s.runs[i]? = some run →
    SetAt s.session run.pc

variable {s : System}

theorem carriesSet_run (h : Owned s) (hset : CarriesSet s) (i : Nat) (answer : Session.Answer) :
    CarriesSet (s.step (.run i answer)) := by
  simp only [System.step]
  split
  next => exact hset
  next run hrun =>
    refine h.run_place hrun answer (fun session run => SetAt session run.pc) hset ?_ ?_
    · exact fun hcurrent => (runStep_kept hcurrent answer).set
    · intro hnot other hplace
      have hstale : s.session.runTask ≠ some i := fun htask =>
        absurd ((h.isCurrent_iff hrun).mpr htask) (by simp [hnot])
      have hunmoved := (runStep_stale hnot (h.stale_stream hrun hstale) answer).1
      -- another run leaves the set and the flag as they are
      unfold SetAt
      rw [hunmoved.subscriptions, hunmoved.resubscribe]
      exact hplace

theorem carriesSet_updateSubscriptions (h : Owned s) (hset : CarriesSet s)
    {subscriptions : List EventSubscription}
    (hkeeps : KeepsRequest s (.updateSubscriptions subscriptions)) :
    CarriesSet (s.step (.updateSubscriptions subscriptions)) := by
  simp only [System.step, System.updateSubscriptions]
  split
  next => exact hset
  next hchanged =>
    have hflight := hkeeps.resolve_left hchanged
    split
    next hlive =>
      intro i run htask hrun
      cases hpc : run.pc with
      | subscribing transport carried =>
        exact absurd hpc (hflight i run transport carried htask hrun)
      | streaming stream => exact .inr rfl
      | _ => trivial
    next hnone =>
      intro i run htask hrun
      have hphase := (h.current i htask).1
      cases hpc : run.pc with
      | subscribing transport carried =>
        exact absurd hpc (hflight i run transport carried htask hrun)
      | streaming stream =>
        refine absurd ⟨hphase, ?_⟩ hnone
        have hlive := h.live i run htask hrun
        rw [hpc] at hlive
        exact Option.isSome_of_eq_some hlive
      | _ => trivial

theorem carriesSet_step (h : Owned s) (hset : CarriesSet s) (op : System.Op)
    (hkeeps : KeepsRequest s op) : CarriesSet (s.step op) := by
  obtain ⟨i, answer, rfl⟩ | ⟨subscriptions, rfl⟩ | ⟨failure, stream, rfl⟩ | hquiet | htorn |
    hspawned := step_cases h op
  · exact carriesSet_run h hset i answer
  · exact carriesSet_updateSubscriptions h hset hkeeps
  · simp only [System.step, System.keepaliveDidFail]
    split
    · exact hset
    · exact hset
  · intro i run htask hrun
    rw [hquiet.task] at htask
    obtain hidle | hsame := hquiet.same
    · rw [hidle] at htask
      cases htask
    · rw [hquiet.runs] at hrun
      rw [hsame]
      exact hset i run htask hrun
  · intro i run htask
    rw [htorn.task] at htask
    cases htask
  · intro i run htask hrun
    have hlast : i = s.runs.length := Option.some.inj (htask.symm.trans hspawned.task)
    rw [hspawned.runs] at hrun
    obtain hbefore | ⟨-, rfl⟩ := getElem?_append_cases hrun
    · obtain ⟨hlt, -⟩ := List.getElem?_eq_some_iff.mp hbefore
      omega
    · trivial

/-- In every run whose updates of the set do not overtake a subscribe request of the current
activation, the live stream has the current set whenever nothing is requested or in progress. -/
theorem requested_set_is_installed {s : System} (hreach : Reachable isNew KeepsRequest machine s) :
    Installed s := by
  have hinv : Owned s ∧ CarriesSet s := by
    refine hreach.invariant (fun s => Owned s ∧ CarriesSet s) ?_ ?_
    · intro s ⟨policy, subscriptions, hnew⟩
      subst hnew
      refine ⟨owned_new policy subscriptions, ?_⟩
      intro i run htask
      cases htask
    · intro s op t answer hkeeps hstep ⟨h, hset⟩
      cases hstep
      exact ⟨owned_step h op, carriesSet_step h hset op hkeeps⟩
  obtain ⟨h, hset⟩ := hinv
  intro stream hlive hrequested _
  obtain ⟨htask, run, hrun, hpc⟩ := h.live_run hlive
  have hplace : SetAt s.session run.pc := hset stream.run run htask hrun
  rw [hpc] at hplace
  obtain hinstalled | hpending := hplace
  · exact hinstalled
  · rw [hrequested] at hpending
    cases hpending

/-! ### Runs -/

def paneSet : List EventSubscription := [.pane .agentStatusChanged ['1']]

def keepsRequest (s : System) : System.Op → Bool
  | .updateSubscriptions subscriptions => s.session.subscriptions = subscriptions ||
    s.runs.all fun run => match run.pc with
      | .subscribing _ _ => false
      | _ => true
  | _ => true

theorem keepsRequest_of_test (s : System) (op : System.Op) (htest : keepsRequest s op = true) :
    KeepsRequest s op := by
  cases op with
  | updateSubscriptions subscriptions =>
    simp only [keepsRequest, Bool.or_eq_true, decide_eq_true_eq, List.all_eq_true] at htest
    refine htest.imp id fun hall => ?_
    intro i run transport carried _ hrun hpc
    have hfree := hall run (List.mem_of_getElem? hrun)
    rw [hpc] at hfree
    cases hfree
  | _ => trivial

/-- The session connects and subscribes, the Console asks for the panes, and the stream is replaced
by one with the new set. -/
def replaced : List System.Op :=
  [.enqueue .activate, .transition, .run 0 .proceed, .run 0 .proceed, .run 0 .proceed,
    .run 0 .proceed, .updateSubscriptions paneSet, .run 0 .proceed, .updateDone,
    .run 0 (.connected true), .run 0 .proceed]

theorem requested_set_is_installed_replaced :
    ∃ s, s.session.liveStream.isSome = true ∧ s.session.resubscribeRequested = false ∧
      s.updatesInProgress = 0 ∧ s.session.subscriptions = paneSet ∧ Installed s := by
  have hrun : (runAll (guarded keepsRequest machine) (.new ⟨1, 2, 30⟩ []) replaced).any
      (fun s => decide (s.session.liveStream.isSome = true ∧
        s.session.resubscribeRequested = false ∧ s.updatesInProgress = 0 ∧
          s.session.subscriptions = paneSet)) = true := by decide +kernel
  obtain ⟨s, hsome, hends⟩ := (Option.any_eq_true _ _).mp hrun
  obtain ⟨hlive, hrequested, hprogress, hset⟩ := of_decide_eq_true hends
  exact ⟨s, hlive, hrequested, hprogress, hset, requested_set_is_installed
    (Reachable.runAll keepsRequest_of_test (.start ⟨_, _, rfl⟩) hsome)⟩

/-- The update comes while the first subscribe request is in flight. -/
def overtaken : List System.Op :=
  [.enqueue .activate, .transition, .run 0 .proceed, .run 0 .proceed, .run 0 .proceed,
    .updateSubscriptions paneSet, .run 0 .proceed]

/-- The stream is live with the empty set, and an update with the set of the panes is a no-op. -/
theorem update_overtaken : ∃ s, Reachable isNew (fun _ _ => True) machine s ∧ ¬ Installed s ∧
    s.step (.updateSubscriptions paneSet) = s := by
  have hrun : (runAll (guarded (fun _ _ => true) machine) (.new ⟨1, 2, 30⟩ []) overtaken).any
      (fun s => decide (s.session.liveStream = some ⟨0, 0, 0, []⟩ ∧
        s.session.resubscribeRequested = false ∧ s.updatesInProgress = 0 ∧
          s.session.subscriptions = paneSet ∧
            s.step (.updateSubscriptions paneSet) = s)) = true := by decide +kernel
  obtain ⟨s, hsome, hends⟩ := (Option.any_eq_true _ _).mp hrun
  obtain ⟨hlive, hrequested, hprogress, hset, hnoop⟩ := of_decide_eq_true hends
  refine ⟨s, Reachable.runAll (fun _ _ _ => trivial) (.start ⟨_, _, rfl⟩) hsome, ?_, hnoop⟩
  intro hinstalled
  have hsame := hinstalled _ hlive hrequested hprogress
  rw [hset] at hsame
  cases hsame

end Herden.Proofs.EventsSession
