import Herden.Lib.Run
import Herden.App.EventsSession

/-!
# `Herden.Proofs.EventsSession.Runs`: what a run does between two awaits

Several runs of an `EventsSession` can be alive, because a teardown does not wait for the run it
cancels. Two lemmas say what one of them does in a step. `runStep_kept` is about the run of the
current activation: what was true of its place in the loop is true of its next place. Its fields
are implications, so each of the properties of a place can be carried alone. `runStep_unmoved` is
about every other run: it changes nothing that others read, but for one branch. The answer `false`
of `isConnected` removes the current Transport without asking whether the activation is still
current.
-/

namespace Herden.Proofs.EventsSession

open Herden.App.Events
open Herden.App.EventsSession

/-! ### The places of a run -/

/-- The stream that the run reads. -/
def streamAt : Pc → Option EventStream
  | .streaming stream => some stream
  | _ => none

/-- The Transport that the run is about to install or to close. -/
def heldAt : Pc → Option Nat
  | .replacing transport => some transport
  | .pinging transport => some transport
  | .discarding transport _ => some transport
  | _ => none

/-- The Transport is closed, current, or in the hands of the run. -/
def Accounted (s : Session) (pc : Pc) (transport : Nat) : Prop :=
  transport ∈ s.closedTransports ∨ s.currentTransport = some transport ∨
    heldAt pc = some transport

/-- The run of the current activation works on the current Transport, or there is none. -/
def TransportAt (s : Session) : Pc → Prop
  | .checking transport => s.currentTransport = some transport
  | .subscribing transport _ => s.currentTransport = some transport
  | .streaming stream => s.currentTransport = some stream.transport
  | .replacing _ => s.currentTransport = none
  | .connecting => s.currentTransport = none
  | .pinging _ => s.currentTransport = none
  | .discarding _ _ => s.currentTransport = none
  | _ => True

/-- A request in flight carries the current set, and so does the stream unless it is to be
replaced. -/
def SetAt (s : Session) : Pc → Prop
  | .subscribing _ subscriptions => subscriptions = s.subscriptions
  | .streaming stream => stream.subscriptions = s.subscriptions ∨ s.resubscribeRequested = true
  | _ => True

/-! ### The run of the current activation -/

/-- The fields that only a lifecycle transition changes. -/
structure Frame (s : Session) (run : Run) (after : Session × Run) : Prop where
  phase : after.1.phase = s.phase
  generation : after.1.activationGeneration = s.activationGeneration
  task : after.1.runTask = s.runTask
  runId : after.2.id = run.id
  runGeneration : after.2.generation = run.generation
  isCancelled : after.2.isCancelled = run.isCancelled

/-- The run leaves its place for the top of the loop, for a backoff, or for good. -/
structure GoesOn (s : Session) (run : Run) (after : Session × Run) : Prop where
  frame : Frame s run after
  live : after.1.liveStream = s.liveStream
  closed : after.1.closedTransports = s.closedTransports
  next : after.1.nextTransport = s.nextTransport
  stream : streamAt after.2.pc = none
  transport : TransportAt after.1 after.2.pc
  held : ∀ t, s.currentTransport = some t → Accounted after.1 after.2.pc t
  set : SetAt after.1 after.2.pc

/-- What a step keeps of the place of a run. -/
structure Kept (s : Session) (run : Run) (after : Session × Run) : Prop where
  frame : Frame s run after
  live : s.liveStream = streamAt run.pc → after.1.liveStream = streamAt after.2.pc
  own : (∀ stream, streamAt run.pc = some stream → stream.run = run.id) →
    ∀ stream, streamAt after.2.pc = some stream → stream.run = run.id
  transport : TransportAt s run.pc → TransportAt after.1 after.2.pc
  accounts : TransportAt s run.pc → ∀ t, Accounted s run.pc t → Accounted after.1 after.2.pc t
  fresh : ∀ t, s.nextTransport ≤ t → t < after.1.nextTransport → Accounted after.1 after.2.pc t
  set : SetAt s run.pc → SetAt after.1 after.2.pc

theorem activationIsCurrent_nextTransport (s : Session) (run : Run) (next : Nat) :
    { s with nextTransport := next }.activationIsCurrent run = s.activationIsCurrent run := rfl

theorem activationIsCurrent_nextStream (s : Session) (run : Run) (next : Nat) :
    { s with nextStream := next }.activationIsCurrent run = s.activationIsCurrent run := rfl

theorem dropPaneSubscriptions_cases (s : Session) :
    s.dropPaneSubscriptions.1 = s ∨
      s.dropPaneSubscriptions.1
        = { s with subscriptions := s.subscriptions.filter Session.isGlobal } := by
  unfold Session.dropPaneSubscriptions
  dsimp only
  split
  · exact .inl rfl
  · exact .inr rfl

variable {run : Run} {s before : Session} {after : Session × Run} {stream : EventStream} {pc : Pc}

theorem loop_goesOn (hcurrent : s.activationIsCurrent run = true) : GoesOn s run (s.loop run) := by
  unfold Session.loop
  rw [if_neg (by simp [hcurrent])]
  split
  next hnone =>
    exact ⟨⟨rfl, rfl, rfl, rfl, rfl, rfl⟩, rfl, rfl, rfl, rfl, hnone,
      fun t ht => .inr (.inl ht), trivial⟩
  next transport hsome =>
    split
    · refine ⟨⟨rfl, rfl, rfl, rfl, rfl, rfl⟩, rfl, rfl, rfl, rfl, rfl, ?_, trivial⟩
      intro t ht
      exact .inr (.inr (hsome.symm.trans ht))
    · exact ⟨⟨rfl, rfl, rfl, rfl, rfl, rfl⟩, rfl, rfl, rfl, rfl, hsome,
        fun t ht => .inr (.inl ht), trivial⟩

theorem recover_goesOn (s : Session) (run : Run) (failure : TransportError) :
    GoesOn s run (s.recover run failure) := by
  unfold Session.recover
  split
  · exact ⟨⟨rfl, rfl, rfl, rfl, rfl, rfl⟩, rfl, rfl, rfl, rfl, trivial,
      fun t ht => .inr (.inl ht), trivial⟩
  · obtain hsame | hdropped := dropPaneSubscriptions_cases s
    · rw [hsame]
      exact ⟨⟨rfl, rfl, rfl, rfl, rfl, rfl⟩, rfl, rfl, rfl, rfl, trivial,
        fun t ht => .inr (.inl ht), trivial⟩
    · rw [hdropped]
      exact ⟨⟨rfl, rfl, rfl, rfl, rfl, rfl⟩, rfl, rfl, rfl, rfl, trivial,
        fun t ht => .inr (.inl ht), trivial⟩

/-- The fields that `GoesOn` reads of the state before. -/
structure Alike (s before : Session) : Prop where
  phase : before.phase = s.phase
  generation : before.activationGeneration = s.activationGeneration
  task : before.runTask = s.runTask
  live : before.liveStream = s.liveStream
  closed : before.closedTransports = s.closedTransports
  next : before.nextTransport = s.nextTransport
  transport : before.currentTransport = s.currentTransport

theorem GoesOn.of_alike (hgoes : GoesOn before run after) (halike : Alike s before) :
    GoesOn s run after where
  frame := ⟨hgoes.frame.phase.trans halike.phase, hgoes.frame.generation.trans halike.generation,
    hgoes.frame.task.trans halike.task, hgoes.frame.runId, hgoes.frame.runGeneration,
    hgoes.frame.isCancelled⟩
  live := hgoes.live.trans halike.live
  closed := hgoes.closed.trans halike.closed
  next := hgoes.next.trans halike.next
  stream := hgoes.stream
  transport := hgoes.transport
  held := fun t ht => hgoes.held t (halike.transport.trans ht)
  set := hgoes.set

theorem failed_goesOn (hcurrent : s.activationIsCurrent run = true) (failure : TransportError) :
    GoesOn s run (s.failed run failure) := by
  unfold Session.failed
  rw [if_neg (by simp [hcurrent])]
  dsimp only
  have hsuspect : Alike s
      (if failure = .timedOut then { s with transportSuspect := true } else s) := by
    split
    · exact ⟨rfl, rfl, rfl, rfl, rfl, rfl, rfl⟩
    · exact ⟨rfl, rfl, rfl, rfl, rfl, rfl, rfl⟩
  generalize (if failure = .timedOut then { s with transportSuspect := true } else s) = suspected
    at hsuspect ⊢
  split
  next =>
    have hdropped : Alike s suspected.dropPaneSubscriptions.1 := by
      obtain hsame | hfiltered := dropPaneSubscriptions_cases suspected
      · rw [hsame]
        exact hsuspect
      · rw [hfiltered]
        exact ⟨hsuspect.phase, hsuspect.generation, hsuspect.task, hsuspect.live,
          hsuspect.closed, hsuspect.next, hsuspect.transport⟩
    refine (loop_goesOn ?_).of_alike hdropped
    unfold Session.activationIsCurrent at *
    rw [hdropped.phase, hdropped.generation]
    exact hcurrent
  next => exact (recover_goesOn suspected run failure).of_alike hsuspect

theorem streamDone_goesOn (hcurrent : s.activationIsCurrent run = true)
    (failure : Option TransportError) :
    GoesOn (if s.liveStream = some stream then { s with liveStream := none } else s) run
      (s.streamDone run stream failure) := by
  unfold Session.streamDone
  dsimp only
  have hkept : (if s.liveStream = some stream then
      { s with liveStream := none } else s).activationIsCurrent run = true := by
    split
    · exact hcurrent
    · exact hcurrent
  generalize (if s.liveStream = some stream then { s with liveStream := none } else s) = ended
    at hkept ⊢
  rw [if_neg (by simp [hkept])]
  split
  · exact (loop_goesOn (s := { ended with resubscribeRequested := false }) hkept).of_alike
      ⟨rfl, rfl, rfl, rfl, rfl, rfl, rfl⟩
  · exact (recover_goesOn { ended with pendingKeepaliveFailure := none } run _).of_alike
      ⟨rfl, rfl, rfl, rfl, rfl, rfl, rfl⟩

/-- A run that goes on keeps its place. `before` is the state after the work it had to do first:
end its stream, close the Transport it held. -/
theorem GoesOn.kept (hgoes : GoesOn before run after)
    (hframe : before.phase = s.phase ∧ before.activationGeneration = s.activationGeneration ∧
      before.runTask = s.runTask)
    (hlive : s.liveStream = streamAt run.pc → before.liveStream = none)
    (htransport : before.currentTransport = s.currentTransport)
    (hnext : before.nextTransport = s.nextTransport)
    (hclosed : ∀ t, t ∈ s.closedTransports ∨ heldAt run.pc = some t →
      t ∈ before.closedTransports) : Kept s run after where
  frame := ⟨hgoes.frame.phase.trans hframe.1, hgoes.frame.generation.trans hframe.2.1,
    hgoes.frame.task.trans hframe.2.2, hgoes.frame.runId, hgoes.frame.runGeneration,
    hgoes.frame.isCancelled⟩
  live := fun hplace => by rw [hgoes.live, hgoes.stream, hlive hplace]
  own := fun _ stream hstream => by
    rw [hgoes.stream] at hstream
    cases hstream
  transport := fun _ => hgoes.transport
  accounts := by
    intro _ t haccounted
    obtain hmem | hcurrent | hheld := haccounted
    · exact .inl (hgoes.closed ▸ hclosed t (.inl hmem))
    · exact hgoes.held t (htransport.trans hcurrent)
    · exact .inl (hgoes.closed ▸ hclosed t (.inr hheld))
  fresh := by
    intro t hle hlt
    rw [hgoes.next, hnext] at hlt
    exact absurd hlt (not_lt.mpr hle)
  set := fun _ => hgoes.set

/-- The case of a run that had nothing to do first. -/
theorem GoesOn.kept_of_free (hgoes : GoesOn s run after) (hstream : streamAt run.pc = none)
    (hheld : heldAt run.pc = none) : Kept s run after := by
  refine hgoes.kept ⟨rfl, rfl, rfl⟩ (fun hplace => hplace.trans hstream) rfl rfl ?_
  intro t ht
  obtain hmem | hother := ht
  · exact hmem
  · rw [hheld] at hother
    cases hother

theorem streamDone_kept (hcurrent : s.activationIsCurrent run = true)
    (hpc : run.pc = .streaming stream) (failure : Option TransportError) :
    Kept s run (s.streamDone run stream failure) := by
  have hgoes : GoesOn (if s.liveStream = some stream then { s with liveStream := none } else s) run
      (s.streamDone run stream failure) := streamDone_goesOn hcurrent failure
  have hclosed : ∀ t, t ∈ s.closedTransports ∨ heldAt run.pc = some t →
      t ∈ s.closedTransports := by
    intro t ht
    rw [hpc] at ht
    exact ht.resolve_right (by simp [heldAt])
  split at hgoes
  next => exact hgoes.kept ⟨rfl, rfl, rfl⟩ (fun _ => rfl) rfl rfl hclosed
  next hother =>
    refine hgoes.kept ⟨rfl, rfl, rfl⟩ (fun hplace => ?_) rfl rfl hclosed
    rw [hpc] at hplace
    exact absurd hplace hother

variable {transport : Nat}

/-- A run that asks for its stream, on a Transport that is current. -/
theorem subscribe_kept (hcurrent : before.activationIsCurrent run = true)
    (hframe : before.phase = s.phase ∧ before.activationGeneration = s.activationGeneration ∧
      before.runTask = s.runTask) (hlive : before.liveStream = s.liveStream)
    (hstream : streamAt run.pc = none) (hnext : before.nextTransport = s.nextTransport)
    (htransport : TransportAt s run.pc → before.currentTransport = some transport)
    (haccounts : TransportAt s run.pc → ∀ t, Accounted s run.pc t →
      t ∈ before.closedTransports ∨ before.currentTransport = some t) :
    Kept s run (before.subscribe run transport) := by
  unfold Session.subscribe
  rw [if_neg (by simp [hcurrent])]
  exact
    { frame := ⟨hframe.1, hframe.2.1, hframe.2.2, rfl, rfl, rfl⟩
      live := fun hplace => hlive.trans (hplace.trans hstream)
      own := fun _ stream hstream => by cases hstream
      transport := htransport
      accounts := fun hplace t ht => (haccounts hplace t ht).imp id .inl
      fresh := fun t hle hlt => absurd (hnext ▸ hlt) (not_lt.mpr hle)
      set := fun _ => rfl }

/-- A step between two places without a stream. -/
theorem kept_of_quiet (hpc : run.pc = pc) (hframe : Frame s run after)
    (hlive : after.1.liveStream = s.liveStream) (hfrom : streamAt pc = none)
    (hto : streamAt after.2.pc = none)
    (htransport : TransportAt s pc → TransportAt after.1 after.2.pc)
    (haccounts : TransportAt s pc → ∀ t, Accounted s pc t → Accounted after.1 after.2.pc t)
    (hnext : after.1.nextTransport = s.nextTransport) (hset : SetAt after.1 after.2.pc) :
    Kept s run after := by
  subst hpc
  refine ⟨hframe, ?_, ?_, htransport, haccounts, ?_, fun _ => hset⟩
  · intro hplace
    rw [hlive, hto, hplace, hfrom]
  · intro _ stream hstream
    rw [hto] at hstream
    cases hstream
  · intro t hle hlt
    rw [hnext] at hlt
    exact absurd hlt (not_lt.mpr hle)

/-- A connect has returned: the new Transport is in the hands of the run. -/
theorem connected_kept (hpc : run.pc = .connecting) :
    Kept s run ({ s with nextTransport := s.nextTransport + 1 },
      { run with pc := .pinging s.nextTransport }) := by
  refine ⟨⟨rfl, rfl, rfl, rfl, rfl, rfl⟩, ?_, ?_, ?_, ?_, ?_, fun _ => trivial⟩
  · rw [hpc]
    exact id
  · intro _ stream hstream
    cases hstream
  · rw [hpc]
    exact id
  · intro _ t ht
    rw [hpc] at ht
    exact ht.imp id fun hother => .inl (hother.resolve_right (by simp [heldAt]))
  · intro t hle hlt
    have hfresh : s.nextTransport = t := le_antisymm hle (Nat.lt_succ_iff.mp hlt)
    exact .inr (.inr (congrArg some hfresh))

/-- A stream has been opened: it becomes the live one. -/
theorem subscribed_kept {subscriptions : List EventSubscription}
    (hpc : run.pc = .subscribing transport subscriptions)
    (hstream : stream = ⟨s.nextStream, run.id, transport, subscriptions⟩) : Kept s run
      ({ s with
          nextStream := s.nextStream + 1
          liveStream := some stream
          pendingKeepaliveFailure := none }.yieldUpdate (.status .connected),
        { run with attempt := 0, pc := .streaming stream }) := by
  refine ⟨⟨rfl, rfl, rfl, rfl, rfl, rfl⟩, fun _ => rfl, ?_, ?_, ?_, ?_, ?_⟩
  · intro _ other hother
    cases hother
    rw [hstream]
  · intro hplace
    rw [hpc] at hplace
    rw [hstream]
    exact hplace
  · intro _ t ht
    rw [hpc] at ht
    exact ht
  · exact fun t hle hlt => absurd hlt (not_lt.mpr hle)
  · intro hplace
    rw [hpc] at hplace
    rw [hstream]
    exact .inl hplace

/-- A step of the run of the current activation. -/
theorem runStep_kept (hcurrent : s.activationIsCurrent run = true) (answer : Session.Answer) :
    Kept s run (s.runStep run run.pc answer) := by
  generalize hpc : run.pc = pc
  unfold Session.runStep
  split
  next => exact (loop_goesOn hcurrent).kept_of_free (by rw [hpc]; rfl) (by rw [hpc]; rfl)
  next transport isConnected =>
    split
    · refine subscribe_kept hcurrent ⟨rfl, rfl, rfl⟩ rfl (by rw [hpc]; rfl) rfl ?_ ?_
      · rw [hpc]
        exact id
      · intro _ t ht
        rw [hpc] at ht
        exact ht.imp id fun hother => hother.resolve_right (by simp [heldAt])
    · -- the answer is `false`: the current Transport is the one that the run is about to close
      refine kept_of_quiet hpc ⟨rfl, rfl, rfl, rfl, rfl, rfl⟩ rfl rfl rfl (fun _ => rfl) ?_ rfl
        trivial
      intro hplace t ht
      obtain hmem | hother | hheld := ht
      · exact .inl hmem
      · exact .inr (.inr (hplace.symm.trans hother))
      · cases hheld
  next transport =>
    refine kept_of_quiet hpc ⟨rfl, rfl, rfl, rfl, rfl, rfl⟩ rfl rfl rfl id ?_ rfl trivial
    intro _ t ht
    obtain hmem | hother | hheld := ht
    · exact .inl (List.mem_cons_of_mem _ hmem)
    · exact .inr (.inl hother)
    · cases hheld
      exact .inl List.mem_cons_self
  next failure =>
    exact (failed_goesOn hcurrent failure).kept_of_free (by rw [hpc]; rfl) (by rw [hpc]; rfl)
  next =>
    dsimp only
    rw [activationIsCurrent_nextTransport, if_pos hcurrent]
    exact connected_kept hpc
  next transport failure =>
    exact kept_of_quiet hpc ⟨rfl, rfl, rfl, rfl, rfl, rfl⟩ rfl rfl rfl id (fun _ t ht => ht) rfl
      trivial
  next transport =>
    rw [if_pos hcurrent]
    refine subscribe_kept hcurrent ⟨rfl, rfl, rfl⟩ rfl (by rw [hpc]; rfl) rfl (fun _ => rfl) ?_
    intro hplace t ht
    rw [hpc] at hplace ht
    obtain hmem | hother | hheld := ht
    · exact .inl hmem
    · exact absurd (hplace.symm.trans hother) (by simp)
    · exact .inr hheld
  next transport failure =>
    refine (failed_goesOn (s := s.closed transport) hcurrent failure).kept ⟨rfl, rfl, rfl⟩ ?_
      rfl rfl ?_
    · rw [hpc]
      exact id
    · intro t ht
      rw [hpc] at ht
      obtain hmem | hheld := ht
      · exact List.mem_cons_of_mem _ hmem
      · cases hheld
        exact List.mem_cons_self
  next failure =>
    exact (failed_goesOn hcurrent failure).kept_of_free (by rw [hpc]; rfl) (by rw [hpc]; rfl)
  next transport subscriptions =>
    dsimp only
    rw [activationIsCurrent_nextStream, if_neg (not_not.mpr hcurrent)]
    exact subscribed_kept hpc rfl
  next stream =>
    exact kept_of_quiet hpc ⟨rfl, rfl, rfl, rfl, rfl, rfl⟩ rfl rfl rfl (fun _ => trivial)
      (fun _ t ht => ht) rfl trivial
  next stream event =>
    rw [if_pos hcurrent]
    refine ⟨⟨rfl, rfl, rfl, rfl, rfl, rfl⟩, id, id, ?_, ?_, ?_, ?_⟩
    · rw [hpc]
      exact id
    · rw [hpc]
      exact fun _ t ht => ht
    · exact fun t hle hlt => absurd hlt (not_lt.mpr hle)
    · rw [hpc]
      exact id
  next stream => exact streamDone_kept hcurrent hpc none
  next stream failure => exact streamDone_kept hcurrent hpc (some failure)
  next => exact (loop_goesOn hcurrent).kept_of_free (by rw [hpc]; rfl) (by rw [hpc]; rfl)
  next =>
    exact ⟨⟨rfl, rfl, rfl, rfl, rfl, rfl⟩, id, id, id, fun _ t ht => ht,
      fun t hle hlt => absurd hlt (not_lt.mpr hle), id⟩

/-! ### The other runs -/

/-- What a run of another activation leaves as it is. -/
structure Unmoved (s : Session) (run : Run) (after : Session × Run) : Prop where
  frame : Frame s run after
  live : after.1.liveStream = s.liveStream
  subscriptions : after.1.subscriptions = s.subscriptions
  resubscribe : after.1.resubscribeRequested = s.resubscribeRequested
  generation : after.1.transportGeneration = s.transportGeneration
  yielded : after.1.yielded = s.yielded
  own : (∀ stream, streamAt run.pc = some stream → stream.run = run.id) →
    ∀ stream, streamAt after.2.pc = some stream → stream.run = run.id

/-- What it does to the Transports: it closes the one it holds, and closes the one it gets. -/
structure Tidy (s : Session) (run : Run) (after : Session × Run) : Prop where
  transport : after.1.currentTransport = s.currentTransport
  accounts : ∀ t, Accounted s run.pc t → Accounted after.1 after.2.pc t
  fresh : ∀ t, s.nextTransport ≤ t → t < after.1.nextTransport → Accounted after.1 after.2.pc t

/-- The branch of `ensureTransport` that removes the current Transport without a check of the
activation. -/
def dropsTransport : Pc → Session.Answer → Bool
  | .checking _, .connected false => true
  | _, _ => false

/-- The next place when nothing but the place changes. -/
theorem unmoved_of_pc (hto : streamAt pc = none) : Unmoved s run (s, { run with pc := pc }) :=
  ⟨⟨rfl, rfl, rfl, rfl, rfl, rfl⟩, rfl, rfl, rfl, rfl, rfl, fun _ stream hstream => by
    rw [hto] at hstream
    cases hstream⟩

theorem tidy_of_pc (hheld : heldAt run.pc = none ∨ heldAt pc = heldAt run.pc) :
    Tidy s run (s, { run with pc := pc }) := by
  refine ⟨rfl, ?_, fun t hle hlt => absurd hlt (not_lt.mpr hle)⟩
  intro t ht
  obtain hmem | hother | hhere := ht
  · exact .inl hmem
  · exact .inr (.inl hother)
  · obtain hnone | hsame := hheld
    · rw [hnone] at hhere
      cases hhere
    · exact .inr (.inr (hsame.trans hhere))

section Stale

variable {s : Session} {run : Run} (hstale : s.activationIsCurrent run = false)

include hstale

theorem loop_stale : s.loop run = (s, { run with pc := .finished }) := by
  simp [Session.loop, hstale]

theorem subscribe_stale (transport : Nat) :
    s.subscribe run transport = (s, { run with pc := .finished }) := by
  simp [Session.subscribe, hstale]

theorem failed_stale (failure : TransportError) :
    s.failed run failure = (s, { run with pc := .finished }) := by
  simp [Session.failed, hstale]

theorem streamDone_stale {stream : EventStream} (hother : s.liveStream ≠ some stream)
    (failure : Option TransportError) :
    s.streamDone run stream failure = (s, { run with pc := .finished }) := by
  simp [Session.streamDone, hother, hstale]

/-- A step of a run of another activation. -/
theorem runStep_stale
    (hother : ∀ stream, streamAt run.pc = some stream → s.liveStream ≠ some stream)
    (answer : Session.Answer) :
    Unmoved s run (s.runStep run run.pc answer) ∧
      (dropsTransport run.pc answer = false → Tidy s run (s.runStep run run.pc answer)) := by
  have hnot : ¬ s.activationIsCurrent run = true := by simp [hstale]
  generalize hpc : run.pc = pc at hother
  unfold Session.runStep
  split
  next =>
    rw [loop_stale hstale]
    exact ⟨unmoved_of_pc rfl, fun _ => tidy_of_pc (.inl (by rw [hpc]; rfl))⟩
  next transport isConnected =>
    split
    · rw [subscribe_stale hstale]
      exact ⟨unmoved_of_pc rfl, fun _ => tidy_of_pc (.inl (by rw [hpc]; rfl))⟩
    next hfalse =>
      refine ⟨⟨⟨rfl, rfl, rfl, rfl, rfl, rfl⟩, rfl, rfl, rfl, rfl, rfl, ?_⟩, ?_⟩
      · intro _ stream hstream
        cases hstream
      · intro hdrops
        have hanswer : isConnected = false := by simpa using hfalse
        subst hanswer
        cases hdrops
  next transport =>
    refine ⟨⟨⟨rfl, rfl, rfl, rfl, rfl, rfl⟩, rfl, rfl, rfl, rfl, rfl, ?_⟩, fun _ => ⟨rfl, ?_, ?_⟩⟩
    · intro _ stream hstream
      cases hstream
    · intro t ht
      rw [hpc] at ht
      obtain hmem | hcurrent | hheld := ht
      · exact .inl (List.mem_cons_of_mem _ hmem)
      · exact .inr (.inl hcurrent)
      · cases hheld
        exact .inl List.mem_cons_self
    · exact fun t hle hlt => absurd hlt (not_lt.mpr hle)
  next failure =>
    rw [failed_stale hstale]
    exact ⟨unmoved_of_pc rfl, fun _ => tidy_of_pc (.inl (by rw [hpc]; rfl))⟩
  next =>
    -- a Transport that comes too late is closed at once
    dsimp only
    rw [activationIsCurrent_nextTransport, if_neg hnot]
    refine ⟨⟨⟨rfl, rfl, rfl, rfl, rfl, rfl⟩, rfl, rfl, rfl, rfl, rfl, ?_⟩, fun _ => ⟨rfl, ?_, ?_⟩⟩
    · intro _ stream hstream
      cases hstream
    · intro t ht
      rw [hpc] at ht
      exact ht.imp id fun hrest => .inl (hrest.resolve_right (by simp [heldAt]))
    · intro t hle hlt
      have hfresh : s.nextTransport = t := le_antisymm hle (Nat.lt_succ_iff.mp hlt)
      exact .inr (.inr (congrArg some hfresh))
  next transport failure =>
    exact ⟨unmoved_of_pc rfl, fun _ => tidy_of_pc (.inr (by rw [hpc]; rfl))⟩
  next transport =>
    rw [if_neg hnot]
    exact ⟨unmoved_of_pc rfl, fun _ => tidy_of_pc (.inr (by rw [hpc]; rfl))⟩
  next transport failure =>
    rw [failed_stale (s := s.closed transport) hstale]
    refine ⟨⟨⟨rfl, rfl, rfl, rfl, rfl, rfl⟩, rfl, rfl, rfl, rfl, rfl, ?_⟩, fun _ => ⟨rfl, ?_, ?_⟩⟩
    · intro _ stream hstream
      cases hstream
    · intro t ht
      rw [hpc] at ht
      obtain hmem | hcurrent | hheld := ht
      · exact .inl (List.mem_cons_of_mem _ hmem)
      · exact .inr (.inl hcurrent)
      · cases hheld
        exact .inl List.mem_cons_self
    · exact fun t hle hlt => absurd hlt (not_lt.mpr hle)
  next failure =>
    rw [failed_stale hstale]
    exact ⟨unmoved_of_pc rfl, fun _ => tidy_of_pc (.inl (by rw [hpc]; rfl))⟩
  next transport subscriptions =>
    dsimp only
    rw [activationIsCurrent_nextStream, if_pos hnot]
    refine ⟨⟨⟨rfl, rfl, rfl, rfl, rfl, rfl⟩, rfl, rfl, rfl, rfl, rfl, ?_⟩, fun _ => ⟨rfl, ?_, ?_⟩⟩
    · intro _ stream hstream
      cases hstream
    · intro t ht
      rw [hpc] at ht
      exact ht
    · exact fun t hle hlt => absurd hlt (not_lt.mpr hle)
  next stream => exact ⟨unmoved_of_pc rfl, fun _ => tidy_of_pc (.inl (by rw [hpc]; rfl))⟩
  next stream event =>
    rw [if_neg hnot, streamDone_stale hstale (hother stream rfl)]
    exact ⟨unmoved_of_pc rfl, fun _ => tidy_of_pc (.inl (by rw [hpc]; rfl))⟩
  next stream =>
    rw [streamDone_stale hstale (hother stream rfl)]
    exact ⟨unmoved_of_pc rfl, fun _ => tidy_of_pc (.inl (by rw [hpc]; rfl))⟩
  next stream failure =>
    rw [streamDone_stale hstale (hother stream rfl)]
    exact ⟨unmoved_of_pc rfl, fun _ => tidy_of_pc (.inl (by rw [hpc]; rfl))⟩
  next =>
    rw [loop_stale hstale]
    exact ⟨unmoved_of_pc rfl, fun _ => tidy_of_pc (.inl (by rw [hpc]; rfl))⟩
  next =>
    refine ⟨⟨⟨rfl, rfl, rfl, rfl, rfl, rfl⟩, rfl, rfl, rfl, rfl, rfl, id⟩, fun _ => ⟨rfl, ?_, ?_⟩⟩
    · exact fun t ht => ht
    · exact fun t hle hlt => absurd hlt (not_lt.mpr hle)

end Stale

end Herden.Proofs.EventsSession
