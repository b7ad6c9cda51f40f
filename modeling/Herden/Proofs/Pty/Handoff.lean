import Herden.Lib.Run
import Herden.Runtime.Pty.Actor

/-!
# `Herden.Proofs.Pty.Handoff`: the gate for user writes and the state of the actor

The gate and the state of the actor are changed by two threads. `View` is the part of the state that
the handoff depends on, and `Move` lists what a step of the actor does to it (`act_move`). Commands
are handled in the order they were sent, so a rollback that was answered leaves no `BeginHandoff`
anywhere (`Rolled`). This gives one direction in every run: the gate is only open when the actor is
running (`Ctl.gate`).

The other direction is lost when nobody waits for a rollback: the actor handles it later and runs
again, and the gate stays closed. In a run in which every rollback that finds the gate closed is
waited for, the gate follows the actor (`gate_follows_actor`).
-/

namespace Herden.Proofs.Pty.Handoff

open Herden.Lib
open Herden.Runtime.Pty.Actor

/-! ### What the handoff depends on -/

structure View where
  accepting : Bool
  caller : Caller
  nextReply : Nat
  queue : List PtyIoControlCommand
  pending : Option Nat
  pc : Pc
  replies : List (Nat × IoResult)
  state : ActorState

def view (s : State) : View :=
  ⟨s.accepting, s.caller, s.nextReply, s.controlQueue, s.pendingHandoff, s.pc, s.replies, s.state⟩

theorem view_enqueueWrite (chunk : Chunk) (s : State) : view (enqueueWrite chunk s) = view s := by
  unfold enqueueWrite
  dsimp only
  split
  · rfl
  · rfl

theorem view_enqueueAll (terminalResponses : List Bytes) (s : State) :
    view (terminalResponses.foldl (fun s bytes => enqueueWrite (.response bytes) s) s)
        = view s := by
  induction terminalResponses generalizing s with
  | nil => rfl
  | cons bytes rest ih => rw [List.foldl_cons, ih, view_enqueueWrite]

theorem view_enqueueTerminalResponses (terminalResponses : List Bytes) (s : State) :
    view (enqueueTerminalResponses terminalResponses s) = view s := by
  unfold enqueueTerminalResponses
  split
  · rfl
  · exact view_enqueueAll terminalResponses s

theorem view_applyPendingControls (s : State) : view (applyPendingControls s) = view s := by
  unfold applyPendingControls
  dsimp only
  split
  · rfl
  · rw [view_enqueueTerminalResponses]
    split
    · rfl
    · rw [view_enqueueTerminalResponses]
      rfl

theorem view_handleDataCommand (now : Nat) (command : PtyIoDataCommand) (s : State) :
    view (handleDataCommand now command s) = view s := by
  unfold handleDataCommand
  split
  · split
    · exact view_enqueueWrite _ s
    · rfl
  · split
    · exact view_enqueueWrite _ s
    · rfl

theorem view_completeSubmissionBoundary (now : Nat) (boundary : SubmissionBoundary) (s : State) :
    view (completeSubmissionBoundary now boundary s) = view s := by
  unfold completeSubmissionBoundary
  split
  · rfl
  · rfl
  · rfl

theorem view_scheduleSubmissionEnter (now : Nat) (s : State) :
    view (scheduleSubmissionEnter now s) = view s := by
  unfold scheduleSubmissionEnter
  split
  · split
    · dsimp only
      split
      · exact view_enqueueWrite _ s
      · exact view_enqueueWrite _ s
    · rfl
  · rfl

theorem view_failActiveSubmission (error : IoError) (s : State) :
    view (failActiveSubmission error s) = view s := by
  unfold failActiveSubmission
  split
  · rfl
  · rfl

theorem view_flushPendingWrites (result : WriteResult) (s : State) :
    view (flushPendingWrites result s).2 = view s := by
  unfold flushPendingWrites
  split
  · rfl
  · dsimp only
    split
    · rfl
    · split
      · split
        · rfl
        · rfl
      · rfl
    · rfl
    · rfl
    · rfl

/-! ### The steps of the actor -/

/-- The reply of the `BeginHandoff` that the actor is at. -/
def handling : Pc → Option Nat
  | .defer reply _ => some reply
  | .begin reply _ => some reply
  | .beginControls reply _ => some reply
  | .beginPoll handoff => some handoff.reply
  | .flush (.handoff handoff) => some handoff.reply
  | .read (.handoff handoff) _ => some handoff.reply
  | .readTake (.handoff handoff) _ => some handoff.reply
  | _ => none

theorem handling_next (site : Site) : handling site.next = none := by
  cases site with
  | handleControlCommand => rfl
  | drainCommands => rfl

/-- What one step of the actor does to the handoff. -/
inductive Move : View → View → Prop where
  | walk (v : View) (pc : Pc) (h : handling pc = handling v.pc) : Move v { v with pc := pc }
  /-- A `BeginHandoff` is taken up. -/
  | take (v : View) (reply : Nat) (rest : List PtyIoControlCommand) (pc : Pc)
      (hqueue : v.queue = .beginHandoff reply :: rest) (hbefore : handling v.pc = none)
      (h : handling pc = some reply) : Move v { v with queue := rest, pc := pc }
  /-- It is put off at once. -/
  | delay (v : View) (reply : Nat) (rest : List PtyIoControlCommand) (pc : Pc)
      (hqueue : v.queue = .beginHandoff reply :: rest) (hbefore : handling v.pc = none)
      (h : handling pc = none) :
      Move v { v with queue := rest, pending := some reply, pc := pc }
  | skip (v : View) (command : PtyIoControlCommand) (rest : List PtyIoControlCommand)
      (hqueue : v.queue = command :: rest)
      (h : command = .duplicateForHandoff ∨ command = .foregroundProcessGroup) :
      Move v { v with queue := rest }
  | rollback (v : View) (reply : Nat) (rest : List PtyIoControlCommand)
      (hqueue : v.queue = .rollbackHandoff reply :: rest) (hbefore : handling v.pc = none)
      (hstate : v.state ≠ .released) :
      Move v { v with
        queue := rest, pending := none, state := .running, replies := v.replies ++ [(reply, none)] }
  /-- The actor is released or shut down. -/
  | stop (v after : View) (command : PtyIoControlCommand) (rest : List PtyIoControlCommand)
      (hqueue : v.queue = command :: rest)
      (h : v.state = .released ∨ command = .shutdown ∨ ∃ reply, command
          = .releaseAfterCommit reply) :
      Move v after
  /-- It is put off until the submission is written. -/
  | park (v : View) (reply : Nat) (pc : Pc) (hbefore : handling v.pc = some reply)
      (h : handling pc = none) : Move v { v with pending := some reply, pc := pc }
  | resume (v : View) (reply : Nat) (pc : Pc) (hpending : v.pending = some reply)
      (hbefore : handling v.pc = none) (h : handling pc = some reply) :
      Move v { v with pending := none, pc := pc }
  | quiesce (v : View) (reply : Nat) (pc : Pc) (hbefore : handling v.pc = some reply)
      (h : handling pc = none) :
      Move v { v with state := .quiesced, replies := v.replies ++ [(reply, none)], pc := pc }
  | fail (v : View) (reply : Nat) (error : IoError) (pc : Pc) (hbefore : handling v.pc = some reply)
      (h : handling pc = none) :
      Move v { v with replies := v.replies ++ [(reply, some error)], pc := pc }
  /-- The actor is gone. -/
  | exit (v : View) (h : handling v.pc = none) :
      Move v { v with queue := [], pending := none, pc := .exited }

theorem Move.stay (v : View) : Move v v := .walk v v.pc rfl

variable {reply : Nat} {s t : State} {v w : View} {command : PtyIoControlCommand}
  {rest : List PtyIoControlCommand} {env : Env} {replies : List (Nat × IoResult)}
  {result : IoResult} {abandoned : Prop} {op : Op}

theorem move_endHandoff {site : Site} {error : IoError} (hview : view s = v)
    (h : handling v.pc = some reply) : Move v (view (endHandoff reply site (some error) s)) := by
  subst hview
  exact .fail (view s) reply error site.next h (handling_next site)

theorem move_handleControlCommand (hqueue : s.controlQueue = command :: rest)
    (hpc : s.pc = .drainControl) :
    Move (view s) (view (handleControlCommand command { s with controlQueue := rest })) := by
  have hbefore : handling (view s).pc = none := by
    show handling s.pc = none
    rw [hpc]
    rfl
  unfold handleControlCommand
  cases command with
  | beginHandoff reply =>
    dsimp only
    unfold deferOrBeginHandoff
    split
    · exact .take (view s) reply rest _ hqueue hbefore rfl
    · exact .delay (view s) reply rest _ hqueue hbefore rfl
  | duplicateForHandoff => exact .skip (view s) _ rest hqueue (Or.inl rfl)
  | foregroundProcessGroup => exact .skip (view s) _ rest hqueue (Or.inr rfl)
  | rollbackHandoff reply =>
    dsimp only
    split
    next hreleased => exact .stop (view s) _ _ rest hqueue (Or.inl hreleased)
    next hlive => exact .rollback (view s) reply rest hqueue hbefore hlive
  | releaseAfterCommit reply =>
    exact .stop (view s) _ _ rest hqueue (Or.inr (Or.inr ⟨reply, rfl⟩))
  | shutdown => exact .stop (view s) _ _ rest hqueue (Or.inr (Or.inl rfl))

variable {reader : Reader} {writeReady : Bool} {extra : List PtyIoControlCommand}

theorem move_afterRead (hview : view s = v)
    (h : handling v.pc = handling (.read reader writeReady)) :
    Move v (view (afterRead reader writeReady s)) := by
  subst hview
  cases reader with
  | run =>
    refine .walk (view s) (if writeReady && !s.pendingWrites.isEmpty then .flush .afterPoll
      else .drainControl) ?_
    rw [h]
    split
    · rfl
    · rfl
  | handoff handoff =>
    refine .walk (view s) (if writeReady then .flush (.handoff handoff) else .beginPoll handoff) ?_
    rw [h]
    split
    · rfl
    · rfl

theorem move_readEnded (hview : view s = v)
    (h : handling v.pc = handling (.read reader writeReady)) :
    Move v (view (readEnded reader s)) := by
  cases reader with
  | run =>
    subst hview
    exact .walk (view s) _ h.symm
  | handoff handoff => exact move_endHandoff hview h

/-- The loop of `run` goes on after a flush, or ends. -/
theorem move_flushed (now : Nat) (pc : Pc) (result : Except IoError (Option SubmissionBoundary))
    (hview : view s = v) (hnone : handling v.pc = none) (hpc : handling pc = none) :
    Move v (view (match result with
      | .error error => { failActiveSubmission error s with pc := .closing }
      | .ok none => { s with pc := pc }
      | .ok (some boundary) => { completeSubmissionBoundary now boundary s with pc := pc })) := by
  subst hview
  split
  next error =>
    show Move _ { view (failActiveSubmission error s) with pc := .closing }
    rw [view_failActiveSubmission]
    exact .walk (view s) .closing hnone.symm
  · exact .walk (view s) pc (hpc.trans hnone.symm)
  next boundary =>
    show Move _ { view (completeSubmissionBoundary now boundary s) with pc := pc }
    rw [view_completeSubmissionBoundary]
    exact .walk (view s) pc (hpc.trans hnone.symm)

theorem move_afterFlush {now : Nat} {flusher : Flusher}
    {result : Except IoError (Option SubmissionBoundary)} (hview : view s = v)
    (h : handling v.pc = handling (.flush flusher)) :
    Move v (view (afterFlush now flusher result s)) := by
  cases flusher with
  | handoff handoff =>
    cases result with
    | error error => exact move_endHandoff hview h
    | ok boundary =>
      subst hview
      exact .walk (view s) _ h.symm
  | beforePoll =>
    have hmove := move_flushed now .schedule result hview h rfl
    rcases result with error | _ | boundary
    · exact hmove
    · exact hmove
    · exact hmove
  | afterPoll =>
    have hmove := move_flushed now .drainControl result hview h rfl
    rcases result with error | _ | boundary
    · exact hmove
    · exact hmove
    · exact hmove

theorem move_beginPoll {handoff : Handoff} (hpc : s.pc = .beginPoll handoff) :
    Move (view s) (view (beginPoll env handoff s)) := by
  have h : handling (view s).pc = some handoff.reply := by
    show handling s.pc = _
    rw [hpc]
    rfl
  unfold beginPoll
  split
  · exact .quiesce (view s) handoff.reply _ h (handling_next _)
  · split
    · exact move_endHandoff rfl h
    · split
      · exact move_endHandoff rfl h
      · split
        · exact move_endHandoff rfl h
        · split
          · exact .walk (view s) _ h.symm
          · split
            · exact .walk (view s) _ h.symm
            · exact .stay (view s)

theorem move_poll (hpc : s.pc = .poll) : Move (view s) (view (poll env s)) := by
  have h : handling (view s).pc = none := by
    show handling s.pc = _
    rw [hpc]
    rfl
  unfold poll
  split
  · exact .walk (view s) _ h.symm
  · split
    · split
      · exact .walk (view s) _ h.symm
      · exact .walk (view s) _ h.symm
    · split
      · exact .walk (view s) _ h.symm
      · exact move_afterRead rfl h

/-- A data command is drained: only `pc` may differ. -/
theorem view_drained {rest : List PtyIoDataCommand} (now : Nat) (command : PtyIoDataCommand) :
    view (handleDataCommand now command { s with dataQueue := rest }) = view s :=
  view_handleDataCommand now command _

theorem not_exited_of_act (h : act env s = some t) : s.pc ≠ .exited := by
  intro hexited
  unfold act at h
  rw [hexited] at h
  cases h

theorem act_move (h : act env s = some t) : Move (view s) (view t) := by
  unfold act at h
  split at h
  next hpc =>
    split at h
    · cases h
      exact .walk (view s) _ (by show _ = handling s.pc; rw [hpc]; rfl)
    next command rest hqueue =>
      cases h
      exact move_handleControlCommand hqueue hpc
  next hpc =>
    have hnone : handling (view s).pc = none := by
      show handling s.pc = _
      rw [hpc]
      rfl
    split at h
    · cases h
      exact .walk (view s) _ hnone.symm
    next hactive =>
      split at h
      next reply hpending =>
        cases h
        rw [deferOrBeginHandoff, if_pos (by simpa using hactive)]
        exact .resume (view s) reply _ hpending hnone rfl
      · cases h
        exact .walk (view s) _ hnone.symm
  next hpc =>
    have hnone : handling (view s).pc = none := by
      show handling s.pc = _
      rw [hpc]
      rfl
    split at h
    · cases h
      exact .walk (view s) _ hnone.symm
    next command rest hqueue =>
      dsimp only at h
      split at h
      · cases h
        show Move _ { view (handleDataCommand _ _ _) with pc := .applyControls }
        rw [view_drained]
        exact .walk (view s) _ hnone.symm
      · cases h
        rw [view_drained]
        exact .stay (view s)
  next reply site hpc =>
    have hsome : handling (view s).pc = some reply := by
      show handling s.pc = _
      rw [hpc]
      rfl
    split at h
    · cases h
      exact .walk (view s) _ hsome.symm
    next command rest hqueue =>
      dsimp only at h
      split at h
      · cases h
        show Move _ { view (handleDataCommand _ _ _) with pending := some reply, pc := site.next }
        rw [view_drained]
        exact .park (view s) reply _ hsome (handling_next site)
      · cases h
        rw [view_drained]
        exact .stay (view s)
  next reply site hpc =>
    have hsome : handling (view s).pc = some reply := by
      show handling s.pc = _
      rw [hpc]
      rfl
    split at h
    · cases h
      exact .walk (view s) _ hsome.symm
    next command rest hqueue =>
      dsimp only at h
      split at h
      · cases h
        exact move_endHandoff (view_drained _ _) hsome
      · cases h
        rw [view_drained]
        exact .stay (view s)
  next reply site hpc =>
    have hsome : handling (view s).pc = some reply := by
      show handling s.pc = _
      rw [hpc]
      rfl
    dsimp only at h
    split at h
    · cases h
      exact move_endHandoff (view_applyPendingControls s) hsome
    · cases h
      show Move _ { view (applyPendingControls s) with
        pc := .flush (.handoff ⟨reply, site, env.now + handoffDrainTimeout⟩) }
      rw [view_applyPendingControls]
      exact .walk (view s) _ hsome.symm
  next handoff hpc =>
    cases h
    exact move_beginPoll hpc
  next hpc =>
    cases h
    have hkept := view_applyPendingControls s
    rw [← hkept]
    refine .walk _ (if (applyPendingControls s).pendingWrites.isEmpty then .schedule
      else .flush .beforePoll) ?_
    rw [hkept]
    show _ = handling s.pc
    rw [hpc]
    split
    · rfl
    · rfl
  next flusher hpc =>
    have hsame : handling (view s).pc = handling (.flush flusher) := by
      show handling s.pc = _
      rw [hpc]
    have hkept := view_flushPendingWrites env.write s
    split at h
    next after hflushed =>
      cases h
      rw [hflushed] at hkept
      rw [hkept]
      exact .stay (view s)
    next boundary after hflushed =>
      cases h
      rw [hflushed] at hkept
      exact move_afterFlush hkept hsame
    next error after hflushed =>
      cases h
      rw [hflushed] at hkept
      exact move_afterFlush hkept hsame
  next hpc =>
    cases h
    have hkept := view_scheduleSubmissionEnter env.now s
    rw [← hkept]
    refine .walk _ (if (scheduleSubmissionEnter env.now s).activeSubmission.isNone
      && (scheduleSubmissionEnter env.now s).pendingHandoff.isSome then .drainControl
      else .poll) ?_
    rw [hkept]
    show _ = handling s.pc
    rw [hpc]
    split
    · rfl
    · rfl
  next hpc =>
    cases h
    exact move_poll hpc
  next reader writeReady hpc =>
    have hsame : handling (view s).pc = handling (.read reader writeReady) := by
      show handling s.pc = _
      rw [hpc]
    dsimp only at h
    split at h
    · cases h
      exact move_readEnded rfl hsame
    · cases h
      exact move_readEnded rfl hsame
    · cases h
      exact move_afterRead rfl hsame
    · cases h
      exact move_afterRead rfl hsame
    · cases h
      refine .walk (view s) _ ?_
      rw [hsame]
      cases reader with
      | run => rfl
      | handoff handoff => rfl
  next reader writeReady hpc =>
    cases h
    refine move_afterRead ?_ ?_
    · rw [view_enqueueTerminalResponses]
      rfl
    · show handling s.pc = _
      rw [hpc]
      cases reader with
      | run => rfl
      | handoff handoff => rfl
  next hpc =>
    cases h
    show Move _ { view (failActiveSubmission inputSubmissionClosedError s) with
      queue := [], pending := none, pc := .exited }
    rw [view_failActiveSubmission]
    exact .exit (view s) (by show handling s.pc = none; rw [hpc]; rfl)
  · cases h

/-! ### In every run -/

def isBegin : PtyIoControlCommand → Bool
  | .beginHandoff _ => true
  | _ => false

def isHandoff : PtyIoControlCommand → Bool
  | .beginHandoff _ => true
  | .rollbackHandoff _ => true
  | _ => false

def replyOf : PtyIoControlCommand → Option Nat
  | .beginHandoff reply => some reply
  | .rollbackHandoff reply => some reply
  | .releaseAfterCommit reply => some reply
  | _ => none

/-- How many handoffs wait in the queue, are put off or are under way. -/
def begins (v : View) : Nat :=
  v.queue.countP isBegin + v.pending.toList.length + (handling v.pc).toList.length

/-- In how many places a reply channel is. -/
def places (v : View) (reply : Nat) : Nat :=
  v.queue.countP (replyOf · = some reply) + v.pending.toList.count reply +
    (handling v.pc).toList.count reply + (v.replies.map Prod.fst).count reply

/-- A rollback that is waited for. -/
inductive Rolled (v : View) (reply : Nat) : Prop where
  | queued (before after : List PtyIoControlCommand)
      (hqueue : v.queue = before ++ .rollbackHandoff reply :: after)
      (hafter : after.countP isBegin = 0)
  | answered (hreply : v.replies.lookup reply = some none) (hstate : v.state = .running)
      (hbegins : begins v = 0)
  | lost (hpc : v.pc = .exited) (hreply : v.replies.lookup reply = none)

structure Ctl (v : View) : Prop where
  live : v.state ≠ .released
  plain : ∀ command ∈ v.queue, command ≠ .shutdown ∧ ∀ reply, command ≠ .releaseAfterCommit reply
  caller : ∀ reply, v.caller ≠ .releasing reply
  gate : v.accepting = true → v.state = .running
  begun : 0 < begins v → v.accepting = false ∧ v.state = .running
  once : begins v ≤ 1
  reopening : ∀ cause, v.caller = .reopening cause → v.state = .running ∧ begins v = 0
  rollingBack : ∀ reply cause, v.caller = .rollingBack reply cause → Rolled v reply
  places : ∀ reply, places v reply ≤ 1
  fresh : ∀ reply, 0 < Handoff.places v reply → reply < v.nextReply

theorem lookup_of_count (h : (replies.map Prod.fst).count reply = 0) :
    replies.lookup reply = none := by
  induction replies with
  | nil => rfl
  | cons entry rest ih =>
    rw [List.map_cons, List.count_cons] at h
    have hne : (reply == entry.1) = false := by
      cases hcase : reply == entry.1 with
      | false => rfl
      | true =>
        rw [eq_of_beq hcase] at h
        simp at h
    rw [List.lookup_cons, hne]
    exact ih (by omega)

theorem lookup_append_self (result : IoResult) (h : (replies.map Prod.fst).count reply = 0) :
    (replies ++ [(reply, result)]).lookup reply = some result := by
  rw [List.lookup_append, lookup_of_count h]
  simp

theorem lookup_append_of_some (extra : List (Nat × IoResult))
    (h : replies.lookup reply = some result) : (replies ++ extra).lookup reply = some result := by
  rw [List.lookup_append, h]
  rfl

theorem count_of_lookup (h : replies.lookup reply = some result) :
    0 < (replies.map Prod.fst).count reply := by
  by_contra hzero
  rw [lookup_of_count (by omega)] at h
  cases h

/-- The queue of a run without release and shutdown. -/
def Plain (v : View) : Prop :=
  v.state ≠ .released ∧
    ∀ command ∈ v.queue, command ≠ .shutdown ∧ ∀ reply, command ≠ .releaseAfterCommit reply

theorem Plain.not_stopped (h : Plain v) (hqueue : v.queue = command :: rest) :
    ¬ (v.state = .released ∨ command = .shutdown ∨
      ∃ reply, command = .releaseAfterCommit reply) := by
  have hcommand := h.2 command (by rw [hqueue]; exact List.mem_cons_self)
  rintro (hreleased | hshutdown | ⟨reply, hrelease⟩)
  · exact h.1 hreleased
  · exact hcommand.1 hshutdown
  · exact hcommand.2 reply hrelease

theorem Move.begins_le (h : Move v w) (hplain : Plain v) : begins w ≤ begins v := by
  unfold begins
  cases h with
  | walk pc h => rw [h]
  | take reply rest pc hqueue hbefore h =>
    rw [hqueue, hbefore, h, List.countP_cons]
    simp only [isBegin, if_true, Option.toList_some, Option.toList_none, List.length_cons,
      List.length_nil]
    omega
  | delay reply rest pc hqueue hbefore h =>
    rw [hqueue, hbefore, h, List.countP_cons]
    simp [isBegin]
  | skip command rest hqueue h =>
    rw [hqueue, List.countP_cons]
    dsimp only
    omega
  | rollback reply rest hqueue hbefore hstate =>
    rw [hqueue, List.countP_cons]
    simp
    omega
  | stop after command rest hqueue h => exact absurd h (hplain.not_stopped hqueue)
  | park reply pc hbefore h =>
    rw [hbefore, h]
    simp
  | resume reply pc hpending hbefore h =>
    rw [hpending, hbefore, h]
    simp
  | quiesce reply pc hbefore h =>
    rw [hbefore, h]
    simp
  | fail reply error pc hbefore h =>
    rw [hbefore, h]
    simp
  | exit h => simp [handling]

theorem Move.places_le (h : Move v w) (hplain : Plain v) (id : Nat) :
    places w id ≤ places v id := by
  unfold places
  cases h with
  | walk pc h => rw [h]
  | take reply rest pc hqueue hbefore h =>
    rw [hqueue, hbefore, h, List.countP_cons]
    simp [replyOf, List.count_singleton]
    omega
  | delay reply rest pc hqueue hbefore h =>
    rw [hqueue, hbefore, h, List.countP_cons]
    simp [replyOf, List.count_singleton]
  | skip command rest hqueue h =>
    rw [hqueue, List.countP_cons]
    dsimp only
    omega
  | rollback reply rest hqueue hbefore hstate =>
    rw [hqueue, List.countP_cons]
    simp [replyOf, List.count_singleton]
    omega
  | stop after command rest hqueue h => exact absurd h (hplain.not_stopped hqueue)
  | park reply pc hbefore h =>
    rw [hbefore, h]
    simp
  | resume reply pc hpending hbefore h =>
    rw [hpending, hbefore, h]
    simp
  | quiesce reply pc hbefore h =>
    rw [hbefore, h]
    simp [List.count_singleton]
    omega
  | fail reply error pc hbefore h =>
    rw [hbefore, h]
    simp [List.count_singleton]
    omega
  | exit h => simp [handling]

/-- What stays as it is, and the ways in which the state of the actor changes. -/
theorem Move.frame {v w : View} (h : Move v w) (hplain : Plain v) :
    w.accepting = v.accepting ∧ w.caller = v.caller ∧ w.nextReply = v.nextReply ∧
      (∀ command ∈ w.queue, command ∈ v.queue) ∧
      (w.state = v.state ∨ w.state = .running ∨
        w.state = .quiesced ∧ handling v.pc ≠ none ∧ begins w < begins v) := by
  cases h with
  | walk pc h => exact ⟨rfl, rfl, rfl, fun _ => id, Or.inl rfl⟩
  | take reply rest pc hqueue hbefore h =>
    exact ⟨rfl, rfl, rfl, fun _ hmem => hqueue ▸ List.mem_cons_of_mem _ hmem, Or.inl rfl⟩
  | delay reply rest pc hqueue hbefore h =>
    exact ⟨rfl, rfl, rfl, fun _ hmem => hqueue ▸ List.mem_cons_of_mem _ hmem, Or.inl rfl⟩
  | skip command rest hqueue h =>
    exact ⟨rfl, rfl, rfl, fun _ hmem => hqueue ▸ List.mem_cons_of_mem _ hmem, Or.inl rfl⟩
  | rollback reply rest hqueue hbefore hstate =>
    exact ⟨rfl, rfl, rfl, fun _ hmem => hqueue ▸ List.mem_cons_of_mem _ hmem,
      Or.inr (Or.inl rfl)⟩
  | stop after command rest hqueue h => exact absurd h (hplain.not_stopped hqueue)
  | park reply pc hbefore h => exact ⟨rfl, rfl, rfl, fun _ => id, Or.inl rfl⟩
  | resume reply pc hpending hbefore h => exact ⟨rfl, rfl, rfl, fun _ => id, Or.inl rfl⟩
  | quiesce reply pc hbefore h =>
    refine ⟨rfl, rfl, rfl, fun _ => id, Or.inr (Or.inr ⟨rfl, ?_, ?_⟩)⟩
    · rw [hbefore]
      exact Option.some_ne_none reply
    · unfold begins
      rw [hbefore, h]
      exact Nat.lt_succ_self _
  | fail reply error pc hbefore h => exact ⟨rfl, rfl, rfl, fun _ => id, Or.inl rfl⟩
  | exit h => exact ⟨rfl, rfl, rfl, fun _ hmem => (by cases hmem), Or.inl rfl⟩

theorem begins_pos_of_handling (h : handling v.pc ≠ none) : 0 < begins v := by
  obtain ⟨reply, hreply⟩ := Option.ne_none_iff_exists'.mp h
  unfold begins
  rw [hreply]
  exact Nat.succ_pos _

/-- A queue that has lost its first command. -/
theorem split_of_cons {α : Type} {first wanted : α} {rest before after : List α}
    (h : first :: rest = before ++ wanted :: after) (hne : first ≠ wanted) :
    ∃ shorter, rest = shorter ++ wanted :: after := by
  cases before with
  | nil => exact absurd (List.cons.inj h).1 hne
  | cons head shorter => exact ⟨shorter, (List.cons.inj h).2⟩

theorem places_pos_of_queued (hmem : command ∈ v.queue) (hreply : replyOf command = some reply) :
    0 < v.queue.countP (replyOf · = some reply) :=
  List.countP_pos_iff.mpr ⟨command, hmem, decide_eq_true hreply⟩

/-- While a reply channel is in the queue, nothing was sent to it. -/
theorem Ctl.not_replied (h : Ctl v) (hmem : command ∈ v.queue)
    (hreply : replyOf command = some reply) : (v.replies.map Prod.fst).count reply = 0 := by
  have hqueue := places_pos_of_queued hmem hreply
  have hone := h.places reply
  unfold Handoff.places at hone
  omega

theorem Rolled.move (h : Rolled v reply) (hctl : Ctl v) (hpc : v.pc ≠ .exited) (hmove : Move v w) :
    Rolled w reply := by
  have hplain : Plain v := ⟨hctl.live, hctl.plain⟩
  cases h with
  | lost hexited hreply => exact absurd hexited hpc
  | answered hreply hstate hbegins =>
    have hnone := hmove.begins_le hplain
    have hrunning : w.state = .running := by
      rcases (hmove.frame hplain).2.2.2.2 with hsame | hrunning | hquiesced
      · rw [hsame, hstate]
      · exact hrunning
      · have := begins_pos_of_handling hquiesced.2.1
        omega
    refine .answered ?_ hrunning (by omega)
    cases hmove with
    | rollback => exact lookup_append_of_some _ hreply
    | stop after command rest hqueue h => exact absurd h (hplain.not_stopped hqueue)
    | quiesce => exact lookup_append_of_some _ hreply
    | fail => exact lookup_append_of_some _ hreply
    | _ => exact hreply
  | queued before after hqueue hafter =>
    have hnot : (v.replies.map Prod.fst).count reply = 0 :=
      hctl.not_replied (hqueue ▸ List.mem_append_right _ List.mem_cons_self) rfl
    cases hmove with
    | walk => exact .queued before after hqueue hafter
    | park => exact .queued before after hqueue hafter
    | resume => exact .queued before after hqueue hafter
    | quiesce => exact .queued before after hqueue hafter
    | fail => exact .queued before after hqueue hafter
    | stop _ command rest hfirst h => exact absurd h (hplain.not_stopped hfirst)
    | take other rest pc hfirst =>
      obtain ⟨shorter, hrest⟩ := split_of_cons (hfirst.symm.trans hqueue) (fun heq => by cases heq)
      exact .queued shorter after hrest hafter
    | delay other rest pc hfirst =>
      obtain ⟨shorter, hrest⟩ := split_of_cons (hfirst.symm.trans hqueue) (fun heq => by cases heq)
      exact .queued shorter after hrest hafter
    | skip command rest hfirst hcommand =>
      have hne : command ≠ .rollbackHandoff reply := by
        rcases hcommand with rfl | rfl
        · exact fun heq => by cases heq
        · exact fun heq => by cases heq
      obtain ⟨shorter, hrest⟩ := split_of_cons (hfirst.symm.trans hqueue) hne
      exact .queued shorter after hrest hafter
    | rollback other rest hfirst hbefore hstate =>
      by_cases hsame : other = reply
      · -- this is the rollback itself, if it is the first one of its reply channel
        subst hsame
        cases before with
        | nil =>
          have hrest : rest = after := (List.cons.inj (hfirst.symm.trans hqueue)).2
          refine .answered (lookup_append_self none hnot) rfl ?_
          show rest.countP isBegin + 0 + (handling v.pc).toList.length = 0
          rw [hrest, hafter, hbefore]
          rfl
        | cons head shorter =>
          exact .queued shorter after (List.cons.inj (hfirst.symm.trans hqueue)).2 hafter
      · obtain ⟨shorter, hrest⟩ := split_of_cons (hfirst.symm.trans hqueue)
          (fun heq => hsame (PtyIoControlCommand.rollbackHandoff.inj heq))
        exact .queued shorter after hrest hafter
    | exit => exact .lost rfl (lookup_of_count hnot)

theorem Ctl.move (h : Ctl v) (hpc : v.pc ≠ .exited) (hmove : Move v w) : Ctl w := by
  have hplain : Plain v := ⟨h.live, h.plain⟩
  obtain ⟨haccepting, hcaller, hnext, hqueue, hstate⟩ := hmove.frame hplain
  have hbegins := hmove.begins_le hplain
  have hplaces := hmove.places_le hplain
  have honce := h.once
  constructor
  · rcases hstate with hsame | hrunning | hquiesced
    · rw [hsame]
      exact h.live
    · rw [hrunning]
      exact fun heq => by cases heq
    · rw [hquiesced.1]
      exact fun heq => by cases heq
  · exact fun command hmem => h.plain command (hqueue command hmem)
  · rw [hcaller]
    exact h.caller
  · intro hopen
    rw [haccepting] at hopen
    rcases hstate with hsame | hrunning | hquiesced
    · rw [hsame]
      exact h.gate hopen
    · exact hrunning
    · -- the gate is closed while a handoff is under way
      have hclosed := (h.begun (begins_pos_of_handling hquiesced.2.1)).1
      rw [hopen] at hclosed
      cases hclosed
  · intro hpositive
    have hbegun := h.begun (by omega)
    refine ⟨by rw [haccepting]; exact hbegun.1, ?_⟩
    rcases hstate with hsame | hrunning | hquiesced
    · rw [hsame]
      exact hbegun.2
    · exact hrunning
    · -- there was only this one
      have := hquiesced.2.2
      omega
  · omega
  · intro cause hreopening
    rw [hcaller] at hreopening
    obtain ⟨hrunning, hzero⟩ := h.reopening cause hreopening
    refine ⟨?_, by omega⟩
    rcases hstate with hsame | hnow | hquiesced
    · rw [hsame]
      exact hrunning
    · exact hnow
    · have := begins_pos_of_handling hquiesced.2.1
      omega
  · intro reply cause hrolling
    rw [hcaller] at hrolling
    exact (h.rollingBack reply cause hrolling).move h hpc hmove
  · intro reply
    exact Nat.le_trans (hplaces reply) (h.places reply)
  · intro reply hpositive
    rw [hnext]
    exact h.fresh reply (Nat.lt_of_lt_of_le hpositive (hplaces reply))

/-! ### The calls -/

/-- The call ends with the gate closed, and its rollback has no reply: nobody waits for it any more,
or there was no actor to send it to. -/
def abandons (s : State) : Op → Bool
  | .expire =>
      match s.caller with
      | .rollingBack _ _ => !s.accepting
      | .beginning _ => s.pc = .exited
      | _ => false
  | .receive =>
      match s.caller with
      | .beginning reply => s.pc = .exited && (s.replies.lookup reply).any (·.isSome)
      | _ => false
  | _ => false

/-- What a caller does to the handoff. -/
inductive Call (abandoned : Prop) : View → View → Prop where
  | none (v : View) : Call abandoned v v
  | fresh (v : View) : Call abandoned v { v with nextReply := v.nextReply + 1 }
  | ask (v : View) (command : PtyIoControlCommand)
      (h : command = .duplicateForHandoff ∨ command = .foregroundProcessGroup) :
      Call abandoned v { v with queue := v.queue ++ [command], nextReply := v.nextReply + 1 }
  | begin (v : View) (hcaller : v.caller = .idle) (hopen : v.accepting = true)
      (hpc : v.pc ≠ .exited) :
      Call abandoned v { v with
        accepting := false
        queue := v.queue ++ [.beginHandoff v.nextReply]
        nextReply := v.nextReply + 1
        caller := .beginning v.nextReply }
  | rollback (v : View) (cause : Option IoError)
      (hcaller : v.caller = .idle ∨ ∃ reply, v.caller = .beginning reply) (hpc : v.pc ≠ .exited) :
      Call abandoned v { v with
        queue := v.queue ++ [.rollbackHandoff v.nextReply]
        nextReply := v.nextReply + 1
        caller := .rollingBack v.nextReply cause }
  | deserted (v : View) (h : abandoned) : Call abandoned v { v with caller := .idle }
  | began (v : View) (reply : Nat) (hcaller : v.caller = .beginning reply)
      (hreply : v.replies.lookup reply = some none) : Call abandoned v { v with caller := .idle }
  | answered (v : View) (reply : Nat) (cause : Option IoError)
      (hcaller : v.caller = .rollingBack reply cause)
      (hreply : v.replies.lookup reply = some none) :
      Call abandoned v { v with caller := .reopening cause }
  | denied (v : View) (reply : Nat) (cause : Option IoError) (error : IoError)
      (hcaller : v.caller = .rollingBack reply cause)
      (hreply : v.replies.lookup reply = some (some error)) :
      Call abandoned v { v with caller := .idle }
  | gaveUp (v : View) (h : v.accepting = true ∨ abandoned) :
      Call abandoned v { v with caller := .idle }
  | reopen (v : View) (cause : Option IoError) (hcaller : v.caller = .reopening cause) :
      Call abandoned v { v with accepting := true, caller := .idle }

theorem trySend_cases (command : PtyIoDataCommand) (s : State) :
    (∃ error, trySend command s = .error error) ∨
      (s.pc ≠ .exited ∧ trySend command s = .ok { s with
        dataQueue := s.dataQueue ++ [command], accepted := s.accepted ++ [command] }) := by
  unfold trySend
  split
  · exact Or.inl ⟨_, rfl⟩
  next hpc =>
    split
    · exact Or.inr ⟨hpc, rfl⟩
    · exact Or.inl ⟨_, rfl⟩

theorem view_tryWriteUserInput (bytes : Bytes) (s : State) :
    view (tryWriteUserInput bytes s).2 = view s := by
  unfold tryWriteUserInput
  split
  · rfl
  · rcases trySend_cases (.writeUserInput bytes) s with ⟨error, h⟩ | ⟨_, h⟩
    · rw [h]
    · rw [h]
      rfl

theorem call_queueUserInputSubmission (abandoned : Prop) (text enter : Bytes) (delay : Nat)
    (s : State) :
    Call abandoned (view s) (view (queueUserInputSubmission text enter delay s).2) := by
  unfold queueUserInputSubmission
  split
  · exact .none (view s)
  · rcases trySend_cases (.submitUserInput text enter delay s.nextReply) s with ⟨error, h⟩ | ⟨_, h⟩
    · rw [h]
      cases error with
      | closed => exact .none (view s)
      | full => exact .none (view s)
    · rw [h]
      exact .fresh (view s)

theorem view_writeTerminalResponse (response : Option Bytes) (s : State) :
    view (writeTerminalResponse response s) = view s := by
  unfold writeTerminalResponse
  split
  · rfl
  · split
    · rfl
    · rfl

theorem call_ask (h : command = .duplicateForHandoff ∨ command = .foregroundProcessGroup) :
    Call abandoned (view s) (view ((sendControl (fun _ => command) s).getD s)) := by
  unfold sendControl
  split
  · exact .none (view s)
  · exact .ask (view s) command h

theorem call_rollbackHandoff {cause : Option IoError}
    (hcaller : s.caller = .idle ∨ ∃ reply, s.caller = .beginning reply)
    (habandoned : s.pc = .exited → s.caller = .idle ∨ abandoned) :
    Call abandoned (view s) (view (rollbackHandoff cause s)) := by
  unfold rollbackHandoff sendControl
  by_cases hpc : s.pc = .exited
  · rw [if_pos hpc]
    cases habandoned hpc with
    | inl hidle =>
      have hsame : { view s with caller := .idle } = view s := by
        rw [← hidle]
        rfl
      show Call _ (view s) { view s with caller := .idle }
      rw [hsame]
      exact .none (view s)
    | inr h => exact .deserted (view s) h
  · rw [if_neg hpc]
    exact .rollback (view s) cause hcaller hpc

theorem call_beginHandoff (hcaller : s.caller = .idle) :
    Call abandoned (view s) (view (beginHandoff s)) := by
  have hsame : { view s with caller := .idle } = view s := by
    rw [← hcaller]
    rfl
  unfold beginHandoff
  split
  · show Call _ (view s) { view s with caller := .idle }
    rw [hsame]
    exact .none (view s)
  next hopen =>
    unfold sendControl
    by_cases hpc : s.pc = .exited
    · rw [if_pos hpc]
      show Call _ (view s) { view s with caller := .idle }
      rw [hsame]
      exact .none (view s)
    · rw [if_neg hpc]
      have htrue : s.accepting = true := by simpa using hopen
      exact .begin (view s) hcaller htrue hpc

theorem call_receive (hcaller : ∀ reply, s.caller ≠ .releasing reply) (h : receive s = some t) :
    Call (abandons s .receive = true) (view s) (view t) := by
  unfold receive at h
  split at h
  next reply hbeginning =>
    obtain ⟨result, hreply, ht⟩ := Option.map_eq_some_iff.mp h
    cases result with
    | none =>
      cases ht
      exact .began (view s) reply hbeginning hreply
    | some error =>
      cases ht
      refine call_rollbackHandoff (Or.inr ⟨reply, hbeginning⟩) fun hpc => Or.inr ?_
      simp [abandons, hbeginning, hpc, hreply]
  next reply cause hrolling =>
    obtain ⟨result, hreply, ht⟩ := Option.map_eq_some_iff.mp h
    cases result with
    | none =>
      cases ht
      exact .answered (view s) reply cause hrolling hreply
    | some error =>
      cases ht
      exact .denied (view s) reply cause error hrolling hreply
  next reply hreleasing => exact absurd hreleasing (hcaller reply)
  · cases h

theorem call_expire (hcaller : ∀ reply, s.caller ≠ .releasing reply) (h : expire s = some t) :
    Call (abandons s .expire = true) (view s) (view t) := by
  unfold expire at h
  split at h
  next reply hbeginning =>
    cases h
    refine call_rollbackHandoff (Or.inr ⟨reply, hbeginning⟩) fun hpc => Or.inr ?_
    simp [abandons, hbeginning, hpc]
  next reply cause hrolling =>
    cases h
    refine .gaveUp (view s) ?_
    cases hopen : s.accepting with
    | true => exact Or.inl hopen
    | false =>
      right
      simp [abandons, hrolling, hopen]
  next reply hreleasing => exact absurd hreleasing (hcaller reply)
  · cases h

/-- The operations of a run without release and shutdown. -/
def Unstopped (op : Op) : Prop := op ≠ .releaseAfterCommit ∧ op ≠ .shutdown

theorem next_cases (hcaller : ∀ reply, s.caller ≠ .releasing reply) (hop : Unstopped op)
    (h : next s op = some t) : (∃ env, op = .act env ∧ act env s = some t) ∨
      Call (abandons s op = true) (view s) (view t) := by
  unfold next at h
  split at h
  · cases h
    rw [view_tryWriteUserInput]
    exact Or.inr (.none (view s))
  · cases h
    exact Or.inr (call_queueUserInputSubmission _ _ _ _ s)
  · cases h
    rw [view_writeTerminalResponse]
    exact Or.inr (.none (view s))
  · cases h
    exact Or.inr (.none (view s))
  · cases h
    exact Or.inr (call_ask (Or.inl rfl))
  · cases h
    exact Or.inr (call_ask (Or.inr rfl))
  · unfold whenIdle at h
    split at h
    next hidle =>
      cases h
      exact Or.inr (call_beginHandoff hidle)
    · cases h
  · unfold whenIdle at h
    split at h
    next hidle =>
      cases h
      exact Or.inr (call_rollbackHandoff (Or.inl hidle) fun _ => Or.inl hidle)
    · cases h
  · exact absurd rfl hop.1
  · exact absurd rfl hop.2
  · exact Or.inr (call_receive hcaller h)
  · exact Or.inr (call_expire hcaller h)
  · unfold reopen at h
    split at h
    next cause hreopening =>
      cases h
      exact Or.inr (.reopen (view s) cause hreopening)
    · cases h
  next env => exact Or.inl ⟨env, rfl, h⟩

/-! ### The calls keep it -/

theorem countP_append_ask (queue : List PtyIoControlCommand) (p : PtyIoControlCommand → Bool)
    (h : p command = false) : (queue ++ [command]).countP p = queue.countP p := by
  rw [List.countP_append, List.countP_singleton, h]
  rfl

theorem Rolled.ask (h : Rolled v reply) (hcommand : isBegin command = false) :
    Rolled { v with queue := v.queue ++ [command], nextReply := v.nextReply + 1 } reply := by
  cases h with
  | queued before after hqueue hafter =>
    refine .queued before (after ++ [command]) ?_ ?_
    · rw [hqueue, List.append_assoc]
      rfl
    · rw [countP_append_ask after isBegin hcommand]
      exact hafter
  | answered hreply hstate hbegins =>
    refine .answered hreply hstate ?_
    unfold begins at hbegins ⊢
    rw [countP_append_ask v.queue isBegin hcommand]
    exact hbegins
  | lost hpc hreply => exact .lost hpc hreply

/-- The reply to a rollback that is waited for. -/
theorem Rolled.of_reply (h : Rolled v reply) (hctl : Ctl v)
    (hreply : v.replies.lookup reply = some result) :
    result = none ∧ v.state = .running ∧ begins v = 0 := by
  cases h with
  | queued before after hqueue hafter =>
    have hnot := hctl.not_replied
      (hqueue ▸ List.mem_append_right before List.mem_cons_self) rfl
    have := count_of_lookup hreply
    omega
  | answered hanswer hstate hbegins =>
    rw [hanswer] at hreply
    exact ⟨(Option.some.inj hreply).symm, hstate, hbegins⟩
  | lost hpc hnone =>
    rw [hnone] at hreply
    cases hreply

theorem Ctl.closed_of_begins (h : Ctl v) (hopen : v.accepting = true) : begins v = 0 := by
  by_contra hpositive
  have hclosed := (h.begun (by omega)).1
  rw [hopen] at hclosed
  cases hclosed

/-- A command with a new reply channel goes into the queue. -/
theorem Ctl.send_places (h : Ctl v) (command : PtyIoControlCommand)
    (hreply : ∀ reply, replyOf command = some reply → reply = v.nextReply) (reply : Nat) :
    Handoff.places { v with queue := v.queue ++ [command] } reply ≤ 1 ∧
      (0 < Handoff.places { v with queue := v.queue ++ [command] } reply →
        reply < v.nextReply + 1) := by
  have hone := h.places reply
  have hfresh := h.fresh reply
  unfold Handoff.places at hone hfresh ⊢
  rw [List.countP_append, List.countP_singleton]
  by_cases hnew : replyOf command = some reply
  · have heq := hreply reply hnew
    simp only [hnew, decide_true, if_true]
    omega
  · simp only [hnew, decide_false, Bool.false_eq_true, if_false]
    omega

theorem Ctl.send_plain (h : Ctl v)
    (hcommand : command ≠ .shutdown ∧ ∀ reply, command ≠ .releaseAfterCommit reply) :
    ∀ other ∈ v.queue ++ [command],
      other ≠ .shutdown ∧ ∀ reply, other ≠ .releaseAfterCommit reply := by
  intro other hmem
  cases List.mem_append.mp hmem with
  | inl hold => exact h.plain other hold
  | inr hnew =>
    rw [List.mem_singleton.mp hnew]
    exact hcommand

/-- The caller is done. -/
theorem Ctl.finish (h : Ctl v) : Ctl { v with caller := .idle } where
  live := h.live
  plain := h.plain
  caller := fun _ heq => (by cases heq)
  gate := h.gate
  begun := h.begun
  once := h.once
  reopening := fun _ heq => (by cases heq)
  rollingBack := fun _ _ heq => (by cases heq)
  places := h.places
  fresh := h.fresh

theorem Ctl.call (h : Ctl v) (hcall : Call abandoned v w) : Ctl w := by
  cases hcall with
  | none => exact h
  | fresh =>
    refine ⟨h.live, h.plain, h.caller, h.gate, h.begun, h.once, h.reopening, ?_, h.places, ?_⟩
    · intro reply cause hrolling
      cases h.rollingBack reply cause hrolling with
      | queued before after hqueue hafter => exact .queued before after hqueue hafter
      | answered hreply hstate hbegins => exact .answered hreply hstate hbegins
      | lost hpc hreply => exact .lost hpc hreply
    · exact fun reply hpositive => Nat.lt_succ_of_lt (h.fresh reply hpositive)
  | ask command hcommand =>
    have hplain : command ≠ .shutdown ∧ (∀ reply, command ≠ .releaseAfterCommit reply) ∧
        isBegin command = false ∧ replyOf command = none := by
      rcases hcommand with rfl | rfl
      · simp [isBegin, replyOf]
      · simp [isBegin, replyOf]
    have hbegins : begins { v with
        queue := v.queue ++ [command], nextReply := v.nextReply + 1 } = begins v := by
      unfold begins
      rw [countP_append_ask v.queue isBegin hplain.2.2.1]
    have hsent := h.send_places command fun reply hreply => by
      rw [hplain.2.2.2] at hreply
      cases hreply
    refine ⟨h.live, h.send_plain ⟨hplain.1, hplain.2.1⟩, h.caller, h.gate, ?_, ?_, ?_, ?_,
      fun reply => (hsent reply).1, fun reply => (hsent reply).2⟩
    · rw [hbegins]
      exact h.begun
    · rw [hbegins]
      exact h.once
    · rw [hbegins]
      exact h.reopening
    · exact fun reply cause hrolling => (h.rollingBack reply cause hrolling).ask hplain.2.2.1
  | begin hcaller hopen hpc =>
    have hzero := h.closed_of_begins hopen
    have hsent := h.send_places (.beginHandoff v.nextReply)
      fun reply hreply => (Option.some.inj hreply).symm
    have hone : begins { v with
        accepting := false
        queue := v.queue ++ [.beginHandoff v.nextReply]
        nextReply := v.nextReply + 1
        caller := .beginning v.nextReply } = 1 := by
      unfold begins at hzero ⊢
      rw [List.countP_append, List.countP_singleton]
      simp only [isBegin, if_true]
      omega
    refine ⟨h.live, h.send_plain ⟨fun heq => (by cases heq), fun _ heq => (by cases heq)⟩,
      fun _ heq => (by cases heq), fun heq => (by cases heq), fun _ => ⟨rfl, h.gate hopen⟩,
      Nat.le_of_eq hone, fun _ heq => (by cases heq), fun _ _ heq => (by cases heq),
      fun reply => (hsent reply).1, fun reply => (hsent reply).2⟩
  | rollback cause hcaller hpc =>
    have hsent := h.send_places (.rollbackHandoff v.nextReply)
      fun reply hreply => (Option.some.inj hreply).symm
    have hbegins : begins { v with
        queue := v.queue ++ [.rollbackHandoff v.nextReply]
        nextReply := v.nextReply + 1
        caller := .rollingBack v.nextReply cause } = begins v := by
      unfold begins
      rw [countP_append_ask v.queue isBegin rfl]
    refine ⟨h.live, h.send_plain ⟨fun heq => (by cases heq), fun _ heq => (by cases heq)⟩,
      fun _ heq => (by cases heq), h.gate, ?_, ?_, fun _ heq => (by cases heq), ?_,
      fun reply => (hsent reply).1, fun reply => (hsent reply).2⟩
    · rw [hbegins]
      exact h.begun
    · rw [hbegins]
      exact h.once
    · intro reply other hrolling
      cases hrolling
      exact .queued v.queue [] rfl rfl
  | deserted _ => exact h.finish
  | began _ _ _ => exact h.finish
  | answered reply cause hcaller hreply =>
    obtain ⟨_, hrunning, hzero⟩ := (h.rollingBack reply cause hcaller).of_reply h hreply
    exact ⟨h.live, h.plain, fun _ heq => (by cases heq), h.gate, h.begun, h.once,
      fun _ _ => ⟨hrunning, hzero⟩, fun _ _ heq => (by cases heq), h.places, h.fresh⟩
  | denied _ _ _ _ _ => exact h.finish
  | gaveUp _ => exact h.finish
  | reopen cause hcaller =>
    obtain ⟨hrunning, hzero⟩ := h.reopening cause hcaller
    refine ⟨h.live, h.plain, fun _ heq => (by cases heq), fun _ => hrunning, ?_, h.once,
      fun _ heq => (by cases heq), fun _ _ heq => (by cases heq), h.places, h.fresh⟩
    intro hpositive
    change 0 < begins v at hpositive
    omega

theorem Ctl.spawn (initiallyQuiesced : Bool) : Ctl (view (spawn initiallyQuiesced)) where
  live := by
    cases initiallyQuiesced with
    | true => exact fun heq => by cases heq
    | false => exact fun heq => by cases heq
  plain := fun _ hmem => (by cases hmem)
  caller := fun _ heq => (by cases heq)
  gate := by
    cases initiallyQuiesced with
    | true => exact fun heq => by cases heq
    | false => exact fun _ => rfl
  begun := fun hpositive => (by cases hpositive)
  once := Nat.zero_le 1
  reopening := fun _ heq => (by cases heq)
  rollingBack := fun _ _ heq => (by cases heq)
  places := fun _ => Nat.zero_le 1
  fresh := fun _ hpositive => (by cases hpositive)

theorem Ctl.next (h : Ctl (view s)) (hop : Unstopped op) (hnext : next s op = some t) :
    Ctl (view t) := by
  rcases next_cases h.caller hop hnext with ⟨env, _, hact⟩ | hcall
  · exact h.move (not_exited_of_act hact) (act_move hact)
  · exact h.call hcall

/-! ### Runs in which every rollback is waited for -/

/-- No handoff is under way, and none was asked for. -/
def Rests (v : View) : Prop := begins v = 0 ∧ v.queue.countP isHandoff = 0

/-- A handoff that is waited for. -/
inductive Begun (v : View) (reply : Nat) : Prop where
  | queued (before after : List PtyIoControlCommand)
      (hqueue : v.queue = before ++ .beginHandoff reply :: after)
      (hafter : after.countP isHandoff = 0)
  | working (hpc : handling v.pc = some reply) (hqueue : v.queue.countP isHandoff = 0)
  | parked (hpending : v.pending = some reply) (hqueue : v.queue.countP isHandoff = 0)
  | settled (hreply : v.replies.lookup reply = some none) (hstate : v.state = .quiesced)
      (hrests : Rests v)
  | refused (error : IoError) (hreply : v.replies.lookup reply = some (some error))
  | lost (hpc : v.pc = .exited) (hreply : v.replies.lookup reply = none)

structure Settled (v : View) : Prop where
  idle : v.caller = .idle → v.accepting = false → v.state = .quiesced ∧ Rests v
  beginning : ∀ reply, v.caller = .beginning reply → Begun v reply

/-- No handoff was asked for: not with the first command either. -/
theorem countP_isHandoff_tail {queue : List PtyIoControlCommand} (h : queue.countP isHandoff = 0)
    (hqueue : queue = command :: rest) : isHandoff command = false ∧ rest.countP isHandoff = 0 := by
  rw [hqueue, List.countP_cons] at h
  cases hcommand : isHandoff command with
  | false => exact ⟨rfl, by omega⟩
  | true =>
    rw [hcommand, if_pos rfl] at h
    omega

theorem Rests.handling (h : Rests v) : handling v.pc = none := by
  by_contra hsome
  have := begins_pos_of_handling hsome
  have := h.1
  omega

theorem Rests.pending (h : Rests v) : v.pending = none := by
  have hzero := h.1
  unfold begins at hzero
  cases hpending : v.pending with
  | none => rfl
  | some reply =>
    rw [hpending] at hzero
    simp at hzero

/-- An actor at rest stays as it is. -/
theorem Rests.move (h : Rests v) (hplain : Plain v) (hmove : Move v w) :
    Rests w ∧ w.state = v.state ∧ w.replies = v.replies := by
  have hhandling := h.handling
  have hbegins := hmove.begins_le hplain
  have hzero := h.1
  cases hmove with
  | walk pc hpc => exact ⟨⟨by omega, h.2⟩, rfl, rfl⟩
  | take reply rest pc hqueue => cases (countP_isHandoff_tail h.2 hqueue).1
  | delay reply rest pc hqueue => cases (countP_isHandoff_tail h.2 hqueue).1
  | skip command rest hqueue hcommand =>
    exact ⟨⟨by omega, (countP_isHandoff_tail h.2 hqueue).2⟩, rfl, rfl⟩
  | rollback reply rest hqueue => cases (countP_isHandoff_tail h.2 hqueue).1
  | stop _ command rest hqueue hstop => exact absurd hstop (hplain.not_stopped hqueue)
  | park reply pc hbefore =>
    rw [hhandling] at hbefore
    cases hbefore
  | resume reply pc hpending =>
    rw [h.pending] at hpending
    cases hpending
  | quiesce reply pc hbefore =>
    rw [hhandling] at hbefore
    cases hbefore
  | fail reply error pc hbefore =>
    rw [hhandling] at hbefore
    cases hbefore
  | exit hpc => exact ⟨⟨rfl, rfl⟩, rfl, rfl⟩

theorem Move.lookup (h : Move v w) (hplain : Plain v)
    (hreply : v.replies.lookup reply = some result) : w.replies.lookup reply = some result := by
  cases h with
  | rollback => exact lookup_append_of_some _ hreply
  | stop after command rest hqueue h => exact absurd h (hplain.not_stopped hqueue)
  | quiesce => exact lookup_append_of_some _ hreply
  | fail => exact lookup_append_of_some _ hreply
  | _ => exact hreply

/-- While a reply channel is with a handoff, nothing was sent to it. -/
theorem Ctl.not_replied_of_begun (h : Ctl v)
    (hwhere : handling v.pc = some reply ∨ v.pending = some reply) :
    (v.replies.map Prod.fst).count reply = 0 := by
  have hone := h.places reply
  unfold Handoff.places at hone
  rcases hwhere with hpc | hpending
  · rw [hpc, Option.toList_some, List.count_singleton_self] at hone
    omega
  · rw [hpending, Option.toList_some, List.count_singleton_self] at hone
    omega

/-- A handoff that is put off is not under way. -/
theorem Ctl.not_handling {other : Nat} (h : Ctl v) (hpending : v.pending = some reply) :
    handling v.pc ≠ some other := by
  intro hpc
  have honce := h.once
  unfold begins at honce
  rw [hpending, hpc] at honce
  simp at honce

theorem Begun.working_move (hctl : Ctl v) (hpc : handling v.pc = some reply)
    (hqueue : v.queue.countP isHandoff = 0) (hmove : Move v w) : Begun w reply := by
  have hplain : Plain v := ⟨hctl.live, hctl.plain⟩
  have hnot := hctl.not_replied_of_begun (Or.inl hpc)
  have honce := hctl.once
  cases hmove with
  | walk pc h => exact .working (h.trans hpc) hqueue
  | take _ _ _ _ hbefore =>
    rw [hpc] at hbefore
    cases hbefore
  | delay _ _ _ _ hbefore =>
    rw [hpc] at hbefore
    cases hbefore
  | skip command rest hfirst => exact .working hpc (countP_isHandoff_tail hqueue hfirst).2
  | rollback _ _ _ hbefore =>
    rw [hpc] at hbefore
    cases hbefore
  | stop _ command rest hfirst h => exact absurd h (hplain.not_stopped hfirst)
  | park other pc hbefore =>
    rw [hpc] at hbefore
    cases hbefore
    exact .parked rfl hqueue
  | resume _ _ _ hbefore =>
    rw [hpc] at hbefore
    cases hbefore
  | quiesce other pc hbefore h =>
    rw [hpc] at hbefore
    cases hbefore
    refine .settled (lookup_append_self none hnot) rfl ⟨?_, hqueue⟩
    -- there was no other handoff
    unfold begins at honce ⊢
    rw [hpc] at honce
    dsimp only
    rw [h]
    simp only [Option.toList_some, Option.toList_none, List.length_singleton, List.length_nil]
      at honce ⊢
    omega
  | fail other error pc hbefore =>
    rw [hpc] at hbefore
    cases hbefore
    exact .refused error (lookup_append_self (some error) hnot)
  | exit h =>
    rw [hpc] at h
    cases h

theorem Begun.parked_move (hctl : Ctl v) (hpending : v.pending = some reply)
    (hqueue : v.queue.countP isHandoff = 0) (hmove : Move v w) : Begun w reply := by
  have hplain : Plain v := ⟨hctl.live, hctl.plain⟩
  have hnot := hctl.not_replied_of_begun (Or.inr hpending)
  cases hmove with
  | walk pc h => exact .parked hpending hqueue
  | take _ _ _ hfirst => cases (countP_isHandoff_tail hqueue hfirst).1
  | delay _ _ _ hfirst => cases (countP_isHandoff_tail hqueue hfirst).1
  | skip command rest hfirst => exact .parked hpending (countP_isHandoff_tail hqueue hfirst).2
  | rollback _ _ hfirst => cases (countP_isHandoff_tail hqueue hfirst).1
  | stop _ command rest hfirst h => exact absurd h (hplain.not_stopped hfirst)
  | park other pc hbefore => exact absurd hbefore (hctl.not_handling hpending)
  | resume other pc hother hbefore h =>
    rw [hpending] at hother
    cases hother
    exact .working h hqueue
  | quiesce other pc hbefore => exact absurd hbefore (hctl.not_handling hpending)
  | fail other error pc hbefore => exact absurd hbefore (hctl.not_handling hpending)
  | exit h => exact .lost rfl (lookup_of_count hnot)

theorem Begun.queued_move {before after : List PtyIoControlCommand} (hctl : Ctl v)
    (hqueue : v.queue = before ++ .beginHandoff reply :: after)
    (hafter : after.countP isHandoff = 0) (hmove : Move v w) : Begun w reply := by
  have hplain : Plain v := ⟨hctl.live, hctl.plain⟩
  cases hmove with
  | walk pc h => exact .queued before after hqueue hafter
  | take other rest pc hfirst hbefore h =>
    cases before with
    | nil =>
      cases hfirst.symm.trans hqueue
      exact .working h hafter
    | cons head shorter =>
      exact .queued shorter after (List.cons.inj (hfirst.symm.trans hqueue)).2 hafter
  | delay other rest pc hfirst hbefore h =>
    cases before with
    | nil =>
      cases hfirst.symm.trans hqueue
      exact .parked rfl hafter
    | cons head shorter =>
      exact .queued shorter after (List.cons.inj (hfirst.symm.trans hqueue)).2 hafter
  | skip command rest hfirst hcommand =>
    have hne : command ≠ .beginHandoff reply := by
      rcases hcommand with rfl | rfl
      · exact fun heq => by cases heq
      · exact fun heq => by cases heq
    obtain ⟨shorter, hrest⟩ := split_of_cons (hfirst.symm.trans hqueue) hne
    exact .queued shorter after hrest hafter
  | rollback other rest hfirst =>
    obtain ⟨shorter, hrest⟩ := split_of_cons (hfirst.symm.trans hqueue) (fun heq => by cases heq)
    exact .queued shorter after hrest hafter
  | stop _ command rest hfirst h => exact absurd h (hplain.not_stopped hfirst)
  | park => exact .queued before after hqueue hafter
  | resume => exact .queued before after hqueue hafter
  | quiesce => exact .queued before after hqueue hafter
  | fail => exact .queued before after hqueue hafter
  | exit h =>
    have hnot := hctl.not_replied (hqueue ▸ List.mem_append_right before List.mem_cons_self) rfl
    exact .lost rfl (lookup_of_count hnot)

theorem Begun.move (h : Begun v reply) (hctl : Ctl v) (hpc : v.pc ≠ .exited) (hmove : Move v w) :
    Begun w reply := by
  have hplain : Plain v := ⟨hctl.live, hctl.plain⟩
  cases h with
  | queued before after hqueue hafter => exact queued_move hctl hqueue hafter hmove
  | working hhandling hqueue => exact working_move hctl hhandling hqueue hmove
  | parked hpending hqueue => exact parked_move hctl hpending hqueue hmove
  | settled hreply hstate hrests =>
    obtain ⟨hrests', hsame, hreplies⟩ := hrests.move hplain hmove
    exact .settled (hreplies ▸ hreply) (hsame.trans hstate) hrests'
  | refused error hreply => exact .refused error (hmove.lookup hplain hreply)
  | lost hexited hreply => exact absurd hexited hpc

theorem Begun.append (h : Begun v reply) (next : Nat) (hextra : extra.countP isHandoff = 0)
    (hbegin : extra.countP isBegin = 0) :
    Begun { v with queue := v.queue ++ extra, nextReply := next } reply := by
  have hcount : v.queue.countP isHandoff = 0 → (v.queue ++ extra).countP isHandoff = 0 := by
    intro hzero
    rw [List.countP_append, hzero, hextra]
  cases h with
  | queued before after hqueue hafter =>
    refine .queued before (after ++ extra) ?_ ?_
    · rw [hqueue, List.append_assoc]
      rfl
    · rw [List.countP_append, hafter, hextra]
  | working hpc hqueue => exact .working hpc (hcount hqueue)
  | parked hpending hqueue => exact .parked hpending (hcount hqueue)
  | settled hreply hstate hrests =>
    refine .settled hreply hstate ⟨?_, hcount hrests.2⟩
    have hzero := hrests.1
    unfold begins at hzero ⊢
    rw [List.countP_append, hbegin]
    exact hzero
  | refused error hreply => exact .refused error hreply
  | lost hpc hreply => exact .lost hpc hreply

/-- The reply to a handoff that is waited for. -/
theorem Begun.of_reply (h : Begun v reply) (hctl : Ctl v)
    (hreply : v.replies.lookup reply = some none) : v.state = .quiesced ∧ Rests v := by
  have hcount := count_of_lookup hreply
  cases h with
  | queued before after hqueue hafter =>
    have hnot := hctl.not_replied (hqueue ▸ List.mem_append_right before List.mem_cons_self) rfl
    omega
  | working hpc hqueue =>
    have hnot := hctl.not_replied_of_begun (Or.inl hpc)
    omega
  | parked hpending hqueue =>
    have hnot := hctl.not_replied_of_begun (Or.inr hpending)
    omega
  | settled _ hstate hrests => exact ⟨hstate, hrests⟩
  | refused error hother =>
    rw [hreply] at hother
    cases hother
  | lost hpc hnone =>
    rw [hreply] at hnone
    cases hnone

theorem Settled.move (h : Settled v) (hctl : Ctl v) (hpc : v.pc ≠ .exited) (hmove : Move v w) :
    Settled w := by
  have hplain : Plain v := ⟨hctl.live, hctl.plain⟩
  obtain ⟨haccepting, hcaller, _⟩ := hmove.frame hplain
  constructor
  · intro hidle hclosed
    rw [hcaller] at hidle
    rw [haccepting] at hclosed
    obtain ⟨hstate, hrests⟩ := h.idle hidle hclosed
    obtain ⟨hrests', hsame, _⟩ := hrests.move hplain hmove
    exact ⟨hsame.trans hstate, hrests'⟩
  · intro reply hbeginning
    rw [hcaller] at hbeginning
    exact (h.beginning reply hbeginning).move hctl hpc hmove

/-- Commands that are no handoff go into the queue. -/
theorem Settled.append (h : Settled v) (next : Nat) (hextra : extra.countP isHandoff = 0)
    (hbegin : extra.countP isBegin = 0) :
    Settled { v with queue := v.queue ++ extra, nextReply := next } := by
  constructor
  · intro hidle hclosed
    obtain ⟨hstate, hzero, hqueue⟩ := h.idle hidle hclosed
    refine ⟨hstate, ?_, ?_⟩
    · unfold begins at hzero ⊢
      rw [List.countP_append, hbegin]
      exact hzero
    · rw [List.countP_append, hqueue, hextra]
  · exact fun reply hbeginning => (h.beginning reply hbeginning).append next hextra hbegin

theorem Settled.call (h : Settled v) (hctl : Ctl v) (hwatched : ¬ abandoned)
    (hcall : Call abandoned v w) : Settled w := by
  cases hcall with
  | none => exact h
  | fresh =>
    have hnone : ([] : List PtyIoControlCommand).countP isHandoff = 0 := rfl
    have hnext := h.append (v.nextReply + 1) hnone rfl
    rw [List.append_nil] at hnext
    exact hnext
  | ask command hcommand =>
    rcases hcommand with rfl | rfl
    · exact h.append _ rfl rfl
    · exact h.append _ rfl rfl
  | begin hcaller hopen hpc =>
    refine ⟨fun heq => (by cases heq), ?_⟩
    intro reply hbeginning
    cases hbeginning
    exact .queued v.queue [] rfl rfl
  | rollback cause hcaller hpc => exact ⟨fun heq => (by cases heq), fun _ heq => (by cases heq)⟩
  | deserted habandoned => exact absurd habandoned hwatched
  | began reply hcaller hreply =>
    exact ⟨fun _ _ => (h.beginning reply hcaller).of_reply hctl hreply,
      fun _ heq => (by cases heq)⟩
  | answered reply cause hcaller hreply =>
    exact ⟨fun heq => (by cases heq), fun _ heq => (by cases heq)⟩
  | denied reply cause error hcaller hreply =>
    -- a rollback is never refused
    cases ((hctl.rollingBack reply cause hcaller).of_reply hctl hreply).1
  | gaveUp hwhy =>
    cases hwhy with
    | inl hopen =>
      refine ⟨fun _ hclosed => ?_, fun _ heq => (by cases heq)⟩
      change v.accepting = false at hclosed
      rw [hopen] at hclosed
      cases hclosed
    | inr habandoned => exact absurd habandoned hwatched
  | reopen cause hcaller =>
    exact ⟨fun _ hclosed => (by cases hclosed), fun _ heq => (by cases heq)⟩

theorem Settled.spawn (initiallyQuiesced : Bool) : Settled (view (spawn initiallyQuiesced)) := by
  refine ⟨fun _ hclosed => ?_, fun _ heq => (by cases heq)⟩
  cases initiallyQuiesced with
  | true => exact ⟨rfl, rfl, rfl⟩
  | false => cases hclosed

/-! ### The gate -/

def Spawned (s : State) : Prop := ∃ initiallyQuiesced, s = spawn initiallyQuiesced

/-- No call is under way, and the actor has nothing to look at. -/
def Quiescent (s : State) : Prop :=
  s.caller = .idle ∧ s.dataQueue = [] ∧ s.controlQueue = [] ∧ s.pendingHandoff = none

/-- The actor is not stopped, and no rollback is abandoned. -/
def Watched (s : State) (op : Op) : Prop := Unstopped op ∧ abandons s op = false

theorem settled_of_reachable (h : Reachable Spawned Watched step s) :
    Ctl (view s) ∧ Settled (view s) := by
  refine h.invariant (fun s => Ctl (view s) ∧ Settled (view s)) ?_ ?_
  · rintro _ ⟨initiallyQuiesced, rfl⟩
    exact ⟨Ctl.spawn initiallyQuiesced, Settled.spawn initiallyQuiesced⟩
  · intro s op t answer hop hstep hinv
    obtain ⟨after, hnext, heq⟩ := Option.map_eq_some_iff.mp hstep
    cases heq
    refine ⟨hinv.1.next hop.1 hnext, ?_⟩
    rcases next_cases hinv.1.caller hop.1 hnext with ⟨env, _, hact⟩ | hcall
    · exact hinv.2.move hinv.1 (not_exited_of_act hact) (act_move hact)
    · exact hinv.2.call hinv.1 (by rw [hop.2]; exact Bool.false_ne_true) hcall

/-- The gate is only open when the actor runs, and in a state at rest it is open then. -/
theorem gate_follows_actor {s : State} (h : Reachable Spawned Watched step s) :
    (s.accepting = true → s.state = .running) ∧
      (Quiescent s → (s.accepting = true ↔ s.state = .running)) := by
  obtain ⟨hctl, hsettled⟩ := settled_of_reachable h
  refine ⟨hctl.gate, fun hquiescent => ⟨hctl.gate, fun hrunning => ?_⟩⟩
  cases hopen : s.accepting with
  | true => rfl
  | false =>
    have hquiesced : s.state = .quiesced := (hsettled.idle hquiescent.1 hopen).1
    rw [hrunning] at hquiesced
    cases hquiesced

/-! ### A handoff that succeeds, and one that is given up -/

/-- Nothing is ready, and nothing can be written. -/
def blocked (now : Nat) : Env where
  now := now
  write := .wouldBlock
  read := .wouldBlock
  poll := .ok ⟨false, false, false⟩
  drainWake := none

def unstopped : Op → Bool
  | .releaseAfterCommit => false
  | .shutdown => false
  | _ => true

theorem unstopped_of_test (h : unstopped op = true) : Unstopped op := by
  constructor
  · rintro rfl
    cases h
  · rintro rfl
    cases h

/-- Handing off an idle pane. -/
def handoffRun : List Op :=
  [.beginHandoff] ++ List.replicate 6 (.act (blocked 0)) ++ [.receive]

/-- The gate is closed and the actor is quiesced. -/
theorem gate_follows_actor_handoff : ∃ s : State,
    (Quiescent s ∧ s.state = .quiesced) ∧ (s.accepting = true ↔ s.state = .running) := by
  have hrun : (runAll (guarded (fun s op => unstopped op && !abandons s op) step) (spawn false)
      handoffRun).any (fun s => s.caller = .idle && s.dataQueue = [] && s.controlQueue = [] &&
        s.pendingHandoff = none && s.state = .quiesced) = true := by
    decide +kernel
  obtain ⟨s, hsome, hends⟩ := (Option.any_eq_true _ _).mp hrun
  simp only [Bool.and_eq_true, decide_eq_true_eq] at hends
  obtain ⟨⟨⟨⟨hcaller, hdata⟩, hcontrol⟩, hpending⟩, hstate⟩ := hends
  have hquiescent : Quiescent s := ⟨hcaller, hdata, hcontrol, hpending⟩
  have hreachable : Reachable Spawned Watched step s := by
    refine Reachable.runAll ?_ (.start ⟨false, rfl⟩) hsome
    intro s op htest
    rw [Bool.and_eq_true, Bool.not_eq_true'] at htest
    exact ⟨unstopped_of_test htest.1, htest.2⟩
  exact ⟨s, ⟨hquiescent, hstate⟩, (gate_follows_actor hreachable).2 hquiescent⟩

/-- The child does not read its input. The caller waits one second for the handoff and one for the
rollback, and the actor tries to write for two seconds before it looks at the rollback. -/
def givenUpRun : List Op :=
  [.tryWriteUserInput [120], .beginHandoff] ++ List.replicate 6 (.act (blocked 0)) ++
    [.expire, .expire, .act (blocked 2000), .act (blocked 2000)]

/-- The pane runs and refuses all input. -/
theorem gate_left_closed : ¬ ∀ s : State,
    Reachable Spawned (fun _ op => Unstopped op) step s → Quiescent s →
      (s.accepting = true ↔ s.state = .running) := by
  intro hall
  have hrun : (runAll (guarded (fun _ op => unstopped op) step) (spawn false) givenUpRun).any
      (fun s => s.caller = .idle && s.dataQueue = [] && s.controlQueue = [] &&
        s.pendingHandoff = none && s.state = .running && !s.accepting) = true := by
    decide +kernel
  obtain ⟨s, hsome, hends⟩ := (Option.any_eq_true _ _).mp hrun
  simp only [Bool.and_eq_true, decide_eq_true_eq, Bool.not_eq_true'] at hends
  obtain ⟨⟨⟨⟨⟨hcaller, hdata⟩, hcontrol⟩, hpending⟩, hstate⟩, hclosed⟩ := hends
  have hreachable : Reachable Spawned (fun _ op => Unstopped op) step s :=
    Reachable.runAll (fun _ _ => unstopped_of_test) (.start ⟨false, rfl⟩) hsome
  have hopen := (hall s hreachable ⟨hcaller, hdata, hcontrol, hpending⟩).mpr hstate
  rw [hclosed] at hopen
  cases hopen

end Herden.Proofs.Pty.Handoff
