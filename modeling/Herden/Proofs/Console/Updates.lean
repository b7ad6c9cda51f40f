import Herden.Lib.Run
import Herden.App.HostConsole

/-!
# `Herden.Proofs.Console.Updates`: what the Console learns of updates that were shed

`yieldUpdate` writes a drop marker after every update that the bounded stream sheds. The marker
makes the Console take a new snapshot, but only while its status is `connected`. A status can be
shed like any other update. When the newest status is shed, the Console keeps an older one, and when
the lost status is `connected` it ignores the marker too: `connected_lost` is such a run, after
which the Console shows the Host as connecting and asks for nothing.

`KeepsStatus` says that a yield does not shed the newest status. `shedding_is_announced` is about
whole runs: while every yield keeps it, a consumer that has drained the stream has the last status,
and a snapshot request follows every shed update of a connected Host.

The buffered updates decide what the Console will know: `statusAfter` is its status once it has
handled them, and a `connected` or a marker among them makes it ask (`Inv.due`).
-/

namespace Herden.Proofs.Console.Updates

open Herden.Lib (Reachable runAll guarded)
open Herden.App.Events
open Herden.App.HostConsole

/-! ### The session, the stream and the Console -/

/-- The stream and the projection, with two facts about the past: the last status that was yielded,
and whether an update was shed since the last snapshot request began. -/
structure System where
  stream : UpdateStream
  projection : HostConsoleProjection
  lastStatus : Option EventsSessionStatus
  shed : Bool

inductive Op where
  | yieldUpdate (update : EventsSessionUpdate)
  | next
  | handle
  | resync
  | beginResync
  | respond (answer : Option SessionSnapshot)
  | finishResync
  | retryResync

def start (limit : Nat) : System := ⟨.new limit, .new, none, false⟩

def isStatus : EventsSessionUpdate → Bool
  | .status _ => true
  | .event _ => false

/-- The status that an update leaves. -/
def statusOf (current : Option EventsSessionStatus) :
    EventsSessionUpdate → Option EventsSessionStatus
  | .status status => some status
  | .event _ => current

/-- The answer that the resync task gets, whatever it waits for. -/
def advance (answer : Option SessionSnapshot) (p : HostConsoleProjection) :
    HostConsoleProjection :=
  match p.resyncTask with
  | none => p
  | some .scheduled => p.beginResync
  | some (.requesting epoch revision) => p.respond epoch revision answer
  | some .updating => p.finishResync

/-- A step; one that does not apply leaves the system as it is. `resync` is a request by another
part of the Console, after a command of its own. -/
def step (s : System) : Op → System
  | .yieldUpdate update =>
    { s with
      stream := (yieldUpdate s.stream update).1
      lastStatus := statusOf s.lastStatus update
      shed := s.shed || !(yieldUpdate s.stream update).2.isEmpty }
  | .next =>
    if s.stream.waiting ∨ s.stream.handed.isSome then s
    else { s with stream := s.stream.next }
  | .handle =>
    match s.stream.handed with
    | none => s
    | some update =>
      { s with
        stream := { s.stream with handed := none }
        projection := s.projection.handle update }
  | .resync => { s with projection := s.projection.scheduleResync }
  | .beginResync =>
    match s.projection.resyncTask with
    | some .scheduled => { s with projection := s.projection.beginResync, shed := false }
    | _ => s
  | .respond answer =>
    match s.projection.resyncTask with
    | some (.requesting epoch revision) =>
      { s with projection := s.projection.respond epoch revision answer }
    | _ => s
  | .finishResync =>
    match s.projection.resyncTask with
    | some .updating => { s with projection := s.projection.finishResync }
    | _ => s
  | .retryResync => { s with projection := s.projection.retryResync }

def machine (s : System) (op : Op) : Option (System × Unit) := some (step s op, ())

/-! ### What is promised -/

/-- The consumer has handled everything that was yielded. -/
def Drained (s : System) : Prop := s.stream.pending = [] ∧ s.stream.handed = none

/-- The resync task makes another request by its own steps, whatever its answers are. -/
def AsksAgain (p : HostConsoleProjection) : Prop :=
  ∀ answer, ∃ steps, p.snapshotRequestGeneration
    < ((advance answer)^[steps] p).snapshotRequestGeneration

/-- Shedding is not silent. -/
structure Announced (s : System) : Prop where
  status : Drained s → s.projection.status = s.lastStatus
  asks : Drained s → s.lastStatus = some .connected → s.shed = true → AsksAgain s.projection

/-- An event that finds the buffer full sheds the two oldest updates. The newest status is not one
of them: they hold no status, or a status follows them. -/
def KeepsStatus (s : System) : Op → Prop
  | .yieldUpdate update =>
    isStatus update = false → s.stream.waiting = false →
      s.stream.limit ≤ s.stream.pending.length →
        (s.stream.pending.take 2).any isStatus = true →
          (s.stream.pending.drop 2).any isStatus = true
  | _ => True

/-! ### Statuses in a list of updates -/

/-- The status after a list of updates. -/
def statusAfter (current : Option EventsSessionStatus) (updates : List EventsSessionUpdate) :
    Option EventsSessionStatus :=
  updates.foldl statusOf current

@[simp] theorem statusAfter_nil (current : Option EventsSessionStatus) :
    statusAfter current [] = current := rfl

@[simp] theorem statusAfter_cons (current : Option EventsSessionStatus)
    (update : EventsSessionUpdate) (updates : List EventsSessionUpdate) :
    statusAfter current (update :: updates) = statusAfter (statusOf current update) updates := rfl

@[simp] theorem statusAfter_append (current : Option EventsSessionStatus)
    (first second : List EventsSessionUpdate) :
    statusAfter current (first ++ second) = statusAfter (statusAfter current first) second :=
  List.foldl_append

variable {update : EventsSessionUpdate} {updates : List EventsSessionUpdate}
  {p : HostConsoleProjection} {limit : Nat} {s : System}

/-- An event leaves the status. -/
theorem statusOf_of_event (hevent : isStatus update = false)
    (current : Option EventsSessionStatus) : statusOf current update = current := by
  cases update with
  | status status => cases hevent
  | event event => rfl

/-- After a list with a status in it, what stood before does not matter. -/
theorem statusAfter_of_any (hany : updates.any isStatus = true) (x y : Option EventsSessionStatus) :
    statusAfter x updates = statusAfter y updates := by
  induction updates generalizing x y with
  | nil => cases hany
  | cons update updates ih =>
    cases update with
    | status status => rfl
    | event event =>
      simp only [List.any_cons, isStatus, Bool.false_or] at hany
      exact ih hany x y

/-- Without a status the list leaves what stood before. -/
theorem statusAfter_of_not_any (hnone : updates.any isStatus = false)
    (x : Option EventsSessionStatus) : statusAfter x updates = x := by
  induction updates generalizing x with
  | nil => rfl
  | cons update updates ih =>
    simp only [List.any_cons, Bool.or_eq_false_iff] at hnone
    rw [statusAfter_cons, statusOf_of_event hnone.1]
    exact ih hnone.2 x

/-- A status that the list leaves and that did not stand before is in the list. -/
theorem mem_of_statusAfter {x : Option EventsSessionStatus} {status : EventsSessionStatus}
    (hafter : statusAfter x updates = some status) (hbefore : x ≠ some status) :
    .status status ∈ updates := by
  induction updates generalizing x with
  | nil => exact absurd hafter hbefore
  | cons update updates ih =>
    by_cases hset : statusOf x update = some status
    · cases update with
      | status other =>
        cases hset
        exact List.mem_cons_self
      | event event => exact absurd hset hbefore
    · exact List.mem_cons_of_mem _ (ih hafter hset)

/-! ### The invariant -/

/-- What the consumer has yet to handle. -/
def unhandled (stream : UpdateStream) : List EventsSessionUpdate :=
  stream.handed.toList ++ stream.pending

/-- The updates after which a connected Console asks for a snapshot. -/
def asking : EventsSessionUpdate → Bool
  | .status .connected => true
  | .event .eventsDropped => true
  | _ => false

/-- The stream keeps its limit, and a consumer that waits has taken everything. -/
structure Bounded (limit : Nat) (stream : UpdateStream) : Prop where
  limit_eq : stream.limit = limit
  length_le : stream.pending.length ≤ limit
  waits : stream.waiting = true → stream.pending = [] ∧ stream.handed = none

/-- The projection has not ended, and only a connected Console with a task keeps a request back. -/
structure Sound (p : HostConsoleProjection) : Prop where
  open_ : p.hasEnded = false
  pending : p.resyncPending = true → p.status = some .connected ∧ p.resyncTask.isSome = true

/-- A request is to come. -/
def RequestDue (p : HostConsoleProjection) : Prop :=
  p.resyncTask = some .scheduled ∨ p.resyncPending = true

structure Inv (limit : Nat) (s : System) : Prop where
  bounded : Bounded limit s.stream
  sound : Sound s.projection
  status : statusAfter s.projection.status (unhandled s.stream) = s.lastStatus
  due : s.shed = true → s.lastStatus = some .connected →
    RequestDue s.projection ∨ (unhandled s.stream).any asking = true

/-! ### The projection's operations -/

theorem Sound.connected (hsound : Sound p) (failure : Option TransportError) :
    Sound { p with status := some .connected, standingFailure := failure } :=
  ⟨hsound.open_, fun hpending => ⟨rfl, (hsound.pending hpending).2⟩⟩

/-- `scheduleResync` of a connected Console makes a request due. -/
theorem scheduleResync_due (hsound : Sound p) (hconnected : p.status = some .connected) :
    RequestDue p.scheduleResync := by
  unfold HostConsoleProjection.scheduleResync
  rw [if_neg (by simp [hsound.open_, hconnected])]
  split
  · exact .inr rfl
  · exact .inl rfl

/-- `scheduleResync` changes the task or the flag, or nothing. -/
theorem scheduleResync_keeps (hsound : Sound p) :
    Sound p.scheduleResync ∧ p.scheduleResync.status = p.status ∧
      (RequestDue p → RequestDue p.scheduleResync) := by
  unfold HostConsoleProjection.scheduleResync
  split
  next => exact ⟨hsound, rfl, id⟩
  next hopen =>
    have hconnected : p.status = some .connected := by
      by_contra hother
      exact hopen (.inr hother)
    split
    next htask => exact ⟨⟨hsound.open_, fun _ => ⟨hconnected, htask⟩⟩, rfl, fun _ => .inr rfl⟩
    next => exact ⟨⟨hsound.open_, fun _ => ⟨hconnected, rfl⟩⟩, rfl, fun _ => .inl rfl⟩

theorem applyStatusChange_keeps (change : Option StatusChange) :
    (p.applyStatusChange change).1.hasEnded = p.hasEnded ∧
      (p.applyStatusChange change).1.status = p.status ∧
      (p.applyStatusChange change).1.resyncTask = p.resyncTask ∧
      (p.applyStatusChange change).1.resyncPending = p.resyncPending := by
  unfold HostConsoleProjection.applyStatusChange
  cases change with
  | none => exact ⟨rfl, rfl, rfl, rfl⟩
  | some change =>
    dsimp only
    split
    · exact ⟨rfl, rfl, rfl, rfl⟩
    · exact ⟨rfl, rfl, rfl, rfl⟩

/-- An event leaves the status and a request that is due. -/
theorem handle_event (hsound : Sound p) (event : HerdrEvent) :
    Sound (p.handle (.event event)) ∧ (p.handle (.event event)).status = p.status ∧
      (RequestDue p → RequestDue (p.handle (.event event))) := by
  have hopen : ¬ p.hasEnded = true := by simp [hsound.open_]
  unfold HostConsoleProjection.handle
  rw [if_neg hopen]
  cases event with
  | global kind =>
    dsimp only
    split
    · exact scheduleResync_keeps hsound
    · exact ⟨hsound, rfl, id⟩
  | agentStatusChanged change =>
    obtain ⟨hended, hstatus, htask, hpending⟩ := applyStatusChange_keeps (p := p) change
    have hsound' : Sound (p.applyStatusChange change).1 :=
      ⟨hended.trans hsound.open_, by rw [hstatus, htask, hpending]; exact hsound.pending⟩
    have hdue : RequestDue p → RequestDue (p.applyStatusChange change).1 := by
      unfold RequestDue
      rw [htask, hpending]
      exact id
    dsimp only
    split
    · obtain ⟨hsound'', hstatus', hdue'⟩ := scheduleResync_keeps hsound'
      exact ⟨hsound'', hstatus'.trans hstatus, hdue' ∘ hdue⟩
    · exact ⟨hsound', hstatus, hdue⟩
  | other name => exact ⟨hsound, rfl, id⟩
  | eventsDropped => exact scheduleResync_keeps hsound

/-- A status becomes the Console's. -/
theorem handle_status (hsound : Sound p) (status : EventsSessionStatus) :
    Sound (p.handle (.status status)) ∧ (p.handle (.status status)).status = some status := by
  have hopen : ¬ p.hasEnded = true := by simp [hsound.open_]
  unfold HostConsoleProjection.handle
  rw [if_neg hopen]
  dsimp only
  split
  next hconnected =>
    subst hconnected
    obtain ⟨hsound', hstatus, -⟩ := scheduleResync_keeps (hsound.connected _)
    exact ⟨hsound', hstatus⟩
  next => exact ⟨⟨hsound.open_, fun hpending => by cases hpending⟩, rfl⟩

/-- The status after `handle` is the one that the update leaves. -/
theorem handle_keeps (hsound : Sound p) (update : EventsSessionUpdate) :
    Sound (p.handle update) ∧ (p.handle update).status = statusOf p.status update := by
  cases update with
  | status status => exact handle_status hsound status
  | event event =>
    obtain ⟨hsound', hstatus, -⟩ := handle_event hsound event
    exact ⟨hsound', hstatus⟩

/-- A Console that is connected after an asking update has a request due. -/
theorem handle_asking (hsound : Sound p) (hasking : asking update = true)
    (hconnected : statusOf p.status update = some .connected) : RequestDue (p.handle update) := by
  have hopen : ¬ p.hasEnded = true := by simp [hsound.open_]
  unfold HostConsoleProjection.handle
  rw [if_neg hopen]
  cases update with
  | status status =>
    cases hconnected
    exact scheduleResync_due (hsound.connected _) rfl
  | event event =>
    cases event with
    | eventsDropped => exact scheduleResync_due hsound hconnected
    | global kind => cases hasking
    | agentStatusChanged change => cases hasking
    | other name => cases hasking

/-- The end of the task starts the request that was kept back. -/
theorem finishResync_keeps (hsound : Sound p) :
    Sound p.finishResync ∧ p.finishResync.status = p.status ∧
      (p.resyncPending = true → p.finishResync.resyncTask = some .scheduled) := by
  have hopen : ¬ p.hasEnded = true := by simp [hsound.open_]
  unfold HostConsoleProjection.finishResync
  rw [if_neg hopen]
  dsimp only
  split
  next hpending =>
    obtain ⟨hconnected, -⟩ := hsound.pending hpending
    have hcleared : Sound { p with resyncTask := none, resyncPending := false } :=
      ⟨hsound.open_, fun hset => by cases hset⟩
    obtain ⟨hsound', hstatus, -⟩ := scheduleResync_keeps hcleared
    refine ⟨hsound', hstatus, fun _ => ?_⟩
    simp [HostConsoleProjection.scheduleResync, hconnected, hsound.open_]
  next hclear =>
    exact ⟨⟨hsound.open_, fun hset => absurd hset hclear⟩, rfl, fun hset => absurd hset hclear⟩

theorem scheduleSnapshotRetry_keeps (hsound : Sound p) :
    Sound p.scheduleSnapshotRetry ∧ p.scheduleSnapshotRetry.status = p.status ∧
      p.scheduleSnapshotRetry.resyncPending = p.resyncPending := by
  unfold HostConsoleProjection.scheduleSnapshotRetry
  split
  · exact ⟨hsound, rfl, rfl⟩
  · exact ⟨⟨hsound.open_, hsound.pending⟩, rfl, rfl⟩

/-- An answer ends the task, or leaves it with the session and keeps the flag. -/
theorem respond_keeps (hsound : Sound p) (epoch revision : Nat) (answer : Option SessionSnapshot) :
    Sound (p.respond epoch revision answer) ∧
      (p.respond epoch revision answer).status = p.status ∧
      (p.resyncPending = true → (p.respond epoch revision answer).resyncTask = some .scheduled ∨
        (p.respond epoch revision answer).resyncTask = some .updating ∧
          (p.respond epoch revision answer).resyncPending = true) := by
  unfold HostConsoleProjection.respond
  split
  next =>
    obtain ⟨hsound', hstatus, htask⟩ := finishResync_keeps hsound
    exact ⟨hsound', hstatus, fun hpending => .inl (htask hpending)⟩
  next =>
    cases answer with
    | some snapshot =>
      exact ⟨⟨hsound.open_, fun hset => ⟨(hsound.pending hset).1, rfl⟩⟩, rfl,
        fun hset => .inr ⟨rfl, hset⟩⟩
    | none =>
      obtain ⟨hretry, hstatus, hpending⟩ := scheduleSnapshotRetry_keeps hsound
      obtain ⟨hsound', hstatus', htask⟩ := finishResync_keeps hretry
      exact ⟨hsound', hstatus'.trans hstatus, fun hset => .inl (htask (hpending.trans hset))⟩

theorem retryResync_keeps (hsound : Sound p) :
    Sound p.retryResync ∧ p.retryResync.status = p.status ∧
      (RequestDue p → RequestDue p.retryResync) := by
  unfold HostConsoleProjection.retryResync
  split
  next => exact ⟨hsound, rfl, id⟩
  next =>
    have hcleared : Sound { p with resyncRetryScheduled := false } :=
      ⟨hsound.open_, hsound.pending⟩
    exact scheduleResync_keeps hcleared

/-! ### The task makes the request that is due -/

@[simp] theorem scheduleResync_generation (p : HostConsoleProjection) :
    p.scheduleResync.snapshotRequestGeneration = p.snapshotRequestGeneration := by
  unfold HostConsoleProjection.scheduleResync
  split
  · rfl
  · split
    · rfl
    · rfl

@[simp] theorem finishResync_generation (p : HostConsoleProjection) :
    p.finishResync.snapshotRequestGeneration = p.snapshotRequestGeneration := by
  unfold HostConsoleProjection.finishResync
  split
  · rfl
  · dsimp only
    split
    · exact scheduleResync_generation _
    · rfl

@[simp] theorem respond_generation (p : HostConsoleProjection) (epoch revision : Nat)
    (answer : Option SessionSnapshot) :
    (p.respond epoch revision answer).snapshotRequestGeneration
      = p.snapshotRequestGeneration := by
  unfold HostConsoleProjection.respond HostConsoleProjection.scheduleSnapshotRetry
  split
  · exact finishResync_generation p
  · cases answer with
    | some snapshot => rfl
    | none =>
      dsimp only
      split
      · exact finishResync_generation p
      · exact finishResync_generation _

/-- The task makes its request after `steps` steps. -/
def AsksIn (answer : Option SessionSnapshot) (steps : Nat) (p : HostConsoleProjection) : Prop :=
  p.snapshotRequestGeneration < ((advance answer)^[steps] p).snapshotRequestGeneration

theorem asksIn_of_scheduled (hscheduled : p.resyncTask = some .scheduled)
    (answer : Option SessionSnapshot) : AsksIn answer 1 p := by
  simp only [AsksIn, Function.iterate_one, advance, hscheduled]
  exact Nat.lt_succ_self _

/-- One step more, when the step is not the request. -/
theorem AsksIn.after {answer : Option SessionSnapshot} {steps : Nat}
    (hkeeps : (advance answer p).snapshotRequestGeneration = p.snapshotRequestGeneration)
    (hasks : AsksIn answer steps (advance answer p)) : AsksIn answer (steps + 1) p := by
  unfold AsksIn at *
  rw [Function.iterate_succ_apply, ← hkeeps]
  exact hasks

theorem asksIn_of_updating (hsound : Sound p) (hpending : p.resyncPending = true)
    (htask : p.resyncTask = some .updating) (answer : Option SessionSnapshot) :
    AsksIn answer 2 p := by
  have hadvance : advance answer p = p.finishResync := by
    simp only [advance, htask]
  refine AsksIn.after (by rw [hadvance]; simp) ?_
  rw [hadvance]
  exact asksIn_of_scheduled ((finishResync_keeps hsound).2.2 hpending) answer

theorem asksAgain_of_due (hsound : Sound p) (hdue : RequestDue p) : AsksAgain p := by
  intro answer
  obtain hscheduled | hpending := hdue
  · exact ⟨1, asksIn_of_scheduled hscheduled answer⟩
  obtain ⟨-, htask⟩ := hsound.pending hpending
  obtain ⟨task, htask⟩ := Option.isSome_iff_exists.mp htask
  cases task with
  | scheduled => exact ⟨1, asksIn_of_scheduled htask answer⟩
  | updating => exact ⟨2, asksIn_of_updating hsound hpending htask answer⟩
  | requesting epoch revision =>
    have hadvance : advance answer p = p.respond epoch revision answer := by
      simp only [advance, htask]
    have hkeeps : (advance answer p).snapshotRequestGeneration
        = p.snapshotRequestGeneration := by
      rw [hadvance]
      exact respond_generation p epoch revision answer
    obtain ⟨hsound', -, hnext⟩ := respond_keeps hsound epoch revision answer
    -- the answer ends the task, or the session takes the subscriptions first
    obtain hscheduled | ⟨hupdating, hpending'⟩ := hnext hpending
    · exact ⟨2, AsksIn.after hkeeps
        (by rw [hadvance]; exact asksIn_of_scheduled hscheduled answer)⟩
    · exact ⟨3, AsksIn.after hkeeps
        (by rw [hadvance]; exact asksIn_of_updating hsound' hpending' hupdating answer)⟩

/-! ### The stream's operations -/

/-- What a yield does to the stream and what it sheds. -/
theorem yieldUpdate_cases (hlimit : 2 ≤ limit) {stream : UpdateStream}
    (hbounded : Bounded limit stream) (update : EventsSessionUpdate) : (stream.waiting = true ∧
      yieldUpdate stream update = ({ stream with waiting := false, handed := some update }, [])) ∨
    (stream.waiting = false ∧ stream.pending.length < limit ∧
      yieldUpdate stream update = ({ stream with pending := stream.pending ++ [update] }, [])) ∨
    (∃ first second rest, stream.waiting = false ∧ stream.pending = first :: second :: rest ∧
      rest.length + 2 = limit ∧
      yieldUpdate stream update =
        ({ stream with pending := rest ++ [update, .event .eventsDropped] },
          [first, second])) := by
  cases hwaiting : stream.waiting with
  | true => exact .inl ⟨rfl, by simp [yieldUpdate, UpdateStream.yield, hwaiting]⟩
  | false =>
    by_cases hroom : stream.pending.length < limit
    · refine .inr (.inl ⟨rfl, hroom, ?_⟩)
      simp [yieldUpdate, UpdateStream.yield, hwaiting, hbounded.limit_eq, hroom]
    · have hlength : stream.pending.length = limit :=
        le_antisymm hbounded.length_le (not_lt.mp hroom)
      -- a full buffer of at least two loses its two oldest updates to the update and its marker
      match hpending : stream.pending with
      | [] => simp [hpending] at hlength; omega
      | [only] => simp [hpending] at hlength; omega
      | first :: second :: rest =>
        have hrest : rest.length + 2 = limit := by simpa [hpending] using hlength
        refine .inr (.inr ⟨first, second, rest, rfl, rfl, hrest, ?_⟩)
        simp [yieldUpdate, UpdateStream.yield, hwaiting, hbounded.limit_eq, hpending, ← hrest]

/-! ### Steps -/

/-- Shedding the two oldest updates for an event leaves the status, when the newest is kept. -/
theorem statusAfter_shed {handed rest : List EventsSessionUpdate}
    {first second : EventsSessionUpdate} (current : Option EventsSessionStatus)
    (hkeeps : isStatus update = false → [first, second].any isStatus = true →
      rest.any isStatus = true) :
    statusAfter current (handed ++ (rest ++ [update, .event .eventsDropped]))
      = statusOf (statusAfter current (handed ++ first :: second :: rest)) update := by
  simp only [statusAfter_append, statusAfter_cons, statusAfter_nil]
  cases hupdate : isStatus update with
  | true =>
    cases update with
    | status status => rfl
    | event event => cases hupdate
  | false =>
    simp only [statusOf_of_event hupdate]
    show statusAfter (statusAfter current handed) rest
      = statusAfter (statusAfter (statusAfter current handed) [first, second]) rest
    cases hany : [first, second].any isStatus with
    | true => exact statusAfter_of_any (hkeeps hupdate hany) _ _
    | false => rw [statusAfter_of_not_any hany]

/-- A status that becomes the last one is in the stream, and an event leaves what asks. -/
theorem any_asking_of_append {before after : List EventsSessionUpdate}
    {last : Option EventsSessionStatus} {due : Prop} (hafter : after = before ++ [update])
    (hbefore : last = some .connected → due ∨ before.any asking = true)
    (hlast : statusOf last update = some .connected) : due ∨ after.any asking = true := by
  subst hafter
  rw [List.any_append, Bool.or_eq_true]
  cases update with
  | status status =>
    cases hlast
    exact .inr (.inr rfl)
  | event event =>
    obtain hdue | hany := hbefore hlast
    · exact .inl hdue
    · exact .inr (.inl hany)

theorem inv_yieldUpdate (hlimit : 2 ≤ limit) (h : Inv limit s) (update : EventsSessionUpdate)
    (hkeeps : KeepsStatus s (.yieldUpdate update)) : Inv limit (step s (.yieldUpdate update)) := by
  obtain ⟨hwaiting, hyield⟩ | ⟨hwaiting, hroom, hyield⟩ |
    ⟨first, second, rest, hwaiting, hpending, hlength, hyield⟩ :=
      yieldUpdate_cases hlimit h.bounded update
  · obtain ⟨hempty, hnone⟩ := h.bounded.waits hwaiting
    have hunhandled : unhandled s.stream = [] := by simp [unhandled, hempty, hnone]
    have hstatus := h.status
    have hdue := h.due
    rw [hunhandled] at hstatus hdue
    simp only [step, hyield]
    refine ⟨⟨h.bounded.limit_eq, h.bounded.length_le, by simp⟩, h.sound, ?_, ?_⟩
    · rw [← hstatus]
      simp [unhandled, hempty]
    · intro hshed hlast
      have hafter : unhandled { s.stream with waiting := false, handed := some update }
          = [] ++ [update] := by simp [unhandled, hempty]
      exact any_asking_of_append hafter (hdue (by simpa using hshed)) hlast
  · have hunhandled : unhandled { s.stream with pending := s.stream.pending ++ [update] }
        = unhandled s.stream ++ [update] := by simp [unhandled]
    simp only [step, hyield]
    refine ⟨⟨h.bounded.limit_eq, ?_, ?_⟩, h.sound, ?_, ?_⟩
    · rw [List.length_append, List.length_singleton]
      exact hroom
    · intro htrue
      rw [hwaiting] at htrue
      cases htrue
    · rw [hunhandled, statusAfter_append, h.status]
      rfl
    · intro hshed hlast
      exact any_asking_of_append hunhandled (h.due (by simpa using hshed)) hlast
  · simp only [step, hyield]
    refine ⟨⟨h.bounded.limit_eq, ?_, ?_⟩, h.sound, ?_, ?_⟩
    · simp [← hlength]
    · intro htrue
      rw [hwaiting] at htrue
      cases htrue
    · rw [← h.status]
      simp only [unhandled, hpending]
      refine statusAfter_shed _ fun hevent hany => ?_
      have hfull : s.stream.limit ≤ s.stream.pending.length := by
        rw [h.bounded.limit_eq, hpending, ← hlength]
        simp
      simpa [hpending] using hkeeps hevent hwaiting hfull (by simpa [hpending] using hany)
    · intro _ _
      exact .inr (by simp [unhandled, asking])

theorem inv_next (h : Inv limit s) : Inv limit (step s .next) := by
  simp only [step]
  split
  next => exact h
  next hidle =>
    rw [not_or] at hidle
    have hnone : s.stream.handed = none := by simpa using hidle.2
    unfold UpdateStream.next
    match hpending : s.stream.pending with
    | [] =>
      have hunhandled : unhandled { s.stream with pending := [], waiting := true }
          = unhandled s.stream := by simp [unhandled, hpending]
      refine ⟨⟨h.bounded.limit_eq, Nat.zero_le _, fun _ => ⟨rfl, hnone⟩⟩, h.sound, ?_, ?_⟩
      · rw [← h.status, ← hunhandled]
      · intro hshed hlast
        have hdue := h.due hshed hlast
        rw [← hunhandled] at hdue
        exact hdue
    | update :: rest =>
      have hunhandled : unhandled { s.stream with pending := rest, handed := some update }
          = unhandled s.stream := by simp [unhandled, hnone, hpending]
      have hlength : rest.length ≤ limit := by
        have hle := h.bounded.length_le
        rw [hpending, List.length_cons] at hle
        omega
      refine ⟨⟨h.bounded.limit_eq, hlength, fun htrue => absurd htrue hidle.1⟩, h.sound, ?_, ?_⟩
      · rw [hunhandled]
        exact h.status
      · rw [hunhandled]
        exact h.due

theorem inv_handle (h : Inv limit s) : Inv limit (step s .handle) := by
  simp only [step]
  cases hhanded : s.stream.handed with
  | none => exact h
  | some update =>
    have hunhandled : unhandled s.stream = update :: s.stream.pending := by
      simp [unhandled, hhanded]
    have hrest : unhandled { s.stream with handed := none } = s.stream.pending := by
      simp [unhandled]
    obtain ⟨hsound, hstatus⟩ := handle_keeps h.sound update
    have hafter : statusAfter (s.projection.handle update).status s.stream.pending
        = s.lastStatus := by
      rw [hstatus, ← statusAfter_cons, ← hunhandled]
      exact h.status
    refine ⟨⟨h.bounded.limit_eq, h.bounded.length_le, fun hwaiting => ?_⟩, hsound, ?_, ?_⟩
    · exact ⟨(h.bounded.waits hwaiting).1, rfl⟩
    · rw [hrest]
      exact hafter
    · intro hshed hlast
      rw [hrest]
      by_cases hconnected : (s.projection.handle update).status = some .connected
      · obtain hdue | hany := h.due hshed hlast
        · cases update with
          | status status =>
            rw [hstatus] at hconnected
            cases hconnected
            exact .inl (handle_asking h.sound rfl rfl)
          | event event => exact .inl ((handle_event h.sound event).2.2 hdue)
        · rw [hunhandled, List.any_cons, Bool.or_eq_true] at hany
          obtain hhead | htail := hany
          · exact .inl (handle_asking h.sound hhead (hstatus.symm.trans hconnected))
          · exact .inr htail
      · -- the Console is not connected yet: the last status is among the updates to come
        have hmem : .status .connected ∈ s.stream.pending :=
          mem_of_statusAfter (hafter.trans hlast) hconnected
        exact .inr (List.any_eq_true.mpr ⟨_, hmem, rfl⟩)

/-- A step of the projection alone that keeps what is due. -/
theorem Inv.projection (h : Inv limit s) (hkeeps : Sound p ∧ p.status = s.projection.status ∧
      (RequestDue s.projection → RequestDue p)) : Inv limit { s with projection := p } := by
  obtain ⟨hsound, hstatus, hdue⟩ := hkeeps
  refine ⟨h.bounded, hsound, ?_, ?_⟩
  · rw [hstatus]
    exact h.status
  · intro hshed hlast
    exact (h.due hshed hlast).imp hdue id

theorem inv_step (hlimit : 2 ≤ limit) (h : Inv limit s) (op : Op) (hkeeps : KeepsStatus s op) :
    Inv limit (step s op) := by
  cases op with
  | yieldUpdate update => exact inv_yieldUpdate hlimit h update hkeeps
  | next => exact inv_next h
  | handle => exact inv_handle h
  | resync => exact h.projection (scheduleResync_keeps h.sound)
  | beginResync =>
    simp only [step]
    split
    next =>
      have hsound : Sound s.projection.beginResync :=
        ⟨h.sound.open_, fun hset => ⟨(h.sound.pending hset).1, rfl⟩⟩
      exact ⟨h.bounded, hsound, h.status, fun hshed => by cases hshed⟩
    next => exact h
  | respond answer =>
    simp only [step]
    split
    next epoch revision htask =>
      obtain ⟨hsound, hstatus, hpending⟩ := respond_keeps h.sound epoch revision answer
      refine h.projection ⟨hsound, hstatus, fun hdue => ?_⟩
      obtain hscheduled | hset := hdue
      · rw [htask] at hscheduled
        cases hscheduled
      · exact (hpending hset).imp id And.right
    next => exact h
  | finishResync =>
    simp only [step]
    split
    next htask =>
      obtain ⟨hsound, hstatus, hscheduled⟩ := finishResync_keeps h.sound
      refine h.projection ⟨hsound, hstatus, fun hdue => ?_⟩
      obtain hother | hset := hdue
      · rw [htask] at hother
        cases hother
      · exact .inl (hscheduled hset)
    next => exact h
  | retryResync => exact h.projection (retryResync_keeps h.sound)

theorem inv_start : Inv limit (start limit) := by
  refine ⟨⟨rfl, Nat.zero_le _, fun hwaiting => by cases hwaiting⟩, ⟨rfl, fun hset => by cases hset⟩,
    rfl, fun hshed => by cases hshed⟩

/-! ### Runs -/

/-- In every run of a buffer of at least two updates in which no yield sheds the newest status, a
consumer that has drained the stream has the last status, and when that is `connected` the Console
makes another snapshot request after every shed update. -/
theorem shedding_is_announced {limit : Nat} (hlimit : 2 ≤ limit) {s : System}
    (hreach : Reachable (· = start limit) KeepsStatus machine s) : Announced s := by
  have h : Inv limit s := by
    refine hreach.invariant (Inv limit) ?_ ?_
    · intro s hstart
      rw [hstart]
      exact inv_start
    · intro s op t answer hkeeps hstep h
      cases hstep
      exact inv_step hlimit h op hkeeps
  refine ⟨?_, ?_⟩
  · intro ⟨hpending, hhanded⟩
    have hstatus := h.status
    simpa [unhandled, hpending, hhanded] using hstatus
  · intro ⟨hpending, hhanded⟩ hlast hshed
    obtain hdue | hany := h.due hshed hlast
    · exact asksAgain_of_due h.sound hdue
    · simp [unhandled, hpending, hhanded] at hany

def keepsStatus (s : System) : Op → Bool
  | .yieldUpdate update =>
    isStatus update || s.stream.waiting || s.stream.pending.length < s.stream.limit ||
      !(s.stream.pending.take 2).any isStatus || (s.stream.pending.drop 2).any isStatus
  | _ => true

theorem keepsStatus_of_test (s : System) (op : Op) (htest : keepsStatus s op = true) :
    KeepsStatus s op := by
  cases op with
  | yieldUpdate update =>
    intro hevent hwaiting hfull hany
    simpa [keepsStatus, hevent, hwaiting, not_lt.mpr hfull, hany] using htest
  | _ => trivial

/-- The Host connects, the Console asks and gets its answer, and a burst of events then fills the
buffer of two. -/
def burst : List Op :=
  [.next, .yieldUpdate (.status .connected), .handle, .beginResync, .respond (some []),
    .finishResync, .yieldUpdate (.event (.other [])), .yieldUpdate (.event (.other [])),
    .yieldUpdate (.event (.other [])), .next, .handle, .next, .handle]

theorem shedding_is_announced_burst :
    ∃ s, Drained s ∧ s.lastStatus = some .connected ∧ s.shed = true ∧ Announced s := by
  have hrun : (runAll (guarded keepsStatus machine) (start 2) burst).any
      (fun s => decide (s.stream.pending = [] ∧ s.stream.handed = none ∧
        s.lastStatus = some .connected ∧ s.shed = true)) = true := by decide +kernel
  obtain ⟨s, hsome, hends⟩ := (Option.any_eq_true _ _).mp hrun
  obtain ⟨hpending, hhanded, hlast, hshed⟩ := of_decide_eq_true hends
  exact ⟨s, ⟨hpending, hhanded⟩, hlast, hshed,
    shedding_is_announced (by decide) (Reachable.runAll keepsStatus_of_test (.start rfl) hsome)⟩

/-- The Console has handled `connecting` when `connected` and two events arrive: the second event
finds the buffer full, and `connected` is the oldest update in it. -/
def lostStatus : List Op :=
  [.yieldUpdate (.status .connecting), .next, .handle, .yieldUpdate (.status .connected),
    .yieldUpdate (.event (.other [])), .yieldUpdate (.event (.other [])), .next, .handle, .next,
    .handle]

/-- The drained Console shows the Host as connecting, ignores the marker and has no request due. -/
theorem connected_lost : ∃ limit s, 2 ≤ limit ∧
    Reachable (· = start limit) (fun _ _ => True) machine s ∧ Drained s ∧
      s.lastStatus = some .connected ∧ s.shed = true ∧
        s.projection.status = some .connecting ∧ ¬ AsksAgain s.projection := by
  have hrun : (runAll (guarded (fun _ _ => true) machine) (start 2) lostStatus).any
      (fun s => decide (s.stream.pending = [] ∧ s.stream.handed = none ∧
        s.lastStatus = some .connected ∧ s.shed = true ∧
          s.projection.status = some .connecting ∧ s.projection.resyncTask = none)) = true := by
    decide +kernel
  obtain ⟨s, hsome, hends⟩ := (Option.any_eq_true _ _).mp hrun
  obtain ⟨hpending, hhanded, hlast, hshed, hstatus, htask⟩ := of_decide_eq_true hends
  refine ⟨2, s, le_rfl, Reachable.runAll (fun _ _ _ => trivial) (.start rfl) hsome,
    ⟨hpending, hhanded⟩, hlast, hshed, hstatus, ?_⟩
  intro hasks
  obtain ⟨steps, hlt⟩ := hasks none
  have hidle : advance none s.projection = s.projection := by simp [advance, htask]
  rw [Function.iterate_fixed hidle] at hlt
  exact lt_irrefl _ hlt

end Herden.Proofs.Console.Updates
