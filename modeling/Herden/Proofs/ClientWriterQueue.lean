import Herden.Lib.Ledger
import Herden.Lib.Run
import Herden.Runtime.ClientWriterQueue

/-!
# `Herden.Proofs.ClientWriterQueue`: what the writer thread receives

An observer of the queue's calls keeps two ledgers (`Lib.Ledger`): one of the accepted
control items, one of the accepted render-lane items (`trySendRender` and `sendOrdered`
together). It learns of an item when a send answers `ok`, settles the oldest pending item
of a lane when `recv` answers from that lane, and writes the render lane off on
`discardPendingRender` and on `closeWriter`. It never looks into the queue.

`reachable_accounted` says that along every interleaving the observer's books are right:
the pending entries are the queue's contents and the delivered entries are what `recv`
returned. So every accepted item is delivered at most once, in the order of its lane, and
no item leaves a lane except through `recv` or one of the two calls that drop the render
lane. Control items are never dropped.

`discardPendingRender` clears the ordered lane too: `discardPendingRender_drops_ordered`.
-/

namespace Herden.Proofs.ClientWriterQueue

open Herden.Lib (Fate Ledger Reachable)
open Herden.Runtime.ClientWriterQueue
open Herden.Runtime.ClientWriterQueue.ClientWriterQueueState (Op Answer)

/-! ### The observer -/

/-- The call that put an item into the render lane. -/
inductive Lane where
  | render
  | ordered

/-- What an observer of the calls wrote down. -/
structure History where
  control : Ledger Data
  lane : Ledger (Lane × Data)
  received : List ClientWriteItem

def History.empty : History := ⟨[], [], []⟩

/-- The observer's entry for one call and its answer. -/
def observe (history : History) : Op → Answer → History
  | .sendControl data, .sent .ok => { history with control := history.control.accept data }
  | .trySendRender data, .sent .ok =>
      { history with lane := history.lane.accept (.render, data) }
  | .sendOrdered data, .sent .ok =>
      { history with lane := history.lane.accept (.ordered, data) }
  | .recv, .received (.item (.control data)) =>
      { history with
        control := history.control.deliver
        received := history.received ++ [.control data] }
  | .recv, .received (.item (.render data)) =>
      { history with
        lane := history.lane.deliver
        received := history.received ++ [.render data] }
  | .discardPendingRender, _ => { history with lane := history.lane.dropPending }
  | .closeWriter, _ => { history with lane := history.lane.dropPending }
  | _, _ => history

/-- The queue and its observer. -/
abbrev Observed := ClientWriterQueueState × History

def observedStep (s : Observed) (op : Op) : Option (Observed × Answer) :=
  some (((s.1.step op).1, observe s.2 op (s.1.step op).2), (s.1.step op).2)

def Start (s : Observed) : Prop := s = (.new, .empty)

/-- The control items among the received ones. -/
def controlItems : List ClientWriteItem → List Data :=
  List.filterMap fun
    | .control data => some data
    | .render _ => none

/-- The render-lane items among the received ones. -/
def renderItems : List ClientWriteItem → List Data :=
  List.filterMap fun
    | .control _ => none
    | .render data => some data

/-- The render lane in the order `recv` empties it. -/
def renderLane (state : ClientWriterQueueState) : List Data :=
  state.ordered ++ state.render.toList

/-- The observer's books are right, and the lanes keep their bounds. -/
structure Accounted (s : Observed) : Prop where
  control_fifo : s.2.control.Fifo
  control_pending : s.2.control.withFate .pending = s.1.control
  control_delivered : s.2.control.withFate .delivered = controlItems s.2.received
  control_kept : s.2.control.withFate .dropped = []
  lane_fifo : s.2.lane.Fifo
  lane_pending : (s.2.lane.withFate .pending).map Prod.snd = renderLane s.1
  lane_delivered : (s.2.lane.withFate .delivered).map Prod.snd = renderItems s.2.received
  ordered_bound : s.1.ordered.length ≤ 2
  render_bound : s.1.render.toList.length ≤ 1

/-- A send that did not succeed. -/
def SendFailed : SendResult → Prop
  | .ok => False
  | _ => True

/-- What one call does to the queue beside the books: a failed send changes nothing, an item
of the render lane is only received when no control item is pending, and `recv` ends or waits
only when nothing is pending at all. -/
structure StepSpec (before after : ClientWriterQueueState) (answer : Answer) : Prop where
  failed_send : ∀ result, answer = .sent result → SendFailed result → after = before
  control_first : ∀ data, answer = .received (.item (.render data)) → before.control = []
  empty_recv : answer = .received .closed ∨ answer = .received .waiting →
    after = before ∧ before.control = [] ∧ renderLane before = []

/-! ### One lemma for each call -/

section Steps

variable {state : ClientWriterQueueState} {history : History}

theorem Accounted.sendControl (h : Accounted (state, history)) (data : Data) :
    Accounted ((state.sendControl data).1,
      observe history (.sendControl data) (.sent (state.sendControl data).2)) := by
  unfold ClientWriterQueueState.sendControl
  split
  · exact h
  · exact { h with
      control_fifo := h.control_fifo.accept data
      control_pending := by simp [observe, h.control_pending]
      control_delivered := by simp [observe, h.control_delivered]
      control_kept := by simp [observe, h.control_kept] }

/-- A render item is accepted only into an empty slot, behind everything ordered. -/
theorem Accounted.trySendRender (h : Accounted (state, history)) (data : Data) :
    Accounted ((state.trySendRender data).1,
      observe history (.trySendRender data) (.sent (state.trySendRender data).2)) := by
  unfold ClientWriterQueueState.trySendRender
  split
  · exact h
  split
  · exact h
  rename_i hslot
  have hnone : state.render = none := by simpa using hslot
  have hpending := h.lane_pending
  simp only [renderLane, hnone, Option.toList_none, List.append_nil] at hpending
  exact { h with
    lane_fifo := h.lane_fifo.accept (.render, data)
    lane_pending := by simp [observe, hpending, renderLane]
    lane_delivered := by simp [observe, h.lane_delivered]
    render_bound := by simp }

/-- An ordered item is accepted only into an empty lane. A render item that waits in its
slot goes ahead of it. -/
theorem Accounted.sendOrdered (h : Accounted (state, history)) (data : Data) :
    Accounted ((state.sendOrdered data).1,
      observe history (.sendOrdered data) (.sent (state.sendOrdered data).2)) := by
  unfold ClientWriterQueueState.sendOrdered
  split
  · exact h
  split
  · exact h
  rename_i hempty
  have hnil : state.ordered = [] := by simpa using hempty
  have hpending := h.lane_pending
  split
  · rename_i older holder
    simp only [renderLane, hnil, holder, Option.toList_some, List.nil_append] at hpending
    exact { h with
      lane_fifo := h.lane_fifo.accept (.ordered, data)
      lane_pending := by simp [observe, hpending, renderLane, hnil]
      lane_delivered := by simp [observe, h.lane_delivered]
      ordered_bound := by simp [hnil]
      render_bound := by simp }
  · rename_i hnone
    simp only [renderLane, hnil, hnone, Option.toList_none, List.nil_append] at hpending
    exact { h with
      lane_fifo := h.lane_fifo.accept (.ordered, data)
      lane_pending := by simp [observe, hpending, renderLane, hnil, hnone]
      lane_delivered := by simp [observe, h.lane_delivered]
      ordered_bound := by simp [hnil] }

/-- Dropping the render lane leaves the control lane and everything delivered alone. -/
theorem Accounted.dropLane (h : Accounted (state, history)) (alive : Bool) :
    Accounted ({ state with writerAlive := alive, render := none, ordered := [] },
      { history with lane := history.lane.dropPending }) :=
  { h with
    lane_fifo := h.lane_fifo.dropPending
    lane_pending := by simp [renderLane]
    lane_delivered := by simp [h.lane_delivered]
    ordered_bound := by simp
    render_bound := by simp }

/-- The oldest pending item of the render lane is the one `recv` hands out. -/
theorem Accounted.deliverLane (h : Accounted (state, history)) {data : Data}
    {rest : ClientWriterQueueState} (hlane : renderLane state = data :: renderLane rest)
    (hcontrol : rest.control = state.control) (hordered : rest.ordered.length ≤ 2)
    (hrender : rest.render.toList.length ≤ 1) :
    Accounted (rest, observe history .recv (.received (.item (.render data)))) := by
  have hpending := h.lane_pending
  rw [hlane] at hpending
  obtain ⟨entry, pending, heq, rfl, htail⟩ := List.map_eq_cons_iff.mp hpending
  exact { h with
    control_pending := hcontrol ▸ h.control_pending
    control_delivered := by simp [observe, controlItems, h.control_delivered]
    lane_fifo := h.lane_fifo.deliver
    lane_pending := by simp [observe, Ledger.pending_deliver, heq, htail]
    lane_delivered := by
      simp [observe, Ledger.delivered_deliver h.lane_fifo, heq, h.lane_delivered, renderItems]
    ordered_bound := hordered
    render_bound := hrender }

theorem Accounted.recv (h : Accounted (state, history)) :
    Accounted (state.recv.1, observe history .recv (.received state.recv.2)) := by
  unfold ClientWriterQueueState.recv
  split
  · rename_i data control hcontrol
    have hpending := h.control_pending
    rw [hcontrol] at hpending
    exact { h with
      control_fifo := h.control_fifo.deliver
      control_pending := by simp [observe, Ledger.pending_deliver, hpending]
      control_delivered := by
        simp [observe, Ledger.delivered_deliver h.control_fifo, hpending, h.control_delivered,
          controlItems]
      control_kept := by simp [observe, Ledger.dropped_deliver, h.control_kept]
      lane_delivered := by simp [observe, renderItems, h.lane_delivered] }
  split
  · rename_i data ordered hordered
    have hbound := h.ordered_bound
    simp only [hordered, List.length_cons] at hbound
    exact h.deliverLane (by simp [renderLane, hordered]) rfl (by simp; omega) h.render_bound
  split
  · rename_i hordered _ data hrender
    exact h.deliverLane (by simp [renderLane, hordered, hrender]) rfl h.ordered_bound (by simp)
  · -- nothing is pending: the answer is `closed` or `waiting`, and neither is written down
    dsimp only
    split <;> exact h

theorem step_spec (state : ClientWriterQueueState) (op : Op) :
    StepSpec state (state.step op).1 (state.step op).2 := by
  have hunit : ∀ after, StepSpec state after .unit := fun after =>
    ⟨by simp, by simp, by simp⟩
  have hsend : ∀ after result, (SendFailed result → after = state) →
      StepSpec state after (.sent result) := fun after result h =>
    ⟨fun result' heq hfailed => h (by cases heq; exact hfailed), by simp, by simp⟩
  cases op with
  | addSender => exact hunit _
  | removeSender => exact hunit _
  | discardPendingRender => exact hunit _
  | closeWriter => exact hunit _
  | sendControl data =>
    show StepSpec state (state.sendControl data).1 (.sent (state.sendControl data).2)
    apply hsend
    unfold ClientWriterQueueState.sendControl
    split <;> simp [SendFailed]
  | trySendRender data =>
    show StepSpec state (state.trySendRender data).1 (.sent (state.trySendRender data).2)
    apply hsend
    unfold ClientWriterQueueState.trySendRender
    split
    · simp
    · split <;> simp [SendFailed]
  | sendOrdered data =>
    show StepSpec state (state.sendOrdered data).1 (.sent (state.sendOrdered data).2)
    apply hsend
    unfold ClientWriterQueueState.sendOrdered
    split
    · simp
    · split
      · simp
      · split <;> simp [SendFailed]
  | recv =>
    show StepSpec state state.recv.1 (.received state.recv.2)
    unfold ClientWriterQueueState.recv
    split
    · exact ⟨by simp, by simp, by simp⟩
    rename_i hcontrol
    split
    · exact ⟨by simp, fun _ _ => hcontrol, by simp⟩
    rename_i hordered
    split
    · exact ⟨by simp, fun _ _ => hcontrol, by simp⟩
    rename_i hrender
    refine ⟨by simp, fun _ _ => hcontrol, fun _ => ⟨rfl, hcontrol, ?_⟩⟩
    simp [renderLane, hordered, hrender]

end Steps

/-! ### The run -/

theorem Accounted.step {s : Observed} (h : Accounted s) (op : Op) :
    Accounted ((s.1.step op).1, observe s.2 op (s.1.step op).2) := by
  obtain ⟨state, history⟩ := s
  cases op with
  | addSender => exact { h with }
  | removeSender => exact { h with }
  | sendControl data => exact h.sendControl data
  | trySendRender data => exact h.trySendRender data
  | sendOrdered data => exact h.sendOrdered data
  | discardPendingRender => exact h.dropLane state.writerAlive
  | recv => exact h.recv
  | closeWriter => exact h.dropLane false

/-- Along every interleaving of the calls the observer's books are right, and in every
state reached each call meets its specification. -/
theorem reachable_accounted {s : Observed}
    (h : Reachable Start (fun _ _ => True) observedStep s) :
    Accounted s ∧ ∀ op, StepSpec s.1 (s.1.step op).1 (s.1.step op).2 := by
  refine ⟨h.invariant _ ?_ ?_, step_spec s.1⟩
  · rintro _ rfl
    exact ⟨List.Pairwise.nil, rfl, rfl, rfl, List.Pairwise.nil, rfl, rfl, by decide, by decide⟩
  · intro s op t answer _ hstep hs
    cases hstep
    exact hs.step op

/-- A render item, an ordered item and a control item are accepted: the control item
overtakes, the other two keep their order. -/
theorem reachable_accounted_three_sends :
    ∃ s : Observed, Accounted s ∧ s.1.control = [[3]] ∧ renderLane s.1 = [[1], [2]] := by
  have hstart : Reachable Start (fun _ _ => True) observedStep _ := .start rfl
  have h := Reachable.next (.sendControl [3])
    (.next (.sendOrdered [2]) (.next (.trySendRender [1]) hstart trivial rfl) trivial rfl)
    trivial rfl
  exact ⟨_, (reachable_accounted h).1, rfl, rfl⟩

/-- An ordered item is accepted, the pending render is discarded, and the ordered item is
gone: a `recv` after the last sender has left finds the queue empty. -/
theorem discardPendingRender_drops_ordered :
    (ClientWriterQueueState.new.sendOrdered [1]).2 = .ok ∧
      ((ClientWriterQueueState.new.sendOrdered [1]).1.discardPendingRender.recv).2 = .closed :=
  ⟨rfl, rfl⟩

end Herden.Proofs.ClientWriterQueue
