import Herden.Lib.Run
import Herden.App.TerminalAttach

/-!
# `Herden.Proofs.TerminalAttach`: what the Attach writer receives

The observer's log holds the inputs that the queue took in and the values that reached the
consumer. `reachable_delivers` reads the promises of the queue off the log, for every interleaving
of the producers with one consumer.

Reliable inputs are FIFO: what was delivered, what is on its way and what is queued is together
what was accepted (`Inv.reliable`). The consumer alone empties the queue, finished or not
(`consume_delivers`).

Scroll rows are counted for each sequence from a reliable input on (`rowsAcceptedAfter`,
`rowsDeliveredAfter`). `Inv.rows` is one inequality for all of it: the rows delivered since the
`n`-th reliable input, with those on their way and those pending, are at most the rows accepted
since. It holds from the start (`n = 0`) and from every keystroke chunk, because a chunk drops what
is pending. It fails from a resize.

`Consumer` says where the consumer stands: between two calls, parked with nothing to take, or with
one resumption on its way. `step_change` reads every step off this. Every invariant is then a case
split over `Change`.
-/

namespace Herden.Proofs.TerminalAttach

open Herden.Lib (Reachable)
open Herden.App.TerminalAttach

/-! ### Reading the log -/

/-- The reliable inputs that the queue took in, the oldest first. -/
def acceptedInputs : List Entry → List TerminalAttachInput
  | [] => []
  | .accepted input :: log => acceptedInputs log ++ [input]
  | _ :: log => acceptedInputs log

/-- The reliable inputs that reached the consumer, the oldest first. -/
def deliveredInputs : List Entry → List TerminalAttachInput
  | [] => []
  | .delivered (.reliable input) :: log => deliveredInputs log ++ [input]
  | _ :: log => deliveredInputs log

/-- The rows of `sequence` that were accepted when at least `n` reliable inputs were. -/
def rowsAcceptedAfter (n : Nat) (sequence : Data) : List Entry → Int
  | [] => 0
  | .scrolled scrolled rows :: log =>
    (if scrolled = sequence ∧ n ≤ (acceptedInputs log).length then rows else 0)
      + rowsAcceptedAfter n sequence log
  | _ :: log => rowsAcceptedAfter n sequence log

/-- The rows of `sequence` that were delivered when at least `n` reliable inputs were. -/
def rowsDeliveredAfter (n : Nat) (sequence : Data) : List Entry → Int
  | [] => 0
  | .delivered (.scroll scrolled rows) :: log =>
    (if scrolled = sequence ∧ n ≤ (deliveredInputs log).length then rows else 0)
      + rowsDeliveredAfter n sequence log
  | _ :: log => rowsDeliveredAfter n sequence log

variable {n : Nat} {sequence : Data}

/-- No row is delivered after an input that was not delivered. -/
theorem rowsDeliveredAfter_of_lt {log : List Entry} (h : (deliveredInputs log).length < n) :
    rowsDeliveredAfter n sequence log = 0 := by
  induction log with
  | nil => rfl
  | cons e log ih =>
    cases e with
    | delivered handed =>
      cases handed with
      | reliable input =>
        rw [deliveredInputs, List.length_append] at h
        exact ih (Nat.lt_of_le_of_lt (Nat.le_add_right _ _) h)
      | scroll scrolled rows =>
        rw [rowsDeliveredAfter, ih h, if_neg (fun hcount => Nat.not_le.mpr h hcount.2)]
        rfl
      | finished => exact ih h
    | accepted => exact ih h
    | scrolled => exact ih h
    | finished => exact ih h

/-- No row is accepted after an input that was not accepted. -/
theorem rowsAcceptedAfter_of_lt {log : List Entry} (h : (acceptedInputs log).length < n) :
    rowsAcceptedAfter n sequence log = 0 := by
  induction log with
  | nil => rfl
  | cons e log ih =>
    cases e with
    | accepted input =>
      rw [acceptedInputs, List.length_append] at h
      exact ih (Nat.lt_of_le_of_lt (Nat.le_add_right _ _) h)
    | scrolled scrolled rows =>
      rw [rowsAcceptedAfter, ih h, if_neg (fun hcount => Nat.not_le.mpr h hcount.2)]
      rfl
    | finished => exact ih h
    | delivered => exact ih h

/-! ### Where the consumer stands -/

inductive Consumer (s : System) : Prop where
  | idle (awaiting : s.awaiting = none) (waiter : s.queue.waiter = none)
      (resumptions : s.resumptions = [])
  | parked (call : Nat) (awaiting : s.awaiting = some call) (waiter : s.queue.waiter = some call)
      (resumptions : s.resumptions = []) (reliable : s.queue.reliable = [])
      (pendingScroll : s.queue.pendingScroll = none) (isFinished : s.queue.isFinished = false)
  | resuming (call : Nat) (handed : Handed) (awaiting : s.awaiting = some call)
      (waiter : s.queue.waiter = none) (resumptions : s.resumptions = [⟨call, handed⟩])

/-- The rows of `sequence` that are pending. -/
def pendingRows (sequence : Data) (queue : QueueState) : Int :=
  match queue.pendingScroll with
  | some pending => if pending.sequence = sequence then pending.rows else 0
  | none => 0

/-- What is on its way to the consumer. -/
def onTheWay (s : System) : List Handed := s.resumptions.map (·.handed)

def handedInputs : List Handed → List TerminalAttachInput :=
  List.filterMap fun
    | .reliable input => some input
    | _ => none

def handedRows (sequence : Data) : List Handed → Int
  | [] => 0
  | .scroll scrolled rows :: rest =>
    (if scrolled = sequence then rows else 0) + handedRows sequence rest
  | _ :: rest => handedRows sequence rest

/-! ### What a step can do -/

/-- The effect of an allowed step, with what the step found. -/
inductive Change (s : System) : System → Prop where
  | unchanged : Change s s
  | queued (input : TerminalAttachInput) (pending : Option PendingScroll)
      (hopen : s.queue.isFinished = false) (hwaiter : s.queue.waiter = none)
      (hpending : pending = none ∨
        pending = s.queue.pendingScroll ∧ ∀ data, input ≠ .keystrokes data) :
      Change s { s with
        queue := { s.queue with
          reliable := s.queue.reliable ++ [input], pendingScroll := pending }
        log := .accepted input :: s.log }
  | handedOver (call : Nat) (input : TerminalAttachInput) (hopen : s.queue.isFinished = false)
      (hawaiting : s.awaiting = some call) (hresumptions : s.resumptions = [])
      (hreliable : s.queue.reliable = []) (hpending : s.queue.pendingScroll = none) :
      Change s { s with
        queue := { s.queue with waiter := none }
        resumptions := [⟨call, .reliable input⟩]
        log := .accepted input :: s.log }
  | scrollHandedOver (call : Nat) (sequence : Data) (rows delivered : Int)
      (pending : Option PendingScroll) (hopen : s.queue.isFinished = false)
      (hawaiting : s.awaiting = some call) (hresumptions : s.resumptions = [])
      (hreliable : s.queue.reliable = []) (hpos : 0 < delivered)
      (hdelivered : delivered ≤ maximumScrollRowsPerWrite)
      (hpending : pending = none ∧ delivered ≤ rows ∨
        ∃ remaining, pending = some ⟨sequence, remaining⟩ ∧ 0 < remaining ∧
          remaining ≤ maximumPendingScrollRows ∧ delivered + remaining ≤ rows) :
      Change s { s with
        queue := { s.queue with waiter := none, pendingScroll := pending }
        resumptions := [⟨call, .scroll sequence delivered⟩]
        log := .scrolled sequence rows :: s.log }
  | scrolled (sequence : Data) (rows pending : Int) (hopen : s.queue.isFinished = false)
      (hwaiter : s.queue.waiter = none) (hpos : 0 < pending)
      (hmax : pending ≤ maximumPendingScrollRows)
      (hpending : pending ≤ pendingRows sequence s.queue + rows) (hrows : 0 < rows) :
      Change s { s with
        queue := { s.queue with pendingScroll := some ⟨sequence, pending⟩ }
        log := .scrolled sequence rows :: s.log }
  | closed (resumptions : List Resumption) (hopen : s.queue.isFinished = false)
      (hclosed : resumptions = s.resumptions ∧ s.queue.waiter = none ∨
        ∃ call, s.awaiting = some call ∧ s.resumptions = [] ∧ s.queue.reliable = [] ∧
          resumptions = [⟨call, .finished⟩]) :
      Change s { s with
        queue := { s.queue with isFinished := true, pendingScroll := none, waiter := none }
        resumptions := resumptions
        log := .finished :: s.log }
  | took (input : TerminalAttachInput) (rest : List TerminalAttachInput)
      (hreliable : s.queue.reliable = input :: rest) (hwaiter : s.queue.waiter = none)
      (hresumptions : s.resumptions = []) :
      Change s { s with
        queue := { s.queue with reliable := rest }
        awaiting := some s.calls
        calls := s.calls + 1
        resumptions := [⟨s.calls, .reliable input⟩] }
  | tookScroll (sequence : Data) (rows delivered : Int) (pending : Option PendingScroll)
      (hreliable : s.queue.reliable = []) (hwaiter : s.queue.waiter = none)
      (hresumptions : s.resumptions = [])
      (hscroll : s.queue.pendingScroll = some ⟨sequence, rows⟩)
      (hdelivered : delivered = min rows maximumScrollRowsPerWrite)
      (hpending : pending = none ∧ rows ≤ delivered ∨
        pending = some ⟨sequence, rows - delivered⟩ ∧ 0 < rows - delivered) :
      Change s { s with
        queue := { s.queue with pendingScroll := pending }
        awaiting := some s.calls
        calls := s.calls + 1
        resumptions := [⟨s.calls, .scroll sequence delivered⟩] }
  | tookEnd (hfinished : s.queue.isFinished = true) (hreliable : s.queue.reliable = [])
      (hwaiter : s.queue.waiter = none) (hresumptions : s.resumptions = []) :
      Change s { s with
        awaiting := some s.calls
        calls := s.calls + 1
        resumptions := [⟨s.calls, .finished⟩] }
  | parked (hopen : s.queue.isFinished = false) (hreliable : s.queue.reliable = [])
      (hpending : s.queue.pendingScroll = none) (hwaiter : s.queue.waiter = none)
      (hresumptions : s.resumptions = []) :
      Change s { s with
        queue := { s.queue with waiter := some s.calls }
        awaiting := some s.calls
        calls := s.calls + 1 }
  | delivered (call : Nat) (handed : Handed) (hawaiting : s.awaiting = some call)
      (hwaiter : s.queue.waiter = none) (hresumptions : s.resumptions = [⟨call, handed⟩]) :
      Change s { s with
        awaiting := none
        resumptions := []
        log := .delivered handed :: s.log }

variable {s t : System} {op : Op}

theorem enqueueReliable_change (h : Consumer s) (input : TerminalAttachInput) (discard : Bool)
    (hdiscard : discard = false → ∀ data, input ≠ .keystrokes data) :
    Change s (s.after (s.queue.enqueueReliable input discard) (s.entry (.accepted input))) := by
  cases hopen : s.queue.isFinished with
  | true =>
    have hsame : s.after (s.queue.enqueueReliable input discard) (s.entry (.accepted input))
        = s := by
      simp [System.after, System.entry, QueueState.enqueueReliable, hopen]
    rw [hsame]
    exact .unchanged
  | false =>
    have hqueued : s.queue.waiter = none →
        Change s (s.after (s.queue.enqueueReliable input discard) (s.entry (.accepted input))) := by
      intro hwaiter
      have hafter : s.after (s.queue.enqueueReliable input discard) (s.entry (.accepted input))
          = { s with
              queue := { s.queue with
                reliable := s.queue.reliable ++ [input]
                pendingScroll := if discard then none else s.queue.pendingScroll }
              log := .accepted input :: s.log } := by
        cases discard <;>
          simp [System.after, System.entry, QueueState.enqueueReliable, hopen, hwaiter]
      rw [hafter]
      refine .queued input _ hopen hwaiter ?_
      cases discard with
      | true => exact Or.inl rfl
      | false => exact Or.inr ⟨rfl, hdiscard rfl⟩
    cases h with
    | idle _ hwaiter _ => exact hqueued hwaiter
    | resuming call handed _ hwaiter _ => exact hqueued hwaiter
    | parked call hawaiting hwaiter hresumptions hreliable hpending _ =>
      have hafter : s.after (s.queue.enqueueReliable input discard) (s.entry (.accepted input))
          = { s with
              queue := { s.queue with waiter := none }
              resumptions := [⟨call, .reliable input⟩]
              log := .accepted input :: s.log } := by
        cases discard <;>
          simp [System.after, System.entry, QueueState.enqueueReliable, hopen, hwaiter, hreliable,
            hresumptions, hpending]
      rw [hafter]
      exact .handedOver call input hopen hawaiting hresumptions hreliable hpending

theorem scroll_change (h : Consumer s)
    (hpos : ∀ pending, s.queue.pendingScroll = some pending → 0 < pending.rows) {rows : Int}
    (hstep : s.step (.scroll sequence rows) = some (t, ())) : Change s t := by
  obtain ⟨result, hresult, ht⟩ := Option.map_eq_some_iff.mp hstep
  replace ht := (congrArg Prod.fst ht).symm
  subst ht
  unfold QueueState.scroll at hresult
  split at hresult
  next hempty =>
    cases hresult
    simp only [System.after, if_pos hempty, Option.toList_none, List.append_nil, List.nil_append]
    exact .unchanged
  next hnonempty =>
    have hrows : 0 < rows := by
      by_contra hcontra
      exact hnonempty (Or.inr hcontra)
    rw [if_neg hnonempty]
    cases hopen : s.queue.isFinished with
    | true =>
      rw [if_pos hopen] at hresult
      cases hresult
      simp only [System.after, System.entry, hopen, if_true, Option.toList_none, List.append_nil,
        List.nil_append]
      exact .unchanged
    | false =>
      rw [if_neg (by rw [hopen]; exact Bool.false_ne_true)] at hresult
      have hentry : s.entry (.scrolled sequence rows) = some (.scrolled sequence rows) := by
        simp [System.entry, hopen]
      rw [hentry]
      have hfresh : s.queue.waiter = none →
          (∀ pending, s.queue.pendingScroll = some pending → pending.sequence ≠ sequence) →
          Change s (s.after ({ s.queue with
            pendingScroll := some ⟨sequence, min rows maximumPendingScrollRows⟩ }, none)
            (some (.scrolled sequence rows))) := by
        intro hwaiter hother
        simp only [System.after, Option.toList_none, List.append_nil]
        refine .scrolled sequence rows _ hopen hwaiter ?_ (min_le_right _ _) ?_ hrows
        · exact lt_min hrows (by decide)
        · have hzero : pendingRows sequence s.queue = 0 := by
            unfold pendingRows
            split
            next pending hsome => exact if_neg (hother pending hsome)
            · rfl
          rw [hzero, Int.zero_add]
          exact min_le_left _ _
      have hnowaiter : s.queue.waiter = none → Change s
          (s.after result (some (.scrolled sequence rows))) := by
        intro hwaiter
        split at hresult
        next waiter hsome =>
          rw [hwaiter] at hsome
          cases hsome
        split at hresult
        next pending hpending =>
          split at hresult
          next hsame =>
            split at hresult
            · cases hresult
            cases hresult
            subst hsame
            have hpast := hpos pending hpending
            simp only [System.after, Option.toList_none, List.append_nil]
            refine .scrolled pending.sequence rows _ hopen hwaiter ?_ (min_le_left _ _) ?_ hrows
            · exact lt_min (by decide) (by omega)
            · simp only [pendingRows, hpending, if_true]
              exact min_le_right _ _
          next hother =>
            cases hresult
            refine hfresh hwaiter fun pending' hsome => ?_
            rw [hpending] at hsome
            cases hsome
            exact hother
        next hpending =>
          cases hresult
          refine hfresh hwaiter fun pending hsome => ?_
          rw [hpending] at hsome
          cases hsome
      cases h with
      | idle _ hwaiter _ => exact hnowaiter hwaiter
      | resuming call handed _ hwaiter _ => exact hnowaiter hwaiter
      | parked call hawaiting hwaiter hresumptions hreliable hpending _ =>
        rw [hwaiter] at hresult
        cases hresult
        simp only [System.after, hresumptions, hpending, Option.toList_some, List.nil_append]
        refine .scrollHandedOver call sequence rows _ _ hopen hawaiting hresumptions hreliable
          (lt_min hrows (by decide)) (min_le_right _ _) ?_
        split
        next hremaining =>
          refine Or.inr ⟨_, rfl, hremaining, ?_, ?_⟩
          · simp only [maximumPendingScrollRows, maximumScrollRowsPerWrite]
            omega
          · omega
        · exact Or.inl ⟨rfl, min_le_left _ _⟩

theorem finish_change (h : Consumer s) :
    Change s (s.after s.queue.finish (s.entry .finished)) := by
  cases hopen : s.queue.isFinished with
  | true =>
    have hsame : s.after s.queue.finish (s.entry .finished) = s := by
      simp [System.after, System.entry, QueueState.finish, hopen]
    rw [hsame]
    exact .unchanged
  | false =>
    have hafter : s.after s.queue.finish (s.entry .finished)
        = { s with
            queue := { s.queue with isFinished := true, pendingScroll := none, waiter := none }
            resumptions := s.resumptions
              ++ (s.queue.waiter.map fun waiter => (⟨waiter, .finished⟩ : Resumption)).toList
            log := .finished :: s.log } := by
      simp [System.after, System.entry, QueueState.finish, hopen]
    rw [hafter]
    refine .closed _ hopen ?_
    cases h with
    | idle _ hwaiter hresumptions =>
      exact Or.inl ⟨by simp [hwaiter], hwaiter⟩
    | resuming call handed _ hwaiter _ =>
      exact Or.inl ⟨by simp [hwaiter], hwaiter⟩
    | parked call hawaiting hwaiter hresumptions hreliable _ _ =>
      exact Or.inr ⟨call, hawaiting, hresumptions, hreliable, by simp [hwaiter, hresumptions]⟩

theorem next_change (h : Consumer s) (hawaiting : s.awaiting = none)
    (hstep : s.step .next = some (t, ())) : Change s t := by
  obtain ⟨result, hresult, ht⟩ := Option.map_eq_some_iff.mp hstep
  replace ht := (congrArg Prod.fst ht).symm
  subst ht
  obtain ⟨hwaiter, hresumptions⟩ : s.queue.waiter = none ∧ s.resumptions = [] := by
    cases h with
    | idle _ hwaiter hresumptions => exact ⟨hwaiter, hresumptions⟩
    | parked call hcall => rw [hawaiting] at hcall; cases hcall
    | resuming call handed hcall => rw [hawaiting] at hcall; cases hcall
  unfold QueueState.next at hresult
  split at hresult
  next input rest hreliable =>
    cases hresult
    simp only [System.after, hresumptions, Option.toList_some, Option.toList_none, List.nil_append]
    exact .took input rest hreliable hwaiter hresumptions
  next hreliable =>
    split at hresult
    next scroll hscroll =>
      cases hresult
      simp only [System.after, hresumptions, Option.toList_some, Option.toList_none,
        List.nil_append]
      refine .tookScroll scroll.sequence scroll.rows _ _ hreliable hwaiter hresumptions hscroll
        rfl ?_
      split
      next hremaining => exact Or.inr ⟨rfl, hremaining⟩
      next hnone => exact Or.inl ⟨rfl, by omega⟩
    next hpending =>
      split at hresult
      next hfinished =>
        cases hresult
        simp only [System.after, hresumptions, Option.toList_some, Option.toList_none,
          List.nil_append]
        exact .tookEnd hfinished hreliable hwaiter hresumptions
      next hopen =>
        split at hresult
        · cases hresult
        cases hresult
        simp only [System.after, Option.toList_none, List.append_nil, List.nil_append]
        exact .parked (by simpa using hopen) hreliable hpending hwaiter hresumptions

theorem resume_change (h : Consumer s) {call : Nat}
    (hstep : s.step (.resume call) = some (t, ())) : Change s t := by
  simp only [System.step] at hstep
  split at hstep
  · cases hstep
  next resumption hfind =>
    split at hstep
    next hawaiting =>
      cases hstep
      have hmem : resumption ∈ s.resumptions := List.mem_of_find?_eq_some hfind
      cases h with
      | idle _ _ hresumptions => rw [hresumptions] at hmem; cases hmem
      | parked _ _ _ hresumptions => rw [hresumptions] at hmem; cases hmem
      | resuming current handed hcurrent hwaiter hresumptions =>
        rw [hresumptions] at hmem
        obtain rfl := List.mem_singleton.mp hmem
        rw [hresumptions, List.erase_cons_head]
        exact .delivered current handed hcurrent hwaiter hresumptions
    · cases hstep

theorem step_change (h : Consumer s)
    (hpos : ∀ pending, s.queue.pendingScroll = some pending → 0 < pending.rows)
    (hallowed : Allowed s op) (hstep : s.step op = some (t, ())) : Change s t := by
  cases op with
  | send keystrokes =>
    cases hstep
    unfold QueueState.send
    split
    · simp only [System.after, Option.toList_none, List.append_nil, List.nil_append]
      exact .unchanged
    · exact enqueueReliable_change h _ true (fun hfalse => by cases hfalse)
  | scroll sequence rows => exact scroll_change h hpos hstep
  | resize cols rows =>
    cases hstep
    exact enqueueReliable_change h _ false (fun _ data heq => by cases heq)
  | finish =>
    cases hstep
    exact finish_change h
  | next => exact next_change h hallowed hstep
  | resume call => exact resume_change h hstep

theorem Change.consumer (hchange : Change s t) (h : Consumer s) : Consumer t := by
  have hnowaiter : s.queue.waiter = none → s.awaiting = none ∧ s.resumptions = [] ∨
      ∃ call handed, s.awaiting = some call ∧ s.resumptions = [⟨call, handed⟩] := by
    intro hwaiter
    cases h with
    | idle hawaiting _ hresumptions => exact Or.inl ⟨hawaiting, hresumptions⟩
    | parked call _ hsome => rw [hwaiter] at hsome; cases hsome
    | resuming call handed hawaiting _ hresumptions =>
      exact Or.inr ⟨call, handed, hawaiting, hresumptions⟩
  cases hchange with
  | unchanged => exact h
  | queued input pending _ hwaiter _ =>
    obtain ⟨hawaiting, hresumptions⟩ | ⟨call, handed, hawaiting, hresumptions⟩ := hnowaiter hwaiter
    · exact .idle hawaiting hwaiter hresumptions
    · exact .resuming call handed hawaiting hwaiter hresumptions
  | handedOver call input _ hawaiting _ _ _ => exact .resuming call _ hawaiting rfl rfl
  | scrollHandedOver call sequence rows delivered pending _ hawaiting _ _ _ _ _ =>
    exact .resuming call _ hawaiting rfl rfl
  | scrolled sequence rows pending _ hwaiter _ _ _ _ =>
    obtain ⟨hawaiting, hresumptions⟩ | ⟨call, handed, hawaiting, hresumptions⟩ := hnowaiter hwaiter
    · exact .idle hawaiting hwaiter hresumptions
    · exact .resuming call handed hawaiting hwaiter hresumptions
  | closed resumptions _ hclosed =>
    obtain ⟨rfl, hwaiter⟩ | ⟨call, hawaiting, _, _, rfl⟩ := hclosed
    · obtain ⟨hawaiting, hresumptions⟩ | ⟨call, handed, hawaiting, hresumptions⟩ :=
        hnowaiter hwaiter
      · exact .idle hawaiting rfl hresumptions
      · exact .resuming call handed hawaiting rfl hresumptions
    · exact .resuming call _ hawaiting rfl rfl
  | took input rest _ hwaiter _ => exact .resuming s.calls _ rfl hwaiter rfl
  | tookScroll sequence rows delivered pending _ hwaiter _ _ _ _ =>
    exact .resuming s.calls _ rfl hwaiter rfl
  | tookEnd _ _ hwaiter _ => exact .resuming s.calls _ rfl hwaiter rfl
  | parked hopen hreliable hpending _ hresumptions =>
    exact .parked s.calls rfl rfl hresumptions hreliable hpending hopen
  | delivered call handed _ hwaiter _ => exact .idle rfl hwaiter rfl

/-! ### The invariant -/

/-- The condition under which rows are counted from the `n`-th reliable input on: from the start,
or from a keystroke chunk. -/
def Counted (n : Nat) (log : List Entry) : Prop :=
  n = 0 ∨ ∃ i data, n = i + 1 ∧ (acceptedInputs log)[i]? = some (.keystrokes data)

/-- The rows of `sequence` delivered since the `n`-th reliable input, with those that can still be
delivered after it. -/
def rowsAfter (n : Nat) (sequence : Data) (s : System) : Int :=
  rowsDeliveredAfter n sequence s.log
    + (if n ≤ (deliveredInputs s.log).length then handedRows sequence (onTheWay s) else 0)
    + (if n ≤ (acceptedInputs s.log).length then pendingRows sequence s.queue else 0)

/-- A batch is between one row and the most for one write, of a sequence that was scrolled. -/
def Batch (log : List Entry) (sequence : Data) (rows : Int) : Prop :=
  0 < rows ∧ rows ≤ maximumScrollRowsPerWrite ∧ ∃ accepted, .scrolled sequence accepted ∈ log

structure Inv (s : System) : Prop where
  consumer : Consumer s
  reliable : deliveredInputs s.log ++ handedInputs (onTheWay s) ++ s.queue.reliable
    = acceptedInputs s.log
  rows : ∀ n sequence, Counted n s.log →
    rowsAfter n sequence s ≤ rowsAcceptedAfter n sequence s.log
  pending : ∀ pending, s.queue.pendingScroll = some pending → 0 < pending.rows ∧
    pending.rows ≤ maximumPendingScrollRows ∧ ∃ rows, .scrolled pending.sequence rows ∈ s.log
  batch : ∀ sequence rows, .scroll sequence rows ∈ onTheWay s → Batch s.log sequence rows
  batches : ∀ newer older sequence rows,
    s.log = newer ++ .delivered (.scroll sequence rows) :: older → Batch older sequence rows
  finished : s.queue.isFinished = true → .finished ∈ s.log
  ending : .finished ∈ onTheWay s → s.queue.isFinished = true ∧ s.queue.reliable = []
  ended : ∀ newer older, s.log = newer ++ .delivered .finished :: older →
    s.queue.isFinished = true ∧ .finished ∈ older ∧ deliveredInputs older = acceptedInputs s.log

/-! ### A step keeps the invariant -/

theorem Change.reliable (hchange : Change s t) (h : Inv s) :
    deliveredInputs t.log ++ handedInputs (onTheWay t) ++ t.queue.reliable
      = acceptedInputs t.log := by
  have hbefore := h.reliable
  have hempty : s.resumptions = [] →
      deliveredInputs s.log ++ s.queue.reliable = acceptedInputs s.log := by
    intro hresumptions
    simpa [onTheWay, hresumptions, handedInputs] using hbefore
  cases hchange with
  | unchanged => exact hbefore
  | queued input pending _ _ _ =>
    show deliveredInputs s.log ++ handedInputs (onTheWay s) ++ (s.queue.reliable ++ [input])
      = acceptedInputs s.log ++ [input]
    rw [← hbefore, List.append_assoc _ s.queue.reliable]
  | handedOver call input _ _ hresumptions hreliable _ =>
    have hall := hempty hresumptions
    rw [hreliable, List.append_nil] at hall
    simp [deliveredInputs, acceptedInputs, onTheWay, handedInputs, hreliable, hall]
  | scrollHandedOver call sequence rows delivered pending _ _ hresumptions _ _ _ _ =>
    simpa [deliveredInputs, acceptedInputs, onTheWay, handedInputs] using hempty hresumptions
  | scrolled sequence rows pending _ _ _ _ _ _ => exact hbefore
  | closed resumptions _ hclosed =>
    obtain ⟨rfl, _⟩ | ⟨call, _, hresumptions, _, rfl⟩ := hclosed
    · exact hbefore
    · simpa [deliveredInputs, acceptedInputs, onTheWay, handedInputs] using hempty hresumptions
  | took input rest hreliable _ hresumptions =>
    have hall := hempty hresumptions
    simpa [onTheWay, handedInputs, hreliable] using hall
  | tookScroll sequence rows delivered pending _ _ hresumptions _ _ _ =>
    simpa [onTheWay, handedInputs] using hempty hresumptions
  | tookEnd _ _ _ hresumptions =>
    simpa [onTheWay, handedInputs] using hempty hresumptions
  | parked _ _ _ _ _ => exact hbefore
  | delivered call handed _ _ hresumptions =>
    simp only [onTheWay, hresumptions, List.map_cons, List.map_nil] at hbefore
    cases handed <;>
      simpa [deliveredInputs, acceptedInputs, onTheWay, handedInputs] using hbefore

theorem Inv.delivered_le (h : Inv s) :
    (deliveredInputs s.log).length ≤ (acceptedInputs s.log).length := by
  rw [← h.reliable, List.length_append, List.length_append]
  omega

/-- An input that is accepted is not followed by any delivered row. -/
theorem counted_accepted {input : TerminalAttachInput} {log : List Entry}
    (h : Counted n (.accepted input :: log)) : Counted n log ∨
      n = (acceptedInputs log).length + 1 ∧ ∃ data, input = .keystrokes data := by
  obtain rfl | ⟨i, data, rfl, hkey⟩ := h
  · exact Or.inl (Or.inl rfl)
  · rw [acceptedInputs, List.getElem?_append] at hkey
    split at hkey
    · exact Or.inl (Or.inr ⟨i, data, rfl, hkey⟩)
    next hlast =>
      obtain ⟨hindex, hinput⟩ := List.getElem?_eq_some_iff.mp hkey
      simp only [List.length_singleton] at hindex
      have hzero : i - (acceptedInputs log).length = 0 := by omega
      simp only [hzero, List.getElem_singleton] at hinput
      exact Or.inr ⟨by omega, data, hinput⟩

/-- A counted input was accepted. -/
theorem Counted.le {log : List Entry} (h : Counted n log) : n ≤ (acceptedInputs log).length := by
  obtain rfl | ⟨i, data, rfl, hkey⟩ := h
  · exact Nat.zero_le _
  · exact (List.getElem?_eq_some_iff.mp hkey).1

theorem Inv.pendingRows_nonneg (h : Inv s) (sequence : Data) :
    0 ≤ pendingRows sequence s.queue := by
  unfold pendingRows
  split
  next pending hsome =>
    split
    · exact (h.pending pending hsome).1.le
    · exact le_rfl
  · exact le_rfl

theorem pendingRows_none {queue : QueueState} (sequence : Data) (h : queue.pendingScroll = none) :
    pendingRows sequence queue = 0 := by
  rw [pendingRows, h]

/-- Rows are counted from an input that was accepted, so all that is pending counts. -/
theorem rowsAfter_counted (sequence : Data) (h : Counted n s.log) :
    rowsAfter n sequence s = rowsDeliveredAfter n sequence s.log
      + (if n ≤ (deliveredInputs s.log).length then handedRows sequence (onTheWay s) else 0)
      + pendingRows sequence s.queue := by
  rw [rowsAfter, if_pos h.le]

/-- An accepted input counts no row yet when it is a keystroke chunk, and changes nothing for the
inputs before it. -/
theorem Change.rows_accepted (h : Inv s) {input : TerminalAttachInput}
    (hlog : t.log = .accepted input :: s.log) (hcounted : Counted n t.log)
    (hway : handedRows sequence (onTheWay t) = handedRows sequence (onTheWay s))
    (hpending : pendingRows sequence t.queue = 0 ∨
      pendingRows sequence t.queue = pendingRows sequence s.queue ∧
        ∀ data, input ≠ .keystrokes data) :
    rowsAfter n sequence t ≤ rowsAcceptedAfter n sequence t.log := by
  rw [rowsAfter_counted sequence hcounted, hway, hlog]
  rw [hlog] at hcounted
  show rowsDeliveredAfter n sequence s.log
      + (if n ≤ (deliveredInputs s.log).length then handedRows sequence (onTheWay s) else 0)
      + pendingRows sequence t.queue ≤ rowsAcceptedAfter n sequence s.log
  have hnonneg := h.pendingRows_nonneg sequence
  obtain hbefore | ⟨hn, data, hinput⟩ := counted_accepted hcounted
  · have hrows := h.rows n sequence hbefore
    rw [rowsAfter_counted sequence hbefore] at hrows
    obtain hzero | ⟨hsame, _⟩ := hpending <;> omega
  · have hlater : (deliveredInputs s.log).length < n := by
      have := h.delivered_le
      omega
    have haccepted : rowsAcceptedAfter n sequence s.log = 0 :=
      rowsAcceptedAfter_of_lt (by omega)
    obtain hzero | ⟨_, hno⟩ := hpending
    · rw [rowsDeliveredAfter_of_lt hlater, if_neg (Nat.not_le.mpr hlater), hzero, haccepted]
      rfl
    · exact absurd hinput (hno data)

/-- Scrolled rows count for every counted input: what a scroll adds to the rows on their way and to
the pending ones is at most what it brought. -/
theorem Change.rows_scrolled (h : Inv s) {scrolled : Data} {rows : Int}
    (hlog : t.log = .scrolled scrolled rows :: s.log) (hcounted : Counted n t.log)
    (hnonneg : 0 ≤ handedRows sequence (onTheWay t))
    (hadded : handedRows sequence (onTheWay t) + pendingRows sequence t.queue
      ≤ handedRows sequence (onTheWay s) + pendingRows sequence s.queue
        + if scrolled = sequence then rows else 0)
    (hway : onTheWay t = onTheWay s ∨ onTheWay s = []) :
    rowsAfter n sequence t ≤ rowsAcceptedAfter n sequence t.log := by
  rw [rowsAfter_counted sequence hcounted, hlog]
  rw [hlog] at hcounted
  have hbefore : Counted n s.log := hcounted
  have hrows := h.rows n sequence hbefore
  have hif : (if scrolled = sequence ∧ n ≤ (acceptedInputs s.log).length then rows else 0)
      = if scrolled = sequence then rows else 0 := by
    simp only [hbefore.le, and_true]
  show rowsDeliveredAfter n sequence s.log
      + (if n ≤ (deliveredInputs s.log).length then handedRows sequence (onTheWay t) else 0)
      + pendingRows sequence t.queue
    ≤ (if scrolled = sequence ∧ n ≤ (acceptedInputs s.log).length then rows else 0)
      + rowsAcceptedAfter n sequence s.log
  rw [rowsAfter_counted sequence hbefore] at hrows
  rw [hif]
  obtain hsame | hnone := hway
  · rw [hsame] at hadded ⊢
    omega
  · rw [hnone] at hadded hrows
    simp only [handedRows, ite_self] at hadded hrows
    split <;> omega

theorem Inv.handedRows_nonneg (h : Inv s) (sequence : Data) :
    0 ≤ handedRows sequence (onTheWay s) := by
  cases h.consumer with
  | idle _ _ hresumptions =>
    simp [onTheWay, hresumptions, handedRows]
  | parked _ _ _ hresumptions =>
    simp [onTheWay, hresumptions, handedRows]
  | resuming call handed _ _ hresumptions =>
    have hway : onTheWay s = [handed] := by simp [onTheWay, hresumptions]
    rw [hway]
    cases handed with
    | reliable input => exact le_rfl
    | finished => exact le_rfl
    | scroll scrolled rows =>
      have hbatch := h.batch scrolled rows (by rw [hway]; exact List.mem_singleton_self _)
      have hpos := hbatch.1
      simp only [handedRows]
      split <;> omega

/-- A batch leaves the pending rows for the consumer. -/
theorem Change.rows_moved (h : Inv s) (hlog : t.log = s.log) (hcounted : Counted n t.log)
    (hnone : onTheWay s = []) (hnonneg : 0 ≤ handedRows sequence (onTheWay t))
    (hmoved : handedRows sequence (onTheWay t) + pendingRows sequence t.queue
      ≤ pendingRows sequence s.queue) :
    rowsAfter n sequence t ≤ rowsAcceptedAfter n sequence t.log := by
  rw [rowsAfter_counted sequence hcounted, hlog]
  rw [hlog] at hcounted
  have hrows := h.rows n sequence hcounted
  rw [rowsAfter_counted sequence hcounted, hnone] at hrows
  simp only [handedRows, ite_self] at hrows
  split <;> omega

theorem Change.rows (hchange : Change s t) (h : Inv s) (n : Nat) (sequence : Data)
    (hcounted : Counted n t.log) :
    rowsAfter n sequence t ≤ rowsAcceptedAfter n sequence t.log := by
  have hnonneg := h.pendingRows_nonneg sequence
  have hnothing : s.resumptions = [] → onTheWay s = [] := by
    intro hresumptions
    rw [onTheWay, hresumptions]
    rfl
  cases hchange with
  | unchanged => exact h.rows n sequence hcounted
  | queued input pending _ _ hpending =>
    refine Change.rows_accepted h rfl hcounted rfl ?_
    obtain rfl | ⟨rfl, hno⟩ := hpending
    · exact Or.inl rfl
    · exact Or.inr ⟨rfl, hno⟩
  | handedOver call input _ _ hresumptions _ hpending =>
    refine Change.rows_accepted h rfl hcounted ?_ (Or.inl (pendingRows_none _ hpending))
    rw [hnothing hresumptions]
    rfl
  | scrollHandedOver call scrolled rows delivered pending _ _ hresumptions _ hpos _ hpending =>
    refine Change.rows_scrolled h rfl hcounted ?_ ?_ (Or.inr (hnothing hresumptions))
    · simp only [onTheWay, List.map_cons, List.map_nil, handedRows]
      split <;> omega
    · rw [hnothing hresumptions]
      simp only [onTheWay, List.map_cons, List.map_nil, handedRows, pendingRows]
      have hzero : (0 : Int) ≤ (match s.queue.pendingScroll with
          | some pending => if pending.sequence = sequence then pending.rows else 0
          | none => 0) := hnonneg
      obtain ⟨rfl, hle⟩ | ⟨remaining, rfl, _, _, hle⟩ := hpending
      · simp only
        split <;> omega
      · simp only
        split <;> omega
  | scrolled scrolled rows pending _ _ _ _ hpending hrows =>
    refine Change.rows_scrolled h rfl hcounted (h.handedRows_nonneg sequence) ?_ (Or.inl rfl)
    show handedRows sequence (onTheWay s) + (if scrolled = sequence then pending else 0) ≤ _
    split
    next heq =>
      subst heq
      omega
    · omega
  | closed resumptions _ hclosed =>
    have hbefore : Counted n s.log := hcounted
    have hrows := h.rows n sequence hbefore
    rw [rowsAfter_counted sequence hbefore] at hrows
    rw [rowsAfter_counted sequence hcounted, pendingRows_none sequence rfl]
    have hway : handedRows sequence (resumptions.map (·.handed))
        = handedRows sequence (onTheWay s) := by
      obtain ⟨rfl, _⟩ | ⟨call, _, hresumptions, _, rfl⟩ := hclosed
      · rfl
      · rw [hnothing hresumptions]
        rfl
    show rowsDeliveredAfter n sequence s.log
        + (if n ≤ (deliveredInputs s.log).length
            then handedRows sequence (resumptions.map (·.handed)) else 0) + 0
      ≤ rowsAcceptedAfter n sequence s.log
    rw [hway]
    omega
  | took input rest _ _ hresumptions =>
    refine Change.rows_moved h rfl hcounted (hnothing hresumptions) le_rfl ?_
    exact (Int.zero_add _).le
  | tookScroll scrolled rows delivered pending _ _ hresumptions hscroll hdelivered hpending =>
    have hpos := (h.pending _ hscroll).1
    have hbatch : 0 < delivered := by
      rw [hdelivered]
      exact lt_min hpos (by decide)
    refine Change.rows_moved h rfl hcounted (hnothing hresumptions) ?_ ?_
    · simp only [onTheWay, List.map_cons, List.map_nil, handedRows]
      split <;> omega
    · simp only [onTheWay, List.map_cons, List.map_nil, handedRows, pendingRows, hscroll]
      obtain ⟨rfl, _⟩ | ⟨rfl, _⟩ := hpending
      · simp only
        split <;> omega
      · simp only
        split <;> omega
  | tookEnd _ _ _ hresumptions =>
    refine Change.rows_moved h rfl hcounted (hnothing hresumptions) le_rfl ?_
    exact (Int.zero_add _).le
  | parked _ _ _ _ _ => exact h.rows n sequence hcounted
  | delivered call handed _ _ hresumptions =>
    have hbefore : Counted n s.log := hcounted
    have hrows := h.rows n sequence hbefore
    rw [rowsAfter_counted sequence hbefore, onTheWay, hresumptions] at hrows
    rw [rowsAfter_counted sequence hcounted]
    cases handed with
    | reliable input =>
      simpa [rowsDeliveredAfter, rowsAcceptedAfter, onTheWay, handedRows] using hrows
    | finished => simpa [rowsDeliveredAfter, rowsAcceptedAfter, onTheWay, handedRows] using hrows
    | scroll scrolled rows =>
      simp only [rowsDeliveredAfter, rowsAcceptedAfter, deliveredInputs, onTheWay, handedRows,
        List.map_cons, List.map_nil, ite_self] at hrows ⊢
      by_cases hsame : scrolled = sequence <;> simp only [hsame, true_and, false_and, if_true,
        if_false] at hrows ⊢ <;> omega

/-- The log only grows. -/
theorem Change.log_subset (hchange : Change s t) {e : Entry} (h : e ∈ s.log) : e ∈ t.log := by
  cases hchange with
  | unchanged => exact h
  | took => exact h
  | tookScroll => exact h
  | tookEnd => exact h
  | parked => exact h
  | queued => exact List.mem_cons_of_mem _ h
  | handedOver => exact List.mem_cons_of_mem _ h
  | scrollHandedOver => exact List.mem_cons_of_mem _ h
  | scrolled => exact List.mem_cons_of_mem _ h
  | closed => exact List.mem_cons_of_mem _ h
  | delivered => exact List.mem_cons_of_mem _ h

theorem Batch.mono {log log' : List Entry} {rows : Int} (h : Batch log sequence rows)
    (hsub : ∀ e ∈ log, e ∈ log') : Batch log' sequence rows := by
  obtain ⟨hpos, hmax, accepted, hmem⟩ := h
  exact ⟨hpos, hmax, accepted, hsub _ hmem⟩

theorem Change.pending (hchange : Change s t) (h : Inv s) (pending : PendingScroll)
    (hsome : t.queue.pendingScroll = some pending) : 0 < pending.rows ∧
      pending.rows ≤ maximumPendingScrollRows ∧ ∃ rows, .scrolled pending.sequence rows
          ∈ t.log := by
  have hkept : s.queue.pendingScroll = some pending → 0 < pending.rows ∧
      pending.rows ≤ maximumPendingScrollRows ∧
        ∃ rows, .scrolled pending.sequence rows ∈ t.log := by
    intro hbefore
    obtain ⟨hpos, hmax, rows, hmem⟩ := h.pending pending hbefore
    exact ⟨hpos, hmax, rows, hchange.log_subset hmem⟩
  cases hchange with
  | unchanged => exact hkept hsome
  | queued input kept _ _ hpending =>
    obtain rfl | ⟨rfl, _⟩ := hpending
    · cases hsome
    · exact hkept hsome
  | handedOver => exact hkept hsome
  | scrollHandedOver call sequence rows delivered left _ _ _ _ _ _ hpending =>
    obtain ⟨rfl, _⟩ | ⟨remaining, rfl, hpos, hmax, _⟩ := hpending
    · cases hsome
    · cases hsome
      exact ⟨hpos, hmax, rows, List.mem_cons_self⟩
  | scrolled sequence rows count _ _ hpos hmax _ _ =>
    cases hsome
    exact ⟨hpos, hmax, rows, List.mem_cons_self⟩
  | closed => cases hsome
  | took => exact hkept hsome
  | tookScroll sequence rows delivered left _ _ _ hscroll hdelivered hpending =>
    obtain ⟨_, hmax, accepted, hmem⟩ := h.pending _ hscroll
    obtain ⟨rfl, _⟩ | ⟨rfl, hpos⟩ := hpending
    · cases hsome
    · cases hsome
      refine ⟨hpos, ?_, accepted, hmem⟩
      have hnonneg : 0 ≤ delivered := by
        rw [hdelivered]
        exact le_min (h.pending _ hscroll).1.le (by decide)
      simp only at hmax ⊢
      omega
  | tookEnd => exact hkept hsome
  | parked => exact hkept hsome
  | delivered => exact hkept hsome

theorem Change.batch (hchange : Change s t) (h : Inv s) (sequence : Data) (rows : Int)
    (hmem : .scroll sequence rows ∈ onTheWay t) : Batch t.log sequence rows := by
  have hkept : .scroll sequence rows ∈ onTheWay s → Batch t.log sequence rows := fun hbefore =>
    (h.batch sequence rows hbefore).mono (fun _ => hchange.log_subset)
  cases hchange with
  | unchanged => exact hkept hmem
  | queued => exact hkept hmem
  | handedOver => simp [onTheWay] at hmem
  | scrollHandedOver call scrolled accepted delivered left _ _ _ _ hpos hmax _ =>
    simp only [onTheWay, List.map_cons, List.map_nil, List.mem_singleton, Handed.scroll.injEq]
      at hmem
    obtain ⟨rfl, rfl⟩ := hmem
    exact ⟨hpos, hmax, accepted, List.mem_cons_self⟩
  | scrolled => exact hkept hmem
  | closed resumptions _ hclosed =>
    obtain ⟨rfl, _⟩ | ⟨call, _, _, _, rfl⟩ := hclosed
    · exact hkept hmem
    · simp [onTheWay] at hmem
  | took => simp [onTheWay] at hmem
  | tookScroll scrolled pending delivered left _ _ _ hscroll hdelivered _ =>
    simp only [onTheWay, List.map_cons, List.map_nil, List.mem_singleton, Handed.scroll.injEq]
      at hmem
    obtain ⟨rfl, rfl⟩ := hmem
    obtain ⟨hpos, _, accepted, haccepted⟩ := h.pending _ hscroll
    rw [hdelivered]
    exact ⟨lt_min hpos (by decide), min_le_right _ _, accepted, haccepted⟩
  | tookEnd => simp [onTheWay] at hmem
  | parked => exact hkept hmem
  | delivered => cases hmem

/-- A change writes at most one entry, and an entry of a delivery is the value on its way. -/
theorem Change.log_cases (hchange : Change s t) : t.log = s.log ∨
    (∃ e, (∀ handed, e ≠ .delivered handed) ∧ t.log = e :: s.log) ∨
    ∃ handed, onTheWay s = [handed] ∧ t.queue = s.queue ∧
      t.log = .delivered handed :: s.log := by
  cases hchange with
  | unchanged => exact Or.inl rfl
  | took => exact Or.inl rfl
  | tookScroll => exact Or.inl rfl
  | tookEnd => exact Or.inl rfl
  | parked => exact Or.inl rfl
  | queued => exact Or.inr (Or.inl ⟨_, (fun _ heq => by cases heq), rfl⟩)
  | handedOver => exact Or.inr (Or.inl ⟨_, (fun _ heq => by cases heq), rfl⟩)
  | scrollHandedOver => exact Or.inr (Or.inl ⟨_, (fun _ heq => by cases heq), rfl⟩)
  | scrolled => exact Or.inr (Or.inl ⟨_, (fun _ heq => by cases heq), rfl⟩)
  | closed => exact Or.inr (Or.inl ⟨_, (fun _ heq => by cases heq), rfl⟩)
  | delivered call handed _ _ hresumptions =>
    have hway : onTheWay s = [handed] := by simp [onTheWay, hresumptions]
    exact Or.inr (Or.inr ⟨handed, hway, rfl, rfl⟩)

/-- A delivery in the log after a change was in the log before, or is the value on its way. -/
theorem Change.delivery_cases (hchange : Change s t) {newer older : List Entry} {handed : Handed}
    (hlog : t.log = newer ++ .delivered handed :: older) :
    (∃ newer', s.log = newer' ++ .delivered handed :: older) ∨
      onTheWay s = [handed] ∧ older = s.log ∧ t.queue = s.queue := by
  obtain hsame | ⟨e, hother, hcons⟩ | ⟨value, hway, hqueue, hcons⟩ := hchange.log_cases
  · exact Or.inl ⟨newer, hsame ▸ hlog⟩
  · rw [hcons] at hlog
    obtain ⟨-, heq⟩ | ⟨newer', -, hrest⟩ := List.cons_eq_append_iff.mp hlog
    · exact absurd (List.cons.inj heq).1.symm (hother handed)
    · exact Or.inl ⟨newer', hrest⟩
  · rw [hcons] at hlog
    obtain ⟨-, heq⟩ | ⟨newer', -, hrest⟩ := List.cons_eq_append_iff.mp hlog
    · obtain ⟨hvalue, hrest⟩ := List.cons.inj heq
      cases hvalue
      exact Or.inr ⟨hway, hrest, hqueue⟩
    · exact Or.inl ⟨newer', hrest⟩

theorem Change.isFinished (hchange : Change s t) (h : s.queue.isFinished = true) :
    t.queue.isFinished = true := by
  cases hchange <;> first | exact h | rfl

/-- A finished queue accepts nothing more. -/
theorem Change.acceptedInputs_finished (hchange : Change s t)
    (h : s.queue.isFinished = true) : acceptedInputs t.log = acceptedInputs s.log := by
  cases hchange with
  | queued input pending hopen => rw [h] at hopen; cases hopen
  | handedOver call input hopen => rw [h] at hopen; cases hopen
  | _ => rfl

theorem Change.finished (hchange : Change s t) (h : Inv s)
    (hfinished : t.queue.isFinished = true) : .finished ∈ t.log := by
  have hkept : s.queue.isFinished = true → .finished ∈ t.log :=
    fun hbefore => hchange.log_subset (h.finished hbefore)
  cases hchange with
  | closed => exact List.mem_cons_self
  | _ => exact hkept hfinished

theorem Change.ending (hchange : Change s t) (h : Inv s) (hmem : .finished ∈ onTheWay t) :
    t.queue.isFinished = true ∧ t.queue.reliable = [] := by
  cases hchange with
  | unchanged => exact h.ending hmem
  | queued input pending hopen =>
    have hclosed := (h.ending hmem).1
    rw [hopen] at hclosed
    cases hclosed
  | handedOver => simp [onTheWay] at hmem
  | scrollHandedOver => simp [onTheWay] at hmem
  | scrolled => exact h.ending hmem
  | closed resumptions hopen hclosed =>
    obtain ⟨rfl, _⟩ | ⟨call, _, _, hreliable, rfl⟩ := hclosed
    · exact ⟨rfl, (h.ending hmem).2⟩
    · exact ⟨rfl, hreliable⟩
  | took => simp [onTheWay] at hmem
  | tookScroll => simp [onTheWay] at hmem
  | tookEnd hfinished hreliable => exact ⟨hfinished, hreliable⟩
  | parked => exact h.ending hmem
  | delivered => cases hmem

theorem Change.inv (hchange : Change s t) (h : Inv s) : Inv t where
  consumer := hchange.consumer h.consumer
  reliable := hchange.reliable h
  rows := hchange.rows h
  pending := hchange.pending h
  batch := hchange.batch h
  batches newer older sequence rows hlog := by
    obtain ⟨newer', hbefore⟩ | ⟨hway, rfl, _⟩ := hchange.delivery_cases hlog
    · exact h.batches newer' older sequence rows hbefore
    · exact h.batch sequence rows (by rw [hway]; exact List.mem_singleton_self _)
  finished := hchange.finished h
  ending := hchange.ending h
  ended newer older hlog := by
    obtain ⟨newer', hbefore⟩ | ⟨hway, rfl, hqueue⟩ := hchange.delivery_cases hlog
    · obtain ⟨hfinished, hmem, hall⟩ := h.ended newer' older hbefore
      exact ⟨hchange.isFinished hfinished, hmem,
        hall.trans (hchange.acceptedInputs_finished hfinished).symm⟩
    · obtain ⟨hfinished, hreliable⟩ := h.ending (by rw [hway]; exact List.mem_singleton_self _)
      refine ⟨hchange.isFinished hfinished, h.finished hfinished, ?_⟩
      rw [hchange.acceptedInputs_finished hfinished, ← h.reliable, hway, hreliable]
      simp [handedInputs]

theorem inv_new : Inv .new where
  consumer := .idle rfl rfl rfl
  reliable := rfl
  rows n sequence _ := by
    have hzero : rowsAfter n sequence .new = 0 := by
      show (0 : Int) + (if n ≤ 0 then 0 else 0) + (if n ≤ 0 then 0 else 0) = 0
      rw [ite_self]
      rfl
    exact hzero.le
  pending pending h := by cases h
  batch sequence rows h := by cases h
  batches newer older sequence rows h := by
    simp [System.new] at h
  finished h := by cases h
  ending h := by cases h
  ended newer older h := by
    simp [System.new] at h

theorem step_inv (h : Inv s) (hallowed : Allowed s op) (hstep : s.step op = some (t, ())) :
    Inv t :=
  (step_change h.consumer (fun pending hsome => (h.pending pending hsome).1) hallowed hstep).inv h

/-! ### The consumer alone empties the queue -/

/-- The consumer's next step when no producer runs: it takes the value on its way, or asks for one,
or stays parked. -/
def consume (s : System) : System :=
  match s.resumptions with
  | resumption :: _ => ((s.step (.resume resumption.continuation)).map (·.1)).getD s
  | [] => if s.awaiting = none then ((s.step .next).map (·.1)).getD s else s

/-- The steps that the consumer needs for the reliable inputs on their way and in the queue. -/
def stepsLeft (s : System) : Nat := 2 * s.queue.reliable.length + s.resumptions.length

theorem consume_resuming (h : Inv s) {resumption : Resumption} {rest : List Resumption}
    (hresumptions : s.resumptions = resumption :: rest) :
    Inv (consume s) ∧ stepsLeft (consume s) + 1 = stepsLeft s ∧
      acceptedInputs (consume s).log = acceptedInputs s.log := by
  cases h.consumer with
  | idle _ _ hnone => rw [hnone] at hresumptions; cases hresumptions
  | parked _ _ _ hnone => rw [hnone] at hresumptions; cases hresumptions
  | resuming call handed hawaiting _ hone =>
    obtain ⟨rfl, rfl⟩ := List.cons.inj (hone.symm.trans hresumptions)
    have hstep : s.step (.resume call) = some ({ s with
        awaiting := none, resumptions := [], log := .delivered handed :: s.log }, ()) := by
      simp [System.step, hone, hawaiting]
    have hconsume : consume s = { s with
        awaiting := none, resumptions := [], log := .delivered handed :: s.log } := by
      rw [consume, hone]
      simp [hstep]
    refine ⟨?_, ?_, ?_⟩
    · rw [hconsume]
      have hallowed : Allowed s (.resume call) := trivial
      exact step_inv h hallowed hstep
    · rw [hconsume, stepsLeft, stepsLeft, hone]
      rfl
    · rw [hconsume]
      cases handed <;> rfl

theorem consume_idle (h : Inv s) (hresumptions : s.resumptions = []) {input : TerminalAttachInput}
    {rest : List TerminalAttachInput} (hreliable : s.queue.reliable = input :: rest) :
    Inv (consume s) ∧ stepsLeft (consume s) + 1 = stepsLeft s ∧
      acceptedInputs (consume s).log = acceptedInputs s.log := by
  have hawaiting : s.awaiting = none := by
    cases h.consumer with
    | idle hawaiting => exact hawaiting
    | parked _ _ _ _ hempty => rw [hreliable] at hempty; cases hempty
    | resuming _ _ _ _ hone => rw [hresumptions] at hone; cases hone
  have hstep : s.step .next = some ({ s with
      queue := { s.queue with reliable := rest }
      awaiting := some s.calls
      calls := s.calls + 1
      resumptions := [⟨s.calls, .reliable input⟩] }, ()) := by
    simp [System.step, QueueState.next, hreliable, System.after, hresumptions]
  have hconsume : consume s = { s with
      queue := { s.queue with reliable := rest }
      awaiting := some s.calls
      calls := s.calls + 1
      resumptions := [⟨s.calls, .reliable input⟩] } := by
    rw [consume, hresumptions]
    simp [hawaiting, hstep]
  refine ⟨?_, ?_, ?_⟩
  · rw [hconsume]
    have hallowed : Allowed s .next := hawaiting
    exact step_inv h hallowed hstep
  · rw [hconsume, stepsLeft, stepsLeft, hreliable, hresumptions]
    simp only [List.length_cons, List.length_nil]
    omega
  · rw [hconsume]

/-- What was accepted is delivered by the consumer's own steps. -/
theorem consume_delivers (h : Inv s) :
    deliveredInputs (consume^[stepsLeft s] s).log = acceptedInputs s.log := by
  -- Each step of the consumer takes one off the steps that are left.
  induction hleft : stepsLeft s generalizing s with
  | zero =>
    have hreliable : s.queue.reliable = [] := by
      rw [stepsLeft] at hleft
      exact List.length_eq_zero_iff.mp (by omega)
    have hresumptions : s.resumptions = [] := by
      rw [stepsLeft] at hleft
      exact List.length_eq_zero_iff.mp (by omega)
    have hall := h.reliable
    rw [hreliable, onTheWay, hresumptions] at hall
    simpa [handedInputs] using hall
  | succ n ih =>
    have hstep : Inv (consume s) ∧ stepsLeft (consume s) + 1 = stepsLeft s ∧
        acceptedInputs (consume s).log = acceptedInputs s.log := by
      cases hresumptions : s.resumptions with
      | cons resumption rest => exact consume_resuming h hresumptions
      | nil =>
        cases hreliable : s.queue.reliable with
        | cons input rest => exact consume_idle h hresumptions hreliable
        | nil =>
          rw [stepsLeft, hresumptions, hreliable] at hleft
          cases hleft
    obtain ⟨hinv, hless, hsame⟩ := hstep
    rw [Function.iterate_succ_apply, ih hinv (by omega), hsame]

/-! ### The queue's promises -/

/-- What the log and the state say in every reachable state.

- `reliable`: the reliable inputs delivered, on their way and queued are the accepted ones, in
  order;
- `drained`: the consumer's own steps deliver them all, also when the queue is finished;
- `discarded`: the rows of a sequence delivered after a keystroke chunk were accepted after it;
- `batches`: a scroll delivery repeats one accepted sequence, at most three times;
- `bounded` and `conserved`: what can be pending, and what can be delivered for a sequence;
- `resumed`, `asked`: a resumption is for the call that waits, there is at most one, and `next`
  does not trap;
- `waits`, `ends`: when the consumer is parked, and when it gets `nil`. -/
structure Delivers (s : System) : Prop where
  reliable : deliveredInputs s.log ++ handedInputs (onTheWay s) ++ s.queue.reliable
    = acceptedInputs s.log
  drained : deliveredInputs (consume^[stepsLeft s] s).log = acceptedInputs s.log
  discarded : ∀ i data sequence, (acceptedInputs s.log)[i]? = some (.keystrokes data) →
    rowsDeliveredAfter (i + 1) sequence s.log ≤ rowsAcceptedAfter (i + 1) sequence s.log
  batches : ∀ newer older sequence rows,
    s.log = newer ++ .delivered (.scroll sequence rows) :: older →
      (Handed.scroll sequence rows).value = some (.scroll (repeated sequence rows)) ∧
        Batch older sequence rows
  bounded : ∀ pending, s.queue.pendingScroll = some pending →
    0 < pending.rows ∧ pending.rows ≤ maximumPendingScrollRows
  conserved : ∀ sequence, rowsDeliveredAfter 0 sequence s.log ≤ rowsAcceptedAfter 0 sequence s.log
  resumed : s.resumptions.length ≤ 1 ∧
    ∀ resumption ∈ s.resumptions, s.awaiting = some resumption.continuation
  asked : s.awaiting = none → (s.step .next).isSome
  waits : ∀ call, s.queue.waiter = some call → s.queue.reliable = [] ∧
    s.queue.pendingScroll = none ∧ s.queue.isFinished = false
  ends : ∀ newer older, s.log = newer ++ .delivered .finished :: older →
    .finished ∈ older ∧ deliveredInputs older = acceptedInputs s.log

theorem Inv.rowsDelivered_le (h : Inv s) (sequence : Data) (hcounted : Counted n s.log) :
    rowsDeliveredAfter n sequence s.log ≤ rowsAcceptedAfter n sequence s.log := by
  have hrows := h.rows n sequence hcounted
  have hpending := h.pendingRows_nonneg sequence
  have hhanded := h.handedRows_nonneg sequence
  rw [rowsAfter_counted sequence hcounted] at hrows
  split at hrows <;> omega

theorem Inv.asked (h : Inv s) (hawaiting : s.awaiting = none) : (s.step .next).isSome := by
  have hwaiter : s.queue.waiter = none := by
    cases h.consumer with
    | idle _ hwaiter _ => exact hwaiter
    | parked call hcall => rw [hawaiting] at hcall; cases hcall
    | resuming call handed hcall => rw [hawaiting] at hcall; cases hcall
  rw [System.step, Option.isSome_map, QueueState.next]
  split
  · rfl
  · split
    · rfl
    · split
      · rfl
      · rw [hwaiter]
        rfl

theorem Inv.delivers (h : Inv s) : Delivers s where
  reliable := h.reliable
  drained := consume_delivers h
  discarded i data sequence hkey := h.rowsDelivered_le sequence (Or.inr ⟨i, data, rfl, hkey⟩)
  batches newer older sequence rows hlog := ⟨rfl, h.batches newer older sequence rows hlog⟩
  bounded pending hsome := ⟨(h.pending pending hsome).1, (h.pending pending hsome).2.1⟩
  conserved sequence := h.rowsDelivered_le sequence (Or.inl rfl)
  resumed := by
    cases h.consumer with
    | idle _ _ hnone => simp [hnone]
    | parked _ _ _ hnone => simp [hnone]
    | resuming call handed hawaiting _ hone => simp [hone, hawaiting]
  asked := h.asked
  waits call hwaiter := by
    cases h.consumer with
    | idle _ hnone _ => rw [hwaiter] at hnone; cases hnone
    | parked _ _ _ _ hreliable hpending hopen => exact ⟨hreliable, hpending, hopen⟩
    | resuming _ _ _ hnone _ => rw [hwaiter] at hnone; cases hnone
  ends newer older hlog := (h.ended newer older hlog).2

/-- Along every interleaving of the producers with one consumer, the queue keeps its promises. -/
theorem reachable_delivers {s : System}
    (h : Reachable (fun s => s = System.new) Allowed System.step s) : Delivers s := by
  have hinv : Inv s := by
    refine h.invariant Inv ?_ ?_
    · rintro _ rfl
      exact inv_new
    · intro s op t answer hallowed hstep hinv
      exact step_inv hinv hallowed hstep
  exact hinv.delivers

/-- What the calls of `next` returned, the last first. -/
def returned (log : List Entry) : List (Option TerminalAttachInput) :=
  log.filterMap fun | .delivered handed => some handed.value | _ => none

/-- Whether an operation is allowed. -/
def allowedTest (s : System) : Op → Bool
  | .next => decide (s.awaiting = none)
  | _ => true

/-- A scroll wakes the parked consumer, a keystroke drops the rest of it, and the queue is
finished before the consumer comes back. -/
def scrollThenType : List Op :=
  [.next, .scroll [27] 9, .send [65], .finish, .resume 0, .next, .resume 1, .next, .resume 2]

theorem reachable_delivers_scrollThenType :
    ∃ s, Reachable (fun s => s = System.new) Allowed System.step s ∧ Delivers s ∧
      s.log.filterMap (fun | .delivered handed => some handed.value | _ => none)
        = [none, some (.keystrokes [65]), some (.scroll [27, 27, 27])] := by
  have hrun : (Herden.Lib.runAll (Herden.Lib.guarded allowedTest System.step) .new
      scrollThenType).any (fun s => decide (returned s.log
        = [none, some (.keystrokes [65]), some (.scroll [27, 27, 27])])) = true := by
    decide +kernel
  obtain ⟨s, hsome, hends⟩ := (Option.any_eq_true _ _).mp hrun
  have hreach : Reachable (fun s => s = System.new) Allowed System.step s := by
    refine Reachable.runAll ?_ (.start rfl) hsome
    intro s op htest
    cases op with
    | next =>
      show s.awaiting = none
      exact of_decide_eq_true htest
    | _ => trivial
  exact ⟨s, hreach, reachable_delivers hreach, of_decide_eq_true hends⟩

end Herden.Proofs.TerminalAttach
