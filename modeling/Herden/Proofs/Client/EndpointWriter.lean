import Herden.Lib.Run
import Herden.Runtime.Client.EndpointWriter
import Mathlib.Data.List.Infix
import Mathlib.Algebra.BigOperators.Group.List.Basic
import Mathlib.Algebra.GroupWithZero.Nat

/-!
# `Herden.Proofs.Client.EndpointWriter`: what reaches the socket, and what is counted

The frames that the worker still has to write are those of the batch in its hands, of the command
it has received and of the queue, in this order (`outstanding`). As long as the worker goes on,
the accepted frames are the ones it has finished and then the outstanding ones, and the socket has
the bytes of the former and some of the first outstanding frame (`Live`). A new frame goes to the
end: its batch is the last command, since a flush lets the pending batch go and the worker leaves
an empty batch behind. A worker that stops drops what is in its hands and writes nothing more
(`Halted`).

The counter says how many bytes are outstanding, and the bytes of a `send` between its reservation
and its end. A frame whose last byte has just been written is counted until the worker subtracts
it (`settling`), so the counter can be ahead of the socket (`counted_before_subtraction`).
-/

namespace Herden.Proofs.Client.EndpointWriter

open Herden.Lib
open Herden.Runtime.Client.EndpointWriter

/-! ### Frames in the channel -/

def total (frames : List Frame) : Nat := (frames.map List.length).sum

@[simp] theorem total_nil : total [] = 0 := rfl

@[simp] theorem total_cons (frame : Frame) (frames : List Frame) :
    total (frame :: frames) = frame.length + total frames := by
  simp [total]

@[simp] theorem total_append (left right : List Frame) :
    total (left ++ right) = total left + total right := by
  simp [total]

section

variable (batches : Nat → FrameBatch)

def framesOf : WriterCommand → List Frame
  | .frames batch => (batches batch).frames
  | .flush _ => []

/-- The frames of these commands, in the order in which the worker will meet them. -/
def contents (commands : List WriterCommand) : List Frame := commands.flatMap (framesOf batches)

end

@[simp] theorem contents_nil (batches : Nat → FrameBatch) : contents batches [] = [] := rfl

@[simp] theorem contents_cons (batches : Nat → FrameBatch) (command : WriterCommand)
    (commands : List WriterCommand) :
    contents batches (command :: commands) = framesOf batches command
        ++ contents batches commands :=
  rfl

@[simp] theorem contents_append (batches : Nat → FrameBatch) (left right : List WriterCommand) :
    contents batches (left ++ right) = contents batches left ++ contents batches right := by
  simp [contents]

variable {batches : Nat → FrameBatch} {count : Nat} {flushes : List Nat}

variable {id : Nat}

theorem contents_update {batch : FrameBatch} {commands : List WriterCommand}
    (h : .frames id ∉ commands) :
    contents (Function.update batches id batch) commands = contents batches commands := by
  unfold contents
  rw [List.flatMap_congr]
  intro command hmem
  cases command with
  | flush token => rfl
  | frames other =>
    have hne : other ≠ id := by
      rintro rfl
      exact h hmem
    show (Function.update batches id batch other).frames = (batches other).frames
    rw [Function.update_of_ne hne]

section

variable (flushes : List Nat) (batches : Nat → FrameBatch)

/-- Every flush among the commands was sent after the frames in front of it. -/
def Marks : Nat → List WriterCommand → Prop
  | _, [] => True
  | count, .frames batch :: rest => Marks (count + (batches batch).frames.length) rest
  | count, .flush token :: rest => flushes[token]? = some count ∧ Marks count rest

end

theorem marks_append {left right : List WriterCommand} :
    Marks flushes batches count (left ++ right) ↔
      Marks flushes batches count left ∧
        Marks flushes batches (count + (contents batches left).length) right := by
  induction left generalizing count with
  | nil => simp [Marks]
  | cons command left ih =>
    cases command with
    | frames id =>
      simp only [List.cons_append, Marks, ih, contents_cons, framesOf, List.length_append,
        Nat.add_assoc]
    | flush token =>
      simp only [List.cons_append, Marks, ih, contents_cons, framesOf, List.nil_append, and_assoc]

theorem Marks.update {batch : FrameBatch} {commands : List WriterCommand}
    (h : Marks flushes batches count commands) (hid : .frames id ∉ commands) :
    Marks flushes (Function.update batches id batch) count commands := by
  induction commands generalizing count with
  | nil => exact trivial
  | cons command commands ih =>
    rw [List.mem_cons, not_or] at hid
    cases command with
    | frames other =>
      have hne : other ≠ id := by
        rintro rfl
        exact hid.1 rfl
      show Marks flushes _ (count + (Function.update batches id batch other).frames.length) commands
      rw [Function.update_of_ne hne]
      exact ih h hid.2
    | flush token => exact ⟨h.1, ih h.2 hid.2⟩

theorem Marks.snoc {mark : Nat} {commands : List WriterCommand}
    (h : Marks flushes batches count commands) :
    Marks (flushes ++ [mark]) batches count commands := by
  induction commands generalizing count with
  | nil => exact trivial
  | cons command commands ih =>
    cases command with
    | frames other => exact ih h
    | flush token =>
      refine ⟨?_, ih h.2⟩
      obtain ⟨hlt, _⟩ := List.getElem?_eq_some_iff.mp h.1
      rw [List.getElem?_append_left hlt]
      exact h.1

/-! ### The invariant -/

/-- The command that the worker has received and not carried out. -/
def receivedCommand : Worker → List WriterCommand
  | .received command => [command]
  | .claiming batch => [.frames batch]
  | _ => []

def commands (state : State) : List WriterCommand := receivedCommand state.worker ++ state.queue

/-- The frames that the worker has claimed and not finished. -/
def inHand : Worker → List Frame
  | .batch frames => frames
  | .writing frame _ rest | .attempting frame _ rest | .finishing frame _ rest _ => frame :: rest
  | _ => []

def outstanding (state : State) : List Frame :=
  inHand state.worker ++ contents state.batches (commands state)

/-- These bytes of the frame in the worker's hands are written. -/
def Taken (taken : List UInt8) : Worker → Prop
  | .writing frame remaining _ | .attempting frame remaining _ | .finishing frame remaining _ _ =>
      frame = taken ++ remaining
  | _ => taken = []

/-- The bytes of a `send` that has reserved them and not ended. -/
def reservedBytes : Producer → Nat
  | .reserved frame | .opening frame | .refunding frame _ => frame.length
  | _ => 0

/-- The worker writes nothing more. -/
def Halted (state : State) : Prop :=
  match state.worker with
  | .exited | .failing _ => True
  | .receiving | .received _ | .batch _ => state.stopped = true
  | _ => False

structure Live (state : State) (done : List Frame) (taken : List UInt8) : Prop where
  accepted : state.accepted = done ++ outstanding state
  socket : state.socket = done.flatten ++ taken
  taken : Taken taken state.worker
  queued : state.queuedBytes = total (outstanding state) + reservedBytes state.producer
  marks : Marks state.flushes state.batches (done.length + (inHand state.worker).length)
    (commands state)
  nodup : (commands state).Pairwise fun left right => ∀ id, left = .frames id → right ≠ .frames id
  fresh : ∀ id, .frames id ∈ commands state → id < state.nextBatch
  pending : ∀ id, state.pendingBatch = some id → (state.batches id).frames ≠ [] →
    (commands state).getLast? = some (.frames id)
  cut : ∀ frame remaining rest, state.worker = .finishing frame remaining rest none →
    remaining ≠ [] → state.stopped = true

structure Inv (state : State) : Prop where
  bound : state.queuedBytes ≤ maxQueuedBytes
  enough : reservedBytes state.producer ≤ state.queuedBytes
  written : state.socket <+: state.accepted.flatten
  flushed : ∀ token ∈ state.acknowledged, ∃ count, state.flushes[token]? = some count ∧
    count ≤ state.accepted.length ∧ (state.accepted.take count).flatten <+: state.socket
  live : ¬ Halted state → ∃ done taken, Live state done taken

section

variable {state : State} {done : List Frame} {taken : List UInt8}

theorem inv_start : Inv start where
  bound := Nat.zero_le _
  enough := Nat.le_refl _
  written := List.nil_prefix
  flushed token htoken := by cases htoken
  live _ := by
    refine ⟨[], [], rfl, rfl, rfl, rfl, trivial, List.Pairwise.nil, ?_, ?_, ?_⟩
    · intro id hid
      cases hid
    · intro id hid
      cases hid
    · intro frame remaining rest hworker
      cases hworker

/-- The socket has a beginning of what was accepted. -/
theorem Live.written (h : Live state done taken) : state.socket <+: state.accepted.flatten := by
  rw [h.socket, h.accepted, List.flatten_append]
  apply List.prefix_append_right_inj (done.flatten) |>.mpr
  have htaken := h.taken
  unfold outstanding
  cases hworker : state.worker with
  | writing frame remaining rest | attempting frame remaining rest
    | finishing frame remaining rest error =>
    rw [hworker] at htaken
    rw [show frame = taken ++ remaining from htaken]
    simp only [inHand, List.cons_append, List.flatten_cons, List.append_assoc]
    exact List.prefix_append _ _
  | _ =>
    rw [hworker] at htaken
    rw [show taken = [] from htaken]
    exact List.nil_prefix

/-! ### Steps of the worker -/

/-- The worker moves on with the same commands and frames. -/
theorem Live.turn {worker : Worker} {queue : List WriterCommand} (h : Live state done taken)
    (hcommands : receivedCommand worker ++ queue = commands state)
    (hhand : inHand worker = inHand state.worker) (htaken : Taken taken worker)
    (hcut : ∀ frame remaining rest, worker = .finishing frame remaining rest none →
      remaining ≠ [] → state.stopped = true) :
    Live { state with worker := worker, queue := queue } done taken := by
  have hsame : commands { state with worker := worker, queue := queue }
      = commands state := hcommands
  have hout : outstanding { state with worker := worker, queue := queue } = outstanding state := by
    unfold outstanding
    rw [hsame, hhand]
  constructor
  · rw [hout]
    exact h.accepted
  · exact h.socket
  · exact htaken
  · rw [hout]
    exact h.queued
  · rw [hsame, hhand]
    exact h.marks
  · rw [hsame]
    exact h.nodup
  · rw [hsame]
    exact h.fresh
  · rw [hsame]
    exact h.pending
  · exact hcut

/-- The worker answers a flush. -/
theorem Live.acknowledge {token : Nat} (h : Live state done taken)
    (hworker : state.worker = .received (.flush token)) :
    Live { state with
      acknowledged := state.acknowledged ++ [token], worker := .receiving } done taken ∧
      state.flushes[token]? = some done.length ∧ taken = [] := by
  have hcommands : commands state = .flush token :: state.queue := by
    rw [commands, hworker]
    rfl
  have hhand : inHand state.worker = [] := by rw [hworker]; rfl
  have hmarks := h.marks
  rw [hcommands, hhand] at hmarks
  have htaken := h.taken
  rw [hworker] at htaken
  refine ⟨?_, hmarks.1, htaken⟩
  have hout : outstanding state = contents state.batches state.queue := by
    rw [outstanding, hcommands, hhand]
    rfl
  constructor
  · show state.accepted = done ++ contents state.batches state.queue
    rw [← hout]
    exact h.accepted
  · exact h.socket
  · exact htaken
  · show state.queuedBytes = total (contents state.batches state.queue) + _
    rw [← hout]
    exact h.queued
  · exact hmarks.2
  · have hnodup := h.nodup
    rw [hcommands] at hnodup
    exact hnodup.tail
  · intro id hid
    apply h.fresh id
    rw [hcommands]
    exact List.mem_cons_of_mem _ hid
  · intro id hid hframes
    have hlast := h.pending id hid hframes
    rw [hcommands, List.getLast?_cons] at hlast
    show state.queue.getLast? = some (.frames id)
    cases hqueue : state.queue.getLast? with
    | none =>
      rw [hqueue] at hlast
      cases hlast
    | some last =>
      rw [hqueue] at hlast
      exact hlast
  · intro frame remaining rest heq
    cases heq

variable {id : Nat} {producer : Producer}

/-- The worker claims a batch and leaves it empty. -/
theorem Live.claim (h : Live state done taken) (hworker : state.worker = .claiming id) :
    Live { state with
      batches := Function.update state.batches id .empty
      worker := .batch (state.batches id).frames } done taken := by
  have hcommands : commands state = .frames id :: state.queue := by
    rw [commands, hworker]
    rfl
  have hhand : inHand state.worker = [] := by rw [hworker]; rfl
  have hnodup := h.nodup
  rw [hcommands, List.pairwise_cons] at hnodup
  have hnot : .frames id ∉ state.queue := fun hmem => hnodup.1 _ hmem id rfl rfl
  have hcontents : contents (Function.update state.batches id .empty) state.queue
      = contents state.batches state.queue := contents_update hnot
  have hout : outstanding state
      = (state.batches id).frames ++ contents state.batches state.queue := by
    rw [outstanding, hcommands, hhand]
    rfl
  constructor
  · show state.accepted = done ++ ((state.batches id).frames ++ contents _ state.queue)
    rw [hcontents, ← hout]
    exact h.accepted
  · exact h.socket
  · have htaken := h.taken
    rw [hworker] at htaken
    exact htaken
  · show state.queuedBytes = total ((state.batches id).frames ++ contents _ state.queue) + _
    rw [hcontents, ← hout]
    exact h.queued
  · have hmarks := h.marks
    rw [hcommands, hhand] at hmarks
    exact Marks.update hmarks hnot
  · exact hnodup.2
  · intro other hother
    apply h.fresh other
    rw [hcommands]
    exact List.mem_cons_of_mem _ hother
  · intro other hother hframes
    change (Function.update state.batches id .empty other).frames ≠ [] at hframes
    -- the batch that was claimed is empty now
    have hne : other ≠ id := by
      rintro rfl
      rw [Function.update_self] at hframes
      exact hframes rfl
    rw [Function.update_of_ne hne] at hframes
    have hlast := h.pending other hother hframes
    rw [hcommands, List.getLast?_cons] at hlast
    show state.queue.getLast? = some (.frames other)
    cases hqueue : state.queue.getLast? with
    | none =>
      rw [hqueue] at hlast
      cases hlast
      exact absurd rfl hne
    | some last =>
      rw [hqueue] at hlast
      exact hlast
  · intro frame remaining rest heq
    cases heq

/-- The worker has written a frame and subtracts its bytes. -/
theorem Live.finish {frame : Frame} {rest : List Frame} (h : Live state done taken)
    (hworker : state.worker = .finishing frame [] rest none) :
    Live { state with
      queuedBytes := state.queuedBytes - frame.length, worker := .batch rest }
      (done ++ [frame]) [] := by
  have hcommands : commands state = state.queue := by
    rw [commands, hworker]
    rfl
  have hout : outstanding state = frame :: (rest ++ contents state.batches state.queue) := by
    rw [outstanding, hcommands, hworker]
    rfl
  have htaken := h.taken
  rw [hworker] at htaken
  have hframe : frame = taken := by simpa [Taken] using htaken
  constructor
  · show state.accepted = done ++ [frame] ++ (rest ++ contents state.batches state.queue)
    rw [h.accepted, hout, List.append_assoc]
    rfl
  · show state.socket = (done ++ [frame]).flatten ++ []
    rw [h.socket, hframe]
    simp
  · rfl
  · show state.queuedBytes - frame.length
      = total (rest ++ contents state.batches state.queue) + reservedBytes state.producer
    have hqueued := h.queued
    rw [hout, total_cons] at hqueued
    omega
  · show Marks state.flushes state.batches ((done ++ [frame]).length + rest.length) state.queue
    have hmarks := h.marks
    rw [hcommands, hworker] at hmarks
    have hcount : (done ++ [frame]).length + rest.length = done.length +
        (frame :: rest).length := by
      simp only [List.length_append, List.length_cons, List.length_nil]
      omega
    rw [hcount]
    exact hmarks
  · have hnodup := h.nodup
    rw [hcommands] at hnodup
    exact hnodup
  · have hfresh := h.fresh
    rw [hcommands] at hfresh
    exact hfresh
  · have hpending := h.pending
    rw [hcommands] at hpending
    exact hpending
  · intro other remaining others heq
    cases heq

/-- The socket takes some bytes of the frame. -/
theorem Live.write {frame remaining : Frame} {rest : List Frame} (count : Nat)
    (h : Live state done taken) (hworker : state.worker = .attempting frame remaining rest) :
    Live { state with
      socket := state.socket ++ remaining.take count
      worker := .writing frame (remaining.drop count) rest } done
          (taken ++ remaining.take count) := by
  have htaken := h.taken
  rw [hworker] at htaken
  have hcommands : commands state = state.queue := by
    rw [commands, hworker]
    rfl
  have hout : outstanding state = frame :: rest ++ contents state.batches state.queue := by
    rw [outstanding, hcommands, hworker]
    rfl
  constructor
  · show state.accepted = done ++ (frame :: rest ++ contents state.batches state.queue)
    rw [← hout]
    exact h.accepted
  · show state.socket ++ remaining.take count = done.flatten ++ (taken ++ remaining.take count)
    rw [h.socket, List.append_assoc]
  · show frame = taken ++ remaining.take count ++ remaining.drop count
    rw [List.append_assoc, List.take_append_drop]
    exact htaken
  · show state.queuedBytes = total (frame :: rest ++ contents state.batches state.queue) + _
    rw [← hout]
    exact h.queued
  · have hmarks := h.marks
    rw [hcommands, hworker] at hmarks
    exact hmarks
  · have hnodup := h.nodup
    rw [hcommands] at hnodup
    exact hnodup
  · have hfresh := h.fresh
    rw [hcommands] at hfresh
    exact hfresh
  · have hpending := h.pending
    rw [hcommands] at hpending
    exact hpending
  · intro other others left heq
    cases heq

/-! ### Steps of the UI thread -/

/-- The call goes on without a change of the commands. -/
theorem Live.call {queued : Nat} (h : Live state done taken)
    (hqueued : queued + reservedBytes state.producer = state.queuedBytes + reservedBytes producer) :
    Live { state with producer := producer, queuedBytes := queued } done taken where
  accepted := h.accepted
  socket := h.socket
  taken := h.taken
  queued := by
    have hbefore := h.queued
    show queued = total (outstanding state) + reservedBytes producer
    omega
  marks := h.marks
  nodup := h.nodup
  fresh := h.fresh
  pending := h.pending
  cut := h.cut

/-- The frame goes into the pending batch, the last in the queue. -/
theorem Live.join {frame : Frame} (h : Live state done taken)
    (hproducer : state.producer = .reserved frame) (hpending : state.pendingBatch = some id)
    (hfits : fits (state.batches id) frame = true) : Live { state with
      batches := Function.update state.batches id
        ⟨(state.batches id).frames ++ [frame], (state.batches id).bytes + frame.length⟩
      accepted := state.accepted ++ [frame]
      producer := .idle } done taken := by
  have hframes : (state.batches id).frames ≠ [] := by
    intro hempty
    rw [fits, hempty] at hfits
    cases hfits
  obtain ⟨before, hlast⟩ := List.getLast?_eq_some_iff.mp (h.pending id hpending hframes)
  have hnodup := h.nodup
  rw [hlast, List.pairwise_append] at hnodup
  have hnot : .frames id ∉ before := fun hmem =>
    hnodup.2.2 _ hmem _ (List.mem_singleton_self _) id rfl rfl
  -- the frames of the commands, with the new one at the end
  have hcontents : contents (Function.update state.batches id
      ⟨(state.batches id).frames ++ [frame], (state.batches id).bytes + frame.length⟩)
      (commands state) = contents state.batches (commands state) ++ [frame] := by
    rw [hlast, contents_append, contents_append, contents_update hnot]
    simp [framesOf]
  have hqueued := h.queued
  rw [hproducer] at hqueued
  constructor
  · show state.accepted ++ [frame]
      = done ++ (inHand state.worker ++ contents _ (commands state))
    rw [hcontents, h.accepted, outstanding]
    simp only [List.append_assoc]
  · exact h.socket
  · exact h.taken
  · show state.queuedBytes = total (inHand state.worker ++ contents _ (commands state)) + 0
    rw [hcontents, hqueued, outstanding, reservedBytes]
    simp only [total_append, total_cons, total_nil]
    omega
  · show Marks state.flushes _ (done.length + (inHand state.worker).length) (commands state)
    have hmarks := h.marks
    rw [hlast, marks_append] at hmarks ⊢
    exact ⟨hmarks.1.update hnot, trivial⟩
  · exact h.nodup
  · exact h.fresh
  · intro other hother hnonempty
    have hsame : other = id := by
      rw [show state.pendingBatch = some other from hother] at hpending
      exact Option.some.inj hpending
    rw [hsame]
    exact h.pending id hpending hframes
  · exact h.cut

/-- A command goes to the end of the queue. -/
theorem commands_snoc (state : State) (command : WriterCommand) (batches : Nat → FrameBatch)
    (next : Nat)
    (pending : Option Nat) (accepted : List Frame) (flushes : List Nat) (producer : Producer) :
    commands { state with
      queue := state.queue ++ [command]
      batches := batches
      nextBatch := next
      pendingBatch := pending
      accepted := accepted
      flushes := flushes
      producer := producer } = commands state ++ [command] := by
  show receivedCommand state.worker ++ (state.queue ++ [command]) = _
  rw [commands, List.append_assoc]

/-- The frame goes into a new batch at the end of the queue. -/
theorem Live.openBatch {frame : Frame} (h : Live state done taken)
    (hproducer : state.producer = .opening frame) :
    Live { state with
      queue := state.queue ++ [.frames state.nextBatch]
      batches := Function.update state.batches state.nextBatch ⟨[frame], frame.length⟩
      nextBatch := state.nextBatch + 1
      pendingBatch := some state.nextBatch
      accepted := state.accepted ++ [frame]
      producer := .idle } done taken := by
  have hnot : .frames state.nextBatch ∉ commands state :=
    fun hmem => absurd (h.fresh _ hmem) (Nat.lt_irrefl _)
  have hcommands := commands_snoc state (.frames state.nextBatch)
    (Function.update state.batches state.nextBatch ⟨[frame], frame.length⟩) (state.nextBatch + 1)
    (some state.nextBatch) (state.accepted ++ [frame]) state.flushes .idle
  have hcontents : contents (Function.update state.batches state.nextBatch ⟨[frame], frame.length⟩)
      (commands state ++ [.frames state.nextBatch])
      = contents state.batches (commands state) ++ [frame] := by
    rw [contents_append, contents_update hnot]
    simp [framesOf]
  have hqueued := h.queued
  rw [hproducer] at hqueued
  constructor
  · rw [outstanding, hcommands, hcontents]
    show state.accepted ++ [frame] = done ++ (inHand state.worker ++ _)
    rw [h.accepted, outstanding]
    simp only [List.append_assoc]
  · exact h.socket
  · exact h.taken
  · rw [outstanding, hcommands, hcontents]
    show state.queuedBytes = total (inHand state.worker ++ _) + 0
    rw [hqueued, outstanding, reservedBytes]
    simp only [total_append, total_cons, total_nil]
    omega
  · rw [hcommands, marks_append]
    exact ⟨h.marks.update hnot, trivial⟩
  · rw [hcommands, List.pairwise_append]
    refine ⟨h.nodup, List.pairwise_singleton _ _, ?_⟩
    intro left hleft right hright id hid
    rw [List.mem_singleton.mp hright]
    rintro heq
    cases heq
    rw [hid] at hleft
    exact hnot hleft
  · rw [hcommands]
    intro id hid
    show id < state.nextBatch + 1
    cases List.mem_append.mp hid with
    | inl hmem => exact Nat.lt_succ_of_lt (h.fresh id hmem)
    | inr hmem =>
      cases List.mem_singleton.mp hmem
      exact Nat.lt_succ_self _
  · intro id hid _
    cases hid
    rw [hcommands, List.getLast?_append]
    rfl
  · exact h.cut

/-- A flush goes to the end of the queue, and no frame joins a batch in front of it. -/
theorem Live.flush (h : Live state done taken) (hproducer : state.producer = .idle) :
    Live { state with
      pendingBatch := none
      queue := state.queue ++ [.flush state.flushes.length]
      flushes := state.flushes ++ [state.accepted.length]
      producer := .flushing state.flushes.length } done taken := by
  have hcommands := commands_snoc state (.flush state.flushes.length) state.batches
    state.nextBatch none state.accepted (state.flushes ++ [state.accepted.length])
    (.flushing state.flushes.length)
  have hcontents : contents state.batches (commands state ++ [.flush state.flushes.length])
      = contents state.batches (commands state) := by
    rw [contents_append]
    simp [framesOf]
  have hqueued := h.queued
  rw [hproducer] at hqueued
  constructor
  · rw [outstanding, hcommands, hcontents]
    exact h.accepted
  · exact h.socket
  · exact h.taken
  · rw [outstanding, hcommands, hcontents]
    exact hqueued
  · rw [hcommands, marks_append]
    refine ⟨h.marks.snoc, ?_, trivial⟩
    rw [List.getElem?_append_right (Nat.le_refl _), Nat.sub_self]
    show some state.accepted.length = some _
    rw [h.accepted, outstanding]
    simp only [List.length_append, Nat.add_assoc]
  · rw [hcommands, List.pairwise_append]
    refine ⟨h.nodup, List.pairwise_singleton _ _, ?_⟩
    intro left hleft right hright id hid
    rw [List.mem_singleton.mp hright]
    intro heq
    cases heq
  · rw [hcommands]
    intro id hid
    cases List.mem_append.mp hid with
    | inl hmem => exact h.fresh id hmem
    | inr hmem => cases List.mem_singleton.mp hmem
  · intro id hid
    cases hid
  · exact h.cut

/-! ### All steps -/

/-- What holds for good survives a step that writes nothing and answers no flush. -/
theorem Inv.keep (next : State) (h : Inv state) (hbound : next.queuedBytes ≤ maxQueuedBytes)
    (henough : reservedBytes next.producer ≤ next.queuedBytes)
    (hsocket : next.socket = state.socket) (haccepted : state.accepted <+: next.accepted)
    (hflushes : state.flushes <+: next.flushes) (hack : next.acknowledged = state.acknowledged)
    (hlive : ¬ Halted next → ∃ done taken, Live next done taken) : Inv next where
  bound := hbound
  enough := henough
  written := by
    rw [hsocket]
    obtain ⟨added, hadded⟩ := haccepted
    rw [← hadded, List.flatten_append]
    exact h.written.trans (List.prefix_append _ _)
  flushed token htoken := by
    rw [hack] at htoken
    obtain ⟨count, hcount, hle, hfront⟩ := h.flushed token htoken
    obtain ⟨added, hadded⟩ := haccepted
    obtain ⟨marks, hmarks⟩ := hflushes
    refine ⟨count, ?_, ?_, ?_⟩
    · obtain ⟨hlt, _⟩ := List.getElem?_eq_some_iff.mp hcount
      rw [← hmarks, List.getElem?_append_left hlt]
      exact hcount
    · rw [← hadded, List.length_append]
      omega
    · rw [← hadded, List.take_append_of_le_length hle, hsocket]
      exact hfront
  live := hlive

theorem Inv.work {next : State} (h : Inv state) (hwork : work state = some next) : Inv next := by
  have hsame := fun (hsocket : next.socket = state.socket)
    (haccepted : next.accepted = state.accepted) (hflushes : next.flushes = state.flushes)
    (hproducer : next.producer = state.producer) (hbytes : next.queuedBytes = state.queuedBytes) =>
    h.keep next (by rw [hbytes]; exact h.bound) (by rw [hproducer, hbytes]; exact h.enough)
      hsocket (by rw [haccepted]) (by rw [hflushes])
  unfold Herden.Runtime.Client.EndpointWriter.work at hwork
  split at hwork
  next hworker =>
    split at hwork
    · cases hwork
    next command queue hqueue =>
      cases hwork
      refine hsame rfl rfl rfl rfl rfl rfl fun hgoes => ?_
      obtain ⟨done, taken, hlive⟩ := h.live (by simpa [Halted, hworker] using hgoes)
      have htaken := hlive.taken
      rw [hworker] at htaken
      refine ⟨done, taken, hlive.turn ?_ ?_ htaken (fun _ _ _ heq => (by cases heq))⟩
      · rw [commands, hworker, hqueue]
        rfl
      · rw [hworker]
        rfl
  next command hworker =>
    split at hwork
    · cases hwork
      exact hsame rfl rfl rfl rfl rfl rfl fun hgoes => absurd trivial hgoes
    next hgoing =>
      have hnot : ¬ Halted state := by simpa [Halted, hworker] using hgoing
      obtain ⟨done, taken, hlive⟩ := h.live hnot
      split at hwork
      next batch =>
        cases hwork
        refine hsame rfl rfl rfl rfl rfl rfl fun _ => ⟨done, taken, ?_⟩
        have htaken := hlive.taken
        rw [hworker] at htaken
        refine hlive.turn ?_ ?_ htaken (fun _ _ _ heq => (by cases heq))
        · rw [commands, hworker]
          rfl
        · rw [hworker]
          rfl
      next token =>
        cases hwork
        obtain ⟨hnext, hmark, htaken⟩ := hlive.acknowledge hworker
        have haccepted := hlive.accepted
        constructor
        · exact h.bound
        · exact h.enough
        · exact h.written
        · intro other hother
          cases List.mem_append.mp hother with
          | inl hmem => exact h.flushed other hmem
          | inr hmem =>
            -- everything in front of the flush is written
            rw [List.mem_singleton.mp hmem]
            refine ⟨done.length, hmark, ?_, ?_⟩
            · show done.length ≤ state.accepted.length
              rw [haccepted, List.length_append]
              omega
            · show (state.accepted.take done.length).flatten <+: state.socket
              rw [haccepted, List.take_left, hlive.socket]
              exact List.prefix_append _ _
        · intro _
          exact ⟨done, taken, hnext⟩
  next batch hworker =>
    cases hwork
    refine hsame rfl rfl rfl rfl rfl rfl fun _ => ?_
    obtain ⟨done, taken, hlive⟩ := h.live (by simp [Halted, hworker])
    exact ⟨done, taken, hlive.claim hworker⟩
  next hworker =>
    cases hwork
    refine hsame rfl rfl rfl rfl rfl rfl fun hgoes => ?_
    obtain ⟨done, taken, hlive⟩ := h.live (by simpa [Halted, hworker] using hgoes)
    have htaken := hlive.taken
    rw [hworker] at htaken
    refine ⟨done, taken, hlive.turn ?_ ?_ htaken (fun _ _ _ heq => (by cases heq))⟩
    · rw [commands, hworker]
      rfl
    · rw [hworker]
      rfl
  next frame rest hworker =>
    split at hwork
    next hstopped =>
      cases hwork
      exact hsame rfl rfl rfl rfl rfl rfl fun hgoes => absurd hstopped hgoes
    next hgoing =>
      cases hwork
      refine hsame rfl rfl rfl rfl rfl rfl fun _ => ?_
      obtain ⟨done, taken, hlive⟩ := h.live (by simpa [Halted, hworker] using hgoing)
      have htaken := hlive.taken
      rw [hworker] at htaken
      refine ⟨done, taken, hlive.turn ?_ ?_ ?_ (fun _ _ _ heq => (by cases heq))⟩
      · rw [commands, hworker]
        rfl
      · rw [hworker]
        rfl
      · rw [show taken = [] from htaken]
        rfl
  next frame remaining rest hworker =>
    obtain ⟨done, taken, hlive⟩ := h.live (by simp [Halted, hworker])
    have htaken := hlive.taken
    rw [hworker] at htaken
    have hcommands : commands state = [] ++ state.queue := by
      rw [commands, hworker]
      rfl
    have hhand : inHand state.worker = frame :: rest := by
      rw [hworker]
      rfl
    split at hwork
    next hends =>
      cases hwork
      refine hsame rfl rfl rfl rfl rfl rfl fun _ => ⟨done, taken, ?_⟩
      refine hlive.turn hcommands.symm hhand.symm htaken ?_
      intro other left others heq hleft
      cases heq
      rw [Bool.or_eq_true, List.isEmpty_iff] at hends
      exact hends.resolve_left hleft
    next =>
      cases hwork
      exact hsame rfl rfl rfl rfl rfl rfl fun _ => ⟨done, taken,
        hlive.turn hcommands.symm hhand.symm htaken fun _ _ _ heq => (by cases heq)⟩
  · cases hwork
  next frame remaining rest error hworker =>
    obtain ⟨done, taken, hlive⟩ := h.live (by simp [Halted, hworker])
    have hqueued := hlive.queued
    have hout : outstanding state = frame :: (rest ++ contents state.batches (commands state)) := by
      rw [outstanding, hworker]
      rfl
    rw [hout, total_cons] at hqueued
    have hbound := h.bound
    have hbytes : reservedBytes state.producer ≤ state.queuedBytes - frame.length := by omega
    dsimp only at hwork
    split at hwork
    · cases hwork
      refine h.keep _ (Nat.le_trans (Nat.sub_le _ _) hbound) hbytes rfl List.prefix_rfl
        List.prefix_rfl rfl fun hgoes => ?_
      -- the frame is written, unless the worker was told to stop
      have hremaining : remaining = [] := by
        by_contra hleft
        exact hgoes (hlive.cut frame remaining rest hworker hleft)
      rw [hremaining] at hworker
      exact ⟨_, _, hlive.finish hworker⟩
    · cases hwork
      exact h.keep _ (Nat.le_trans (Nat.sub_le _ _) hbound) hbytes rfl List.prefix_rfl
        List.prefix_rfl rfl fun hgoes => absurd trivial hgoes
  next hworker =>
    cases hwork
    exact hsame rfl rfl rfl rfl rfl rfl fun hgoes => absurd trivial hgoes
  · cases hwork

theorem Inv.write {next : State} {outcome : Outcome} (h : Inv state)
    (hwrite : write outcome state = some next) : Inv next := by
  unfold Herden.Runtime.Client.EndpointWriter.write at hwrite
  split at hwrite
  next frame remaining rest hworker =>
    obtain ⟨done, taken, hlive⟩ := h.live (by simp [Halted, hworker])
    have htaken := hlive.taken
    rw [hworker] at htaken
    have hcommands : commands state = [] ++ state.queue := by
      rw [commands, hworker]
      rfl
    have hhand : inHand state.worker = frame :: rest := by
      rw [hworker]
      rfl
    split at hwrite
    next count =>
      split at hwrite
      next hcount =>
        cases hwrite
        have hnext := hlive.write count hworker
        constructor
        · exact h.bound
        · exact h.enough
        · exact hnext.written
        · intro token htoken
          obtain ⟨mark, hmark, hle, hfront⟩ := h.flushed token htoken
          exact ⟨mark, hmark, hle, hfront.trans (List.prefix_append _ _)⟩
        · intro _
          exact ⟨_, _, hnext⟩
      · cases hwrite
    · cases hwrite
      exact h.keep _ h.bound h.enough rfl List.prefix_rfl List.prefix_rfl rfl fun _ =>
        ⟨done, taken, hlive.turn hcommands.symm hhand.symm htaken fun _ _ _ heq => (by cases heq)⟩
    · cases hwrite
      exact h.keep _ h.bound h.enough rfl List.prefix_rfl List.prefix_rfl rfl fun _ =>
        ⟨done, taken, hlive.turn hcommands.symm hhand.symm htaken fun _ _ _ heq => (by cases heq)⟩
  · cases hwrite

/-- The call goes on, and the counter follows what it has reserved. -/
theorem Inv.call {queued : Nat} (h : Inv state)
    (hqueued : queued + reservedBytes state.producer = state.queuedBytes + reservedBytes producer)
    (hbound : queued ≤ maxQueuedBytes) :
    Inv { state with producer := producer, queuedBytes := queued } := by
  have henough := h.enough
  have hreserved : reservedBytes producer ≤ queued := by omega
  refine h.keep _ hbound hreserved rfl List.prefix_rfl List.prefix_rfl rfl fun hgoes => ?_
  obtain ⟨done, taken, hlive⟩ := h.live hgoes
  exact ⟨done, taken, hlive.call hqueued⟩

theorem Inv.produce {next : State} {answer : Answer} (h : Inv state)
    (hproduce : produce state = some (next, answer)) : Inv next := by
  have hbound := h.bound
  unfold Herden.Runtime.Client.EndpointWriter.produce at hproduce
  split at hproduce
  · cases hproduce
  next frame hproducer =>
    split at hproduce
    next hroom =>
      cases hproduce
      exact h.call (by rw [hproducer]; rfl) hroom
    · cases hproduce
      exact h.call (by rw [hproducer]; rfl) hbound
  next frame hproducer =>
    split at hproduce
    · cases hproduce
      exact h.call (by rw [hproducer]; rfl) hbound
    next id hpending =>
      dsimp only at hproduce
      split at hproduce
      next hfits =>
        cases hproduce
        refine h.keep _ hbound (Nat.zero_le _) rfl (List.prefix_append _ _) List.prefix_rfl rfl
          fun hgoes => ?_
        obtain ⟨done, taken, hlive⟩ := h.live hgoes
        exact ⟨done, taken, hlive.join hproducer hpending hfits⟩
      · cases hproduce
        exact h.call (by rw [hproducer]; rfl) hbound
  next frame hproducer =>
    unfold trySend at hproduce
    split at hproduce
    · cases hproduce
      exact h.call (by rw [hproducer]; rfl) hbound
    next sent hsent =>
      split at hsent
      · cases hsent
      · split at hsent
        · cases hsent
          cases hproduce
          refine h.keep _ hbound (Nat.zero_le _) rfl (List.prefix_append _ _) List.prefix_rfl rfl
            fun hgoes => ?_
          obtain ⟨done, taken, hlive⟩ := h.live hgoes
          exact ⟨done, taken, hlive.openBatch hproducer⟩
        · cases hsent
  next frame error hproducer =>
    cases hproduce
    have henough := h.enough
    rw [hproducer] at henough
    refine h.call ?_ (Nat.le_trans (Nat.sub_le _ _) hbound)
    rw [hproducer]
    show state.queuedBytes - frame.length + frame.length = state.queuedBytes + 0
    exact Nat.sub_add_cancel henough
  next token hproducer =>
    split at hproduce
    · cases hproduce
      exact h.call (by rw [hproducer]; rfl) hbound
    · split at hproduce
      · cases hproduce
        exact h.call (by rw [hproducer]; rfl) hbound
      · cases hproduce

theorem Inv.flush (h : Inv state) (hproducer : state.producer = .idle) :
    Inv (flush state).1 := by
  have hfailed : Inv { state with pendingBatch := none } := by
    refine h.keep _ h.bound h.enough rfl List.prefix_rfl List.prefix_rfl rfl fun hgoes => ?_
    obtain ⟨done, taken, hlive⟩ := h.live hgoes
    exact ⟨done, taken, hlive.accepted, hlive.socket, hlive.taken, hlive.queued, hlive.marks,
      hlive.nodup, hlive.fresh, fun _ hid => (by cases hid), hlive.cut⟩
  unfold Herden.Runtime.Client.EndpointWriter.flush trySend
  dsimp only
  split
  · exact hfailed
  next sent hsent =>
    split at hsent
    · cases hsent
    · split at hsent
      · cases hsent
        refine h.keep _ h.bound (Nat.zero_le _) rfl List.prefix_rfl (List.prefix_append _ _) rfl
          fun hgoes => ?_
        obtain ⟨done, taken, hlive⟩ := h.live hgoes
        exact ⟨done, taken, hlive.flush hproducer⟩
      · cases hsent

theorem Inv.step {next : State} {op : Op} {answer : Answer} (h : Inv state)
    (hstep : step state op = some (next, answer)) : Inv next := by
  cases op with
  | send frame =>
    simp only [Herden.Runtime.Client.EndpointWriter.step] at hstep
    split at hstep
    next hproducer =>
      simp only [send] at hstep
      split at hstep
      · cases hstep
        exact h
      · split at hstep
        · cases hstep
          exact h
        · cases hstep
          exact h.call (by rw [hproducer]; rfl) h.bound
    · cases hstep
  | flush =>
    simp only [Herden.Runtime.Client.EndpointWriter.step] at hstep
    split at hstep
    next hproducer =>
      have hnext : (Herden.Runtime.Client.EndpointWriter.flush state).1 = next := by
        rw [Option.some.inj hstep]
      rw [← hnext]
      exact h.flush hproducer
    · cases hstep
  | produce => exact h.produce hstep
  | giveUp =>
    simp only [Herden.Runtime.Client.EndpointWriter.step, giveUp] at hstep
    split at hstep
    next hproducer =>
      cases hstep
      exact h.call (by rw [hproducer]; rfl) h.bound
    · cases hstep
  | stop =>
    cases hstep
    refine h.keep _ h.bound h.enough rfl List.prefix_rfl List.prefix_rfl rfl fun hgoes => ?_
    have hbefore : ¬ Halted state := by
      intro hhalted
      apply hgoes
      unfold Halted at hhalted ⊢
      cases hworker : state.worker <;> simp [hworker] at hhalted ⊢
    obtain ⟨done, taken, hlive⟩ := h.live hbefore
    exact ⟨done, taken, hlive.accepted, hlive.socket, hlive.taken, hlive.queued, hlive.marks,
      hlive.nodup, hlive.fresh, hlive.pending, fun _ _ _ _ _ => rfl⟩
  | work =>
    obtain ⟨after, hwork, hnext⟩ := Option.map_eq_some_iff.mp hstep
    cases hnext
    exact h.work hwork
  | write outcome =>
    obtain ⟨after, hwrite, hnext⟩ := Option.map_eq_some_iff.mp hstep
    cases hnext
    exact h.write hwrite

end

/-! ### The counter against the socket -/

/-- The length of the frames that the first bytes do not cover completely. -/
def unwritten : Nat → List Frame → Nat
  | _, [] => 0
  | count, frame :: rest =>
      if frame.length ≤ count then unwritten (count - frame.length) rest
      else total (frame :: rest)

/-- The length of a frame that is completely written and not yet subtracted. -/
def settling : Worker → Nat
  | .writing frame [] _ | .attempting frame [] _ | .finishing frame [] _ _ => frame.length
  | _ => 0

theorem unwritten_append (done rest : List Frame) (count : Nat) :
    unwritten (total done + count) (done ++ rest) = unwritten count rest := by
  induction done with
  | nil => rw [total_nil, Nat.zero_add, List.nil_append]
  | cons frame done ih =>
    rw [List.cons_append, unwritten, total_cons, if_pos (by omega)]
    rw [show frame.length + total done + count - frame.length = total done + count by omega]
    exact ih

theorem unwritten_zero (frames : List Frame) : unwritten 0 frames = total frames := by
  induction frames with
  | nil => rfl
  | cons frame frames ih =>
    rw [unwritten]
    split
    next hempty =>
      rw [show 0 - frame.length = 0 by omega, ih, total_cons]
      omega
    · rfl

/-- A frame of which some bytes are written. -/
theorem unwritten_taken {taken remaining : List UInt8} {frame : Frame} (rest : List Frame)
    (h : frame = taken ++ remaining) :
    unwritten taken.length (frame :: rest) + (if remaining = [] then frame.length else 0)
      = total (frame :: rest) := by
  have hlength : frame.length = taken.length + remaining.length := by
    rw [h, List.length_append]
  rw [unwritten]
  by_cases hend : remaining = []
  · rw [hend, List.length_nil] at hlength
    rw [if_pos (by omega), if_pos hend, show taken.length - frame.length = 0 by omega,
      unwritten_zero, total_cons]
    omega
  · have hpos := List.length_pos_iff.mpr hend
    rw [if_neg (by omega), if_neg hend, Nat.add_zero]

theorem Live.counted {state : State} {done : List Frame} {taken : List UInt8}
    (h : Live state done taken) :
    state.queuedBytes = unwritten state.socket.length state.accepted + settling state.worker
      + reservedBytes state.producer := by
  have hsocket : state.socket.length = total done + taken.length := by
    rw [h.socket, List.length_append, List.length_flatten]
    rfl
  rw [hsocket, h.accepted, unwritten_append, h.queued]
  have htaken := h.taken
  unfold outstanding
  cases hworker : state.worker with
  | writing frame remaining rest | attempting frame remaining rest
    | finishing frame remaining rest error =>
    rw [hworker] at htaken
    have hcount := unwritten_taken (rest ++ contents state.batches (commands state)) htaken
    show total (frame :: (rest ++ _)) + _ = unwritten _ (frame :: (rest ++ _)) + _ + _
    rw [← hcount]
    cases remaining with
    | nil => rfl
    | cons byte bytes => rfl
  | _ =>
    rw [hworker] at htaken
    rw [show taken = [] from htaken, List.length_nil, unwritten_zero]
    rfl

/-! ### The transport keeps its promises -/

/-- Nothing in the queue has changed, and the counter is as it was up to what is reserved. -/
structure Untouched (state next : State) : Prop where
  queue : next.queue = state.queue
  batches : next.batches = state.batches
  nextBatch : next.nextBatch = state.nextBatch
  pendingBatch : next.pendingBatch = state.pendingBatch
  accepted : next.accepted = state.accepted
  queuedBytes : next.queuedBytes + reservedBytes state.producer
    = state.queuedBytes + reservedBytes next.producer

/-- The operation belongs to a call of `send`. -/
def OfSend (state : State) : Op → Prop
  | .send _ => True
  | .produce => ∀ token, state.producer ≠ .flushing token
  | _ => False

/-- The worker has not stopped, and nobody has told it to. -/
def Going (state : State) : Prop :=
  state.stopped = false ∧ state.worker ≠ .exited ∧ ∀ error, state.worker ≠ .failing error

/-- The socket has a beginning of the accepted frames. Until the transport is stopped or a write
fails, the counter is the length of the frames that are not completely written, of the one that is
about to be subtracted and of the one that is being sent; it never exceeds its limit. A `send` that
does not succeed leaves the queue and the counter as they were. The frames before a flush are
written when it is acknowledged. -/
structure Faithful (state : State) : Prop where
  written : state.socket <+: state.accepted.flatten
  counted : Going state →
    state.queuedBytes = unwritten state.socket.length state.accepted + settling state.worker
      + reservedBytes state.producer
  bound : state.queuedBytes ≤ maxQueuedBytes
  refused : ∀ op next answer, OfSend state op → step state op = some (next, answer) →
    answer ≠ .ok → Untouched state next
  flushed : ∀ token ∈ state.acknowledged, ∀ count, state.flushes[token]? = some count →
    (state.accepted.take count).flatten <+: state.socket

theorem untouched_of_refused {state next : State} {op : Op} {answer : Answer} (h : Inv state)
    (hsend : OfSend state op) (hstep : step state op = some (next, answer))
    (hrefused : answer ≠ .ok) : Untouched state next := by
  cases op with
  | send frame =>
    simp only [Herden.Runtime.Client.EndpointWriter.step] at hstep
    split at hstep
    next hproducer =>
      simp only [send] at hstep
      split at hstep
      · cases hstep
        exact ⟨rfl, rfl, rfl, rfl, rfl, rfl⟩
      · split at hstep
        · cases hstep
          exact ⟨rfl, rfl, rfl, rfl, rfl, rfl⟩
        · cases hstep
          exact ⟨rfl, rfl, rfl, rfl, rfl, by rw [hproducer]; rfl⟩
    · cases hstep
  | produce =>
    simp only [Herden.Runtime.Client.EndpointWriter.step,
      Herden.Runtime.Client.EndpointWriter.produce] at hstep
    split at hstep
    · cases hstep
    next frame hproducer =>
      split at hstep
      · cases hstep
        exact ⟨rfl, rfl, rfl, rfl, rfl, by rw [hproducer]; rfl⟩
      · cases hstep
        exact ⟨rfl, rfl, rfl, rfl, rfl, by rw [hproducer]; rfl⟩
    next frame hproducer =>
      split at hstep
      · cases hstep
        exact ⟨rfl, rfl, rfl, rfl, rfl, by rw [hproducer]; rfl⟩
      · split at hstep
        · cases hstep
          exact absurd rfl hrefused
        · cases hstep
          exact ⟨rfl, rfl, rfl, rfl, rfl, by rw [hproducer]; rfl⟩
    next frame hproducer =>
      split at hstep
      · cases hstep
        exact ⟨rfl, rfl, rfl, rfl, rfl, by rw [hproducer]; rfl⟩
      · cases hstep
        exact absurd rfl hrefused
    next frame error hproducer =>
      cases hstep
      have henough := h.enough
      rw [hproducer] at henough
      refine ⟨rfl, rfl, rfl, rfl, rfl, ?_⟩
      rw [hproducer]
      show state.queuedBytes - frame.length + frame.length = state.queuedBytes + 0
      exact Nat.sub_add_cancel henough
    next token hproducer => exact absurd hproducer (hsend token)
  | _ => exact absurd hsend id

theorem faithful {state : State}
    (h : Reachable (fun state => state = start) (fun _ _ => True) step state) : Faithful state := by
  have hinv : Inv state := h.invariant Inv
    (by
      rintro first rfl
      exact inv_start)
    (fun _ _ _ _ _ hstep hbefore => hbefore.step hstep)
  constructor
  · exact hinv.written
  · intro hgoing
    have hgoes : ¬ Halted state := by
      unfold Halted
      cases hworker : state.worker with
      | exited => exact absurd hworker hgoing.2.1
      | failing error => exact absurd hworker (hgoing.2.2 error)
      | _ => simp [hgoing.1]
    obtain ⟨done, taken, hlive⟩ := hinv.live hgoes
    exact hlive.counted
  · exact hinv.bound
  · exact fun _ _ _ => untouched_of_refused hinv
  · intro token htoken count hcount
    obtain ⟨mark, hmark, _, hfront⟩ := hinv.flushed token htoken
    rw [hcount] at hmark
    rw [Option.some.inj hmark]
    exact hfront

/-! ### A frame of one byte -/

/-- The frame is accepted, claimed and written. -/
def oneByteRun : List Op :=
  [.send (some [7]), .produce, .produce, .produce, .work, .work, .work, .work, .work,
    .write (.wrote 1)]

/-- The byte is on the socket and still counted. -/
theorem faithful_one_byte : ∃ state : State,
    (state.socket = [7] ∧ state.queuedBytes = 1) ∧ Faithful state := by
  have hrun : (runAll (guarded (fun _ _ => true) step) start oneByteRun).any (fun state =>
      state.socket = [7] && state.queuedBytes = 1) = true := by
    decide +kernel
  obtain ⟨state, hsome, hends⟩ := (Option.any_eq_true _ _).mp hrun
  rw [Bool.and_eq_true, decide_eq_true_eq, decide_eq_true_eq] at hends
  exact ⟨state, hends, faithful (Reachable.runAll (fun _ _ _ => trivial) (.start rfl) hsome)⟩

/-- The counter is not the length of the frames that are not completely written: all are, and the
worker has not subtracted the last one. -/
theorem counted_before_subtraction : ¬ ∀ state : State,
    Reachable (fun state => state = start) (fun _ _ => True) step state → Going state →
      state.queuedBytes = unwritten state.socket.length state.accepted := by
  intro hall
  have hrun : (runAll (guarded (fun _ _ => true) step) start oneByteRun).any (fun state =>
      state.worker = .writing [7] [] [] && !state.stopped && state.queuedBytes = 1 &&
        unwritten state.socket.length state.accepted = 0) = true := by
    decide +kernel
  obtain ⟨state, hsome, hends⟩ := (Option.any_eq_true _ _).mp hrun
  simp only [Bool.and_eq_true, decide_eq_true_eq, Bool.not_eq_true'] at hends
  obtain ⟨⟨⟨hworker, hstopped⟩, hqueued⟩, hunwritten⟩ := hends
  have hgoing : Going state := by
    refine ⟨hstopped, ?_, ?_⟩
    · rw [hworker]
      intro heq
      cases heq
    · rw [hworker]
      intro error heq
      cases heq
  have hcount := hall state (Reachable.runAll (fun _ _ _ => trivial) (.start rfl) hsome) hgoing
  rw [hqueued, hunwritten] at hcount
  cases hcount

end Herden.Proofs.Client.EndpointWriter
