import Herden.Proofs.Pty.Handoff
import Mathlib.Data.List.TakeWhile

/-!
# `Herden.Proofs.Pty.Input`: what reaches the PTY

The actor writes the chunks of `log` one after the other. `Tape` splits the log into the chunks that
are completely written and those that wait; the pending writes are the waiting chunks, less the
empty ones, and the offset says how much of the first is written. `Rest` says where the inputs of
users are: the chunks in the log are those of the accepted inputs, in their order, up to what is in
the data queue and the Enter that the active submission still owes.

A submission keeps the data queue closed until its Enter is written, and only then is it answered.
A handoff drains the data queue while the gate is closed, so when the actor becomes quiesced there is
no input left anywhere (`Rest.quiesced`). The view of the handoff gives that the gate is closed
(`Handoff.Ctl`).
-/

namespace Herden.Proofs.Pty.Input

open Herden.Lib
open Herden.Runtime.Pty.Actor
open Herden.Proofs.Pty.Handoff

/-! ### The property -/

/-- The chunks of an input. -/
def chunksOf : PtyIoDataCommand → List Chunk
  | .writeUserInput bytes => [.user bytes]
  | .submitUserInput text enter _ reply => [.text reply text, .enter reply enter]

/-- The chunk is empty, or all of it has been written. -/
def Written (s : State) (chunk : Chunk) : Prop :=
  chunk.bytes = [] ∨ ∃ before after, s.log = before ++ chunk :: after ∧
    ((before ++ [chunk]).flatMap (·.bytes)).length ≤ s.written.length

/-- The bytes on the PTY are a prefix of the chunks to write. Inputs are in the order in which they
were accepted, with nothing but responses between the text and the Enter of a submission. An
accepted submission is queued, active or answered, and only once; it succeeds when all of it is
written. When the actor is quiesced all accepted input is written, and until a rollback nothing is
read and no input is added. -/
structure Intact (s : State) : Prop where
  written : s.written <+: s.log.flatMap (·.bytes)
  ordered : userChunks s.log <+: s.accepted.flatMap chunksOf
  between : ∀ before after reply text, s.log = before ++ .text reply text :: after →
    ∃ responses rest, after = responses ++ rest ∧ (∀ chunk ∈ responses, chunk.isResponse = true) ∧
      (rest = [] ∨ ∃ enter later, rest = .enter reply enter :: later)
  answered : s.answers.map Prod.fst ++ s.activeSubmission.toList.map (·.reply) ++
    s.dataQueue.filterMap submissionReply = s.accepted.filterMap submissionReply
  once : (s.accepted.filterMap submissionReply).Nodup
  succeeded : ∀ reply, (reply, none) ∈ s.answers → ∃ text enter delay,
    .submitUserInput text enter delay reply ∈ s.accepted ∧
      Written s (.text reply text) ∧ Written s (.enter reply enter)
  quiesced : s.state = .quiesced → ∀ command ∈ s.accepted, ∀ chunk ∈ chunksOf command,
    Written s chunk
  quiet : ∀ reads chunks, s.quiet = some (reads, chunks) →
    s.state = .quiesced ∧ s.reads = reads ∧ (userChunks s.log).length = chunks
  since : s.state = .quiesced → s.quiet.isSome = true

/-! ### The log and the pending writes -/

def pendingOf (chunk : Chunk) : PendingWrite := ⟨chunk.bytes, chunk.boundary⟩

/-- The writes that stand for some chunks. -/
def queued (waiting : List Chunk) : List PendingWrite :=
  (waiting.filter (!·.bytes.isEmpty)).map pendingOf

structure Tape (s : State) (done waiting : List Chunk) : Prop where
  log : s.log = done ++ waiting
  writes : s.pendingWrites = queued waiting
  offset : ∀ write rest, s.pendingWrites = write :: rest →
    s.currentWriteOffset < write.bytes.length
  start : s.pendingWrites = [] → s.currentWriteOffset = 0
  written : s.written
    = done.flatMap (·.bytes) ++ (waiting.flatMap (·.bytes)).take s.currentWriteOffset

theorem queued_append (waiting more : List Chunk) :
    queued (waiting ++ more) = queued waiting ++ queued more := by
  rw [queued, queued, queued, List.filter_append, List.map_append]

variable {waiting done empties later after before : List Chunk} {write : PendingWrite} {s t : State}
  {chunk : Chunk} {reply : Nat} {text : Bytes} {accepted rest : List PtyIoDataCommand}
  {active : Option ActiveSubmission} {command : PtyIoDataCommand} {reader : Reader}
  {writeReady : Bool} {env : Env}

theorem bytes_of_queued_eq_nil (h : queued waiting = []) : ∀ chunk ∈ waiting, chunk.bytes = [] := by
  intro chunk hmem
  have hnone : waiting.filter (!·.bytes.isEmpty) = [] := List.map_eq_nil_iff.mp h
  have hempty := List.filter_eq_nil_iff.mp hnone chunk hmem
  simpa using hempty

theorem flatMap_bytes_eq_nil {chunks : List Chunk} (h : ∀ chunk ∈ chunks, chunk.bytes = []) :
    chunks.flatMap (·.bytes) = [] :=
  List.flatMap_eq_nil_iff.mpr h

/-- The first pending write stands for the first chunk that is not empty. -/
theorem queued_eq_cons {rest : List PendingWrite} (h : queued waiting = write :: rest) :
    ∃ empties chunk later, waiting = empties ++ chunk :: later ∧
      (∀ other ∈ empties, other.bytes = []) ∧ chunk.bytes ≠ [] ∧
        write = pendingOf chunk ∧ rest = queued later := by
  induction waiting with
  | nil => cases h
  | cons first waiting ih =>
    by_cases hfirst : first.bytes = []
    · have hskip : queued (first :: waiting) = queued waiting := by
        rw [queued, List.filter_cons_of_neg (by simp [hfirst])]
        rfl
      rw [hskip] at h
      obtain ⟨empties, chunk, later, hwaiting, hempties, hchunk, hwrite, hrest⟩ := ih h
      refine ⟨first :: empties, chunk, later, by rw [hwaiting]; rfl, ?_, hchunk, hwrite, hrest⟩
      intro other hmem
      cases List.mem_cons.mp hmem with
      | inl heq => rw [heq, hfirst]
      | inr hin => exact hempties other hin
    · have htake : queued (first :: waiting) = pendingOf first :: queued waiting := by
        rw [queued, List.filter_cons_of_pos (by simp [hfirst])]
        rfl
      rw [htake] at h
      obtain ⟨hwrite, hrest⟩ := List.cons.inj h
      exact ⟨[], first, waiting, rfl, fun _ hmem => (by cases hmem), hfirst, hwrite.symm,
        hrest.symm⟩

theorem enqueueWrite_log (chunk : Chunk) (s : State) :
    (enqueueWrite chunk s).log = s.log ++ [chunk] := by
  unfold enqueueWrite
  dsimp only
  split
  · rfl
  · rfl

theorem enqueueWrite_pendingWrites (chunk : Chunk) (s : State) :
    (enqueueWrite chunk s).pendingWrites = s.pendingWrites ++ queued [chunk] := by
  unfold enqueueWrite
  dsimp only
  split
  next hempty =>
    rw [queued, List.filter_cons_of_neg (by simp [hempty])]
    exact (List.append_nil _).symm
  next hbytes =>
    rw [queued, List.filter_cons_of_pos (by simp [hbytes])]
    rfl

/-- The rest of the state. -/
theorem enqueueWrite_frame (chunk : Chunk) (s : State) :
    enqueueWrite chunk s = { s with
      log := s.log ++ [chunk], pendingWrites := s.pendingWrites ++ queued [chunk] } := by
  rw [← enqueueWrite_log, ← enqueueWrite_pendingWrites]
  unfold enqueueWrite
  dsimp only
  split
  · rfl
  · rfl

/-- The writes are only taken at the front, so what is added at the end does not matter. -/
theorem Tape.append (h : Tape s done waiting) (chunk : Chunk) :
    Tape (enqueueWrite chunk s) done (waiting ++ [chunk]) := by
  rw [enqueueWrite_frame]
  constructor
  · show s.log ++ [chunk] = done ++ (waiting ++ [chunk])
    rw [h.log, List.append_assoc]
  · show s.pendingWrites ++ queued [chunk] = queued (waiting ++ [chunk])
    rw [h.writes, queued_append]
  · intro write rest hwrites
    change s.pendingWrites ++ queued [chunk] = write :: rest at hwrites
    cases hbefore : s.pendingWrites with
    | cons first others =>
      rw [hbefore, List.cons_append] at hwrites
      rw [← (List.cons.inj hwrites).1]
      exact h.offset first others hbefore
    | nil =>
      -- the new chunk is the first one
      rw [hbefore, List.nil_append] at hwrites
      obtain ⟨empties, first, later, hone, _, hbytes, hwrite, _⟩ := queued_eq_cons hwrites
      show s.currentWriteOffset < write.bytes.length
      rw [h.start hbefore, hwrite]
      exact List.length_pos_of_ne_nil hbytes
  · intro hnone
    exact h.start (List.append_eq_nil_iff.mp hnone).1
  · show s.written = _ ++ ((waiting ++ [chunk]).flatMap _).take s.currentWriteOffset
    rw [h.written, List.flatMap_append]
    cases hbefore : s.pendingWrites with
    | nil =>
      rw [h.start hbefore]
      rfl
    | cons first others =>
      have hlong : s.currentWriteOffset ≤ (waiting.flatMap (·.bytes)).length := by
        have hoffset := h.offset first others hbefore
        obtain ⟨empties, chunk, later, hwaiting, _, _, hwrite, _⟩ :=
          queued_eq_cons (h.writes.symm.trans hbefore)
        rw [hwrite] at hoffset
        rw [hwaiting, List.flatMap_append, List.flatMap_cons, List.length_append,
          List.length_append]
        change s.currentWriteOffset < chunk.bytes.length at hoffset
        omega
      rw [List.take_append_of_le_length hlong]

/-- With nothing left to write, all chunks are written. -/
theorem Tape.absorb (h : Tape s done waiting) (hnone : s.pendingWrites = []) : Tape s s.log [] := by
  have hbytes := flatMap_bytes_eq_nil (bytes_of_queued_eq_nil (h.writes.symm.trans hnone))
  refine ⟨(List.append_nil _).symm, hnone, h.offset, h.start, ?_⟩
  rw [h.written, h.log, List.flatMap_append, hbytes, h.start hnone, List.append_nil]
  rfl

theorem Tape.ptyBytes_prefix (h : Tape s done waiting) : s.written <+: s.log.flatMap (·.bytes) := by
  rw [h.written, h.log, List.flatMap_append]
  exact List.prefix_append_right_inj _ |>.mpr (List.take_prefix _ _)

theorem Tape.written_of_mem (h : Tape s done waiting) (hmem : chunk ∈ done) : Written s chunk := by
  right
  obtain ⟨before, after, hdone⟩ := List.append_of_mem hmem
  refine ⟨before, after ++ waiting, ?_, ?_⟩
  · rw [h.log, hdone, List.append_assoc]
    rfl
  · rw [h.written, hdone]
    simp only [List.flatMap_append, List.flatMap_cons, List.length_append, List.flatMap_nil,
      List.length_nil]
    omega

theorem flatMap_first (h : waiting = empties ++ chunk :: later)
    (hempties : ∀ other ∈ empties, other.bytes = []) :
    waiting.flatMap (·.bytes) = chunk.bytes ++ later.flatMap (·.bytes) := by
  rw [h, List.flatMap_append, flatMap_bytes_eq_nil hempties, List.flatMap_cons, List.nil_append]

/-- A part of the first write goes out. -/
theorem Tape.advance {rest : List PendingWrite} {count : Nat} (h : Tape s done waiting)
    (hwrites : s.pendingWrites = write :: rest)
    (hpart : s.currentWriteOffset + count < write.bytes.length) : Tape { s with
      written := s.written ++ (write.bytes.drop s.currentWriteOffset).take count
      currentWriteOffset := s.currentWriteOffset + count } done waiting := by
  obtain ⟨empties, chunk, later, hwaiting, hempties, _, hwrite, _⟩ :=
    queued_eq_cons (h.writes.symm.trans hwrites)
  have hbytes : write.bytes = chunk.bytes := by rw [hwrite]; rfl
  refine ⟨h.log, h.writes, ?_, ?_, ?_⟩
  · intro other others hother
    change s.pendingWrites = other :: others at hother
    rw [hwrites] at hother
    rw [← (List.cons.inj hother).1]
    exact hpart
  · intro hnone
    change s.pendingWrites = [] at hnone
    rw [hwrites] at hnone
    cases hnone
  · show s.written ++ (write.bytes.drop s.currentWriteOffset).take count
      = done.flatMap _ ++ (waiting.flatMap _).take (s.currentWriteOffset + count)
    rw [hbytes] at hpart
    rw [h.written, flatMap_first hwaiting hempties, hbytes, List.append_assoc,
      List.take_append_of_le_length (by omega), List.take_append_of_le_length (by omega),
      List.take_add]

/-- The first write is complete: its chunk is done, with the empty ones before it. -/
theorem Tape.complete {rest : List PendingWrite} {count : Nat} (h : Tape s done waiting)
    (hwrites : s.pendingWrites = write :: rest)
    (hall : write.bytes.length ≤ s.currentWriteOffset + count) :
    ∃ empties chunk later, waiting = empties ++ chunk :: later ∧
      (∀ other ∈ empties, other.bytes = []) ∧ chunk.bytes ≠ [] ∧
      chunk.boundary = write.boundary ∧
      Tape { s with
        written := s.written ++ (write.bytes.drop s.currentWriteOffset).take count
        pendingWrites := rest
        currentWriteOffset := 0 } (done ++ empties ++ [chunk]) later := by
  obtain ⟨empties, chunk, later, hwaiting, hempties, hne, hwrite, hrest⟩ :=
    queued_eq_cons (h.writes.symm.trans hwrites)
  have hbytes : write.bytes = chunk.bytes := by rw [hwrite]; rfl
  have hoffset := h.offset write rest hwrites
  refine ⟨empties, chunk, later, hwaiting, hempties, hne, by rw [hwrite]; rfl, ?_, hrest, ?_, ?_,
    ?_⟩
  · show s.log = _
    rw [h.log, hwaiting]
    simp
  · intro other others hother
    change rest = other :: others at hother
    obtain ⟨_, first, _, _, _, hfirst, hfirstWrite, _⟩ := queued_eq_cons (hrest.symm.trans hother)
    rw [hfirstWrite]
    exact List.length_pos_of_ne_nil hfirst
  · exact fun _ => rfl
  · show s.written ++ (write.bytes.drop s.currentWriteOffset).take count = _
    rw [hbytes] at hall hoffset
    have hrest : (chunk.bytes.drop s.currentWriteOffset).take count
        = chunk.bytes.drop s.currentWriteOffset := by
      apply List.take_of_length_le
      rw [List.length_drop]
      omega
    rw [h.written, flatMap_first hwaiting hempties, hbytes, hrest,
      List.take_append_of_le_length (by omega), List.append_assoc, List.take_append_drop,
      List.flatMap_append, List.flatMap_append, flatMap_bytes_eq_nil hempties]
    simp

/-! ### Where the inputs are -/

/-- No text and no Enter waits to be written. -/
def NoBoundary (chunks : List Chunk) : Prop :=
  ∀ chunk ∈ chunks, chunk.bytes ≠ [] → chunk.boundary = none

/-- The active submission was accepted with this text. -/
def Submitted (accepted : List PtyIoDataCommand) (submission : ActiveSubmission) (text : Bytes) :
    Prop :=
  ∃ delay, .submitUserInput text submission.enter delay submission.reply ∈ accepted

/-- What waits to be written for the active submission. -/
inductive Active (accepted : List PtyIoDataCommand) (done waiting : List Chunk) :
    Option ActiveSubmission → Prop where
  | none (h : NoBoundary waiting) : Active accepted done waiting none
  | text (submission : ActiveSubmission) (text : Bytes) (before after : List Chunk)
      (hphase : submission.phase = .writingText) (hsubmitted : Submitted accepted submission text)
      (hwaiting : waiting = before ++ .text submission.reply text :: after) (htext : text ≠ [])
      (hbefore : NoBoundary before) (hafter : NoBoundary after) :
      Active accepted done waiting (some submission)
  | pause (submission : ActiveSubmission) (text : Bytes) (deadline : Nat)
      (hphase : submission.phase = .waitingUntil deadline)
      (hsubmitted : Submitted accepted submission text)
      (htext : text = [] ∨ .text submission.reply text ∈ done) (h : NoBoundary waiting) :
      Active accepted done waiting (some submission)
  | enter (submission : ActiveSubmission) (text : Bytes) (before after : List Chunk)
      (hphase : submission.phase = .writingEnter) (hsubmitted : Submitted accepted submission text)
      (htext : text = [] ∨ .text submission.reply text ∈ done)
      (hwaiting : waiting = before ++ .enter submission.reply submission.enter :: after)
      (henter : submission.enter ≠ []) (hbefore : NoBoundary before) (hafter : NoBoundary after) :
      Active accepted done waiting (some submission)

/-- The Enter of the active submission, before it is in the log. -/
def owed (active : Option ActiveSubmission) : List Chunk :=
  match active with
  | none => []
  | some submission =>
      if submission.phase = .writingEnter then [] else [.enter submission.reply submission.enter]

structure Rest (s : State) (done waiting : List Chunk) : Prop where
  ordered : userChunks s.log <+: s.accepted.flatMap chunksOf
  live : s.pc ≠ .exited → ∃ handled, s.accepted = handled ++ s.dataQueue ∧
    userChunks s.log ++ owed s.activeSubmission = handled.flatMap chunksOf
  active : s.pc ≠ .exited → Active s.accepted done waiting s.activeSubmission
  answered : s.answers.map Prod.fst ++ s.activeSubmission.toList.map (·.reply) ++
    s.dataQueue.filterMap submissionReply = s.accepted.filterMap submissionReply
  once : (s.accepted.filterMap submissionReply).Nodup
  fresh : ∀ reply ∈ s.accepted.filterMap submissionReply, reply < s.nextReply
  succeeded : ∀ reply, (reply, none) ∈ s.answers → ∃ text enter delay,
    .submitUserInput text enter delay reply ∈ s.accepted ∧
      (text = [] ∨ .text reply text ∈ done) ∧ (enter = [] ∨ .enter reply enter ∈ done)
  quiesced : s.state = .quiesced → s.activeSubmission = none ∧ s.dataQueue = [] ∧
    userChunks s.log = s.accepted.flatMap chunksOf ∧ userChunks waiting = []
  quiet : ∀ reads chunks, s.quiet = some (reads, chunks) →
    s.state = .quiesced ∧ s.reads = reads ∧ (userChunks s.log).length = chunks
  since : s.state = .quiesced → s.quiet.isSome = true

def Inv (s : State) : Prop := ∃ done waiting, Tape s done waiting ∧ Rest s done waiting

theorem userChunks_append (log more : List Chunk) :
    userChunks (log ++ more) = userChunks log ++ userChunks more :=
  List.filter_append log more

/-- In the chunks of the inputs, the Enter of a submission follows its text. -/
theorem enter_after_text {commands : List PtyIoDataCommand}
    (h : commands.flatMap chunksOf = before ++ .text reply text :: after) :
    ∃ enter later, after = .enter reply enter :: later := by
  induction commands generalizing before with
  | nil =>
    have hlength := congrArg List.length h
    simp at hlength
  | cons command rest ih =>
    rw [List.flatMap_cons] at h
    cases command with
    | writeUserInput bytes =>
      cases before with
      | nil => cases (List.cons.inj h).1
      | cons head before => exact ih (List.cons.inj h).2
    | submitUserInput words enter delay other =>
      cases before with
      | nil =>
        obtain ⟨hfirst, hsecond⟩ := List.cons.inj h
        cases hfirst
        exact ⟨enter, rest.flatMap chunksOf, hsecond.symm⟩
      | cons head before =>
        have hsecond := (List.cons.inj h).2
        cases before with
        | nil => cases (List.cons.inj hsecond).1
        | cons next before => exact ih (List.cons.inj hsecond).2

theorem between_of_ordered {log : List Chunk} {commands : List PtyIoDataCommand}
    (hordered : userChunks log <+: commands.flatMap chunksOf)
    (h : log = before ++ .text reply text :: after) :
    ∃ responses rest, after = responses ++ rest ∧ (∀ chunk ∈ responses, chunk.isResponse = true) ∧
      (rest = [] ∨ ∃ enter later, rest = .enter reply enter :: later) := by
  refine ⟨after.takeWhile (·.isResponse), after.dropWhile (·.isResponse),
    (List.takeWhile_append_dropWhile).symm, fun chunk hmem => List.mem_takeWhile_imp hmem, ?_⟩
  cases hrest : after.dropWhile (·.isResponse) with
  | nil => exact Or.inl rfl
  | cons first later =>
    right
    have hfirst : first.isResponse = false := by
      have hhead := List.head?_dropWhile_not (·.isResponse) after
      rw [hrest] at hhead
      simpa using hhead
    -- the first input after the text is the first one that is not a response
    have hresponses : userChunks (after.takeWhile (·.isResponse)) = [] := by
      rw [userChunks, List.filter_eq_nil_iff]
      intro chunk hmem
      simp [List.mem_takeWhile_imp hmem]
    have hafter : userChunks after = first :: userChunks later := by
      have hsplit : after = after.takeWhile (·.isResponse) ++ first :: later := by
        rw [← hrest, List.takeWhile_append_dropWhile]
      rw [hsplit, userChunks_append, hresponses, List.nil_append, userChunks,
        List.filter_cons_of_pos (by simp [hfirst])]
      rfl
    obtain ⟨beyond, hbeyond⟩ := hordered
    have htext : userChunks (.text reply text :: after)
        = .text reply text :: userChunks after := rfl
    rw [h, userChunks_append, htext, hafter, List.append_assoc] at hbeyond
    obtain ⟨enter, tail, htail⟩ := enter_after_text hbeyond.symm
    rw [(List.cons.inj htail).1]
    exact ⟨enter, later, rfl⟩

theorem Inv.intact (h : Inv s) : Intact s := by
  obtain ⟨done, waiting, htape, hrest⟩ := h
  have hwritten : ∀ chunk, chunk.bytes = [] ∨ chunk ∈ done → Written s chunk := by
    intro chunk hchunk
    cases hchunk with
    | inl hempty => exact Or.inl hempty
    | inr hmem => exact htape.written_of_mem hmem
  refine ⟨htape.ptyBytes_prefix, hrest.ordered, ?_, hrest.answered, hrest.once, ?_, ?_, hrest.quiet,
    hrest.since⟩
  · exact fun before after reply text hlog => between_of_ordered hrest.ordered hlog
  · intro reply hmem
    obtain ⟨text, enter, delay, haccepted, htext, henter⟩ := hrest.succeeded reply hmem
    exact ⟨text, enter, delay, haccepted, hwritten (.text reply text) htext,
      hwritten (.enter reply enter) henter⟩
  · intro hquiesced command hcommand chunk hchunk
    obtain ⟨_, _, hlog, hwaiting⟩ := hrest.quiesced hquiesced
    have hmem : chunk ∈ userChunks s.log := by
      rw [hlog]
      exact List.mem_flatMap.mpr ⟨command, hcommand, hchunk⟩
    rw [htape.log, userChunks_append, hwaiting, List.append_nil] at hmem
    exact hwritten chunk (Or.inr (List.mem_filter.mp hmem).1)

theorem Inv.spawn (initiallyQuiesced : Bool) : Inv (spawn initiallyQuiesced) := by
  refine ⟨[], [], ?_, ?_⟩
  · exact ⟨rfl, rfl, fun _ _ heq => (by cases heq), fun _ => rfl, rfl⟩
  · refine
      ⟨List.nil_prefix, fun _ => ⟨[], rfl, rfl⟩, fun _ => .none fun _ hmem => (by cases hmem), rfl,
      List.nodup_nil, fun _ hmem => (by cases hmem), fun _ hmem => (by cases hmem),
      fun _ => ⟨rfl, rfl, rfl, rfl⟩, ?_, ?_⟩
    · cases initiallyQuiesced with
      | true =>
        intro reads chunks hquiet
        cases hquiet
        exact ⟨rfl, rfl, rfl⟩
      | false =>
        intro reads chunks hquiet
        cases hquiet
    · cases initiallyQuiesced with
      | true => exact fun _ => rfl
      | false => exact fun heq => by cases heq

/-! ### What the steps do to the inputs -/

theorem ordered_of_live {handled queue : List PtyIoDataCommand} {log rest : List Chunk}
    (haccepted : accepted = handled ++ queue)
    (hlog : userChunks log ++ rest = handled.flatMap chunksOf) :
    userChunks log <+: accepted.flatMap chunksOf := by
  rw [haccepted, List.flatMap_append, ← hlog, List.append_assoc]
  exact List.prefix_append _ _

theorem NoBoundary.append {chunks more : List Chunk} (h : NoBoundary chunks)
    (hmore : NoBoundary more) : NoBoundary (chunks ++ more) := by
  intro chunk hmem
  cases List.mem_append.mp hmem with
  | inl hold => exact h chunk hold
  | inr hnew => exact hmore chunk hnew

theorem noBoundary_singleton (h : chunk.boundary = none) : NoBoundary [chunk] := by
  intro other hmem _
  rw [List.mem_singleton.mp hmem, h]

/-- More chunks wait, and more inputs are accepted. -/
theorem Active.extend {extra : List Chunk} (h : Active accepted done waiting active)
    (more : List PtyIoDataCommand) (hextra : NoBoundary extra) :
    Active (accepted ++ more) done (waiting ++ extra) active := by
  have hgrow : ∀ submission text, Submitted accepted submission text →
      Submitted (accepted ++ more) submission text := by
    rintro submission text ⟨delay, hmem⟩
    exact ⟨delay, List.mem_append_left _ hmem⟩
  cases h with
  | none h => exact .none (h.append hextra)
  | text submission text before after hphase hsubmitted hwaiting htext hbefore hafter =>
    refine .text submission text before (after ++ extra) hphase (hgrow _ _ hsubmitted) ?_ htext
      hbefore (hafter.append hextra)
    rw [hwaiting, List.append_assoc]
    rfl
  | pause submission text deadline hphase hsubmitted htext h =>
    exact .pause submission text deadline hphase (hgrow _ _ hsubmitted) htext (h.append hextra)
  | enter submission text before after hphase hsubmitted htext hwaiting henter hbefore hafter =>
    refine .enter submission text before (after ++ extra) hphase (hgrow _ _ hsubmitted) htext ?_
      henter hbefore (hafter.append hextra)
    rw [hwaiting, List.append_assoc]
    rfl

theorem Active.extend_waiting {extra : List Chunk} (h : Active accepted done waiting active)
    (hextra : NoBoundary extra) : Active accepted done (waiting ++ extra) active := by
  have hmore := h.extend [] hextra
  rw [List.append_nil] at hmore
  exact hmore

theorem Rest.setPc (h : Rest s done waiting) (hpc : s.pc ≠ .exited) (pc : Pc) :
    Rest { s with pc := pc } done waiting :=
  ⟨h.ordered, fun _ => h.live hpc, fun _ => h.active hpc, h.answered, h.once, h.fresh,
    h.succeeded, h.quiesced, h.quiet, h.since⟩

theorem Rest.response (h : Rest s done waiting) (bytes : Bytes) :
    Rest (enqueueWrite (.response bytes) s) done (waiting ++ [.response bytes]) := by
  rw [enqueueWrite_frame]
  have hlog : userChunks (s.log ++ [.response bytes]) = userChunks s.log := by
    rw [userChunks_append]
    exact List.append_nil _
  refine ⟨?_, ?_, ?_, h.answered, h.once, h.fresh, h.succeeded, ?_, ?_, h.since⟩
  · rw [hlog]
    exact h.ordered
  · rw [hlog]
    exact h.live
  · intro hpc
    exact (h.active hpc).extend_waiting (noBoundary_singleton rfl)
  · intro hquiesced
    obtain ⟨hactive, hqueue, huser, hwaiting⟩ := h.quiesced hquiesced
    refine ⟨hactive, hqueue, by rw [hlog]; exact huser, ?_⟩
    rw [userChunks_append, hwaiting]
    rfl
  · rw [hlog]
    exact h.quiet

theorem Inv.response (h : Inv s) (bytes : Bytes) : Inv (enqueueWrite (.response bytes) s) := by
  obtain ⟨done, waiting, htape, hrest⟩ := h
  exact ⟨done, waiting ++ [.response bytes], htape.append _, hrest.response bytes⟩

/-- The next input of the queue, a plain one. -/
theorem Rest.userInput {bytes : Bytes} (h : Rest s done waiting) (hpc : s.pc ≠ .exited)
    (hstate : s.state = .running) (hactive : s.activeSubmission = none)
    (hqueue : s.dataQueue = .writeUserInput bytes :: rest) :
    Rest (enqueueWrite (.user bytes) { s with dataQueue := rest }) done
      (waiting ++ [.user bytes]) := by
  rw [enqueueWrite_frame]
  obtain ⟨handled, haccepted, hlog⟩ := h.live hpc
  rw [hactive] at hlog
  have haccepted' : s.accepted = handled ++ [.writeUserInput bytes] ++ rest := by
    rw [haccepted, hqueue, List.append_assoc]
    rfl
  have hlog' : userChunks (s.log ++ [.user bytes]) ++ owed none
      = (handled ++ [PtyIoDataCommand.writeUserInput bytes]).flatMap chunksOf := by
    rw [userChunks_append, List.flatMap_append, ← hlog]
    show _ ++ [Chunk.user bytes] ++ [] = _ ++ [] ++ [Chunk.user bytes]
    rw [List.append_nil, List.append_nil]
  have hnot : s.state ≠ .quiesced := by
    rw [hstate]
    exact fun heq => by cases heq
  refine ⟨ordered_of_live haccepted' hlog', fun _ => ⟨_, haccepted', by rw [hactive]; exact hlog'⟩,
    fun _ => (h.active hpc).extend_waiting (noBoundary_singleton rfl), ?_, h.once, h.fresh,
    h.succeeded, fun hquiesced => absurd hquiesced hnot, ?_, h.since⟩
  · have hanswered := h.answered
    rw [hqueue] at hanswered
    exact hanswered
  · intro reads chunks hquiet
    exact absurd (h.quiet reads chunks hquiet).1 hnot

/-- The next input of the queue, a submission. -/
theorem Rest.submission {enter : Bytes} {delay : Nat} (now : Nat) (h : Rest s done waiting)
    (hpc : s.pc ≠ .exited) (hstate : s.state = .running) (hactive : s.activeSubmission = none)
    (hqueue : s.dataQueue = .submitUserInput text enter delay reply :: rest) :
    Rest { enqueueWrite (.text reply text) { s with dataQueue := rest } with
      activeSubmission := some ⟨enter, delay,
        if text.isEmpty then .waitingUntil (now + delay) else .writingText, reply⟩ } done
      (waiting ++ [.text reply text]) := by
  rw [enqueueWrite_frame]
  obtain ⟨handled, haccepted, hlog⟩ := h.live hpc
  rw [hactive] at hlog
  have haccepted' : s.accepted = handled ++ [.submitUserInput text enter delay reply] ++ rest := by
    rw [haccepted, hqueue, List.append_assoc]
    rfl
  have hlog' : userChunks (s.log ++ [.text reply text]) ++ [.enter reply enter]
      = (handled ++
          [PtyIoDataCommand.submitUserInput text enter delay reply]).flatMap chunksOf := by
    rw [userChunks_append, List.flatMap_append, ← hlog]
    show _ ++ [Chunk.text reply text] ++ [Chunk.enter reply enter]
      = _ ++ [] ++ [Chunk.text reply text, Chunk.enter reply enter]
    rw [List.append_nil, List.append_assoc]
    rfl
  have hmem : .submitUserInput text enter delay reply ∈ s.accepted := by
    rw [haccepted, hqueue]
    exact List.mem_append_right _ List.mem_cons_self
  have hnot : s.state ≠ .quiesced := by
    rw [hstate]
    exact fun heq => by cases heq
  have hwaiting : NoBoundary waiting := by
    have hnone := h.active hpc
    rw [hactive] at hnone
    cases hnone with
    | none hwaiting => exact hwaiting
  refine ⟨ordered_of_live haccepted' hlog', fun _ => ⟨_, haccepted', ?_⟩, fun _ => ?_, ?_, h.once,
    h.fresh, h.succeeded, fun hquiesced => absurd hquiesced hnot, ?_, h.since⟩
  · -- the Enter is still to come
    rw [← hlog']
    show _ ++ owed (some _) = _
    rw [owed]
    split
    · rfl
    · rfl
  · by_cases hempty : text = []
    · refine .pause _ text (now + delay) (by simp [hempty]) ⟨delay, hmem⟩ (Or.inl hempty) ?_
      apply hwaiting.append
      intro chunk hchunk hbytes
      rw [List.mem_singleton.mp hchunk] at hbytes
      exact absurd hempty hbytes
    · exact .text _ text waiting [] (by simp [hempty]) ⟨delay, hmem⟩ rfl hempty hwaiting
        fun _ hchunk => (by cases hchunk)
  · have hanswered := h.answered
    rw [hqueue, hactive] at hanswered
    rw [← hanswered]
    show _ ++ [reply] ++ rest.filterMap submissionReply
      = _ ++ [] ++ reply :: rest.filterMap submissionReply
    rw [List.append_nil, List.append_assoc]
    rfl
  · intro reads chunks hquiet
    exact absurd (h.quiet reads chunks hquiet).1 hnot

theorem Inv.handleDataCommand (now : Nat) (h : Inv s) (hpc : s.pc ≠ .exited)
    (hstate : s.state = .running) (hactive : s.activeSubmission = none)
    (hqueue : s.dataQueue = command :: rest) :
    Inv (handleDataCommand now command { s with dataQueue := rest }) := by
  obtain ⟨done, waiting, htape, hrest⟩ := h
  have htape' : Tape { s with dataQueue := rest } done waiting :=
    ⟨htape.log, htape.writes, htape.offset, htape.start, htape.written⟩
  unfold Herden.Runtime.Pty.Actor.handleDataCommand
  cases command with
  | writeUserInput bytes =>
    dsimp only
    rw [if_pos hstate]
    exact ⟨done, _, htape'.append _, hrest.userInput hpc hstate hactive hqueue⟩
  | submitUserInput text enter delay reply =>
    dsimp only
    rw [if_pos hstate]
    have hnext := htape'.append (.text reply text)
    exact ⟨done, _, ⟨hnext.log, hnext.writes, hnext.offset, hnext.start, hnext.written⟩,
      hrest.submission now hpc hstate hactive hqueue⟩

/-! ### Writing -/

/-- A chunk without boundary is written, and a submission waits for its own. -/
theorem later_of_split {wanted : Chunk} (h : empties ++ chunk :: later = before ++ wanted :: after)
    (hne : chunk ≠ wanted) (hempties : wanted ∉ empties) :
    ∃ shorter, later = shorter ++ wanted :: after ∧ before = empties ++ chunk :: shorter := by
  induction empties generalizing before with
  | nil =>
    cases before with
    | nil => exact absurd (List.cons.inj h).1 hne
    | cons head shorter =>
      obtain ⟨hhead, hlater⟩ := List.cons.inj h
      exact ⟨shorter, hlater, by rw [hhead]; rfl⟩
  | cons first empties ih =>
    cases before with
    | nil =>
      have hfirst : first = wanted := (List.cons.inj h).1
      exact absurd (hfirst ▸ List.mem_cons_self) hempties
    | cons head before =>
      obtain ⟨hhead, hrest⟩ := List.cons.inj h
      obtain ⟨shorter, hlater, hbefore⟩ := ih hrest fun hmem =>
        hempties (List.mem_cons_of_mem _ hmem)
      exact ⟨shorter, hlater, by rw [hhead, hbefore]; rfl⟩

theorem Active.advance (h : Active accepted done (empties ++ chunk :: later) active)
    (hempties : ∀ other ∈ empties, other.bytes = []) (hchunk : chunk.boundary = Option.none) :
    Active accepted (done ++ empties ++ [chunk]) later active := by
  have hdone : ∀ other, other ∈ done → other ∈ done ++ empties ++ [chunk] :=
    fun other hmem => List.mem_append_left _ (List.mem_append_left _ hmem)
  have hlater : ∀ {chunks : List Chunk}, NoBoundary (empties ++ chunk :: chunks) →
      NoBoundary chunks :=
    fun hall other hmem => hall other (List.mem_append_right _ (List.mem_cons_of_mem _ hmem))
  cases h with
  | none h => exact .none (hlater h)
  | text submission text before after hphase hsubmitted hwaiting htext hbefore hafter =>
    obtain ⟨shorter, hrest, hsplit⟩ := later_of_split hwaiting
      (fun heq => by rw [heq] at hchunk; cases hchunk) (fun hmem => htext (hempties _ hmem))
    exact .text submission text shorter after hphase hsubmitted hrest htext
      (hlater (hsplit ▸ hbefore)) hafter
  | pause submission text deadline hphase hsubmitted htext h =>
    exact .pause submission text deadline hphase hsubmitted (htext.imp_right (hdone _)) (hlater h)
  | enter submission text before after hphase hsubmitted htext hwaiting henter hbefore hafter =>
    obtain ⟨shorter, hrest, hsplit⟩ := later_of_split hwaiting
      (fun heq => by rw [heq] at hchunk; cases hchunk) (fun hmem => henter (hempties _ hmem))
    exact .enter submission text shorter after hphase hsubmitted (htext.imp_right (hdone _)) hrest
      henter (hlater (hsplit ▸ hbefore)) hafter

/-- The only text or Enter that waits is that of the active submission. -/
theorem boundary_of_split {wanted : Chunk}
    (h : empties ++ chunk :: later = before ++ wanted :: after) (hbytes : chunk.bytes ≠ [])
    (hboundary : chunk.boundary ≠ none) (hwanted : wanted.bytes ≠ [])
    (hempties : ∀ other ∈ empties, other.bytes = []) (hbefore : NoBoundary before) :
    chunk = wanted ∧ later = after := by
  by_cases heq : chunk = wanted
  · subst heq
    refine ⟨rfl, ?_⟩
    -- otherwise it stands once more before or after itself
    rcases List.append_eq_append_iff.mp h with ⟨extra, hb, hrest⟩ | ⟨extra, he, hrest⟩
    · cases extra with
      | nil => exact (List.cons.inj hrest).2
      | cons head extra =>
        have hhead : chunk = head := (List.cons.inj hrest).1
        have hmem : chunk ∈ before := by
          rw [hb, hhead]
          exact List.mem_append_right _ List.mem_cons_self
        exact absurd (hbefore chunk hmem hbytes) hboundary
    · cases extra with
      | nil => exact (List.cons.inj hrest).2.symm
      | cons head extra =>
        have hhead : chunk = head := (List.cons.inj hrest).1
        have hmem : chunk ∈ empties := by
          rw [he, hhead]
          exact List.mem_append_right _ List.mem_cons_self
        exact absurd (hempties chunk hmem) hbytes
  · obtain ⟨shorter, hlater, hsplit⟩ := later_of_split h heq fun hmem =>
      hwanted (hempties _ hmem)
    have hmem : chunk ∈ before := by
      rw [hsplit]
      exact List.mem_append_right _ List.mem_cons_self
    exact absurd (hbefore chunk hmem hbytes) hboundary

theorem userChunks_later (h : userChunks (empties ++ chunk :: later) = []) :
    userChunks later = [] := by
  rw [userChunks, List.filter_eq_nil_iff] at h ⊢
  exact fun other hmem => h other (List.mem_append_right _ (List.mem_cons_of_mem _ hmem))

/-- Bytes go out, and no chunk is completed. -/
theorem Rest.writing (h : Rest s done waiting) (written : Bytes) (offset : Nat) :
    Rest { s with written := written, currentWriteOffset := offset } done waiting :=
  ⟨h.ordered, h.live, h.active, h.answered, h.once, h.fresh, h.succeeded, h.quiesced, h.quiet,
    h.since⟩

/-- The first chunk is written, and it is no end of a text or an Enter. -/
theorem Rest.plain {s : State} {done empties later : List Chunk} {chunk : Chunk}
    (h : Rest s done (empties ++ chunk :: later))
    (hempties : ∀ other ∈ empties, other.bytes = []) (hchunk : chunk.boundary = none)
    (written : Bytes) (writes : List PendingWrite) :
    Rest { s with written := written, pendingWrites := writes, currentWriteOffset := 0 }
      (done ++ empties ++ [chunk]) later := by
  refine ⟨h.ordered, h.live, fun hpc => (h.active hpc).advance hempties hchunk, h.answered, h.once,
    h.fresh, ?_, ?_, h.quiet, h.since⟩
  · intro reply hmem
    obtain ⟨text, enter, delay, haccepted, htext, henter⟩ := h.succeeded reply hmem
    have hdone : ∀ other, other ∈ done → other ∈ done ++ empties ++ [chunk] :=
      fun other hold => List.mem_append_left _ (List.mem_append_left _ hold)
    exact ⟨text, enter, delay, haccepted, htext.imp_right (hdone _), henter.imp_right (hdone _)⟩
  · intro hquiesced
    obtain ⟨hactive, hqueue, hlog, hwaiting⟩ := h.quiesced hquiesced
    exact ⟨hactive, hqueue, hlog, userChunks_later hwaiting⟩

/-- The end of a text or an Enter is that of the active submission. -/
theorem Rest.boundary {boundary : SubmissionBoundary} (now : Nat)
    (h : Rest s done (empties ++ chunk :: later)) (hpc : s.pc ≠ .exited)
    (hempties : ∀ other ∈ empties, other.bytes = []) (hbytes : chunk.bytes ≠ [])
    (hchunk : chunk.boundary = some boundary) (written : Bytes) (writes : List PendingWrite) :
    Rest (completeSubmissionBoundary now boundary
        { s with written := written, pendingWrites := writes, currentWriteOffset := 0 })
      (done ++ empties ++ [chunk]) later := by
  have hboundary : chunk.boundary ≠ none := by
    rw [hchunk]
    exact Option.some_ne_none boundary
  have hmem : chunk ∈ empties ++ chunk :: later :=
    List.mem_append_right _ List.mem_cons_self
  have hdone : ∀ other, other ∈ done → other ∈ done ++ empties ++ [chunk] :=
    fun other hold => List.mem_append_left _ (List.mem_append_left _ hold)
  have hlast : chunk ∈ done ++ empties ++ [chunk] :=
    List.mem_append_right _ (List.mem_singleton_self chunk)
  have hsucceeded : ∀ reply, (reply, none) ∈ s.answers → ∃ text enter delay,
      .submitUserInput text enter delay reply ∈ s.accepted ∧
        (text = [] ∨ .text reply text ∈ done ++ empties ++ [chunk]) ∧
          (enter = [] ∨ .enter reply enter ∈ done ++ empties ++ [chunk]) := by
    intro reply hanswer
    obtain ⟨text, enter, delay, haccepted, htext, henter⟩ := h.succeeded reply hanswer
    exact ⟨text, enter, delay, haccepted, htext.imp_right (hdone _), henter.imp_right (hdone _)⟩
  have hquiesced : s.activeSubmission ≠ none → s.state ≠ .quiesced :=
    fun hsome hquiesced => hsome (h.quiesced hquiesced).1
  have hactive := h.active hpc
  generalize hsubmission : s.activeSubmission = active at hactive
  cases hactive with
  | none hwaiting => exact absurd (hwaiting chunk hmem hbytes) hboundary
  | pause submission text deadline hphase hsubmitted htext hwaiting =>
    exact absurd (hwaiting chunk hmem hbytes) hboundary
  | text submission text before after hphase hsubmitted hwaiting htext hbefore hafter =>
    obtain ⟨rfl, rfl⟩ :=
      boundary_of_split hwaiting hbytes hboundary htext hempties hbefore
    cases hchunk
    have hnot : s.state ≠ .quiesced := hquiesced (by rw [hsubmission]; exact Option.some_ne_none _)
    unfold completeSubmissionBoundary
    dsimp only
    refine ⟨h.ordered, ?_, fun _ => ?_, ?_, h.once, h.fresh, hsucceeded,
      fun hstate => absurd hstate hnot, h.quiet, h.since⟩
    · have hlive := h.live
      rw [hsubmission] at hlive
      intro hpc
      obtain ⟨handled, haccepted, hlog⟩ := hlive hpc
      rw [owed, if_neg (by rw [hphase]; exact fun heq => by cases heq)] at hlog
      exact ⟨handled, haccepted, hlog⟩
    · exact .pause _ text _ rfl hsubmitted (Or.inr hlast) hafter
    · have hanswered := h.answered
      rw [hsubmission] at hanswered
      exact hanswered
  | enter submission text before after hphase hsubmitted htext hwaiting henter hbefore hafter =>
    obtain ⟨rfl, rfl⟩ :=
      boundary_of_split hwaiting hbytes hboundary henter hempties hbefore
    cases hchunk
    have hnot : s.state ≠ .quiesced := hquiesced (by rw [hsubmission]; exact Option.some_ne_none _)
    unfold completeSubmissionBoundary
    dsimp only
    refine ⟨h.ordered, ?_, fun _ => .none hafter, ?_, h.once, h.fresh, ?_,
      fun hstate => absurd hstate hnot, h.quiet, h.since⟩
    · have hlive := h.live
      rw [hsubmission] at hlive
      intro hpc
      obtain ⟨handled, haccepted, hlog⟩ := hlive hpc
      rw [owed, if_pos hphase] at hlog
      exact ⟨handled, haccepted, hlog⟩
    · have hanswered := h.answered
      rw [hsubmission] at hanswered
      refine Eq.trans ?_ hanswered
      show (s.answers ++ [(submission.reply, none)]).map Prod.fst ++ [] ++ _
        = _ ++ [submission.reply] ++ _
      rw [List.map_append, List.append_nil]
      rfl
    · intro reply hanswer
      cases List.mem_append.mp hanswer with
      | inl hold => exact hsucceeded reply hold
      | inr hnew =>
        cases List.mem_singleton.mp hnew
        obtain ⟨delay, haccepted⟩ := hsubmitted
        exact ⟨text, submission.enter, delay, haccepted, htext.imp_right (hdone _),
          Or.inr hlast⟩

/-- One round of the loop of `flush_pending_writes_once`, with its boundary looked after. -/
theorem Inv.flush {result : WriteResult} {flushed : Flushed} (now : Nat) (h : Inv s)
    (hpc : s.pc ≠ .exited) (hzero : result ≠ .wrote 0) (hfailed : ∀ error, result ≠ .failed error)
    (hflush : flushPendingWrites result s = (flushed, t)) :
    (flushed = .more ∧ Inv t) ∨ (flushed = .done none ∧ Inv t) ∨
      ∃ boundary, flushed = .done (some boundary) ∧
        Inv (completeSubmissionBoundary now boundary t) ∧ s.activeSubmission ≠ none := by
  have hkeep := h
  obtain ⟨done, waiting, htape, hrest⟩ := h
  unfold flushPendingWrites at hflush
  split at hflush
  · cases hflush
    exact Or.inr (Or.inl ⟨rfl, hkeep⟩)
  next write rest hwrites =>
    dsimp only at hflush
    split at hflush
    · exact absurd rfl hzero
    next count _ =>
      split at hflush
      next hall =>
        obtain ⟨empties, chunk, later, rfl, hempties, hbytes, hboundary, htape'⟩ :=
          htape.complete hwrites hall
        split at hflush
        next hnone =>
          cases hflush
          exact Or.inl ⟨rfl, _, _, htape', hrest.plain hempties (hboundary.trans hnone) _ _⟩
        next boundary hsome =>
          cases hflush
          have hafter := hrest.boundary now hpc hempties hbytes (hboundary.trans hsome)
            (s.written ++ (write.bytes.drop s.currentWriteOffset).take count) rest
          refine Or.inr (Or.inr ⟨boundary, rfl, ⟨_, _, ?_, hafter⟩, ?_⟩)
          · unfold completeSubmissionBoundary
            split
            · exact htape'
            · exact ⟨htape'.log, htape'.writes, htape'.offset, htape'.start, htape'.written⟩
            · exact ⟨htape'.log, htape'.writes, htape'.offset, htape'.start, htape'.written⟩
          · intro hnone
            have hactive := hrest.active hpc
            rw [hnone] at hactive
            cases hactive with
            | none hwaiting =>
              have hno := hwaiting chunk (List.mem_append_right _ List.mem_cons_self) hbytes
              rw [hboundary, hsome] at hno
              cases hno
      next hpart =>
        cases hflush
        exact Or.inl ⟨rfl, done, waiting, htape.advance hwrites (Nat.lt_of_not_le hpart),
          hrest.writing _ _⟩
    · cases hflush
      exact Or.inr (Or.inl ⟨rfl, hkeep⟩)
    · cases hflush
      exact Or.inr (Or.inl ⟨rfl, hkeep⟩)
    next error => exact absurd rfl (hfailed error)

/-! ### The Enter of a submission -/

theorem Rest.schedule {submission : ActiveSubmission} {deadline : Nat} (h : Rest s done waiting)
    (hpc : s.pc ≠ .exited) (hactive : s.activeSubmission = some submission)
    (hphase : submission.phase = .waitingUntil deadline) : Rest (if submission.enter.isEmpty then
        answer submission.reply none
          { enqueueWrite
              (.enter submission.reply submission.enter) s with activeSubmission := none }
      else
        { enqueueWrite (.enter submission.reply submission.enter) s with
          activeSubmission := some { submission with phase := .writingEnter } }) done
      (waiting ++ [.enter submission.reply submission.enter]) := by
  rw [enqueueWrite_frame]
  have hnot : s.state ≠ .quiesced := by
    intro hquiesced
    rw [(h.quiesced hquiesced).1] at hactive
    cases hactive
  have hlive : ∃ handled, s.accepted = handled ++ s.dataQueue ∧
      userChunks (s.log ++ [.enter submission.reply submission.enter])
        = handled.flatMap chunksOf := by
    obtain ⟨handled, haccepted, hlog⟩ := h.live hpc
    rw [hactive, owed, if_neg (by rw [hphase]; exact fun heq => by cases heq)] at hlog
    refine ⟨handled, haccepted, ?_⟩
    rw [userChunks_append]
    exact hlog
  have hordered : userChunks (s.log ++ [.enter submission.reply submission.enter])
      <+: s.accepted.flatMap chunksOf := by
    obtain ⟨handled, haccepted, hlog⟩ := hlive
    exact ordered_of_live haccepted ((List.append_nil _).trans hlog)
  have hquiet : ∀ reads chunks, s.quiet = some (reads, chunks) →
      s.state = .quiesced ∧ s.reads = reads ∧
        (userChunks (s.log ++ [.enter submission.reply submission.enter])).length = chunks :=
    fun reads chunks hsome => absurd (h.quiet reads chunks hsome).1 hnot
  have hwaits : ∃ text, Submitted s.accepted submission text ∧
      (text = [] ∨ .text submission.reply text ∈ done) ∧ NoBoundary waiting := by
    have hactive' := h.active hpc
    rw [hactive] at hactive'
    cases hactive' with
    | text _ _ _ _ hother => rw [hphase] at hother; cases hother
    | pause _ text _ _ hsubmitted htext hwaiting => exact ⟨text, hsubmitted, htext, hwaiting⟩
    | enter _ _ _ _ hother => rw [hphase] at hother; cases hother
  obtain ⟨text, hsubmitted, htext, hwaiting⟩ := hwaits
  have hanswered := h.answered
  rw [hactive] at hanswered
  by_cases hempty : submission.enter = []
  · rw [if_pos (by rw [hempty]; rfl)]
    refine ⟨hordered, fun _ => ?_, fun _ => .none ?_, ?_, h.once, h.fresh, ?_,
      fun hquiesced => absurd hquiesced hnot, hquiet, h.since⟩
    · obtain ⟨handled, haccepted, hlog⟩ := hlive
      refine ⟨handled, haccepted, ?_⟩
      rw [← hlog]
      exact List.append_nil _
    · apply hwaiting.append
      intro chunk hmem hbytes
      rw [List.mem_singleton.mp hmem] at hbytes
      exact absurd hempty hbytes
    · refine Eq.trans ?_ hanswered
      show (s.answers ++ [(submission.reply, none)]).map Prod.fst ++ [] ++ _
        = _ ++ [submission.reply] ++ _
      rw [List.map_append, List.append_nil]
      rfl
    · intro reply hanswer
      cases List.mem_append.mp hanswer with
      | inl hold => exact h.succeeded reply hold
      | inr hnew =>
        cases List.mem_singleton.mp hnew
        obtain ⟨delay, haccepted⟩ := hsubmitted
        exact ⟨text, submission.enter, delay, haccepted, htext, Or.inl hempty⟩
  · rw [if_neg (by simpa using hempty)]
    refine ⟨hordered, fun _ => ?_, fun _ => ?_, hanswered, h.once, h.fresh, h.succeeded,
      fun hquiesced => absurd hquiesced hnot, hquiet, h.since⟩
    · obtain ⟨handled, haccepted, hlog⟩ := hlive
      refine ⟨handled, haccepted, ?_⟩
      rw [← hlog]
      exact List.append_nil _
    · exact .enter _ text waiting [] rfl hsubmitted htext rfl hempty hwaiting
        fun _ hmem => (by cases hmem)

theorem Inv.schedule (now : Nat) (h : Inv s) (hpc : s.pc ≠ .exited) :
    Inv (scheduleSubmissionEnter now s) := by
  unfold scheduleSubmissionEnter
  split
  next enter delay deadline reply hactive =>
    split
    · obtain ⟨done, waiting, htape, hrest⟩ := h
      have htape' := htape.append (.enter reply enter)
      have hnext := hrest.schedule hpc hactive rfl
      dsimp only at hnext ⊢
      refine ⟨done, _, ?_, hnext⟩
      split
      · exact ⟨htape'.log, htape'.writes, htape'.offset, htape'.start, htape'.written⟩
      · exact ⟨htape'.log, htape'.writes, htape'.offset, htape'.start, htape'.written⟩
    · exact h
  · exact h

/-! ### The other steps -/

/-- The two states differ only in what the inputs do not depend on. -/
structure Same (s t : State) : Prop where
  eq : t = { s with
    accepting := t.accepting, controlQueue := t.controlQueue, controls := t.controls
    nextReply := t.nextReply, caller := t.caller, outcome := t.outcome
    pendingHandoff := t.pendingHandoff, replies := t.replies }
  nextReply : s.nextReply ≤ t.nextReply

theorem Inv.of_same (h : Inv s) (hsame : Same s t) : Inv t := by
  rw [hsame.eq]
  obtain ⟨done, waiting, htape, hrest⟩ := h
  exact ⟨done, waiting, ⟨htape.log, htape.writes, htape.offset, htape.start, htape.written⟩,
    ⟨hrest.ordered, hrest.live, hrest.active, hrest.answered, hrest.once,
      fun reply hmem => Nat.lt_of_lt_of_le (hrest.fresh reply hmem) hsame.nextReply,
      hrest.succeeded, hrest.quiesced, hrest.quiet, hrest.since⟩⟩

theorem Inv.setPc (h : Inv s) (hpc : s.pc ≠ .exited) (pc : Pc) : Inv { s with pc := pc } := by
  obtain ⟨done, waiting, htape, hrest⟩ := h
  exact ⟨done, waiting, ⟨htape.log, htape.writes, htape.offset, htape.start, htape.written⟩,
    hrest.setPc hpc pc⟩

theorem Inv.enqueueAll (h : Inv s) (terminalResponses : List Bytes) :
    Inv (terminalResponses.foldl (fun s bytes => enqueueWrite (.response bytes) s) s) := by
  induction terminalResponses generalizing s with
  | nil => exact h
  | cons bytes rest ih => exact ih (h.response bytes)

theorem Inv.enqueueTerminalResponses (h : Inv s) (terminalResponses : List Bytes) :
    Inv (enqueueTerminalResponses terminalResponses s) := by
  unfold Herden.Runtime.Pty.Actor.enqueueTerminalResponses
  split
  · exact h
  · exact h.enqueueAll terminalResponses

theorem Inv.setControls (h : Inv s) (controls : SharedPtyControls) :
    Inv { s with controls := controls } :=
  h.of_same ⟨rfl, Nat.le_refl _⟩

theorem Inv.applyPendingControls (h : Inv s) : Inv (applyPendingControls s) := by
  unfold Herden.Runtime.Pty.Actor.applyPendingControls
  dsimp only
  have hempty := h.setControls ⟨none, []⟩
  split
  · exact hempty
  · apply Inv.enqueueTerminalResponses
    split
    · exact hempty
    · exact hempty.enqueueTerminalResponses _

/-- The actor ends: what it had not written is answered with an error. -/
theorem Inv.closeInputQueue (h : Inv s) : Inv (closeInputQueue s) := by
  obtain ⟨done, waiting, htape, hrest⟩ := h
  have hanswered := hrest.answered
  unfold Herden.Runtime.Pty.Actor.closeInputQueue failActiveSubmission
  dsimp only
  cases hactive : s.activeSubmission with
  | none =>
    rw [hactive] at hanswered
    refine ⟨done, waiting, ⟨htape.log, htape.writes, htape.offset, htape.start, htape.written⟩,
      hrest.ordered, fun hpc => absurd rfl hpc, fun hpc => absurd rfl hpc, ?_, hrest.once,
      hrest.fresh, ?_, ?_, hrest.quiet, hrest.since⟩
    · refine Eq.trans ?_ hanswered
      show (s.answers ++ _).map Prod.fst ++ s.activeSubmission.toList.map (·.reply) ++ [] = _
      rw [hactive, List.map_append, List.map_map]
      simp [Function.comp_def]
    · intro reply hmem
      cases List.mem_append.mp hmem with
      | inl hold => exact hrest.succeeded reply hold
      | inr hnew =>
        obtain ⟨_, _, heq⟩ := List.mem_map.mp hnew
        cases heq
    · intro hquiesced
      obtain ⟨hnone, _, hlog, hwaiting⟩ := hrest.quiesced hquiesced
      exact ⟨hnone, rfl, hlog, hwaiting⟩
  | some submission =>
    rw [hactive] at hanswered
    have hnot : s.state ≠ .quiesced := by
      intro hquiesced
      rw [(hrest.quiesced hquiesced).1] at hactive
      cases hactive
    refine ⟨done, waiting, ⟨htape.log, htape.writes, htape.offset, htape.start, htape.written⟩,
      hrest.ordered, fun hpc => absurd rfl hpc, fun hpc => absurd rfl hpc, ?_, hrest.once,
      hrest.fresh, ?_, fun hquiesced => absurd hquiesced hnot, hrest.quiet, hrest.since⟩
    · refine Eq.trans ?_ hanswered
      show (s.answers ++ [(submission.reply, _)] ++
        (s.dataQueue.filterMap submissionReply).map _).map Prod.fst ++ [] ++ [] = _
      rw [List.map_append, List.map_append, List.map_map]
      simp [Function.comp_def]
    · intro reply hmem
      cases List.mem_append.mp hmem with
      | inl hbefore =>
        cases List.mem_append.mp hbefore with
        | inl hold => exact hrest.succeeded reply hold
        | inr hfailed => cases List.mem_singleton.mp hfailed
      | inr hnew =>
        obtain ⟨_, _, heq⟩ := List.mem_map.mp hnew
        cases heq

/-! ### Where the actor stands -/

/-- What a handoff has drained stays drained: the gate is closed. -/
def AtPc (s : State) : Prop :=
  match s.pc with
  | .drainData => s.activeSubmission = none
  | .defer _ _ => s.activeSubmission = none
  | .begin _ _ => s.activeSubmission = none
  | .beginControls _ _ => s.activeSubmission = none ∧ s.dataQueue = []
  | .beginPoll _ => s.activeSubmission = none ∧ s.dataQueue = []
  | .flush (.handoff _) => s.activeSubmission = none ∧ s.dataQueue = []
  | .read (.handoff _) _ => s.activeSubmission = none ∧ s.dataQueue = []
  | .readTake (.handoff _) _ => s.activeSubmission = none ∧ s.dataQueue = []
  | .read .run _ => s.state = .running
  | _ => True

theorem AtPc.of_same (h : AtPc s) (hsame : Same s t) : AtPc t := by
  rw [hsame.eq]
  exact h

structure Whole (s : State) : Prop where
  ctl : Ctl (view s)
  atPc : AtPc s
  inv : Inv s

/-- With something in the queue the actor runs. -/
theorem Whole.running (h : Whole s) (hqueue : s.dataQueue = command :: rest) :
    s.state = .running := by
  cases hstate : s.state with
  | running => rfl
  | released => exact absurd hstate h.ctl.live
  | quiesced =>
    obtain ⟨done, waiting, _, hrest⟩ := h.inv
    rw [(hrest.quiesced hstate).2.1] at hqueue
    cases hqueue

theorem Whole.running_of_handling (h : Whole s) (hpc : handling s.pc ≠ none) : s.state = .running :=
  (h.ctl.begun (begins_pos_of_handling hpc)).2

theorem Inv.handleControlCommand {command : PtyIoControlCommand} (h : Inv s) (hpc : s.pc ≠ .exited)
    (hlive : s.state ≠ .released)
    (hcommand : command ≠ .shutdown ∧ ∀ reply, command ≠ .releaseAfterCommit reply) :
    Inv (handleControlCommand command s) := by
  unfold Herden.Runtime.Pty.Actor.handleControlCommand
  cases command with
  | beginHandoff reply =>
    dsimp only
    unfold deferOrBeginHandoff
    split
    · exact h.setPc hpc _
    · have hnext : Inv { s with pendingHandoff := some reply } := h.of_same ⟨rfl, Nat.le_refl _⟩
      exact hnext.setPc hpc _
  | duplicateForHandoff => exact h
  | foregroundProcessGroup => exact h
  | rollbackHandoff reply =>
    dsimp only
    rw [if_neg hlive]
    -- the actor runs again, so nothing is asked of a quiesced one
    obtain ⟨done, waiting, htape, hrest⟩ := h
    exact ⟨done, waiting, ⟨htape.log, htape.writes, htape.offset, htape.start, htape.written⟩,
      ⟨hrest.ordered, hrest.live, hrest.active, hrest.answered, hrest.once, hrest.fresh,
        hrest.succeeded, fun heq => (by cases heq), fun _ _ heq => (by cases heq),
        fun heq => (by cases heq)⟩⟩
  | releaseAfterCommit reply => exact absurd rfl (hcommand.2 reply)
  | shutdown => exact absurd rfl hcommand.1

theorem Inv.endHandoff {site : Site} {result : IoResult} (h : Inv s) (hpc : s.pc ≠ .exited) :
    Inv (endHandoff reply site result s) := by
  have hnext : Inv { s with replies := s.replies ++ [(reply, result)] } := h.of_same
      ⟨rfl, Nat.le_refl _⟩
  exact hnext.setPc hpc _

/-- The last write of a handoff is done. -/
theorem Inv.quiesce (h : Inv s) (hpc : s.pc ≠ .exited) (hactive : s.activeSubmission = none)
    (hqueue : s.dataQueue = []) (hwrites : s.pendingWrites = []) :
    Inv { s with state := .quiesced, quiet := some (s.reads, (userChunks s.log).length) } := by
  obtain ⟨done, waiting, htape, hrest⟩ := h
  have hall := htape.absorb hwrites
  refine ⟨s.log, [], ⟨hall.log, hall.writes, hall.offset, hall.start, hall.written⟩,
    hrest.ordered, hrest.live, fun _ => ?_, hrest.answered, hrest.once, hrest.fresh, ?_,
    fun _ => ⟨hactive, hqueue, ?_, rfl⟩, ?_, fun _ => rfl⟩
  · rw [hactive]
    exact .none fun _ hmem => (by cases hmem)
  · intro reply hmem
    have hin : ∀ chunk, chunk ∈ done → chunk ∈ s.log := by
      intro chunk hchunk
      rw [htape.log]
      exact List.mem_append_left _ hchunk
    obtain ⟨text, enter, delay, haccepted, htext, henter⟩ := hrest.succeeded reply hmem
    exact ⟨text, enter, delay, haccepted, htext.imp_right (hin _), henter.imp_right (hin _)⟩
  · obtain ⟨handled, haccepted, hlog⟩ := hrest.live hpc
    rw [hqueue, List.append_nil] at haccepted
    rw [hactive] at hlog
    rw [haccepted, ← hlog]
    exact (List.append_nil _).symm
  · intro reads chunks hquiet
    cases hquiet
    exact ⟨rfl, rfl, rfl⟩

/-- The PTY is read by a running actor only. -/
theorem Inv.read (h : Inv s) (hstate : s.state = .running) :
    Inv { s with reads := s.reads + 1 } := by
  obtain ⟨done, waiting, htape, hrest⟩ := h
  refine ⟨done, waiting, ⟨htape.log, htape.writes, htape.offset, htape.start, htape.written⟩,
    ⟨hrest.ordered, hrest.live, hrest.active, hrest.answered, hrest.once, hrest.fresh,
      hrest.succeeded, hrest.quiesced, ?_, hrest.since⟩⟩
  intro reads chunks hquiet
  have hquiesced := (hrest.quiet reads chunks hquiet).1
  rw [hstate] at hquiesced
  cases hquiesced

/-- What a handoff has drained. -/
def drained (s : State) : Option ActiveSubmission × List PtyIoDataCommand :=
  (s.activeSubmission, s.dataQueue)

theorem drained_enqueueTerminalResponses (terminalResponses : List Bytes) (s : State) :
    drained (enqueueTerminalResponses terminalResponses s) = drained s := by
  unfold enqueueTerminalResponses
  split
  · rfl
  · clear * -
    induction terminalResponses generalizing s with
    | nil => rfl
    | cons bytes rest ih =>
      rw [List.foldl_cons, ih, enqueueWrite_frame]
      rfl

theorem drained_applyPendingControls (s : State) :
    drained (applyPendingControls s) = drained s := by
  unfold applyPendingControls
  dsimp only
  split
  · rfl
  · rw [drained_enqueueTerminalResponses]
    split
    · rfl
    · rw [drained_enqueueTerminalResponses]
      rfl

theorem drained_flushPendingWrites (result : WriteResult) (s : State) :
    drained (flushPendingWrites result s).2 = drained s := by
  unfold flushPendingWrites
  split
  · rfl
  · dsimp only
    split
    · rfl
    · split
      · split
        · rfl
        · rfl
      · rfl
    · rfl
    · rfl
    · rfl

/-- No write fails. -/
def Writable (env : Env) : Prop :=
  env.write ≠ .wrote 0 ∧ ∀ error, env.write ≠ .failed error

/-- A place of the loop where nothing is known. -/
def free : Pc → Bool
  | .drainData => false
  | .defer _ _ => false
  | .begin _ _ => false
  | .beginControls _ _ => false
  | .beginPoll _ => false
  | .flush (.handoff _) => false
  | .read _ _ => false
  | .readTake (.handoff _) _ => false
  | _ => true

theorem atPc_of_free (h : free s.pc = true) : AtPc s := by
  unfold AtPc
  split
  all_goals first
    | trivial
    | next hpc => rw [hpc] at h; cases h

theorem free_next (site : Site) : free site.next = true := by
  cases site with
  | handleControlCommand => rfl
  | drainCommands => rfl

theorem free_ite {c : Prop} [Decidable c] {first second : Pc} (hfirst : free first = true)
    (hsecond : free second = true) : free (if c then first else second) = true := by
  split
  · exact hfirst
  · exact hsecond

/-- The loops that drain data commands end with the first submission. -/
theorem atPc_of_draining (h : s.activeSubmission = none)
    (hpc : s.pc = .drainData ∨ (∃ reply site, s.pc = .defer reply site) ∨
      ∃ reply site, s.pc = .begin reply site) : AtPc s := by
  unfold AtPc
  rcases hpc with hpc | ⟨reply, site, hpc⟩ | ⟨reply, site, hpc⟩
  · rw [hpc]
    exact h
  · rw [hpc]
    exact h
  · rw [hpc]
    exact h

theorem atPc_endHandoff (reply : Nat) (site : Site) (result : IoResult) (s : State) :
    AtPc (endHandoff reply site result s) :=
  atPc_of_free (free_next site)

/-- After `read_once` the handoff goes on with the same inputs. -/
theorem atPc_afterRead
    (h : ∀ handoff, reader = .handoff handoff → s.activeSubmission = none ∧ s.dataQueue = []) :
    AtPc (afterRead reader writeReady s) := by
  cases reader with
  | run =>
    unfold afterRead
    dsimp only
    split
    · trivial
    · trivial
  | handoff handoff =>
    have hdrained := h handoff rfl
    unfold afterRead
    dsimp only
    cases writeReady with
    | true => exact hdrained
    | false => exact hdrained

theorem atPc_readEnded (reader : Reader) (s : State) : AtPc (readEnded reader s) := by
  cases reader with
  | run => exact atPc_of_free rfl
  | handoff handoff => exact atPc_endHandoff _ _ _ s

theorem Inv.afterRead (h : Inv s) (hpc : s.pc ≠ .exited) : Inv (afterRead reader writeReady s) := by
  cases reader with
  | run => exact h.setPc hpc _
  | handoff handoff => exact h.setPc hpc _

theorem Inv.readEnded (h : Inv s) (hpc : s.pc ≠ .exited) : Inv (readEnded reader s) := by
  cases reader with
  | run => exact h.setPc hpc _
  | handoff handoff => exact h.endHandoff hpc

theorem pc_of_view (h : view t = view s) : t.pc = s.pc := congrArg View.pc h

/-- The next data command of `drain_data_commands` or `drain_pre_quiesce_commands`. -/
theorem Whole.data (now : Nat) (h : Whole s) (hpc : s.pc ≠ .exited)
    (hactive : s.activeSubmission = none) (hqueue : s.dataQueue = command :: rest) :
    Inv (handleDataCommand now command { s with dataQueue := rest }) ∧
      (handleDataCommand now command { s with dataQueue := rest }).pc = s.pc :=
  ⟨h.inv.handleDataCommand now hpc (h.running hqueue) hactive hqueue,
    pc_of_view (view_handleDataCommand now command _)⟩

theorem Whole.control {command : PtyIoControlCommand} {rest : List PtyIoControlCommand}
    (h : Whole s) (hpc : s.pc = .drainControl) (hqueue : s.controlQueue = command :: rest)
    (ht : t = handleControlCommand command { s with controlQueue := rest }) : AtPc t ∧ Inv t := by
  have hlive : s.pc ≠ .exited := by
    rw [hpc]
    exact Pc.noConfusion
  have hplain := h.ctl.plain command (by
    show command ∈ s.controlQueue
    rw [hqueue]
    exact List.mem_cons_self)
  have hrest : Inv { s with controlQueue := rest } := h.inv.of_same ⟨rfl, Nat.le_refl _⟩
  subst ht
  refine ⟨?_, hrest.handleControlCommand hlive h.ctl.live hplain⟩
  unfold handleControlCommand
  cases command with
  | beginHandoff reply =>
    dsimp only
    unfold deferOrBeginHandoff
    split
    next hactive => exact Option.isNone_iff_eq_none.mp hactive
    · exact atPc_of_free rfl
  | duplicateForHandoff => exact atPc_of_free (congrArg free hpc)
  | foregroundProcessGroup => exact atPc_of_free (congrArg free hpc)
  | rollbackHandoff reply =>
    dsimp only
    split
    · exact atPc_of_free (congrArg free hpc)
    · exact atPc_of_free (congrArg free hpc)
  | releaseAfterCommit reply => exact absurd rfl (hplain.2 reply)
  | shutdown => exact absurd rfl hplain.1

theorem Whole.beginPoll {handoff : Handoff} (h : Whole s) (hpc : s.pc = .beginPoll handoff) :
    AtPc (beginPoll env handoff s) ∧ Inv (beginPoll env handoff s) := by
  have hlive : s.pc ≠ .exited := by
    rw [hpc]
    exact Pc.noConfusion
  have hdrained := h.atPc
  unfold AtPc at hdrained
  rw [hpc] at hdrained
  unfold Herden.Runtime.Pty.Actor.beginPoll
  split
  next hempty =>
    have hquiesced := h.inv.quiesce hlive hdrained.1 hdrained.2 (by simpa using hempty)
    exact ⟨atPc_endHandoff _ _ _ _, hquiesced.endHandoff hlive⟩
  · split
    · exact ⟨atPc_endHandoff _ _ _ _, h.inv.endHandoff hlive⟩
    · split
      · exact ⟨atPc_endHandoff _ _ _ _, h.inv.endHandoff hlive⟩
      · split
        · exact ⟨atPc_endHandoff _ _ _ _, h.inv.endHandoff hlive⟩
        · split
          · exact ⟨hdrained, h.inv.setPc hlive _⟩
          · split
            · exact ⟨hdrained, h.inv.setPc hlive _⟩
            · exact ⟨h.atPc, h.inv⟩

theorem Whole.poll (h : Whole s) (hpc : s.pc = .poll) : AtPc (poll env s) ∧ Inv (poll env s) := by
  have hlive : s.pc ≠ .exited := by
    rw [hpc]
    exact Pc.noConfusion
  unfold Herden.Runtime.Pty.Actor.poll
  split
  · exact ⟨atPc_of_free rfl, h.inv.setPc hlive _⟩
  · split
    · split
      · exact ⟨atPc_of_free rfl, h.inv.setPc hlive _⟩
      · exact ⟨atPc_of_free rfl, h.inv.setPc hlive _⟩
    · split
      next hread =>
        rw [Bool.and_eq_true, decide_eq_true_eq] at hread
        exact ⟨hread.1, h.inv.setPc hlive _⟩
      · exact ⟨atPc_afterRead fun _ heq => (by cases heq), h.inv.afterRead hlive⟩

theorem Whole.read (h : Whole s) (hpc : s.pc = .read reader writeReady)
    (hact : act env s = some t) : AtPc t ∧ Inv t := by
  have hlive : s.pc ≠ .exited := by
    rw [hpc]
    exact Pc.noConfusion
  have hat := h.atPc
  unfold AtPc at hat
  rw [hpc] at hat
  have hdrained : ∀ handoff, reader = .handoff handoff →
      s.activeSubmission = none ∧ s.dataQueue = [] := by
    rintro handoff rfl
    exact hat
  have hrunning : s.state = .running := by
    cases reader with
    | run => exact hat
    | handoff handoff =>
      apply h.running_of_handling
      rw [hpc]
      exact Option.some_ne_none _
  have hread := h.inv.read hrunning
  unfold act at hact
  rw [hpc] at hact
  dsimp only at hact
  split at hact
  · cases hact
    exact ⟨atPc_readEnded _ _, hread.readEnded hlive⟩
  · cases hact
    exact ⟨atPc_readEnded _ _, hread.readEnded hlive⟩
  · cases hact
    exact ⟨atPc_afterRead hdrained, hread.afterRead hlive⟩
  · cases hact
    exact ⟨atPc_afterRead hdrained, hread.afterRead hlive⟩
  · cases hact
    refine ⟨?_, (hread.setControls _).setPc hlive _⟩
    cases reader with
    | run => trivial
    | handoff handoff => exact hdrained handoff rfl

theorem Whole.flush {flusher : Flusher} (h : Whole s) (hpc : s.pc = .flush flusher)
    (hwritable : Writable env) (hact : act env s = some t) : AtPc t ∧ Inv t := by
  have hlive : s.pc ≠ .exited := by
    rw [hpc]
    exact Pc.noConfusion
  have hsame := pc_of_view (view_flushPendingWrites env.write s)
  have hinputs := drained_flushPendingWrites env.write s
  unfold act at hact
  rw [hpc] at hact
  dsimp only at hact
  cases hflushed : flushPendingWrites env.write s with
  | mk flushed after =>
    rw [hflushed] at hact hsame hinputs
    have hafter : after.pc ≠ .exited := fun heq => hlive (hsame.symm.trans heq)
    rcases h.inv.flush env.now hlive hwritable.1 hwritable.2 hflushed with
      ⟨rfl, hinv⟩ | ⟨rfl, hinv⟩ | ⟨boundary, rfl, hinv, hactive⟩
    · cases hact
      refine ⟨?_, hinv⟩
      have hat := h.atPc
      unfold AtPc at hat ⊢
      rw [hsame, hpc]
      rw [hpc] at hat
      cases flusher with
      | beforePoll => trivial
      | afterPoll => trivial
      | handoff handoff =>
        exact ⟨(congrArg Prod.fst hinputs).trans hat.1, (congrArg Prod.snd hinputs).trans hat.2⟩
    · cases hact
      unfold afterFlush
      cases flusher with
      | handoff handoff =>
        have hat := h.atPc
        unfold AtPc at hat
        rw [hpc] at hat
        exact ⟨⟨(congrArg Prod.fst hinputs).trans hat.1, (congrArg Prod.snd hinputs).trans hat.2⟩,
          hinv.setPc hafter _⟩
      | beforePoll => exact ⟨trivial, hinv.setPc hafter _⟩
      | afterPoll => exact ⟨trivial, hinv.setPc hafter _⟩
    · cases hact
      have hcomplete : (completeSubmissionBoundary env.now boundary after).pc ≠ .exited := by
        rw [pc_of_view (view_completeSubmissionBoundary env.now boundary after)]
        exact hafter
      unfold afterFlush
      cases flusher with
      | handoff handoff =>
        -- a handoff has no submission to write
        have hat := h.atPc
        unfold AtPc at hat
        rw [hpc] at hat
        exact absurd hat.1 hactive
      | beforePoll => exact ⟨trivial, hinv.setPc hcomplete _⟩
      | afterPoll => exact ⟨trivial, hinv.setPc hcomplete _⟩

theorem Whole.act (h : Whole s) (hwritable : Writable env) (hact : act env s = some t) :
    AtPc t ∧ Inv t := by
  have hlive := not_exited_of_act hact
  have hstep := hact
  have hat := h.atPc
  unfold AtPc at hat
  unfold Herden.Runtime.Pty.Actor.act at hact
  split at hact
  next hpc =>
    split at hact
    · cases hact
      exact ⟨trivial, h.inv.setPc hlive _⟩
    next command rest hqueue =>
      cases hact
      exact h.control hpc hqueue rfl
  next hpc =>
    split at hact
    · cases hact
      exact ⟨atPc_of_free rfl, h.inv.setPc hlive _⟩
    next hactive =>
      have hnone : s.activeSubmission = none := by simpa using hactive
      split at hact
      next reply hpending =>
        cases hact
        have hrest : Inv { s with pendingHandoff := none } := h.inv.of_same ⟨rfl, Nat.le_refl _⟩
        rw [deferOrBeginHandoff, if_pos (by rw [hnone]; rfl)]
        exact ⟨hnone, hrest.setPc hlive _⟩
      · cases hact
        exact ⟨hnone, h.inv.setPc hlive _⟩
  next hpc =>
    rw [hpc] at hat
    dsimp only at hact
    split at hact
    · cases hact
      exact ⟨atPc_of_free rfl, h.inv.setPc hlive _⟩
    next command rest hqueue =>
      obtain ⟨hinv, hsame⟩ := h.data env.now hlive hat hqueue
      have hafter := hsame.trans_ne hlive
      split at hact
      · cases hact
        exact ⟨atPc_of_free rfl, hinv.setPc hafter _⟩
      next hactive =>
        cases hact
        exact ⟨atPc_of_draining (by simpa using hactive) (Or.inl (hsame.trans hpc)), hinv⟩
  next reply site hpc =>
    rw [hpc] at hat
    dsimp only at hact
    split at hact
    · cases hact
      exact ⟨hat, h.inv.setPc hlive _⟩
    next command rest hqueue =>
      obtain ⟨hinv, hsame⟩ := h.data env.now hlive hat hqueue
      have hafter := hsame.trans_ne hlive
      split at hact
      · cases hact
        have hparked : Inv { handleDataCommand env.now command { s with dataQueue := rest } with
            pendingHandoff := some reply } := hinv.of_same ⟨rfl, Nat.le_refl _⟩
        exact ⟨atPc_of_free (free_next site), hparked.setPc hafter _⟩
      next hactive =>
        cases hact
        exact ⟨atPc_of_draining (by simpa using hactive)
            (Or.inr (Or.inl ⟨reply, site, hsame.trans hpc⟩)), hinv⟩
  next reply site hpc =>
    rw [hpc] at hat
    dsimp only at hact
    split at hact
    next hempty =>
      cases hact
      exact ⟨⟨hat, hempty⟩, h.inv.setPc hlive _⟩
    next command rest hqueue =>
      obtain ⟨hinv, hsame⟩ := h.data env.now hlive hat hqueue
      have hafter := hsame.trans_ne hlive
      split at hact
      · cases hact
        exact ⟨atPc_endHandoff _ _ _ _, hinv.endHandoff hafter⟩
      next hactive =>
        cases hact
        exact ⟨atPc_of_draining (by simpa using hactive)
            (Or.inr (Or.inr ⟨reply, site, hsame.trans hpc⟩)), hinv⟩
  next reply site hpc =>
    rw [hpc] at hat
    dsimp only at hact
    have hafter := (pc_of_view (view_applyPendingControls s)).trans_ne hlive
    have hinputs := drained_applyPendingControls s
    split at hact
    · cases hact
      exact ⟨atPc_endHandoff _ _ _ _, h.inv.applyPendingControls.endHandoff hafter⟩
    · cases hact
      exact ⟨⟨(congrArg Prod.fst hinputs).trans hat.1, (congrArg Prod.snd hinputs).trans hat.2⟩,
        h.inv.applyPendingControls.setPc hafter _⟩
  next handoff hpc =>
    cases hact
    exact h.beginPoll hpc
  next hpc =>
    cases hact
    have hafter := (pc_of_view (view_applyPendingControls s)).trans_ne hlive
    exact ⟨atPc_of_free (free_ite rfl rfl), h.inv.applyPendingControls.setPc hafter _⟩
  next flusher hpc => exact h.flush hpc hwritable hstep
  next hpc =>
    cases hact
    have hafter := (pc_of_view (view_scheduleSubmissionEnter env.now s)).trans_ne hlive
    exact ⟨atPc_of_free (free_ite rfl rfl), (h.inv.schedule env.now hlive).setPc hafter _⟩
  next hpc =>
    cases hact
    exact h.poll hpc
  next reader writeReady hpc => exact h.read hpc hstep
  next reader writeReady hpc =>
    rw [hpc] at hat
    cases hact
    have hinv := (h.inv.setControls { s.controls with terminalResponses := [] })
      |>.enqueueTerminalResponses s.controls.terminalResponses
    have hinputs := drained_enqueueTerminalResponses s.controls.terminalResponses
      { s with controls := { s.controls with terminalResponses := [] } }
    have hafter := (pc_of_view (view_enqueueTerminalResponses s.controls.terminalResponses
      { s with controls := { s.controls with terminalResponses := [] } })).trans_ne hlive
    refine ⟨atPc_afterRead ?_, hinv.afterRead hafter⟩
    rintro handoff rfl
    exact ⟨(congrArg Prod.fst hinputs).trans hat.1, (congrArg Prod.snd hinputs).trans hat.2⟩
  next hpc =>
    cases hact
    exact ⟨trivial, h.inv.closeInputQueue⟩
  next hpc => exact absurd hpc hlive

/-! ### The calls -/

/-- An input is accepted. -/
theorem Inv.accept {nextReply : Nat} (h : Inv s) (hstate : s.state = .running)
    (hnext : s.nextReply ≤ nextReply) (hreply : ∀ reply, submissionReply command = some reply →
      s.nextReply ≤ reply ∧ reply < nextReply) : Inv { s with
      dataQueue := s.dataQueue ++ [command]
      accepted := s.accepted ++ [command]
      nextReply := nextReply } := by
  obtain ⟨done, waiting, htape, hrest⟩ := h
  have hnot : s.state ≠ .quiesced := by
    rw [hstate]
    exact fun heq => by cases heq
  have hfresh : ∀ reply ∈ (s.accepted ++ [command]).filterMap submissionReply,
      reply < nextReply := by
    intro reply hmem
    rw [List.filterMap_append] at hmem
    cases List.mem_append.mp hmem with
    | inl hold => exact Nat.lt_of_lt_of_le (hrest.fresh reply hold) hnext
    | inr hnew =>
      obtain ⟨other, hother, hsome⟩ := List.mem_filterMap.mp hnew
      rw [List.mem_singleton.mp hother] at hsome
      exact (hreply reply hsome).2
  refine ⟨done, waiting, ⟨htape.log, htape.writes, htape.offset, htape.start, htape.written⟩,
    ?_, ?_, ?_, ?_, ?_, hfresh, ?_, fun hquiesced => absurd hquiesced hnot, ?_, hrest.since⟩
  · show _ <+: (s.accepted ++ [command]).flatMap chunksOf
    rw [List.flatMap_append]
    exact hrest.ordered.trans (List.prefix_append _ _)
  · intro hpc
    obtain ⟨handled, haccepted, hlog⟩ := hrest.live hpc
    refine ⟨handled, ?_, hlog⟩
    show s.accepted ++ [command] = handled ++ (s.dataQueue ++ [command])
    rw [haccepted, List.append_assoc]
  · intro hpc
    have hnone : NoBoundary [] := fun _ hmem => (by cases hmem)
    have hactive := (hrest.active hpc).extend [command] hnone
    rw [List.append_nil] at hactive
    exact hactive
  · show _ ++ _ ++ (s.dataQueue ++ [command]).filterMap submissionReply
      = (s.accepted ++ [command]).filterMap submissionReply
    rw [List.filterMap_append, List.filterMap_append, ← hrest.answered, ← List.append_assoc]
  · show ((s.accepted ++ [command]).filterMap submissionReply).Nodup
    rw [List.filterMap_append]
    refine List.nodup_append.mpr ⟨hrest.once, ?_, ?_⟩
    · cases hcommand : submissionReply command with
      | none => simp [hcommand]
      | some reply => simp [hcommand]
    · intro old hold new hnew heq
      obtain ⟨other, hother, hsome⟩ := List.mem_filterMap.mp hnew
      rw [List.mem_singleton.mp hother] at hsome
      have hbelow := hrest.fresh old hold
      have habove := (hreply new hsome).1
      omega
  · intro reply hmem
    obtain ⟨text, enter, delay, haccepted, htext, henter⟩ := hrest.succeeded reply hmem
    exact ⟨text, enter, delay, List.mem_append_left _ haccepted, htext, henter⟩
  · intro reads chunks hquiet
    exact absurd (hrest.quiet reads chunks hquiet).1 hnot

/-- While the gate is open, the actor is not in a handoff. -/
theorem Whole.accept {nextReply : Nat} (h : Whole s) (hopen : s.accepting = true)
    (hnext : s.nextReply ≤ nextReply) (hreply : ∀ reply, submissionReply command = some reply →
      s.nextReply ≤ reply ∧ reply < nextReply) : AtPc { s with
      dataQueue := s.dataQueue ++ [command]
      accepted := s.accepted ++ [command]
      nextReply := nextReply } ∧
    Inv { s with
      dataQueue := s.dataQueue ++ [command]
      accepted := s.accepted ++ [command]
      nextReply := nextReply } := by
  refine ⟨?_, h.inv.accept (h.ctl.gate hopen) hnext hreply⟩
  have hnone : handling s.pc = none := by
    by_contra hsome
    have hpositive := begins_pos_of_handling (v := view s) hsome
    have hzero := h.ctl.closed_of_begins hopen
    omega
  have hat := h.atPc
  unfold AtPc at hat ⊢
  dsimp only
  cases hpc : s.pc with
  | flush flusher =>
    cases flusher with
    | handoff handoff =>
      rw [hpc] at hnone
      cases hnone
    | _ => trivial
  | read reader writeReady =>
    rw [hpc] at hat hnone
    cases reader with
    | handoff handoff => cases hnone
    | run => exact hat
  | readTake reader writeReady =>
    rw [hpc] at hnone
    cases reader with
    | handoff handoff => cases hnone
    | run => trivial
  | drainData =>
    rw [hpc] at hat
    exact hat
  | defer reply site =>
    rw [hpc] at hnone
    cases hnone
  | begin reply site =>
    rw [hpc] at hnone
    cases hnone
  | beginControls reply site =>
    rw [hpc] at hnone
    cases hnone
  | beginPoll handoff =>
    rw [hpc] at hnone
    cases hnone
  | _ => trivial

theorem same_sendControl (command : Nat → PtyIoControlCommand) :
    Same s ((sendControl command s).getD s) := by
  unfold sendControl
  split
  · exact ⟨rfl, Nat.le_refl _⟩
  · exact ⟨rfl, Nat.le_succ _⟩

theorem same_rollbackHandoff (cause : Option IoError) (s : State) :
    Same s (rollbackHandoff cause s) := by
  unfold rollbackHandoff sendControl
  split
  next hnone => exact ⟨rfl, Nat.le_refl _⟩
  next sent hsent =>
    split at hsent
    · cases hsent
    · cases hsent
      exact ⟨rfl, Nat.le_succ _⟩

theorem same_beginHandoff (s : State) : Same s (beginHandoff s) := by
  unfold beginHandoff sendControl
  split
  · exact ⟨rfl, Nat.le_refl _⟩
  · split
    next hnone => exact ⟨rfl, Nat.le_refl _⟩
    next sent hsent =>
      split at hsent
      · cases hsent
      · cases hsent
        exact ⟨rfl, Nat.le_succ _⟩

theorem same_receive (h : receive s = some t) : Same s t := by
  unfold receive at h
  split at h
  · obtain ⟨result, _, ht⟩ := Option.map_eq_some_iff.mp h
    cases result with
    | none =>
      cases ht
      exact ⟨rfl, Nat.le_refl _⟩
    | some error =>
      cases ht
      exact same_rollbackHandoff _ s
  · obtain ⟨result, _, ht⟩ := Option.map_eq_some_iff.mp h
    cases result with
    | none =>
      cases ht
      exact ⟨rfl, Nat.le_refl _⟩
    | some error =>
      cases ht
      exact ⟨rfl, Nat.le_refl _⟩
  · obtain ⟨result, _, ht⟩ := Option.map_eq_some_iff.mp h
    cases ht
    exact ⟨rfl, Nat.le_refl _⟩
  · cases h

theorem same_expire (h : expire s = some t) : Same s t := by
  unfold expire at h
  split at h
  · cases h
    exact same_rollbackHandoff _ s
  · cases h
    exact ⟨rfl, Nat.le_refl _⟩
  · cases h
    exact ⟨rfl, Nat.le_refl _⟩
  · cases h

theorem same_reopen (h : reopen s = some t) : Same s t := by
  unfold reopen at h
  split at h
  · cases h
    exact ⟨rfl, Nat.le_refl _⟩
  · cases h

theorem same_writeTerminalResponse (response : Option Bytes) (s : State) :
    Same s (writeTerminalResponse response s) := by
  unfold writeTerminalResponse
  split
  · exact ⟨rfl, Nat.le_refl _⟩
  · split
    · exact ⟨rfl, Nat.le_refl _⟩
    · exact ⟨rfl, Nat.le_refl _⟩

theorem Whole.of_same (h : Whole s) (hsame : Same s t) : AtPc t ∧ Inv t :=
  ⟨h.atPc.of_same hsame, h.inv.of_same hsame⟩

theorem Whole.tryWriteUserInput (bytes : Bytes) (h : Whole s) :
    AtPc (tryWriteUserInput bytes s).2 ∧ Inv (tryWriteUserInput bytes s).2 := by
  unfold Herden.Runtime.Pty.Actor.tryWriteUserInput
  split
  · exact ⟨h.atPc, h.inv⟩
  next hopen =>
    rcases trySend_cases (.writeUserInput bytes) s with ⟨error, hsend⟩ | ⟨_, hsend⟩
    · rw [hsend]
      exact ⟨h.atPc, h.inv⟩
    · rw [hsend]
      exact h.accept (by simpa using hopen) (Nat.le_refl _) fun _ heq => (by cases heq)

theorem Whole.queueUserInputSubmission (text enter : Bytes) (delay : Nat) (h : Whole s) :
    AtPc (queueUserInputSubmission text enter delay s).2 ∧
      Inv (queueUserInputSubmission text enter delay s).2 := by
  unfold Herden.Runtime.Pty.Actor.queueUserInputSubmission
  split
  · exact ⟨h.atPc, h.inv⟩
  next hopen =>
    rcases trySend_cases (.submitUserInput text enter delay s.nextReply) s with
      ⟨error, hsend⟩ | ⟨_, hsend⟩
    · rw [hsend]
      cases error with
      | closed => exact ⟨h.atPc, h.inv⟩
      | full => exact ⟨h.atPc, h.inv⟩
    · rw [hsend]
      refine h.accept (by simpa using hopen) (Nat.le_succ _) ?_
      intro reply heq
      cases heq
      exact ⟨Nat.le_refl _, Nat.lt_succ_self _⟩

/-! ### Every run -/

/-- The actor is not stopped, and no write fails. -/
def Undisturbed (op : Op) : Prop := Unstopped op ∧ ∀ env, op = .act env → Writable env

theorem Whole.next {op : Op} (h : Whole s) (hop : Undisturbed op) (hnext : next s op = some t) :
    Whole t := by
  have hctl := h.ctl.next hop.1 hnext
  suffices hrest : AtPc t ∧ Inv t from ⟨hctl, hrest.1, hrest.2⟩
  unfold Herden.Runtime.Pty.Actor.next at hnext
  split at hnext
  · cases hnext
    exact h.tryWriteUserInput _
  · cases hnext
    exact h.queueUserInputSubmission _ _ _
  · cases hnext
    exact h.of_same (same_writeTerminalResponse _ s)
  · cases hnext
    exact h.of_same ⟨rfl, Nat.le_refl _⟩
  · cases hnext
    exact h.of_same (same_sendControl _)
  · cases hnext
    exact h.of_same (same_sendControl _)
  · unfold whenIdle at hnext
    split at hnext
    · cases hnext
      exact h.of_same (same_beginHandoff s)
    · cases hnext
  · unfold whenIdle at hnext
    split at hnext
    · cases hnext
      exact h.of_same (same_rollbackHandoff none s)
    · cases hnext
  · exact absurd rfl hop.1.1
  · exact absurd rfl hop.1.2
  · exact h.of_same (same_receive hnext)
  · exact h.of_same (same_expire hnext)
  · exact h.of_same (same_reopen hnext)
  next env => exact h.act (hop.2 env rfl) hnext

theorem Whole.spawn (initiallyQuiesced : Bool) : Whole (spawn initiallyQuiesced) :=
  ⟨Ctl.spawn initiallyQuiesced, atPc_of_free rfl, Inv.spawn initiallyQuiesced⟩

theorem input_intact {s : State} (h : Reachable Spawned (fun _ => Undisturbed) step s) :
    Intact s := by
  have hwhole : Whole s := by
    refine h.invariant Whole ?_ ?_
    · rintro _ ⟨initiallyQuiesced, rfl⟩
      exact Whole.spawn initiallyQuiesced
    · intro s op t answer hop hstep hwhole
      obtain ⟨after, hnext, heq⟩ := Option.map_eq_some_iff.mp hstep
      cases heq
      exact hwhole.next hop hnext
  exact hwhole.inv.intact

/-! ### A submission and a handoff -/

/-- The PTY takes one byte at a time. -/
def oneByte (now : Nat) : Env where
  now := now
  write := .wrote 1
  read := .wouldBlock
  poll := .ok ⟨false, false, true⟩
  drainWake := none

def undisturbed : Op → Bool
  | .releaseAfterCommit => false
  | .shutdown => false
  | .act env => env.write = .wrote 1
  | _ => true

theorem undisturbed_of_test {op : Op} (h : undisturbed op = true) : Undisturbed op := by
  refine ⟨⟨?_, ?_⟩, ?_⟩
  · rintro rfl
    cases h
  · rintro rfl
    cases h
  · rintro env rfl
    have hwrite : env.write = .wrote 1 := of_decide_eq_true h
    constructor
    · rw [hwrite]
      exact fun heq => by cases heq
    · intro error
      rw [hwrite]
      exact fun heq => by cases heq

/-- A submission of two bytes and an input after it, and then a handoff. -/
def submissionRun : List Op :=
  [.queueUserInputSubmission [104, 105] [13] 10, .tryWriteUserInput [120], .beginHandoff] ++
    List.replicate 12 (.act (oneByte 20)) ++ List.replicate 12 (.act (oneByte 40))

/-- All of it is written before the actor is quiesced. -/
theorem input_intact_submission : ∃ s : State,
    (s.written = [104, 105, 13, 120] ∧ s.state = .quiesced) ∧ Intact s := by
  have hrun : (runAll (guarded (fun _ op => undisturbed op) step) (spawn false)
      submissionRun).any (fun s => s.written = [104, 105, 13, 120] && s.state = .quiesced)
        = true := by
    decide +kernel
  obtain ⟨s, hsome, hends⟩ := (Option.any_eq_true _ _).mp hrun
  rw [Bool.and_eq_true, decide_eq_true_eq, decide_eq_true_eq] at hends
  exact ⟨s, hends, input_intact
    (Reachable.runAll (fun _ _ => undisturbed_of_test) (.start ⟨false, rfl⟩) hsome)⟩

end Herden.Proofs.Pty.Input
