import Herden.Lib.Loop
import Herden.Proofs.RawInput
import Herden.Runtime.RawInputWindows

/-!
# `Herden.Proofs.RawInput.Drain`: the loop of the framer ends

Every turn of `drain_available_chunks` that goes on takes a byte from the buffer or gives up one of
the three things that can be pending: a mouse report that timed out, a lone escape that was
flushed, a tail to be discarded. Nothing in the loop makes one of them pending (`Progress`). So the
bytes and the pending things together bound the turns, on Windows as elsewhere, and the bound of
the model is never what ends the loop (`drainAvailableChunks_ends`).
-/

namespace Herden.Proofs.RawInput.Drain

open Herden.Lib
open Herden.Runtime.RawInput
open Herden.Proofs.RawInput

/-! ### Pending states -/

/-- How many recovery states are pending. -/
def pending (framer : RawInputByteFramer) : Nat :=
  framer.timedOutMousePrefix.isSome.toNat + framer.loneEscapeRecentlyFlushed.toNat
    + framer.discardUntil.isSome.toNat

/-- Bytes go at the front, and nothing becomes pending. -/
structure Kept (before after : RawInputByteFramer) : Prop where
  suffix : after.buffer <:+ before.buffer
  pending_le : pending after ≤ pending before

/-- What every turn that goes on does: there is a byte or a pending state less. -/
structure Progress (before after : RawInputByteFramer) : Prop extends Kept before after where
  forward : after.buffer.length < before.buffer.length ∨ pending after < pending before

variable {after before framer : RawInputByteFramer} {chunk : Option Bytes} {keys : KeyParser}
  {now : Nat} {family : ControlStringFamily}

theorem Kept.progress {middle : RawInputByteFramer} (h : Kept before middle)
    (hprogress : Progress middle after) : Progress before after := by
  have hlen := h.suffix.length_le
  have hpending := h.pending_le
  refine ⟨⟨hprogress.suffix.trans h.suffix, hprogress.pending_le.trans hpending⟩, ?_⟩
  have hforward := hprogress.forward
  have hlen' := hprogress.suffix.length_le
  have hpending' := hprogress.pending_le
  omega

/-- A turn that takes bytes and leaves the rest alone. -/
theorem progress_of_drop {len : Nat} (hbuffer : after.buffer = before.buffer.drop len)
    (hpending : pending after ≤ pending before)
    (hlen : 0 < len ∧ len ≤ before.buffer.length ∨ pending after < pending before) :
    Progress before after := by
  refine ⟨⟨hbuffer ▸ List.drop_suffix _ _, hpending⟩, ?_⟩
  rw [hbuffer, List.length_drop]
  omega

/-! ### The turns -/

/-- Noting an event leaves what is pending alone. -/
theorem noteEvent_pending (framer : RawInputByteFramer) (now : Nat) (event : RawInputEvent)
    (buffer : Bytes) :
    pending { framer.noteEvent now event with buffer := buffer } = pending framer := by
  have hactivity : ∀ (noted : RawInputByteFramer) (flag : Bool), pending noted = pending framer →
      pending { (if flag then { noted with hostReplyActivityAt := some now } else noted) with
        heldPendingHostReplyEsc := false } = pending framer := by
    intro noted flag hnoted
    cases flag with
    | true => exact hnoted
    | false => exact hnoted
  refine hactivity _ _ ?_
  split
  · rfl
  · rfl
  · rfl
  · split
    · rfl
    · rfl
  · dsimp only
    split
    · rfl
    · rfl
  · rfl

theorem drainEvent_progress (h : framer.drainEvent keys now = .next after chunk) :
    Progress framer after := by
  unfold RawInputByteFramer.drainEvent at h
  split at h
  next hguard =>
    cases h
    rw [Bool.and_eq_true, List.isPrefixOf_iff_prefix] at hguard
    have hlen : 2 ≤ framer.buffer.length := hguard.1.length_le
    exact progress_of_drop rfl (Nat.le_refl _) (.inl ⟨Nat.one_pos, by omega⟩)
  next =>
    cases hevent : extractOneEvent keys framer.buffer with
    | none =>
      rw [hevent] at h
      cases h
    | some found =>
      rw [hevent] at h
      cases h
      obtain ⟨hbounds, -⟩ := extractOneEvent_spec keys hevent []
      exact progress_of_drop rfl (Nat.le_of_eq (noteEvent_pending framer now found.1 _))
        (.inl hbounds)

/-- A turn that gives up the tail it was looking for. -/
theorem progress_of_discarded (hdiscard : framer.discardUntil = some family) {buffer : Bytes}
    (hbuffer : buffer <:+ framer.buffer) : Progress framer { framer with
      buffer := buffer, discardUntil := none, discardedTailBytes := 0 } := by
  have hpending : pending { framer with
      buffer := buffer, discardUntil := none, discardedTailBytes := 0 } < pending framer := by
    unfold pending
    rw [hdiscard]
    simp
  exact ⟨⟨hbuffer, Nat.le_of_lt hpending⟩, .inr hpending⟩

theorem discardHostReplyCsiTail_suffix (buffer : Bytes) (discarded : Nat) :
    (discardHostReplyCsiTail buffer discarded).1 <:+ buffer := by
  unfold discardHostReplyCsiTail
  dsimp only
  split
  · exact List.drop_suffix _ _
  · exact List.drop_suffix _ _

theorem drainDiscard_progress (hdiscard : framer.discardUntil = some family)
    (h : framer.drainDiscard family = .next after chunk) : Progress framer after := by
  have hdropped : ∀ len, RawInputByteFramer.Turn.next { framer with
      buffer := framer.buffer.drop len, discardUntil := none, discardedTailBytes := 0 } none
        = .next after chunk → Progress framer after := by
    rintro len ⟨⟩
    exact progress_of_discarded hdiscard (List.drop_suffix _ _)
  cases family with
  | osc | stTerminated =>
    unfold RawInputByteFramer.drainDiscard at h
    dsimp only at h
    split at h
    next => cases h
    next => exact hdropped _ h
  | hostReplyCsi =>
    unfold RawInputByteFramer.drainDiscard at h
    dsimp only at h
    split at h
    next buffer discarded htail =>
      have hsuffix := discardHostReplyCsiTail_suffix framer.buffer framer.discardedTailBytes
      rw [htail] at hsuffix
      cases h
      exact progress_of_discarded hdiscard hsuffix
    next => cases h

/-! ### The first part of a turn -/

theorem discardOrphanedTail_drop {buffer rest : Bytes}
    (h : discardCompleteOrphanedSgrMouseTail buffer = some rest) :
    ∃ len, 0 < len ∧ len ≤ buffer.length ∧ rest = buffer.drop len := by
  unfold discardCompleteOrphanedSgrMouseTail at h
  simp only [Option.bind_eq_bind, Option.bind_eq_some_iff] at h
  obtain ⟨terminatorLen, hterminator, h⟩ := h
  split at h
  · cases h
  · obtain ⟨index, hindex, rfl⟩ := Option.map_eq_some_iff.mp hterminator
    obtain ⟨sequence, -, h⟩ := Option.bind_eq_some_iff.mp h
    obtain ⟨mouse, -, h⟩ := Option.bind_eq_some_iff.mp h
    have hlt := (List.findIdx?_eq_some_iff_findIdx_eq.mp hindex).1
    exact ⟨index + 1, Nat.succ_pos _, hlt, (Option.some.inj h).symm⟩

theorem afterTimedOutMouse_kept (h : framer.afterTimedOutMouse = some after) :
    Kept framer after := by
  unfold RawInputByteFramer.afterTimedOutMouse at h
  split at h
  next =>
    cases h
    exact ⟨List.suffix_refl _, Nat.le_refl _⟩
  next start hstart =>
    have hpending : ∀ buffer : Bytes, pending { framer with
        buffer := buffer, timedOutMousePrefix := none } ≤ pending framer := by
      intro buffer
      unfold pending
      rw [hstart]
      simp
    split at h
    · cases h
    · cases h
      exact ⟨List.drop_suffix _ _, hpending _⟩
    · cases h
      exact ⟨List.suffix_refl _, hpending _⟩

/-- Giving up the lone escape leaves no more pending. -/
theorem flushed_pending (framer : RawInputByteFramer) (buffer : Bytes) :
    pending { framer with loneEscapeRecentlyFlushed := false, buffer := buffer }
      ≤ pending framer := by
  unfold pending
  simp

/-- A turn that is over after its first part makes progress, and a framer that goes on with the turn
has lost nothing but bytes and pending states. -/
theorem recover_cases (framer : RawInputByteFramer) :
    (∀ after chunk, framer.recover = .over (.next after chunk) → Progress framer after)
      ∧ ∀ rest, framer.recover = .rest rest → Kept framer rest := by
  unfold RawInputByteFramer.recover
  cases hmouse : framer.afterTimedOutMouse with
  | none => exact ⟨fun _ _ h => (by cases h), fun _ h => (by cases h)⟩
  | some middle =>
    have hkept := afterTimedOutMouse_kept hmouse
    have hrest : Kept framer { middle with loneEscapeRecentlyFlushed := false } :=
      ⟨hkept.suffix, (flushed_pending middle middle.buffer).trans hkept.pending_le⟩
    dsimp only
    split
    · split
      · exact ⟨fun _ _ h => (by cases h), fun _ h => (by cases h)⟩
      · split
        next buffer hdiscarded =>
          refine ⟨fun after chunk h => ?_, fun _ h => (by cases h)⟩
          cases h
          obtain ⟨len, hpos, hle, rfl⟩ := discardOrphanedTail_drop hdiscarded
          exact hkept.progress (progress_of_drop rfl (flushed_pending middle _) (.inl ⟨hpos, hle⟩))
        next =>
          refine ⟨fun _ _ h => (by cases h), fun rest h => ?_⟩
          cases h
          exact hrest
    · refine ⟨fun _ _ h => (by cases h), fun rest h => ?_⟩
      cases h
      exact hrest

/-- The second part of a turn, unless the first is all of it. -/
def finishTurn (keys : KeyParser) (now : Nat) : RawInputByteFramer.Recovery → RawInputByteFramer.Turn
  | .over turn => turn
  | .rest rest =>
      match rest.discardUntil with
      | some family => rest.drainDiscard family
      | none => rest.drainEvent keys now

/-- The turn behind the mouse report that timed out. -/
def turnBehind (keys : KeyParser) (now : Nat) (framer : RawInputByteFramer) :
    Option RawInputByteFramer → RawInputByteFramer.Turn
  | none => .stop framer
  | some middle =>
      if middle.loneEscapeRecentlyFlushed &&
          startsWithIncompleteOrphanedSgrMouseTail middle.buffer then .stop middle
      else
        match middle.loneEscapeRecentlyFlushed,
          discardCompleteOrphanedSgrMouseTail middle.buffer with
        | true, some buffer => .next { middle with
            loneEscapeRecentlyFlushed := false, buffer := buffer } none
        | _, _ => finishTurn keys now (.rest { middle with loneEscapeRecentlyFlushed := false })

/-- The turn of the common loop in its two parts. -/
theorem drainTurn_eq (keys : KeyParser) (now : Nat) (framer : RawInputByteFramer) :
    framer.drainTurn keys now = finishTurn keys now framer.recover := by
  have hmouse : framer.drainTurn keys now = turnBehind keys now framer framer.afterTimedOutMouse :=
    rfl
  rw [hmouse]
  unfold RawInputByteFramer.recover turnBehind
  cases framer.afterTimedOutMouse with
  | none => rfl
  | some middle =>
    dsimp only
    cases hlone : middle.loneEscapeRecentlyFlushed with
    | false => rfl
    | true =>
      cases startsWithIncompleteOrphanedSgrMouseTail middle.buffer with
      | true => rfl
      | false =>
        cases discardCompleteOrphanedSgrMouseTail middle.buffer with
        | some buffer => rfl
        | none => rfl

/-- Every turn that goes on makes progress. -/
theorem drainTurn_progress (h : framer.drainTurn keys now = .next after chunk) :
    Progress framer after := by
  obtain ⟨hover, hrest⟩ := recover_cases framer
  rw [drainTurn_eq] at h
  match hrecover : framer.recover with
  | .over turn =>
    rw [hrecover] at h
    obtain rfl : turn = .next after chunk := h
    exact hover after chunk hrecover
  | .rest rest =>
    rw [hrecover, finishTurn] at h
    refine (hrest rest hrecover).progress ?_
    cases hdiscard : rest.discardUntil with
    | some family =>
      rw [hdiscard] at h
      exact drainDiscard_progress hdiscard h
    | none =>
      rw [hdiscard] at h
      exact drainEvent_progress h

/-! ### The turns on Windows -/

theorem endRecoveryBehind_progress {framer : WindowsFramer}
    (hdiscard : framer.framer.discardUntil = some family) (len : Nat) :
    ∃ after, framer.endRecoveryBehind len = .next after none
      ∧ Progress framer.framer after.framer :=
  ⟨_, rfl, progress_of_discarded hdiscard (List.drop_suffix _ _)⟩

/-- The recovery of a host color reply ends with every turn that goes on. -/
theorem drainHostColorTail_progress {framer after : WindowsFramer}
    (hdiscard : framer.framer.discardUntil = some family) {deadline : Nat}
    (h : framer.drainHostColorTail now deadline = .next after chunk) :
    Progress framer.framer after.framer := by
  have hbehind : ∀ len, framer.endRecoveryBehind len = .next after chunk →
      Progress framer.framer after.framer := by
    intro len hturn
    obtain ⟨other, hother, hprogress⟩ := endRecoveryBehind_progress hdiscard len
    rw [hother] at hturn
    cases hturn
    exact hprogress
  unfold WindowsFramer.drainHostColorTail at h
  dsimp only at h
  split at h
  · exact hbehind _ h
  · split at h
    · exact hbehind _ h
    · split at h
      · exact hbehind _ h
      · split at h
        · exact hbehind _ h
        · split at h
          · cases h
            exact progress_of_discarded hdiscard (List.suffix_refl _)
          · cases h

theorem lift_progress {framer after : WindowsFramer} {turn : RawInputByteFramer.Turn}
    (h : framer.lift turn = .next after chunk)
    (hturn : ∀ next, turn = .next next chunk → Progress before next) :
    Progress before after.framer := by
  cases turn with
  | stop next => cases h
  | next next produced =>
    cases h
    exact hturn next rfl

theorem windows_drainTurn_progress {framer after : WindowsFramer}
    (h : framer.drainTurn keys now = .next after chunk) : Progress framer.framer after.framer := by
  obtain ⟨hover, hrest⟩ := recover_cases framer.framer
  unfold WindowsFramer.drainTurn at h
  match hrecover : framer.framer.recover with
  | .over turn =>
    rw [hrecover] at h
    exact lift_progress h fun next hnext => hover next chunk (by rw [hrecover, hnext])
  | .rest rest =>
    rw [hrecover] at h
    dsimp only at h
    refine (hrest rest hrecover).progress ?_
    split at h
    next family deadline hdiscard _ => exact drainHostColorTail_progress hdiscard h
    next family hdiscard _ =>
      exact lift_progress h fun next hnext => drainDiscard_progress hdiscard hnext
    next => exact lift_progress h fun next hnext => drainEvent_progress hnext

/-! ### The loops -/

/-- Bytes and pending states. -/
def size (framer : RawInputByteFramer) : Nat := framer.buffer.length + pending framer

theorem size_le (framer : RawInputByteFramer) : size framer ≤ framer.buffer.length + 3 := by
  have hmouse := Bool.toNat_le framer.timedOutMousePrefix.isSome
  have hlone := Bool.toNat_le framer.loneEscapeRecentlyFlushed
  have hdiscard := Bool.toNat_le framer.discardUntil.isSome
  unfold size pending
  omega

theorem Progress.size_lt (h : Progress before after) : size after < size before := by
  have hlen := h.suffix.length_le
  have hpending := h.pending_le
  have hforward := h.forward
  unfold size
  omega

/-- A framer with nothing in its buffer and nothing pending. -/
theorem recover_of_size_zero (h : size framer = 0) :
    framer.recover = .rest framer ∧ framer.discardUntil = none ∧ framer.buffer = [] := by
  have hbuffer : framer.buffer = [] := by
    unfold size at h
    exact List.length_eq_zero_iff.mp (by omega)
  have hpending : pending framer = 0 := by
    unfold size at h
    omega
  unfold pending at hpending
  obtain ⟨⟨hmouse, hlone⟩, hdiscard⟩ : (framer.timedOutMousePrefix = none
      ∧ framer.loneEscapeRecentlyFlushed = false) ∧ framer.discardUntil = none := by
    simpa using hpending
  refine ⟨?_, hdiscard, hbuffer⟩
  unfold RawInputByteFramer.recover RawInputByteFramer.afterTimedOutMouse
  rw [hmouse]
  dsimp only
  rw [hlone]
  cases framer
  cases hlone
  rfl

/-- A turn of the common loop. -/
def turn (keys : KeyParser) (now : Nat) (framer : RawInputByteFramer) :
    Loop.Turn RawInputByteFramer Bytes :=
  match framer.drainTurn keys now with
  | .stop after => .stop after
  | .next after chunk => .next after chunk.toList

/-- A turn of the loop on Windows. -/
def windowsTurn (keys : KeyParser) (now : Nat) (framer : WindowsFramer) :
    Loop.Turn WindowsFramer Bytes :=
  match framer.drainTurn keys now with
  | .stop after => .stop after
  | .next after chunk => .next after chunk.toList

section

variable (keys : KeyParser)

theorem turn_size_lt (now : Nat) (framer after : RawInputByteFramer) (chunks : List Bytes)
    (h : turn keys now framer = .next after chunks) : size after < size framer := by
  unfold turn at h
  split at h
  · cases h
  next hturn =>
    cases h
    exact (drainTurn_progress hturn).size_lt

theorem windowsTurn_size_lt (now : Nat) (framer after : WindowsFramer) (chunks : List Bytes)
    (h : windowsTurn keys now framer = .next after chunks) :
    size after.framer < size framer.framer := by
  unfold windowsTurn at h
  split at h
  · cases h
  next hturn =>
    cases h
    exact (windows_drainTurn_progress hturn).size_lt

/-- A framer that has nothing to read and nothing pending stops. -/
theorem drainEvent_of_empty {framer : RawInputByteFramer} (h : framer.buffer = []) (now : Nat) :
    framer.drainEvent keys now = .stop framer := by
  unfold RawInputByteFramer.drainEvent
  rw [h]
  rfl

theorem turn_of_size_zero (now : Nat) (framer : RawInputByteFramer) (h : size framer = 0) :
    turn keys now framer = .stop framer := by
  obtain ⟨hrecover, hdiscard, hbuffer⟩ := recover_of_size_zero h
  unfold turn
  rw [drainTurn_eq, hrecover, finishTurn, hdiscard]
  dsimp only
  rw [drainEvent_of_empty keys hbuffer]

theorem windowsTurn_of_size_zero (now : Nat) (framer : WindowsFramer)
    (h : size framer.framer = 0) : windowsTurn keys now framer = .stop framer := by
  obtain ⟨hrecover, hdiscard, hbuffer⟩ := recover_of_size_zero h
  unfold windowsTurn WindowsFramer.drainTurn
  rw [hrecover]
  dsimp only
  rw [hdiscard]
  dsimp only
  rw [drainEvent_of_empty keys hbuffer]
  rfl

theorem drainLoop_eq_run (now fuel : Nat) (framer : RawInputByteFramer) (chunks : List Bytes) :
    RawInputByteFramer.drainLoop keys now fuel framer chunks
      = Loop.run (turn keys now) fuel framer chunks := by
  induction fuel generalizing framer chunks with
  | zero => rfl
  | succ fuel ih =>
    unfold RawInputByteFramer.drainLoop Loop.run turn
    cases framer.drainTurn keys now with
    | stop after => rfl
    | next after chunk => exact ih after (chunks ++ chunk.toList)

theorem windows_drainLoop_eq_run (now fuel : Nat) (framer : WindowsFramer)
    (chunks : List Bytes) :
    WindowsFramer.drainLoop keys now fuel framer chunks
      = Loop.run (windowsTurn keys now) fuel framer chunks := by
  induction fuel generalizing framer chunks with
  | zero => rfl
  | succ fuel ih =>
    unfold WindowsFramer.drainLoop Loop.run windowsTurn
    cases framer.drainTurn keys now with
    | stop after => rfl
    | next after chunk => exact ih after (chunks ++ chunk.toList)

/-- The loop of `drain_available_chunks`, wherever it starts and whatever the clock says. -/
structure Terminates : Prop where
  progress : ∀ now framer after chunk, framer.drainTurn keys now = .next after chunk →
    Progress framer after
  noInfiniteRun : WellFounded fun after framer => ∃ now chunks,
    turn keys now framer = .next after chunks
  ends : ∀ now (framer : RawInputByteFramer) data, Loop.Ends (turn keys now)
    { framer with buffer := framer.buffer ++ data } []
    (RawInputByteFramer.drainAvailableChunks keys now
      { framer with buffer := framer.buffer ++ data })
  windowsProgress : ∀ now (framer after : WindowsFramer) chunk,
    framer.drainTurn keys now = .next after chunk → Progress framer.framer after.framer
  windowsNoInfiniteRun : WellFounded fun after framer => ∃ now chunks,
    windowsTurn keys now framer = .next after chunks
  windowsEnds : ∀ now (framer : WindowsFramer) data, Loop.Ends (windowsTurn keys now)
    (framer.withBuffer (framer.framer.buffer ++ data)) []
    ((framer.withBuffer (framer.framer.buffer ++ data)).drainAvailableChunks keys now)
  eventLen_pos : ∀ buffer event len, extractOneEvent keys buffer = some (event, len) → 0 < len

/-- In every state of the framer, with every input appended to its buffer, each turn of
`drain_available_chunks` stops, takes bytes or gives up a pending state, no run of turns is
infinite, and what the bounded loop returns is what the loop ends with. No complete event is
empty. -/
theorem drainAvailableChunks_terminates : Terminates keys := by
  refine ⟨fun now framer after chunk => drainTurn_progress,
    Loop.wellFounded size fun now framer after chunks => turn_size_lt keys now framer after chunks,
    fun now framer data => ?_, fun now framer after chunk => windows_drainTurn_progress,
    Loop.wellFounded (fun framer : WindowsFramer => size framer.framer)
      fun now framer after chunks => windowsTurn_size_lt keys now framer after chunks,
    fun now framer data => ?_,
    fun buffer event len h => (extractOneEvent_spec keys h []).1.1⟩
  · unfold RawInputByteFramer.drainAvailableChunks
    rw [drainLoop_eq_run]
    exact Loop.run_ends size (turn_size_lt keys now) (turn_of_size_zero keys now) (size_le _) []
  · unfold WindowsFramer.drainAvailableChunks
    rw [windows_drainLoop_eq_run]
    exact Loop.run_ends (fun framer : WindowsFramer => size framer.framer)
      (windowsTurn_size_lt keys now) (windowsTurn_of_size_zero keys now) (size_le _) []

end

end Herden.Proofs.RawInput.Drain
