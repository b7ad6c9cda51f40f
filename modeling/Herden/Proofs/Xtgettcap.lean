import Herden.Runtime.Xtgettcap
import Mathlib.Data.List.Induction

/-!
# `Herden.Proofs.Xtgettcap`: the tracker of capability queries and its suppressions

The tracker is a machine of `Lib.Skim`, so it does not see where its input is cut. A suppression is
noted at the first byte that ends the terminal's DCS behind a dispatch (`DispatchedAt`,
`FirstUnhook`): the flag says that there is such a dispatch (`pending_iff`), and behind the ESC of a
seven-bit introducer there is none (`Settled`), so no two dispatches share a suppression.
-/

namespace Herden.Proofs.Xtgettcap

open Herden.Lib
open Herden.Runtime.Xtgettcap

/-! ### Cuts -/

/-- The pieces of one byte. -/
def bytewise (bytes : Bytes) : List Bytes := bytes.map fun byte => [byte]

theorem flatten_bytewise (bytes : Bytes) : (bytewise bytes).flatten = bytes := by
  induction bytes with
  | nil => rfl
  | cons byte rest ih => exact congrArg (byte :: ·) ih

/-- A response at its place in the whole input, `start` being the place of the piece. -/
def shifted (start : Nat) (response : C1XtgettcapResponse) : C1XtgettcapResponse :=
  { response with endOffset := response.endOffset + start }

/-- The responses of all pieces, drained after each and put at their places in the whole input. -/
def observeAll (start : Nat) (self : C1XtgettcapQueryTracker) :
    List Bytes → C1XtgettcapQueryTracker × List C1XtgettcapResponse
  | [] => ({ self with pending := [] }, self.pending.map (shifted start))
  | bytes :: rest =>
      let (responses, self) := (self.observe bytes).drainPending
      let (self, later) := observeAll (start + bytes.length) self rest
      (self, responses.map (shifted start) ++ later)

/-- The responses of the results of the machine. -/
def responsesOf (noted : List (Nat × Noted)) : List C1XtgettcapResponse :=
  noted.map fun (index, noted) => noted.at (index + 1)

theorem responsesOf_shifted (start : Nat) (noted : List (Nat × Noted)) :
    responsesOf (noted.map fun result => (result.1 + start, result.2))
      = (responsesOf noted).map (shifted start) := by
  unfold responsesOf
  rw [List.map_map, List.map_map]
  refine List.map_congr_left fun result _ => ?_
  obtain ⟨index, noted⟩ := result
  cases noted with
  | response bytes =>
    show (⟨index + start + 1, bytes, false⟩ : C1XtgettcapResponse)
      = ⟨index + 1 + start, bytes, false⟩
    rw [Nat.add_right_comm]
  | suppressNative =>
    show (⟨index + start + 1, [], true⟩ : C1XtgettcapResponse) = ⟨index + 1 + start, [], true⟩
    rw [Nat.add_right_comm]

theorem observeAll_eq (self : C1XtgettcapQueryTracker) (pieces : List Bytes) (start : Nat) :
    observeAll start self pieces
      = (⟨(Framing.skimmer.feed start self.toFraming pieces).1, []⟩,
        self.pending.map (shifted start)
          ++ responsesOf (Framing.skimmer.feed start self.toFraming pieces).2) := by
  induction pieces generalizing self start with
  | nil =>
    show _ = (_, _ ++ [])
    rw [List.append_nil]
    rfl
  | cons bytes rest ih =>
    unfold observeAll Skimmer.feed C1XtgettcapQueryTracker.observe
      C1XtgettcapQueryTracker.drainPending
    dsimp only
    rw [ih]
    refine Prod.ext rfl ?_
    show (self.pending ++ responsesOf _).map (shifted start) ++ ([] ++ responsesOf _)
      = _ ++ responsesOf (_ ++ _)
    rw [List.map_append, List.nil_append, List.append_assoc, ← responsesOf_shifted]
    unfold responsesOf
    rw [List.map_append]

theorem observeAll_bytewise (self : C1XtgettcapQueryTracker) (pieces : List Bytes) :
    observeAll 0 self pieces = observeAll 0 self (bytewise pieces.flatten) := by
  rw [observeAll_eq, observeAll_eq, Skimmer.feed_eq_run, Skimmer.feed_eq_run, flatten_bytewise]

/-! ### The cap -/

theorem step_body (self : Framing) (byte : UInt8) :
    (self.step byte).1.body.length ≤ Framing.maxBodyBytes := by
  unfold Framing.step
  dsimp only
  split
  next => exact Nat.zero_le _
  next h => exact Nat.le_of_not_lt h

variable {self : Framing} {byte : UInt8} {index place : Nat} {stream bytes : Bytes}

theorem advance_body (h : self.body.length ≤ Framing.maxBodyBytes) (byte : UInt8) :
    (Framing.skimmer.advance self byte).1.body.length ≤ Framing.maxBodyBytes := by
  unfold Skimmer.advance
  split
  next => exact step_body self byte
  next => exact h

theorem after_body (h : self.body.length ≤ Framing.maxBodyBytes) (bytes : Bytes) :
    (Framing.skimmer.after self bytes).body.length ≤ Framing.maxBodyBytes := by
  induction bytes using List.reverseRecOn with
  | nil => exact h
  | append_singleton bytes byte ih =>
    rw [Skimmer.after_snoc]
    exact advance_body ih byte

/-! ### Dispatches -/

def newFraming : Framing := C1XtgettcapQueryTracker.initial.toFraming

/-- What the tracker knows behind some bytes. -/
def reached (bytes : Bytes) : Framing := Framing.skimmer.after newFraming bytes

/-- The byte is a raw ST that ends the body of a request with a seven-bit introducer. -/
def dispatches (self : Framing) (byte : UInt8) : Bool :=
  self.state = .dcsBody && byte = st && !self.rawC1Intro

def DispatchedAt (stream : Bytes) (index : Nat) : Prop :=
  ∃ byte, stream[index]? = some byte ∧ dispatches (reached (stream.take index)) byte = true

/-- No ESC, CAN or SUB among the bytes. -/
def Hooked (bytes : Bytes) : Prop := ∀ byte ∈ bytes, unhooks byte = false

/-- `place` is that of the first ESC, CAN or SUB behind `index`. -/
def FirstUnhook (stream : Bytes) (index place : Nat) : Prop :=
  index < place ∧ (∃ byte, stream[place]? = some byte ∧ unhooks byte = true)
    ∧ Hooked ((stream.take place).drop (index + 1))

/-- Only a dispatch makes one pending. -/
theorem handle_pending (self : Framing) (byte : UInt8) :
    (self.handle byte).1.nativeDcsPending = (self.nativeDcsPending || dispatches self byte) := by
  unfold Framing.handle dispatches
  cases hstate : self.state
  case dcsBody =>
    dsimp only
    split
    next hesc =>
      subst hesc
      simp [esc, st]
    next hesc =>
      split
      next hst => simp [hst, Framing.finalize]
      next hst => simp [hst]
  all_goals
    dsimp only
    simp only [reduceCtorEq, decide_false, Bool.false_and, Bool.or_false]
    repeat' split
    all_goals rfl

/-- What the tracker passes over. -/
theorem passed (h : Framing.skimmer.stopsAt self byte = false) :
    self.state = .ignoreString ∧ (self.nativeDcsPending = true → unhooks byte = false) := by
  have hstops : (if self.state = .ignoreString then
      some fun byte : UInt8 => (byte = esc || byte = st)
        || (self.nativeDcsPending && (byte = can || byte = sub))
    else none).all (· byte) = false := h
  split at hstops
  next hstate =>
    refine ⟨hstate, fun hpending => ?_⟩
    simp only [Option.all_some, hpending, Bool.true_and, Bool.or_eq_false_iff,
      decide_eq_false_iff_not] at hstops
    simp [unhooks, hstops]
  next => cases hstops

theorem step_pending (self : Framing) (byte : UInt8) :
    (self.step byte).1.nativeDcsPending
      = ((self.nativeDcsPending && !unhooks byte) || dispatches self byte) := by
  have hhandle := handle_pending
    { self with nativeDcsPending := self.nativeDcsPending && !self.suppresses byte } byte
  have hflag : (self.nativeDcsPending && !self.suppresses byte)
      = (self.nativeDcsPending && !unhooks byte) := by
    unfold Framing.suppresses
    cases self.nativeDcsPending with
    | true => rfl
    | false => rfl
  unfold Framing.step
  dsimp only
  split
  next =>
    rw [hhandle, hflag]
    rfl
  next =>
    rw [hhandle, hflag]
    rfl

theorem advance_pending (self : Framing) (byte : UInt8) :
    (Framing.skimmer.advance self byte).1.nativeDcsPending
      = ((self.nativeDcsPending && !unhooks byte) || dispatches self byte) := by
  unfold Skimmer.advance
  split
  next => exact step_pending self byte
  next hpassed =>
    obtain ⟨hstate, hflag⟩ := passed (Bool.eq_false_iff.mpr hpassed)
    show self.nativeDcsPending = _
    unfold dispatches
    rw [hstate]
    cases hpending : self.nativeDcsPending with
    | true =>
      rw [hflag hpending]
      rfl
    | false => rfl

theorem handle_suppressions (self : Framing) (byte : UInt8) :
    .suppressNative ∉ (self.handle byte).2 := by
  have hfinalize : Noted.suppressNative ∉ self.finalize.2 := by
    intro hmem
    obtain ⟨_, -, heq⟩ := List.mem_map.mp hmem
    cases heq
  unfold Framing.handle
  cases self.state
  case dcsBody =>
    dsimp only
    split
    next => exact List.not_mem_nil
    next =>
      split
      next => exact hfinalize
      next => exact List.not_mem_nil
  case dcsEscape =>
    dsimp only
    split
    next =>
      split
      next => exact hfinalize
      next => exact List.not_mem_nil
    next => split <;> exact List.not_mem_nil
  all_goals
    dsimp only
    repeat' split
    all_goals exact List.not_mem_nil

/-- A suppression is noted when a dispatch is pending and the byte unhooks it. -/
theorem advance_suppressions (self : Framing) (byte : UInt8) :
    (Framing.skimmer.advance self byte).2.countP (· = .suppressNative)
      = if self.nativeDcsPending && unhooks byte then 1 else 0 := by
  unfold Skimmer.advance
  split
  next =>
    show ((if self.suppresses byte then [Noted.suppressNative] else [])
      ++ (Framing.handle { self with
        nativeDcsPending := self.nativeDcsPending && !self.suppresses byte } byte).2).countP _ = _
    have hnone : (Framing.handle { self with
        nativeDcsPending := self.nativeDcsPending && !self.suppresses byte } byte).2.countP
          (· = .suppressNative) = 0 := by
      rw [List.countP_eq_zero]
      intro noted hmem heq
      rw [of_decide_eq_true heq] at hmem
      exact handle_suppressions _ byte hmem
    rw [List.countP_append, hnone, Nat.add_zero]
    unfold Framing.suppresses
    split
    next => rfl
    next => rfl
  next hpassed =>
    obtain ⟨-, hflag⟩ := passed (Bool.eq_false_iff.mpr hpassed)
    rw [if_neg]
    · rfl
    · intro h
      obtain ⟨hpending, hunhooks⟩ := Bool.and_eq_true_iff.mp h
      rw [hflag hpending] at hunhooks
      cases hunhooks

/-! ### Behind some bytes -/

theorem reached_snoc (bytes : Bytes) (byte : UInt8) :
    reached (bytes ++ [byte]) = (Framing.skimmer.advance (reached bytes) byte).1 :=
  Framing.skimmer.after_snoc newFraming bytes byte

theorem dispatchedAt_lt (h : DispatchedAt stream index) : index < stream.length := by
  obtain ⟨byte, hbyte, -⟩ := h
  exact (List.getElem?_eq_some_iff.mp hbyte).1

/-- A dispatch is a matter of the bytes up to it. -/
theorem dispatchedAt_append {front : Bytes} (behind : Bytes) (h : index < front.length) :
    DispatchedAt (front ++ behind) index ↔ DispatchedAt front index := by
  unfold DispatchedAt
  rw [List.getElem?_append_left h, List.take_append_of_le_length (Nat.le_of_lt h)]

theorem dispatchedAt_length (bytes : Bytes) (byte : UInt8) :
    DispatchedAt (bytes ++ [byte]) bytes.length ↔ dispatches (reached bytes) byte = true := by
  unfold DispatchedAt
  rw [List.getElem?_concat_length, List.take_left]
  constructor
  · rintro ⟨_, heq, h⟩
    cases heq
    exact h
  · exact fun h => ⟨byte, rfl, h⟩

theorem hooked_snoc : Hooked (bytes ++ [byte]) ↔ Hooked bytes ∧ unhooks byte = false := by
  unfold Hooked
  rw [List.forall_mem_append, List.forall_mem_singleton]

/-- The flag says that there is a dispatch that no byte has unhooked. -/
theorem pending_iff (bytes : Bytes) :
    (reached bytes).nativeDcsPending = true
      ↔ ∃ index, DispatchedAt bytes index ∧ Hooked (bytes.drop (index + 1)) := by
  induction bytes using List.reverseRecOn with
  | nil =>
    constructor
    · intro h
      cases h
    · rintro ⟨index, hdispatched, -⟩
      exact absurd (dispatchedAt_lt hdispatched) (Nat.not_lt_zero _)
  | append_singleton bytes byte ih =>
    rw [reached_snoc, advance_pending, Bool.or_eq_true, Bool.and_eq_true, ih, Bool.not_eq_true']
    constructor
    · rintro (⟨⟨index, hdispatched, hhooked⟩, hbyte⟩ | hdispatches)
      · have hlt := dispatchedAt_lt hdispatched
        refine ⟨index, (dispatchedAt_append [byte] hlt).mpr hdispatched, ?_⟩
        rw [List.drop_append_of_le_length hlt]
        exact hooked_snoc.mpr ⟨hhooked, hbyte⟩
      · refine ⟨bytes.length, (dispatchedAt_length bytes byte).mpr hdispatches, ?_⟩
        rw [List.drop_eq_nil_of_le (by simp)]
        exact fun _ hmem => absurd hmem List.not_mem_nil
    · rintro ⟨index, hdispatched, hhooked⟩
      have hlt := dispatchedAt_lt hdispatched
      rw [List.length_append, List.length_singleton] at hlt
      rcases Nat.lt_succ_iff_lt_or_eq.mp hlt with hlt | rfl
      · left
        rw [List.drop_append_of_le_length hlt] at hhooked
        obtain ⟨hhooked, hbyte⟩ := hooked_snoc.mp hhooked
        exact ⟨⟨index, (dispatchedAt_append [byte] hlt).mp hdispatched, hhooked⟩, hbyte⟩
      · right
        exact (dispatchedAt_length bytes byte).mp hdispatched

/-! ### What a state says about the bytes -/

/-- The bytes of an introducer. -/
def introducer (raw : Bool) : Bytes := if raw then [0x90] else [esc, 0x50]

/-- The bytes end with an introducer and some more, and no dispatch is pending behind an ESC. -/
def Begun (bytes : Bytes) (self : Framing) (more : Bytes) : Prop :=
  (∃ front, bytes = front ++ introducer self.rawC1Intro ++ more)
    ∧ (self.rawC1Intro = false → self.nativeDcsPending = false)

def Knows (bytes : Bytes) (self : Framing) : Prop :=
  match self.state with
  | .escape => (∃ front, bytes = front ++ [esc]) ∧ self.nativeDcsPending = false
  | .dcsIntro => Begun bytes self [] ∧ self.body = []
  | .dcsIntroPlus => Begun bytes self [0x2b] ∧ self.body = []
  | .dcsBody => Begun bytes self ([0x2b, 0x71] ++ self.body) ∧ esc ∉ self.body ∧ st ∉ self.body
  | _ => True

/-- The states of which nothing is known. -/
def plain : C1XtgettcapTrackerState → Bool
  | .escape | .dcsIntro | .dcsIntroPlus | .dcsBody => false
  | _ => true

theorem knows_of_plain (h : plain self.state = true) : Knows bytes self := by
  unfold Knows
  split
  case h_5 => trivial
  all_goals
    next hstate =>
      rw [hstate] at h
      cases h

theorem Begun.snoc {more : Bytes} (h : Begun bytes self more) (byte : UInt8) :
    Begun (bytes ++ [byte]) self (more ++ [byte]) := by
  obtain ⟨⟨front, rfl⟩, hpending⟩ := h
  exact ⟨⟨front, by rw [List.append_assoc _ more]⟩, hpending⟩

/-- Unhooking leaves what is known. -/
theorem Knows.unhook (h : Knows bytes self) (kept : Bool) :
    Knows bytes { self with nativeDcsPending := self.nativeDcsPending && kept } := by
  have hflag : self.nativeDcsPending = false → (self.nativeDcsPending && kept) = false := by
    intro hpending
    rw [hpending]
    rfl
  have hbegun : ∀ more, Begun bytes self more →
      Begun bytes { self with nativeDcsPending := self.nativeDcsPending && kept } more :=
    fun more hbegun => ⟨hbegun.1, fun hraw => hflag (hbegun.2 hraw)⟩
  unfold Knows at h ⊢
  dsimp only
  split at h
  next => exact ⟨h.1, hflag h.2⟩
  next => exact ⟨hbegun _ h.1, h.2⟩
  next => exact ⟨hbegun _ h.1, h.2⟩
  next => exact ⟨hbegun _ h.1, h.2⟩
  next => trivial

theorem Knows.handle (h : Knows bytes self) (hesc : byte = esc → self.nativeDcsPending = false) :
    Knows (bytes ++ [byte]) (self.handle byte).1 := by
  unfold Framing.handle
  unfold Knows at h
  cases hstate : self.state <;> rw [hstate] at h <;> dsimp only at h ⊢
  case ground =>
    split
    next hbyte => exact ⟨⟨bytes, by rw [hbyte]⟩, hesc hbyte⟩
    next =>
      split
      next hbyte =>
        refine ⟨⟨⟨bytes, ?_⟩, fun hraw => by cases hraw⟩, rfl⟩
        rw [hbyte, List.append_nil]
        rfl
      next =>
        repeat' split
        all_goals exact knows_of_plain (by first | rfl | rw [hstate]; rfl)
  case escape =>
    obtain ⟨⟨front, rfl⟩, hpending⟩ := h
    split
    next hbyte =>
      refine ⟨⟨⟨front, ?_⟩, fun _ => hpending⟩, rfl⟩
      rw [hbyte, List.append_nil, List.append_assoc]
      rfl
    next =>
      split
      next => exact knows_of_plain rfl
      next =>
        split
        next => exact knows_of_plain rfl
        next =>
          split
          next hbyte => exact ⟨⟨front ++ [esc], by rw [hbyte]⟩, hpending⟩
          next => exact knows_of_plain rfl
  case dcsIntro =>
    split
    next hbyte =>
      rw [hbyte]
      exact ⟨h.1.snoc 0x2b, h.2⟩
    next =>
      repeat' split
      all_goals exact knows_of_plain rfl
  case dcsIntroPlus =>
    obtain ⟨hbegun, hbody⟩ := h
    split
    next hbyte =>
      rw [hbyte]
      refine ⟨?_, ?_, ?_⟩
      · show Begun _ { self with state := .dcsBody } ([0x2b, 0x71] ++ self.body)
        rw [hbody]
        exact hbegun.snoc 0x71
      · show esc ∉ self.body
        rw [hbody]
        exact List.not_mem_nil
      · show st ∉ self.body
        rw [hbody]
        exact List.not_mem_nil
    next =>
      repeat' split
      all_goals exact knows_of_plain rfl
  case dcsBody =>
    obtain ⟨hbegun, hnoEsc, hnoSt⟩ := h
    split
    next => exact knows_of_plain rfl
    next hbyte =>
      split
      next => exact knows_of_plain rfl
      next hbyte' =>
        have hsnoc := hbegun.snoc byte
        rw [List.append_assoc] at hsnoc
        refine ⟨hsnoc, ?_, ?_⟩
        · simp [hnoEsc, Ne.symm hbyte]
        · simp [hnoSt, Ne.symm hbyte']
  all_goals
    repeat' split
    all_goals exact knows_of_plain (by first | rfl | rw [hstate]; rfl)

theorem knows_advance (h : Knows bytes self) (byte : UInt8) :
    Knows (bytes ++ [byte]) (Framing.skimmer.advance self byte).1 := by
  unfold Skimmer.advance
  split
  next =>
    show Knows _ (self.step byte).1
    unfold Framing.step
    dsimp only
    split
    next => exact knows_of_plain rfl
    next =>
      refine (h.unhook _).handle fun hbyte => ?_
      show (self.nativeDcsPending && !self.suppresses byte) = false
      unfold Framing.suppresses
      rw [hbyte]
      cases self.nativeDcsPending with
      | true => rfl
      | false => rfl
  next hpassed =>
    obtain ⟨hstate, -⟩ := passed (Bool.eq_false_iff.mpr hpassed)
    exact knows_of_plain (by rw [hstate]; rfl)

theorem knows_reached (bytes : Bytes) : Knows bytes (reached bytes) := by
  induction bytes using List.reverseRecOn with
  | nil => trivial
  | append_singleton bytes byte ih =>
    rw [reached_snoc]
    exact knows_advance ih byte

/-! ### One suppression for each dispatch -/

theorem dispatchedAt_spec (h : DispatchedAt stream index) :
    (reached (stream.take index)).nativeDcsPending = false
      ∧ ∃ front body, stream.take (index + 1) = front ++ [esc, 0x50, 0x2b, 0x71] ++ body ++ [st]
        ∧ esc ∉ body ∧ st ∉ body := by
  obtain ⟨byte, hbyte, hdispatches⟩ := h
  unfold dispatches at hdispatches
  rw [Bool.and_eq_true, Bool.and_eq_true, decide_eq_true_iff, decide_eq_true_iff,
    Bool.not_eq_true'] at hdispatches
  obtain ⟨⟨hstate, rfl⟩, hraw⟩ := hdispatches
  have hknows := knows_reached (stream.take index)
  unfold Knows at hknows
  rw [hstate] at hknows
  obtain ⟨⟨⟨front, hfront⟩, hpending⟩, hnoEsc, hnoSt⟩ := hknows
  refine ⟨hpending hraw, front, _, ?_, hnoEsc, hnoSt⟩
  rw [List.take_add_one, hbyte, Option.toList_some]
  refine congrArg (· ++ [st]) (hfront.trans ?_)
  rw [hraw]
  simp [introducer]

/-- Between two dispatches there is an ESC. -/
theorem dispatch_unique {other : Nat} (h : DispatchedAt stream index)
    (hother : DispatchedAt stream other) (hfirst : FirstUnhook stream index place)
    (hplace : other < place) : other ≤ index := by
  by_contra hlt
  rw [Nat.not_le] at hlt
  have hbefore : DispatchedAt (stream.take other) index := by
    have hlength : index < (stream.take other).length := by
      rw [List.length_take]
      have hstream := dispatchedAt_lt h
      omega
    have hsplit := dispatchedAt_append (stream.drop other) hlength
    rw [List.take_append_drop] at hsplit
    exact hsplit.mp h
  have hhooked : Hooked ((stream.take other).drop (index + 1)) := by
    intro byte hmem
    refine hfirst.2.2 byte ?_
    have hinitial : stream.take other <+: stream.take place :=
      List.take_prefix_take_left (Nat.le_of_lt hplace)
    exact (hinitial.sublist.drop (index + 1)).subset hmem
  have hpending := (pending_iff _).mpr ⟨index, hbefore, hhooked⟩
  rw [(dispatchedAt_spec hother).1] at hpending
  cases hpending

/-- The responses to a whole input. -/
def responses (pieces : List Bytes) : List C1XtgettcapResponse := (observeAll 0 .initial pieces).2

theorem responses_eq (pieces : List Bytes) :
    responses pieces = responsesOf (Framing.skimmer.run 0 newFraming pieces.flatten).2 := by
  unfold responses
  rw [observeAll_eq, Skimmer.feed_eq_run]
  rfl

/-- A suppression that ends behind this place. -/
def suppressesAt (place : Nat) (response : C1XtgettcapResponse) : Bool :=
  response.suppressNative && response.endOffset = place + 1

/-- How many suppressions a place has. -/
theorem countP_responses (pieces : List Bytes) (place : Nat) :
    (responses pieces).countP (suppressesAt place)
      = match pieces.flatten[place]? with
        | none => 0
        | some byte =>
            if (reached (pieces.flatten.take place)).nativeDcsPending && unhooks byte then 1
            else 0 := by
  have hplaces := Framing.skimmer.filter_run 0 newFraming pieces.flatten place
  rw [Nat.zero_add] at hplaces
  have hfilter : (suppressesAt place ∘ fun result : Nat × Noted => result.2.at (result.1 + 1))
      = fun result => decide (result.2 = .suppressNative) && decide (result.1 = place) := by
    funext result
    obtain ⟨index, noted⟩ := result
    cases noted with
    | response bytes => rfl
    | suppressNative => simp [suppressesAt, Noted.at]
  rw [responses_eq]
  unfold responsesOf
  rw [List.countP_map]
  show List.countP (suppressesAt place ∘ fun result : Nat × Noted => result.2.at (result.1 + 1)) _
    = _
  rw [hfilter, ← List.countP_filter, hplaces]
  cases hbyte : pieces.flatten[place]? with
  | none => rfl
  | some byte =>
    dsimp only
    rw [List.countP_map, ← advance_suppressions]
    rfl

/-- The dispatch that a pending flag stands for, at a byte that unhooks it. -/
theorem firstUnhook_of_pending (hbyte : stream[place]? = some byte) (hunhooks : unhooks byte = true)
    (hpending : (reached (stream.take place)).nativeDcsPending = true) :
    ∃ index, DispatchedAt stream index ∧ FirstUnhook stream index place := by
  obtain ⟨index, hdispatched, hhooked⟩ := (pending_iff _).mp hpending
  have hlt := dispatchedAt_lt hdispatched
  have hsplit := dispatchedAt_append (stream.drop place) hlt
  rw [List.take_append_drop] at hsplit
  rw [List.length_take] at hlt
  exact ⟨index, hsplit.mpr hdispatched, by omega, ⟨byte, hbyte, hunhooks⟩, hhooked⟩

/-- A dispatch is pending up to the first byte that unhooks it. -/
theorem pending_of_firstUnhook (h : DispatchedAt stream index)
    (hfirst : FirstUnhook stream index place) :
    (reached (stream.take place)).nativeDcsPending = true := by
  obtain ⟨hlt, ⟨byte, hbyte, -⟩, hhooked⟩ := hfirst
  have hlength : index < (stream.take place).length := by
    rw [List.length_take]
    have hstream := (List.getElem?_eq_some_iff.mp hbyte).1
    omega
  have hsplit := dispatchedAt_append (stream.drop place) hlength
  rw [List.take_append_drop] at hsplit
  exact (pending_iff _).mpr ⟨index, hsplit.mp h, hhooked⟩

/-- The tracker does not see cuts and keeps its cap, and suppressions and dispatches belong
together: each suppression is that of one dispatch, and each dispatch has one, at the first byte
that unhooks it. -/
theorem tracking_independent_of_cuts :
    (∀ (self : C1XtgettcapQueryTracker) (pieces : List Bytes),
        observeAll 0 self pieces = observeAll 0 self (bytewise pieces.flatten))
      ∧ (∀ (self : C1XtgettcapQueryTracker) (bytes : Bytes),
        self.body.length ≤ Framing.maxBodyBytes →
        (self.observe bytes).body.length ≤ Framing.maxBodyBytes)
      ∧ (∀ (pieces : List Bytes), ∀ response ∈ responses pieces, response.suppressNative = true →
        ∃ place, response.endOffset = place + 1 ∧ ∃ index,
          DispatchedAt pieces.flatten index ∧ FirstUnhook pieces.flatten index place
            ∧ ∀ other, DispatchedAt pieces.flatten other →
              FirstUnhook pieces.flatten other place → other = index)
      ∧ (∀ (pieces : List Bytes) (index place : Nat), DispatchedAt pieces.flatten index →
        FirstUnhook pieces.flatten index place →
        (responses pieces).countP (suppressesAt place) = 1)
      ∧ (∀ (stream : Bytes) (index : Nat), DispatchedAt stream index → ∃ front body,
        stream.take (index + 1) = front ++ [esc, 0x50, 0x2b, 0x71] ++ body ++ [st]
          ∧ esc ∉ body ∧ st ∉ body) := by
  refine ⟨observeAll_bytewise, ?_, ?_, ?_, ?_⟩
  · intro self bytes h
    show (Framing.skimmer.skim self.toFraming bytes).1.body.length ≤ Framing.maxBodyBytes
    rw [Skimmer.skim_eq_run, Skimmer.fst_run]
    exact after_body h bytes
  · intro pieces response hresponse hsuppress
    -- The suppression is counted at its place.
    obtain ⟨place, hplace⟩ : ∃ place, response.endOffset = place + 1 := by
      rw [responses_eq] at hresponse
      obtain ⟨⟨index, noted⟩, -, rfl⟩ := List.mem_map.mp hresponse
      exact ⟨index, by cases noted <;> rfl⟩
    have hpos : 0 < (responses pieces).countP (suppressesAt place) := by
      refine List.countP_pos_iff.mpr ⟨response, hresponse, ?_⟩
      unfold suppressesAt
      rw [hsuppress, hplace, decide_eq_true rfl]
      rfl
    rw [countP_responses] at hpos
    cases hbyte : pieces.flatten[place]? with
    | none =>
      rw [hbyte] at hpos
      exact absurd hpos (Nat.lt_irrefl 0)
    | some byte =>
      rw [hbyte] at hpos
      dsimp only at hpos
      split at hpos
      next hpending =>
        rw [Bool.and_eq_true] at hpending
        obtain ⟨index, hdispatched, hfirst⟩ :=
          firstUnhook_of_pending hbyte hpending.2 hpending.1
        refine ⟨place, hplace, index, hdispatched, hfirst, fun other hother hotherFirst => ?_⟩
        exact Nat.le_antisymm (dispatch_unique hdispatched hother hfirst hotherFirst.1)
          (dispatch_unique hother hdispatched hotherFirst hfirst.1)
      next => exact absurd hpos (Nat.lt_irrefl 0)
  · intro pieces index place hdispatched hfirst
    obtain ⟨byte, hbyte, hunhooks⟩ := hfirst.2.1
    rw [countP_responses, hbyte]
    dsimp only
    rw [pending_of_firstUnhook hdispatched hfirst, hunhooks]
    rfl
  · exact fun stream index hdispatched => (dispatchedAt_spec hdispatched).2

/-- A seven-bit query that a raw ST ends, in three pieces: its reply, and the suppression at the
ESC behind it. -/
theorem tracking_independent_of_cuts_query :
    observeAll 0 .initial [[esc, 0x50, 0x2b], [0x71, 0x35, 0x34, 0x36, 0x33], [st, 0x78, esc]]
        = (⟨⟨.escape, false, false, []⟩, []⟩,
          [⟨9, esc :: ascii "P1+r5463" ++ [esc, backslash], false⟩, ⟨11, [], true⟩])
      ∧ (C1XtgettcapQueryTracker.initial.observe [esc, 0x50, 0x2b, 0x71]).body.length
        ≤ Framing.maxBodyBytes
      ∧ (responses [[esc, 0x50, 0x2b], [0x71, 0x35, 0x34, 0x36, 0x33], [st, 0x78, esc]]).countP
        (suppressesAt 10) = 1 := by
  obtain ⟨hcuts, hcap, -, hsuppressed, -⟩ := tracking_independent_of_cuts
  refine ⟨?_, hcap _ _ (Nat.zero_le _), hsuppressed _ 8 10 ⟨st, rfl, by decide +kernel⟩
    ⟨by decide, ⟨esc, rfl, rfl⟩, by simp [Hooked, unhooks, esc, can, sub]⟩⟩
  rw [hcuts]
  decide +kernel

end Herden.Proofs.Xtgettcap
