import Herden.Runtime.Client.DirectGraphics
import Mathlib.Tactic.Common

/-!
# `Herden.Proofs.Client.DirectGraphics`: the filter takes out replies and nothing else

`drain_none`, `drain_open` and `drain_command` say what a turn of the loop of `push` does, for the
three kinds of `pending` that `input_cases` tells apart. From them, whatever the matcher does and
whoever changes it, every byte is passed on, is still held or is part of a reply that was taken
out, in the order of the input (`run_conserves`).

Where the input was cut does not matter as long as only the filter changes the matcher and no body
is too long. `filtered` is what the filter makes of the whole input at once: it looks for the first
command, asks about it, and goes on behind it. `Accounts` relates a part of a run to it, and
`drain_accounts` and `step_accounts` carry it over the turns and the calls. They need a matcher
that answers as `filtered` asks (`Follows`): the matcher of the source when nothing becomes late
(`alone_follows`), and one that is armed again after each reply (`rearmed_follows`).

A body may be so long that its command is never taken, while one read more or less decides whether
its end is still held with it. Then at most four bytes are left, and they begin no command
(`free_rest`), so the result is the same.
-/

namespace Herden.Proofs.Client.DirectGraphics

open Herden.Lib
open Herden.Runtime.Client.DirectGraphics
open Herden.Runtime.Client.DirectGraphics.InputFilter (drain keep chunk deliver)

/-! ### Commands -/

/-- `ESC _ G … ESC \`, up to the first `ESC \`. -/
def IsCommand (command : Bytes) : Prop :=
  ∃ body, command = kittyPrefix ++ (body ++ kittySuffix)
    ∧ Free kittySuffix body (kittySuffix ++ [])

/-- The first command of the input, what is before it and what is behind it. -/
def splitCommand (input : Bytes) : Option (Bytes × Bytes × Bytes) := do
  let start ← firstIndex kittyPrefix input
  let stop ← firstIndex kittySuffix (input.drop start)
  some (input.take start, (input.drop start).take (stop + 2), (input.drop start).drop (stop + 2))

/-- No suffix starts in a prefix. -/
theorem free_kittyPrefix (tail : Bytes) : Free kittySuffix kittyPrefix tail := by
  unfold kittyPrefix kittySuffix
  refine free_cons.mpr ⟨?_, free_cons.mpr ⟨?_, free_cons.mpr ⟨?_, Free.nil⟩⟩⟩ <;>
    simp [List.cons_prefix_cons]

theorem firstIndex_behind_prefix (tail : Bytes) :
    firstIndex kittySuffix (kittyPrefix ++ tail)
      = (firstIndex kittySuffix tail).map (· + 3) :=
  firstIndex_append_of_free (free_kittyPrefix tail)

variable {command before rest input : Bytes} {matcher : ResponseMatcher} {clock : Stream' Instant}

theorem IsCommand.five_le (h : IsCommand command) : 5 ≤ command.length := by
  obtain ⟨body, rfl, -⟩ := h
  simp only [kittyPrefix, kittySuffix, List.length_append, List.length_cons, List.length_nil]
  omega

/-- Where a command begins its prefix is found. -/
theorem IsCommand.start (h : IsCommand command)
    (hbefore : Free kittyPrefix before (command ++ rest)) :
    firstIndex kittyPrefix (before ++ (command ++ rest)) = some before.length := by
  obtain ⟨body, rfl, -⟩ := h
  rw [List.append_assoc] at hbefore ⊢
  exact firstIndex_of_free (by decide) hbefore

/-- Where a command ends its suffix is found. -/
theorem IsCommand.stop {command : Bytes} (h : IsCommand command) (rest : Bytes) :
    ∃ stop, firstIndex kittySuffix (command ++ rest) = some stop
      ∧ stop + 2 = command.length := by
  obtain ⟨body, rfl, hbody⟩ := h
  refine ⟨body.length + 3, ?_, ?_⟩
  · rw [List.append_assoc, List.append_assoc, firstIndex_behind_prefix,
      firstIndex_of_free (by decide) (hbody.swap rest)]
    rfl
  · simp only [kittyPrefix, kittySuffix, List.length_append, List.length_cons, List.length_nil]
    omega

/-- What input can look like: no command begins, the first one is not complete, or it is. -/
theorem input_cases (input : Bytes) :
    firstIndex kittyPrefix input = none
      ∨ (∃ before tail, input = before ++ (kittyPrefix ++ tail)
        ∧ Free kittyPrefix before (kittyPrefix ++ tail) ∧ firstIndex kittySuffix tail = none)
      ∨ ∃ before command rest, input = before ++ (command ++ rest) ∧ IsCommand command
        ∧ Free kittyPrefix before (command ++ rest) := by
  cases hstart : firstIndex kittyPrefix input with
  | none => exact Or.inl rfl
  | some start =>
    obtain ⟨before, tail, hinput, -, hbefore⟩ := firstIndex_spec hstart
    cases hstop : firstIndex kittySuffix tail with
    | none => exact Or.inr (Or.inl ⟨before, tail, hinput, hbefore, hstop⟩)
    | some stop =>
      obtain ⟨body, rest, rfl, -, hbody⟩ := firstIndex_spec hstop
      refine Or.inr (Or.inr ⟨before, kittyPrefix ++ (body ++ kittySuffix), rest, ?_, ?_, ?_⟩)
      · rw [hinput, List.append_assoc, List.append_assoc]
      · exact ⟨body, rfl, hbody.swap []⟩
      · rw [List.append_assoc, List.append_assoc]
        exact hbefore

theorem splitCommand_command (h : IsCommand command)
    (hbefore : Free kittyPrefix before (command ++ rest)) :
    splitCommand (before ++ (command ++ rest)) = some (before, command, rest) := by
  obtain ⟨stop, hstop, hlength⟩ := h.stop rest
  unfold splitCommand
  rw [h.start hbefore]
  simp only [Option.bind_eq_bind, Option.bind_some, List.drop_left, List.take_left, hstop, hlength]

theorem splitCommand_none (h : firstIndex kittyPrefix input = none) :
    splitCommand input = none := by
  unfold splitCommand
  rw [h]
  rfl

theorem splitCommand_open {tail : Bytes} (hbefore : Free kittyPrefix before (kittyPrefix ++ tail))
    (hopen : firstIndex kittySuffix tail = none) :
    splitCommand (before ++ (kittyPrefix ++ tail)) = none := by
  unfold splitCommand
  rw [firstIndex_of_free (by decide) hbefore]
  simp only [Option.bind_eq_bind, Option.bind_some, List.drop_left, firstIndex_behind_prefix, hopen,
    Option.map_none, Option.bind_none]

theorem splitCommand_spec (h : splitCommand input = some (before, command, rest)) :
    input = before ++ (command ++ rest) ∧ IsCommand command
      ∧ Free kittyPrefix before (command ++ rest) := by
  rcases input_cases input with
    hnone | ⟨_, _, rfl, hbefore, hopen⟩ | ⟨_, _, _, rfl, hcommand, hbefore⟩
  · rw [splitCommand_none hnone] at h
    cases h
  · rw [splitCommand_open hbefore hopen] at h
    cases h
  · rw [splitCommand_command hcommand hbefore] at h
    cases h
    exact ⟨rfl, hcommand, hbefore⟩

theorem splitCommand_short (h : input.length < 5) : splitCommand input = none := by
  cases hsplit : splitCommand input with
  | none => rfl
  | some parts =>
    obtain ⟨before, command, rest⟩ := parts
    obtain ⟨rfl, hcommand, -⟩ := splitCommand_spec hsplit
    have hfive := hcommand.five_le
    rw [List.length_append, List.length_append] at h
    omega

/-- What comes before the place where a command may begin makes no difference. -/
theorem splitCommand_append (hbefore : Free kittyPrefix before input) :
    splitCommand (before ++ input)
      = (splitCommand input).map
        fun (first, command, rest) => (before ++ first, command, rest) := by
  unfold splitCommand
  rw [firstIndex_append_of_free hbefore]
  cases firstIndex kittyPrefix input with
  | none => rfl
  | some start =>
    have hdrop : (before ++ input).drop (start + before.length) = input.drop start := by
      rw [Nat.add_comm, ← List.drop_drop, List.drop_left]
    have htake : (before ++ input).take (start + before.length) = before ++ input.take start := by
      rw [Nat.add_comm, List.take_length_add_append]
    simp only [Option.map_some, Option.bind_eq_bind, Option.bind_some, hdrop, htake]
    cases firstIndex kittySuffix (input.drop start) with
    | none => rfl
    | some stop => rfl

/-! ### A turn of the loop -/

section

variable {σ : Type} (matcher : Matcher σ)

theorem drain_none {pending : Bytes} (h : firstIndex kittyPrefix pending = none) (turns : Nat)
    (state : σ) :
    drain matcher (turns + 1) pending state
      = (chunk (pending.take (pending.length - keep pending)),
        pending.drop (pending.length - keep pending), state) := by
  unfold drain
  rw [h]

variable {before : Bytes}

theorem drain_open {tail : Bytes} (hbefore : Free kittyPrefix before (kittyPrefix ++ tail))
    (hopen : firstIndex kittySuffix tail = none) (turns : Nat) (state : σ) :
    drain matcher (turns + 1) (before ++ (kittyPrefix ++ tail)) state
      = if maxResponseBytes < (kittyPrefix ++ tail).length then
          (chunk before ++ [.output (kittyPrefix ++ tail)], [], state)
        else (chunk before, kittyPrefix ++ tail, state) := by
  unfold drain
  rw [firstIndex_of_free (by decide) hbefore]
  simp only [List.drop_left, List.take_left, firstIndex_behind_prefix, hopen, Option.map_none]

theorem drain_command {command rest : Bytes} (h : IsCommand command)
    (hbefore : Free kittyPrefix before (command ++ rest)) (turns : Nat) (state : σ) :
    drain matcher (turns + 1) (before ++ (command ++ rest)) state
      = let taken := matcher.consume state command
        let later := drain matcher turns rest taken.2
        (chunk before ++ deliver command taken.1 :: later.1, later.2.1, later.2.2) := by
  obtain ⟨stop, hstop, hlength⟩ := h.stop rest
  conv_lhs => unfold drain
  rw [h.start hbefore]
  simp only [List.drop_left, List.take_left, hstop, hlength]

end

/-- What is kept may begin a command, and nothing else can. -/
theorem keep_spec {pending : Bytes} (h : firstIndex kittyPrefix pending = none) (more : Bytes) :
    Free kittyPrefix (pending.take (pending.length - keep pending))
        (pending.drop (pending.length - keep pending) ++ more)
      ∧ (pending.drop (pending.length - keep pending)).length ≤ 2 := by
  have hkeep : keep pending ≤ 2 ∧ (kittyPrefix.take 2 <:+ pending → 2 ≤ keep pending)
      ∧ (kittyPrefix.take 1 <:+ pending → 1 ≤ keep pending) := by
    unfold keep
    simp only [List.find?_cons, ← List.isSuffixOf_iff_suffix]
    cases (kittyPrefix.take 2).isSuffixOf pending <;>
      cases (kittyPrefix.take 1).isSuffixOf pending <;> simp
  obtain ⟨hbound, htwo, hone⟩ := hkeep
  have hlength : (pending.drop (pending.length - keep pending)).length ≤ 2 := by
    rw [List.length_drop]
    omega
  refine ⟨fun front back hsplit hback hoccurs => ?_, hlength⟩
  -- What an occurrence would begin with, up to the end of `pending`.
  have hend : pending = front ++ (back ++ pending.drop (pending.length - keep pending)) := by
    rw [← List.append_assoc, ← hsplit, List.take_append_drop]
  have hsize := congrArg List.length hend
  rw [List.length_append, List.length_append] at hsize
  have hdrop : (pending.drop (pending.length - keep pending)).length
      = pending.length - (pending.length - keep pending) := List.length_drop
  have hnonempty := List.length_pos_iff.mpr hback
  generalize hkept : pending.drop (pending.length - keep pending) = kept at *
  rw [← List.append_assoc] at hoccurs
  have hthree : kittyPrefix.length = 3 := rfl
  have hwhole := @List.length_append _ back kept
  by_cases hfits : kittyPrefix.length ≤ (back ++ kept).length
  · have hinside := List.prefix_of_prefix_length_le hoccurs (List.prefix_append _ more) hfits
    have hne : back ++ kept ≠ [] := fun hnil => hback (List.append_eq_nil_iff.mp hnil).1
    refine free_of_firstIndex_eq_none h front (back ++ kept) hend hne ?_
    rwa [List.append_nil]
  · have hbegins := List.prefix_of_prefix_length_le (List.prefix_append (back ++ kept) more)
      hoccurs (by omega)
    have htake : kittyPrefix.take (back ++ kept).length <:+ pending := by
      rw [← List.prefix_iff_eq_take.mp hbegins]
      exact ⟨front, hend.symm⟩
    have hsizes : (back ++ kept).length = 1 ∨ (back ++ kept).length = 2 := by omega
    rcases hsizes with hsizeOne | hsizeTwo
    · rw [hsizeOne] at htake
      have := hone htake
      omega
    · rw [hsizeTwo] at htake
      have := htwo htake
      omega

/-! ### Nothing is lost -/

/-- What is handed on, with the replies in their places. -/
def whole (deliveries : List Delivery) : Bytes :=
  deliveries.flatMap fun
    | .output chunk => chunk
    | .reply command _ => command

@[simp] theorem whole_append (deliveries later : List Delivery) :
    whole (deliveries ++ later) = whole deliveries ++ whole later :=
  List.flatMap_append

@[simp] theorem whole_chunk (bytes : Bytes) : whole (chunk bytes) = bytes := by
  unfold chunk
  split
  next => exact List.append_nil bytes
  next hempty => exact (List.length_eq_zero_iff.mp (Nat.eq_zero_of_not_pos hempty)).symm

@[simp] theorem whole_output (bytes : Bytes) (later : List Delivery) :
    whole (.output bytes :: later) = bytes ++ whole later := rfl

@[simp] theorem whole_nil : whole [] = [] := rfl

@[simp] theorem whole_deliver (command : Bytes) (answer : Option (Option Response))
    (later : List Delivery) : whole (deliver command answer :: later) = command ++ whole later := by
  cases answer <;> rfl

section

variable {σ : Type} (matcher : Matcher σ)

/-- Everything is handed on or held, and a reply is a command that the matcher took. -/
def Conserves (input : Bytes) (deliveries : List Delivery) (pending : Bytes) : Prop :=
  whole deliveries ++ pending = input
    ∧ ∀ command response, .reply command response ∈ deliveries →
      IsCommand command ∧ ∃ state, (matcher.consume state command).1 = some response

variable {matcher}

theorem Conserves.trans {input more middle pending : Bytes} {deliveries later : List Delivery}
    (h : Conserves matcher input deliveries middle)
    (hlater : Conserves matcher (middle ++ more) later pending) :
    Conserves matcher (input ++ more) (deliveries ++ later) pending := by
  obtain ⟨hwhole, hreplies⟩ := h
  obtain ⟨hwhole', hreplies'⟩ := hlater
  constructor
  · rw [whole_append, List.append_assoc, hwhole', ← List.append_assoc, hwhole]
  · intro command response hmem
    rcases List.mem_append.mp hmem with hmem | hmem
    · exact hreplies command response hmem
    · exact hreplies' command response hmem

theorem no_reply_in_chunk {bytes command : Bytes} {response : Option Response} :
    Delivery.reply command response ∉ chunk bytes := by
  unfold chunk
  split <;> simp

theorem conserves_chunk (bytes pending : Bytes) :
    Conserves matcher (bytes ++ pending) (chunk bytes) pending := by
  constructor
  · rw [whole_chunk]
  · intro command response hmem
    exact absurd hmem no_reply_in_chunk

theorem conserves_output (bytes : Bytes) : Conserves matcher bytes [.output bytes] [] := by
  constructor
  · simp
  · intro command response hmem
    cases List.mem_singleton.mp hmem

theorem drain_conserves (turns : Nat) (pending : Bytes) (state : σ) :
    Conserves matcher pending (drain matcher turns pending state).1
      (drain matcher turns pending state).2.1 := by
  induction turns generalizing pending state with
  | zero => exact ⟨rfl, fun _ _ hmem => nomatch hmem⟩
  | succ turns ih =>
    rcases input_cases pending with
      hnone | ⟨before, tail, rfl, hbefore, hopen⟩ | ⟨before, command, rest, rfl, hcommand, hbefore⟩
    · rw [drain_none matcher hnone]
      have h := @conserves_chunk _ matcher
        (pending.take (pending.length - keep pending))
        (pending.drop (pending.length - keep pending))
      rwa [List.take_append_drop] at h
    · rw [drain_open matcher hbefore hopen]
      have h := @conserves_chunk _ matcher before (kittyPrefix ++ tail)
      split
      next =>
        have hflush := @Conserves.trans _ matcher _ [] _ _ _ _ h (by
          rw [List.append_nil]
          exact conserves_output (kittyPrefix ++ tail))
        rwa [List.append_nil] at hflush
      next => exact h
    · rw [drain_command matcher hcommand hbefore]
      obtain ⟨hwhole, hreplies⟩ := ih rest (matcher.consume state command).2
      constructor
      · simp only [whole_append, whole_chunk, whole_deliver, List.append_assoc, hwhole]
      · intro other response hmem
        rcases List.mem_append.mp hmem with hmem | hmem
        · exact absurd hmem no_reply_in_chunk
        rcases List.mem_cons.mp hmem with hthis | hlater
        · cases hanswer : (matcher.consume state command).1 with
          | none =>
            rw [hanswer] at hthis
            cases hthis
          | some taken =>
            rw [hanswer] at hthis
            cases hthis
            exact ⟨hcommand, state, hanswer⟩
        · exact hreplies other response hlater

theorem step_conserves (filter : InputFilter) (state : σ) (op : Op σ) :
    Conserves matcher (filter.pending ++ op.input) (op.step matcher filter state).1
      (op.step matcher filter state).2.1.pending := by
  cases op with
  | push bytes =>
    simp only [Op.step, InputFilter.push, Op.input]
    split
    next => exact drain_conserves _ _ _
    next => exact conserves_output _
  | flushIfInactive =>
    simp only [Op.step, InputFilter.flushIfInactive, Op.input, List.append_nil]
    split
    next =>
      split
      next => exact ⟨rfl, fun _ _ hmem => nomatch hmem⟩
      next => exact conserves_output _
    next => exact ⟨rfl, fun _ _ hmem => nomatch hmem⟩
  | change state =>
    exact ⟨(List.append_nil _).symm, fun _ _ hmem => nomatch hmem⟩

/-- In every run everything is handed on or held. -/
theorem run_conserves (ops : List (Op σ)) (filter : InputFilter) (state : σ) :
    Conserves matcher (filter.pending ++ ops.flatMap Op.input) (Op.run matcher filter state ops).1
      (Op.run matcher filter state ops).2.1.pending := by
  induction ops generalizing filter state with
  | nil => exact ⟨(List.append_nil _).symm, fun _ _ hmem => nomatch hmem⟩
  | cons op ops ih =>
    have hstep := @step_conserves _ matcher filter state op
    have h := hstep.trans (ih _ (op.step matcher filter state).2.2)
    rwa [List.append_assoc, ← List.flatMap_cons] at h

end

/-! ### The whole input at once -/

section

variable {τ : Type} (answer : τ → Bytes → Option (Option Response) × τ)

/-- The input without the commands that are answered, and these with their responses. -/
def filtered (state : τ) (input : Bytes) : Bytes × List (Bytes × Option Response) :=
  match _h : splitCommand input with
  | none => (input, [])
  | some (before, command, rest) =>
      let taken := answer state command
      let later := filtered taken.2 rest
      match taken.1 with
      | some response => (before ++ later.1, (command, response) :: later.2)
      | none => (before ++ (command ++ later.1), later.2)
termination_by input.length
decreasing_by
  obtain ⟨rfl, hcommand, -⟩ := splitCommand_spec _h
  have := hcommand.five_le
  simp only [List.length_append]
  omega

variable {input : Bytes} {state : τ}

theorem filtered_none (h : splitCommand input = none) (state : τ) :
    filtered answer state input = (input, []) := by
  unfold filtered
  split
  next => rfl
  next hsome =>
    rw [h] at hsome
    cases hsome

variable {before command : Bytes}

theorem filtered_some {rest : Bytes} (h : splitCommand input = some (before, command, rest))
    (state : τ) : filtered answer state input
      = match (answer state command).1 with
        | some response => (before ++ (filtered answer (answer state command).2 rest).1,
            (command, response) :: (filtered answer (answer state command).2 rest).2)
        | none => (before ++ (command ++ (filtered answer (answer state command).2 rest).1),
            (filtered answer (answer state command).2 rest).2) := by
  conv_lhs => unfold filtered
  split
  next hnone =>
    rw [h] at hnone
    cases hnone
  next hsome =>
    rw [h] at hsome
    cases hsome
    rfl

/-- Where a state answers nothing the input stays as it is. -/
theorem filtered_idle (h : ∀ command, answer state command = (none, state)) (input : Bytes) :
    filtered answer state input = (input, []) := by
  induction hsize : input.length using Nat.strongRecOn generalizing input with
  | ind size ih =>
    cases hsplit : splitCommand input with
    | none => exact filtered_none answer hsplit state
    | some parts =>
      obtain ⟨before, command, rest⟩ := parts
      obtain ⟨rfl, hcommand, -⟩ := splitCommand_spec hsplit
      have hfive := hcommand.five_le
      rw [List.length_append, List.length_append] at hsize
      rw [filtered_some answer hsplit, h command]
      dsimp only
      rw [ih rest.length (by omega) rest rfl]

/-- What is passed on of a run. -/
def passed (deliveries : List Delivery) : Bytes := (Delivery.outputs deliveries).flatten

/-- The replies of a run. -/
def replies (deliveries : List Delivery) : List (Bytes × Option Response) :=
  deliveries.filterMap fun
    | .output _ => none
    | .reply command response => some (command, response)

@[simp] theorem passed_append (deliveries later : List Delivery) :
    passed (deliveries ++ later) = passed deliveries ++ passed later := by
  unfold passed Delivery.outputs
  rw [List.filterMap_append, List.flatten_append]

@[simp] theorem replies_append (deliveries later : List Delivery) :
    replies (deliveries ++ later) = replies deliveries ++ replies later :=
  List.filterMap_append

@[simp] theorem passed_nil : passed [] = [] := rfl

@[simp] theorem replies_nil : replies [] = [] := rfl

@[simp] theorem passed_output (bytes : Bytes) : passed [.output bytes] = bytes :=
  List.append_nil bytes

@[simp] theorem replies_output (bytes : Bytes) : replies [.output bytes] = [] := rfl

@[simp] theorem passed_chunk (bytes : Bytes) : passed (chunk bytes) = bytes := by
  unfold chunk
  split
  next => exact passed_output bytes
  next hempty => exact (List.length_eq_zero_iff.mp (Nat.eq_zero_of_not_pos hempty)).symm

@[simp] theorem replies_chunk (bytes : Bytes) : replies (chunk bytes) = [] := by
  unfold chunk
  split <;> rfl

/-- `deliveries` is what the filter makes of `input`, up to what is left of it. -/
def Accounts (state : τ) (input : Bytes) (deliveries : List Delivery) (after : τ)
    (left : Bytes) : Prop :=
  filtered answer state input
    = (passed deliveries ++ (filtered answer after left).1,
      replies deliveries ++ (filtered answer after left).2)

variable {answer}

theorem Accounts.trans {middle after : τ} {between left : Bytes} {deliveries later : List Delivery}
    (h : Accounts answer state input deliveries middle between)
    (hlater : Accounts answer middle between later after left) :
    Accounts answer state input (deliveries ++ later) after left := by
  unfold Accounts at *
  rw [h, hlater, passed_append, replies_append, List.append_assoc, List.append_assoc]

theorem Accounts.refl (state : τ) (input : Bytes) : Accounts answer state input [] state input :=
  rfl

/-- What comes before the place where a command may begin is passed on. -/
theorem accounts_typed (hbefore : Free kittyPrefix before input) (state : τ) :
    Accounts answer state (before ++ input) (chunk before) state input := by
  unfold Accounts
  have happend := splitCommand_append hbefore
  rw [passed_chunk, replies_chunk, List.nil_append]
  cases hsplit : splitCommand input with
  | none =>
    rw [hsplit] at happend
    rw [filtered_none answer happend, filtered_none answer hsplit]
  | some parts =>
    obtain ⟨first, command, rest⟩ := parts
    rw [hsplit] at happend
    rw [filtered_some answer happend, filtered_some answer hsplit]
    cases (answer state command).1 with
    | none => simp only [List.append_assoc]
    | some response => simp only [List.append_assoc]

theorem accounts_command (h : IsCommand command) (rest : Bytes) (state : τ) :
    Accounts answer state (command ++ rest) [deliver command (answer state command).1]
      (answer state command).2 rest := by
  unfold Accounts
  have hsplit := @splitCommand_command command [] rest h Free.nil
  rw [List.nil_append] at hsplit
  rw [filtered_some answer hsplit]
  cases (answer state command).1 with
  | none => simp [deliver]
  | some response => simp [deliver, passed, replies, Delivery.outputs]

theorem accounts_idle (h : ∀ command, answer state command = (none, state)) (input more : Bytes) :
    Accounts answer state (input ++ more) [.output input] state more := by
  unfold Accounts
  rw [filtered_idle answer h, filtered_idle answer h, passed_output, replies_output,
    List.append_nil]

end

/-! ### Where the input is cut -/

/-- What is behind a prefix, up to the first suffix if there is one. -/
def apcBody (tail : Bytes) : Bytes :=
  match firstIndex kittySuffix tail with
  | some stop => tail.take stop
  | none => tail

/-- Every body in the input is within the bound. -/
def Bounded (input : Bytes) : Prop :=
  ∀ before tail, input = before ++ (kittyPrefix ++ tail) →
    (apcBody tail).length ≤ maxResponseBytes

theorem Bounded.behind {before input : Bytes} (h : Bounded (before ++ input)) : Bounded input := by
  intro front tail hinput
  exact h (before ++ front) tail (by rw [hinput, List.append_assoc])

theorem bounded_of_short (h : input.length ≤ maxResponseBytes) : Bounded input := by
  intro before tail hinput
  have hbody : (apcBody tail).length ≤ tail.length := by
    unfold apcBody
    split
    next => exact List.length_take_le' _ _
    next => exact Nat.le_refl _
  have hlength := congrArg List.length hinput
  rw [List.length_append, List.length_append] at hlength
  omega

/-- The rest of a command of which at most four bytes are missing begins no command. -/
theorem free_rest {given : Bytes} (h : IsCommand command) (hsplit : command = given ++ rest)
    (hshort : rest.length ≤ 4) (more : Bytes) : Free kittyPrefix rest more := by
  obtain ⟨body, rfl, -⟩ := h
  obtain ⟨back, rfl⟩ : ∃ back, rest = List.reverse back :=
    ⟨rest.reverse, by rw [List.reverse_reverse]⟩
  -- Seen from the end, the rest begins with the suffix turned round.
  have hreverse := congrArg List.reverse hsplit
  simp only [kittySuffix, List.reverse_append, List.reverse_cons, List.reverse_nil,
    List.nil_append, List.cons_append, List.reverse_reverse] at hreverse
  rw [List.length_reverse] at hshort
  match back, hreverse, hshort with
  | [], _, _ => exact Free.nil
  | [_], hreverse, _ =>
    cases (List.cons.inj hreverse).1
    simp [free_cons, Free.nil, kittyPrefix]
  | [_, _], hreverse, _ =>
    cases (List.cons.inj hreverse).1
    cases (List.cons.inj (List.cons.inj hreverse).2).1
    simp [free_cons, Free.nil, kittyPrefix]
  | [_, _, _], hreverse, _ =>
    cases (List.cons.inj hreverse).1
    cases (List.cons.inj (List.cons.inj hreverse).2).1
    simp [free_cons, Free.nil, kittyPrefix]
  | [_, _, _, _], hreverse, _ =>
    cases (List.cons.inj hreverse).1
    cases (List.cons.inj (List.cons.inj hreverse).2).1
    simp [free_cons, Free.nil, kittyPrefix]
  | _ :: _ :: _ :: _ :: _ :: _, _, hshort =>
    simp only [List.length_cons] at hshort
    omega

section

variable {σ τ : Type}

/-- The matcher does what `answer` does, with states that `related` relates. -/
structure Follows (matcher : Matcher σ) (answer : τ → Bytes → Option (Option Response) × τ)
    (related : σ → τ → Prop) : Prop where
  interested : ∀ {s t}, related s t → related (matcher.interested s).2 t
  idle : ∀ {s t}, related s t → (matcher.interested s).1 = false →
    ∀ command, answer t command = (none, t)
  consume : ∀ {s t} (command : Bytes), related s t →
    (matcher.consume s command).1 = (answer t command).1
      ∧ related (matcher.consume s command).2 (answer t command).2
  long : ∀ t command, maxResponseBytes < command.length → answer t command = (none, t)

variable {matcher : Matcher σ} {answer : τ → Bytes → Option (Option Response) × τ}
  {related : σ → τ → Prop}

variable {more : Bytes} {s : σ} {t : τ}

/-- A command that grew too long before it was complete is passed on, and so is its rest. -/
theorem accounts_flush
    (hlong : ∀ t command, maxResponseBytes < command.length → answer t command = (none, t))
    {tail : Bytes} (hopen : firstIndex kittySuffix tail = none)
    (hsize : maxResponseBytes < (kittyPrefix ++ tail).length)
    (hbounded : Bounded (kittyPrefix ++ tail ++ more)) (state : τ) :
    Accounts answer state (kittyPrefix ++ tail ++ more) [.output (kittyPrefix ++ tail)] state
      more := by
  have hbody := hbounded [] (tail ++ more) (List.append_assoc _ _ _)
  have hthree : kittyPrefix.length = 3 := rfl
  have htwo : kittySuffix.length = 2 := rfl
  rw [List.length_append] at hsize
  unfold apcBody at hbody
  cases hstop : firstIndex kittySuffix (tail ++ more) with
  | none =>
    rw [hstop] at hbody
    dsimp only at hbody
    rw [List.length_append] at hbody
    -- At most two bytes follow, too few for a command.
    have hmore : splitCommand more = none := splitCommand_short (by omega)
    have hwhole := @splitCommand_open [] _ Free.nil hstop
    rw [List.nil_append] at hwhole
    unfold Accounts
    rw [List.append_assoc, filtered_none answer hwhole, filtered_none answer hmore, passed_output,
      replies_output, List.append_assoc]
    rfl
  | some stop =>
    rw [hstop] at hbody
    dsimp only at hbody
    obtain ⟨body, after, hsplit, hlength, hfree⟩ := firstIndex_spec hstop
    rw [hsplit, List.take_left' hlength, hlength] at hbody
    have hcommand : IsCommand (kittyPrefix ++ (body ++ kittySuffix)) :=
      ⟨body, rfl, hfree.swap []⟩
    rw [← List.append_assoc] at hsplit
    rcases List.append_eq_append_iff.mp hsplit with ⟨rest, hgiven, hmore⟩ | ⟨rest, htail, -⟩
    · have hwhole : kittyPrefix ++ (body ++ kittySuffix) = kittyPrefix ++ tail ++ rest := by
        rw [hgiven, List.append_assoc]
      have hsizes := congrArg List.length hgiven
      rw [List.length_append, List.length_append] at hsizes
      have hnone : answer state (kittyPrefix ++ (body ++ kittySuffix)) = (none, state) := by
        apply hlong
        rw [hwhole, List.length_append, List.length_append]
        omega
      have htaken := @accounts_command _ answer _ hcommand after state
      have hrest := @accounts_typed _ answer _ _
        (free_rest hcommand hwhole (by omega) after) state
      unfold Accounts at htaken hrest ⊢
      rw [hnone, hwhole] at htaken
      rw [hmore, ← List.append_assoc, htaken, hrest]
      simp [deliver]
    · rw [htail, List.append_assoc, firstIndex_of_free (by decide) (hfree.swap rest)] at hopen
      cases hopen

theorem drain_accounts (h : Follows matcher answer related) {turns : Nat} {pending : Bytes}
    (hturns : pending.length < turns) (hrelated : related s t)
    (hbounded : Bounded (pending ++ more)) : let result := drain matcher turns pending s
    ∃ t', related result.2.2 t' ∧ splitCommand result.2.1 = none
      ∧ Accounts answer t (pending ++ more) result.1 t' (result.2.1 ++ more) := by
  induction turns generalizing pending s t with
  | zero => exact absurd hturns (Nat.not_lt_zero _)
  | succ turns ih =>
    dsimp only
    rcases input_cases pending with
      hnone | ⟨before, tail, rfl, hbefore, hopen⟩ | ⟨before, command, rest, rfl, hcommand, hbefore⟩
    · rw [drain_none matcher hnone]
      obtain ⟨hfree, hshort⟩ := keep_spec hnone more
      have htyped := @accounts_typed _ answer _ _ hfree t
      rw [← List.append_assoc, List.take_append_drop] at htyped
      exact ⟨t, hrelated, splitCommand_short (Nat.lt_of_le_of_lt hshort (by decide)), htyped⟩
    · rw [drain_open matcher hbefore hopen]
      have htyped := @accounts_typed _ answer _ _ (hbefore.swap (tail ++ more)) t
      rw [← List.append_assoc, ← List.append_assoc, List.append_assoc before] at htyped
      split
      next hlong =>
        rw [List.append_assoc] at hbounded
        exact ⟨t, hrelated, rfl,
          htyped.trans (accounts_flush h.long hopen hlong hbounded.behind t)⟩
      next => exact ⟨t, hrelated, @splitCommand_open [] _ Free.nil hopen, htyped⟩
    · rw [drain_command matcher hcommand hbefore]
      obtain ⟨hanswer, hnext⟩ := h.consume command hrelated
      rw [List.length_append, List.length_append] at hturns
      have hfive := hcommand.five_le
      have hinput : before ++ (command ++ rest) ++ more
          = before ++ (command ++ (rest ++ more)) := by
        rw [List.append_assoc, List.append_assoc]
      rw [hinput] at hbounded ⊢
      obtain ⟨t', hrelated', hleft, hlater⟩ := ih (by omega) hnext hbounded.behind.behind
      refine ⟨t', hrelated', hleft, ?_⟩
      have htyped : Accounts answer t (before ++ (command ++ (rest ++ more))) (chunk before) t
          (command ++ (rest ++ more)) := by
        apply accounts_typed
        obtain ⟨body, rfl, -⟩ := hcommand
        rw [List.append_assoc] at hbefore ⊢
        exact hbefore.swap _
      have htaken := @accounts_command _ answer _ hcommand (rest ++ more) t
      rw [← hanswer] at htaken
      exact htyped.trans (htaken.trans hlater)

variable {filter : InputFilter}

/-- A call that leaves the matcher to the filter. -/
theorem step_accounts (h : Follows matcher answer related) {op : Op σ}
    (hop : ∀ state, op ≠ .change state) (hrelated : related s t)
    (hleft : splitCommand filter.pending = none)
    (hbounded : Bounded (filter.pending ++ op.input ++ more)) :
    let result := op.step matcher filter s
    ∃ t', related result.2.2 t' ∧ splitCommand result.2.1.pending = none
      ∧ Accounts answer t (filter.pending ++ op.input ++ more) result.1 t'
        (result.2.1.pending ++ more) := by
  cases op with
  | push bytes =>
    have hinterested := h.interested hrelated
    simp only [Op.step, InputFilter.push, Op.input]
    split
    next => exact drain_accounts h (Nat.lt_succ_self _) hinterested hbounded
    next hidle =>
      have hnone := h.idle hrelated (Bool.not_eq_true _ ▸ hidle)
      exact ⟨t, hinterested, rfl, accounts_idle hnone _ more⟩
  | flushIfInactive =>
    have hinterested := h.interested hrelated
    simp only [Op.step, InputFilter.flushIfInactive, Op.input, List.append_nil]
    split
    next =>
      split
      next => exact ⟨t, hinterested, hleft, Accounts.refl t _⟩
      next hidle =>
        have hnone := h.idle hrelated (Bool.not_eq_true _ ▸ hidle)
        exact ⟨t, hinterested, rfl, accounts_idle hnone _ more⟩
    next => exact ⟨t, hrelated, hleft, Accounts.refl t _⟩
  | change state => exact absurd rfl (hop state)

/-- Where the input is cut makes no difference. -/
theorem run_accounts (h : Follows matcher answer related) {ops : List (Op σ)}
    (hops : ∀ state, .change state ∉ ops) (hrelated : related s t)
    (hleft : splitCommand filter.pending = none)
    (hbounded : Bounded (filter.pending ++ ops.flatMap Op.input)) :
    let result := Op.run matcher filter s ops
    (passed result.1 ++ result.2.1.pending, replies result.1)
      = filtered answer t (filter.pending ++ ops.flatMap Op.input) := by
  induction ops generalizing filter s t with
  | nil =>
    dsimp only [Op.run]
    rw [List.flatMap_nil, List.append_nil, filtered_none answer hleft]
    rfl
  | cons op ops ih =>
    dsimp only [Op.run]
    rw [List.flatMap_cons, ← List.append_assoc] at hbounded ⊢
    have hop : ∀ state, op ≠ .change state := fun state hchange =>
      hops state (hchange ▸ List.mem_cons_self)
    obtain ⟨t', hrelated', hleft', hstep⟩ := step_accounts h hop hrelated hleft hbounded
    -- What is still held is the end of the input so far, so the bound holds of the rest.
    obtain ⟨hwhole, -⟩ := @step_conserves _ matcher filter s op
    rw [← hwhole, List.append_assoc] at hbounded
    have hrest := ih (fun state hmem => hops state (List.mem_cons_of_mem _ hmem)) hrelated' hleft'
      hbounded.behind
    rw [hstep, ← hrest, passed_append, replies_append, List.append_assoc]

end

/-! ### The matcher -/

theorem answer_long (h : maxResponseBytes < command.length) :
    matcher.answer command = (none, matcher) := by
  unfold ResponseMatcher.answer
  rw [if_pos]
  simp [h]

/-- `answer` does not look at `active`. -/
theorem answer_refreshActive (matcher : ResponseMatcher) (command : Bytes) :
    (matcher.refreshActive.answer command).1 = (matcher.answer command).1
      ∧ (matcher.refreshActive.answer command).2.refreshActive
        = (matcher.answer command).2.refreshActive := by
  obtain ⟨expected, retired, active⟩ := matcher
  simp only [ResponseMatcher.answer, ResponseMatcher.refreshActive]
  split
  next => exact ⟨rfl, rfl⟩
  next =>
    cases List.findIdx? (fun byte => decide (byte = 0x3b))
        (List.drop 3 (List.take (command.length - 2) command)) with
    | none => exact ⟨rfl, rfl⟩
    | some separator =>
      dsimp only
      split
      next => exact ⟨rfl, rfl⟩
      next =>
        cases expected with
        | none => exact ⟨rfl, rfl⟩
        | some transfer =>
          dsimp only
          split
          next => exact ⟨rfl, rfl⟩
          next => exact ⟨rfl, rfl⟩

/-- What can become of a matcher that is asked about a command. -/
theorem answer_cases (matcher : ResponseMatcher) (command : Bytes) :
    (matcher.answer command).2 = matcher
      ∨ (matcher.answer command).2 = { matcher with retired := none }.refreshActive
      ∨ (matcher.answer command).2 = { matcher with expected := none }.refreshActive := by
  unfold ResponseMatcher.answer
  split
  next => exact Or.inl rfl
  next =>
    dsimp only
    split
    next => exact Or.inl rfl
    next =>
      split
      next => exact Or.inr (Or.inl rfl)
      next =>
        split
        next => exact Or.inl rfl
        next =>
          split
          next => exact Or.inl rfl
          next => exact Or.inr (Or.inr rfl)

/-- A matcher that awaits nothing answers nothing. -/
theorem answer_idle (hexpected : matcher.expected = none) (hretired : matcher.retired = none)
    (command : Bytes) : matcher.answer command = (none, matcher) := by
  unfold ResponseMatcher.answer
  rw [hexpected, hretired]
  split
  next => rfl
  next =>
    dsimp only [Option.filter_none]
    split <;> rfl

/-- Nothing that the matcher awaits is ever late. -/
def Quiet (matcher : ResponseMatcher) (clock : Stream' Instant) : Prop :=
  ∀ n, matcher.expectedIsLate (clock n) = false ∧ matcher.retiredIsLate (clock n) = false

theorem Quiet.tail (h : Quiet matcher clock) : Quiet matcher clock.tail :=
  fun n => h (n + 1)

theorem Quiet.answer (h : Quiet matcher clock) (command : Bytes) :
    Quiet (matcher.answer command).2 clock := by
  intro n
  rcases answer_cases matcher command with hsame | hretired | hexpected
  · rw [hsame]
    exact h n
  · rw [hretired]
    exact ⟨(h n).1, rfl⟩
  · rw [hexpected]
    exact ⟨rfl, (h n).2⟩

theorem Quiet.expireAt (h : Quiet matcher clock) :
    matcher.expireAt clock.head = matcher.refreshActive := by
  have hexpected : matcher.expectedIsLate clock.head = false := (h 0).1
  have hretired : matcher.retiredIsLate clock.head = false := (h 0).2
  unfold ResponseMatcher.expireAt
  simp only [hexpected, hretired, Bool.false_eq_true, if_false]

/-- A matcher that is not interested awaits nothing. -/
theorem Quiet.idle (h : Quiet matcher clock) (hidle : (matcher.interested clock.head).1 = false) :
    matcher.expected = none ∧ matcher.retired = none := by
  unfold ResponseMatcher.interested at hidle
  rw [h.expireAt] at hidle
  obtain ⟨hexpected, hretired⟩ := Bool.or_eq_false_iff.mp hidle
  exact ⟨Option.isNone_iff_eq_none.mp (Option.isSome_eq_false_iff.mp hexpected),
    Option.isNone_iff_eq_none.mp (Option.isSome_eq_false_iff.mp hretired)⟩

/-- The matcher of the source, with a clock that makes nothing late. -/
def Alone (state : ResponseMatcher × Stream' Instant) (matcher : ResponseMatcher) : Prop :=
  state.1.refreshActive = matcher.refreshActive ∧ Quiet state.1 state.2

theorem alone_follows : Follows timed ResponseMatcher.answer Alone where
  interested := by
    rintro ⟨matcher, clock⟩ t ⟨hsame, hquiet⟩
    have hnext : (timed.interested (matcher, clock)).2 = (matcher.refreshActive, clock.tail) := by
      simp only [timed, ResponseMatcher.interested, hquiet.expireAt]
    rw [hnext]
    exact ⟨hsame, hquiet.tail⟩
  idle := by
    rintro ⟨matcher, clock⟩ t ⟨hsame, hquiet⟩ hidle command
    obtain ⟨hexpected, hretired⟩ := hquiet.idle hidle
    have hexpected' : matcher.expected = t.expected := congrArg (·.expected) hsame
    have hretired' : matcher.retired = t.retired := congrArg (·.retired) hsame
    exact answer_idle (hexpected' ▸ hexpected) (hretired' ▸ hretired) command
  consume := by
    rintro ⟨matcher, clock⟩ t command ⟨hsame, hquiet⟩
    have hconsume : timed.consume (matcher, clock) command
        = ((matcher.refreshActive.answer command).1, (matcher.refreshActive.answer command).2,
          clock.tail) := by
      simp only [timed, ResponseMatcher.consume, hquiet.expireAt]
    obtain ⟨hanswer, hnext⟩ := answer_refreshActive t command
    rw [hconsume, hsame]
    refine ⟨hanswer, hnext, ?_⟩
    rw [← hsame]
    have hrefreshed : Quiet matcher.refreshActive clock := hquiet
    exact (hrefreshed.answer command).tail
  long := fun _ _ hlong => answer_long hlong

/-- The matcher of the source, armed again as it was after each reply that it takes. -/
def rearmed (matcher : ResponseMatcher) : Matcher (Stream' Instant) where
  interested clock := ((matcher.interested clock.head).1, clock.tail)
  consume clock command := ((matcher.consume clock.head command).1, clock.tail)

/-- What such a matcher answers. -/
def sameAnswer (matcher : ResponseMatcher) (state : Unit) (command : Bytes) :
    Option (Option Response) × Unit :=
  ((matcher.answer command).1, state)

theorem rearmed_follows (matcher : ResponseMatcher) :
    Follows (rearmed matcher) (sameAnswer matcher) fun clock _ => Quiet matcher clock where
  interested := Quiet.tail
  idle := by
    intro clock _ hquiet hidle command
    obtain ⟨hexpected, hretired⟩ := hquiet.idle hidle
    rw [sameAnswer, answer_idle hexpected hretired]
  consume := by
    intro clock _ command hquiet
    refine ⟨?_, hquiet.tail⟩
    dsimp only [rearmed, sameAnswer, ResponseMatcher.consume]
    rw [hquiet.expireAt]
    exact (answer_refreshActive matcher command).1
  long := fun _ _ hlong => by rw [sameAnswer, answer_long hlong]

/-! ### Filtering -/

/-- Whatever the matcher does and whoever changes it, what the filter passes on and still holds is
the input without the complete commands that the matcher took. If only the filter uses the matcher,
or if the matcher is armed again after each reply, nothing that is awaited comes too late and no
body is longer than the bound, then these are the commands that the matcher takes from the whole
input, wherever the input was cut. -/
theorem replies_filtered :
    (∀ (σ : Type) (matcher : Matcher σ) (state : σ) (ops : List (Op σ)),
        let result := Op.run matcher .initial state ops
        Conserves matcher (ops.flatMap Op.input) result.1 result.2.1.pending)
      ∧ (∀ (matcher : ResponseMatcher) (clock : Stream' Instant)
        (ops : List (Op (ResponseMatcher × Stream' Instant))),
        Quiet matcher clock → (∀ state, .change state ∉ ops) → Bounded (ops.flatMap Op.input) →
        let result := Op.run timed .initial (matcher, clock) ops
        (passed result.1 ++ result.2.1.pending, replies result.1)
          = filtered ResponseMatcher.answer matcher (ops.flatMap Op.input))
      ∧ ∀ (matcher : ResponseMatcher) (clock : Stream' Instant)
        (ops : List (Op (Stream' Instant))),
        Quiet matcher clock → (∀ state, .change state ∉ ops) → Bounded (ops.flatMap Op.input) →
        let result := Op.run (rearmed matcher) .initial clock ops
        (passed result.1 ++ result.2.1.pending, replies result.1)
          = filtered (sameAnswer matcher) () (ops.flatMap Op.input) := by
  refine ⟨?_, ?_, ?_⟩
  · intro σ matcher state ops
    exact run_conserves ops .initial state
  · intro matcher clock ops hquiet hops hbounded
    exact run_accounts alone_follows hops ⟨rfl, hquiet⟩ rfl hbounded
  · intro matcher clock ops hquiet hops hbounded
    exact run_accounts (rearmed_follows matcher) hops hquiet rfl hbounded

/-- A reply in two pieces, behind a letter and before what may begin a command. -/
def cutReply : List Bytes :=
  [ascii "a" ++ kittyPrefix ++ ascii "i=49;O", ascii "K" ++ kittySuffix ++ [0x1b]]

/-- A matcher that awaits the reply to image 49. -/
def armed : ResponseMatcher := (ResponseMatcher.initial.arm 0 19 49).2

theorem replies_filtered_cut :
    let result := Op.run timed .initial (armed, Stream'.const 5) (cutReply.map .push)
    result.1 = [.output (ascii "a"), .reply (kittyPrefix ++ ascii "i=49;OK" ++ kittySuffix)
        (some ⟨19, 49, true⟩)]
      ∧ (passed result.1 ++ result.2.1.pending, replies result.1)
        = filtered ResponseMatcher.answer armed cutReply.flatten := by
  refine ⟨by decide +kernel, ?_⟩
  refine replies_filtered.2.1 armed (Stream'.const 5) (cutReply.map .push)
    (fun _ => ⟨rfl, rfl⟩) ?_ (bounded_of_short (by decide +kernel))
  intro state hmem
  obtain ⟨bytes, -, hpush⟩ := List.mem_map.mp hmem
  cases hpush

end Herden.Proofs.Client.DirectGraphics
