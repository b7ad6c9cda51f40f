import Herden.Proofs.Surface.Wire

/-!
# `Herden.Proofs.Surface.Connection`: the messages of a connection

A connection carries frames one behind the other, and each is read without looking at what comes
behind it. Whatever messages were written are then read in their order.
-/

namespace Herden.Proofs.Surface

open Herden.Lib.Bincode
open Herden.Runtime.Wire

variable {maxFrameSize : Nat}

/-- So many messages, read one after another. -/
def readMessages (maxFrameSize : Nat) : Nat → Bytes →
    Except FramingError (List ServerMessage) × Bytes
  | 0, input => (.ok [], input)
  | count + 1, input =>
      match readMessage ServerMessage.decode input maxFrameSize with
      | (.error error, rest) => (.error error, rest)
      | (.ok message, rest) =>
          let (messages, rest) := readMessages maxFrameSize count rest
          (messages.map (message :: ·), rest)

/-- The frames of some messages, in their order. -/
def writeMessages (messages : List ServerMessage) : Except FramingError Bytes := do
  return (← messages.mapM fun message => writeMessage message.tokens).flatten

/-- A whole surface is read by a decoder of its own. -/
def isSurface : ServerMessage → Bool
  | .paneSurface _ => true
  | _ => false

theorem reads_message {message : ServerMessage} (h : isSurface message = false) :
    Reads ServerMessage.decode message.tokens message := by
  cases message with
  | paneSurface surface => cases h
  | paneSurfacePatch patch => exact reads_patchMessage patch
  | endpointControl kind data =>
    exact .bind (reads_u32 20) (.bind (reads_string kind) (.of_eq
      (.bind (reads_string data) (.pure (ServerMessage.endpointControl kind data)))
      (List.append_nil _).symm))

/-- What is written to a connection is read from it: the messages, in their order, and nothing of
what comes behind them. -/
theorem readMessages_writeMessages {messages : List ServerMessage} {framed : Bytes}
    (hkinds : ∀ message ∈ messages, isSurface message = false)
    (hsizes : ∀ message ∈ messages, encodedSize message.tokens ≤ maxFrameSize)
    (hwrite : writeMessages messages = .ok framed) (rest : Bytes) :
    readMessages maxFrameSize messages.length (framed ++ rest) = (.ok messages, rest) := by
  unfold writeMessages at hwrite
  induction messages generalizing framed with
  | nil =>
    cases hwrite
    rfl
  | cons message messages ih =>
    rw [List.mapM_cons] at hwrite
    cases hone : writeMessage message.tokens with
    | error error =>
      rw [hone] at hwrite
      cases hwrite
    | ok frame =>
      rw [hone] at hwrite
      cases hmore : messages.mapM fun message => writeMessage message.tokens with
      | error error =>
        rw [hmore] at hwrite
        cases hwrite
      | ok frames =>
        rw [hmore] at hwrite
        cases hwrite
        have hrest := ih (fun other hmem => hkinds other (List.mem_cons_of_mem _ hmem))
          (fun other hmem => hsizes other (List.mem_cons_of_mem _ hmem))
          (show _ = Except.ok frames.flatten by rw [hmore]; rfl)
        have hread := readMessage_writeMessage (reads_message (hkinds _ List.mem_cons_self)) hone
          (hsizes _ List.mem_cons_self) (frames.flatten ++ rest)
        show readMessages maxFrameSize (messages.length + 1) ((frame ++ frames.flatten) ++ rest) = _
        rw [List.append_assoc, readMessages, hread]
        dsimp only
        rw [hrest]
        rfl

/-- A patch of one cell, and a control message behind it. -/
def twoMessages : List ServerMessage :=
  [.paneSurfacePatch ⟨"b", 1, 2, 3, [⟨4, 0, [⟨"x", 7, 0, 0, false, none⟩]⟩], [], none⟩,
    .endpointControl "k" "d"]

theorem readMessages_twoMessages : ∃ framed, writeMessages twoMessages = .ok framed
    ∧ readMessages 64 2 (framed ++ [9]) = (.ok twoMessages, [9]) := by
  have hwritten : (writeMessages twoMessages).isOk = true := by decide +kernel
  cases hwrite : writeMessages twoMessages with
  | error error =>
    rw [hwrite] at hwritten
    cases hwritten
  | ok framed =>
    have hkinds : ∀ message ∈ twoMessages, isSurface message = false := by decide
    have hsizes : ∀ message ∈ twoMessages, encodedSize message.tokens ≤ 64 := by decide +kernel
    exact ⟨framed, rfl, readMessages_writeMessages hkinds hsizes hwrite [9]⟩

end Herden.Proofs.Surface
