import Herden.Lib.Search
import Mathlib.Data.Stream.Defs
import Mathlib.Algebra.Group.Nat.Defs

/-!
# `Herden.Runtime.Client.DirectGraphics`: replies to images among what the user types

Embedding of `ResponseMatcher` and `InputFilter` of `client/direct_graphics.rs`. The filter takes
the replies of the terminal out of the input: APC commands `ESC _ G … ESC \` that the matcher
expects. It asks the matcher only with `interested` and `consume`, so it is written for whatever
answers these two; `timed` is the matcher of the source, which reads the clock at each of them.
-/

namespace Herden.Runtime.Client.DirectGraphics

open Herden.Lib (firstIndex)

abbrev Bytes := List UInt8

/-- Nanoseconds since some start. -/
abbrev Instant := Nat

def ascii (text : String) : Bytes := text.toList.map fun ch => UInt8.ofNat ch.toNat

def maxResponseBytes : Nat := 4096

/-- `ESC _ G`. -/
def kittyPrefix : Bytes := [0x1b, 0x5f, 0x47]

/-- `ESC \`. -/
def kittySuffix : Bytes := [0x1b, 0x5c]

def responseTimeout : Nat := 3 * 10 ^ 9

def lateResponseDrain : Nat := 10 ^ 9

structure Response where
  transferId : UInt64
  imageId : UInt32
  success : Bool
deriving DecidableEq

/-! ### Controls -/

def isAsciiDigit (byte : UInt8) : Bool := 0x30 ≤ byte.toNat && byte.toNat ≤ 0x39

/-- `parse` of a `u32` from digits. -/
def parseU32 (digits : Bytes) : Option UInt32 :=
  let value := digits.foldl (fun value digit => value * 10 + (digit.toNat - 0x30)) 0
  if value < 2 ^ 32 then some (UInt32.ofNat value) else none

/-- The loop of `matching_response_controls`. -/
def matchFields (expected : UInt32) : Bool → List Bytes → Bool
  | matched, [] => matched
  | matched, field :: fields =>
      match field.findIdx? (· = 0x3d) with
      | none => false
      | some separator =>
          let key := field.take separator
          let value := field.drop (separator + 1)
          if value.isEmpty || !value.all isAsciiDigit then false
          else if key = ascii "i" && !matched && parseU32 value = some expected then
            matchFields expected true fields
          else if key = ascii "I" || key = ascii "p" then matchFields expected matched fields
          else false

def matchingResponseControls (bytes : Bytes) (expected : UInt32) : Bool :=
  matchFields expected false (bytes.splitOn 0x2c)

/-! ### The matcher -/

/-- The transfer and the image of the reply that is awaited, with its deadline once the image is
sent, and the image whose reply may still come late. -/
structure ResponseMatcher where
  expected : Option (UInt64 × UInt32 × Option Instant)
  retired : Option (UInt32 × Instant)
  active : Bool

namespace ResponseMatcher

def initial : ResponseMatcher := ⟨none, none, false⟩

def refreshActive (self : ResponseMatcher) : ResponseMatcher :=
  { self with active := self.expected.isSome || self.retired.isSome }

/-- Whether the deadline of the awaited reply has passed. -/
def expectedIsLate (self : ResponseMatcher) (now : Instant) : Bool :=
  match self.expected with
  | some (_, _, some deadline) => deadline ≤ now
  | _ => false

def retiredIsLate (self : ResponseMatcher) (now : Instant) : Bool :=
  match self.retired with
  | some (_, deadline) => deadline ≤ now
  | none => false

def expireAt (self : ResponseMatcher) (now : Instant) : ResponseMatcher :=
  let self :=
    if self.expectedIsLate now then
      { self with
        expected := none
        retired := self.expected.map fun (_, imageId, _) => (imageId, now + lateResponseDrain) }
    else self
  let self := if self.retiredIsLate now then { self with retired := none } else self
  self.refreshActive

def interested (self : ResponseMatcher) (now : Instant) : Bool × ResponseMatcher :=
  let self := self.expireAt now
  (self.expected.isSome || self.retired.isSome, self)

def arm (self : ResponseMatcher) (now : Instant) (transferId : UInt64) (imageId : UInt32) :
    Bool × ResponseMatcher :=
  let self := self.expireAt now
  if self.expected.isSome then (false, self)
  else (true, { self with expected := some (transferId, imageId, none) }.refreshActive)

def startAt (self : ResponseMatcher) (transferId : UInt64) (now : Instant) : ResponseMatcher :=
  match self.expected with
  | some (id, imageId, _) =>
      if id = transferId then
        { self with expected := some (id, imageId, some (now + responseTimeout)) }
      else self
  | none => self

def cancel (self : ResponseMatcher) (transferId : UInt64) : ResponseMatcher :=
  match self.expected with
  | some (id, _, _) =>
      if id = transferId then { self with expected := none }.refreshActive else self
  | none => self

def retire (self : ResponseMatcher) (now : Instant) (transferId : UInt64) : ResponseMatcher :=
  match self.expected with
  | some (id, imageId, _) =>
      if id = transferId then
        { self with
          expected := none
          retired := some (imageId, now + lateResponseDrain) }.refreshActive
      else self
  | none => self

/-- `consume` once everything late is gone. A reply that was not awaited any longer is `some none`.
What is not a reply is `none`. -/
def answer (self : ResponseMatcher) (bytes : Bytes) :
    Option (Option Response) × ResponseMatcher :=
  if !kittyPrefix.isPrefixOf bytes || maxResponseBytes < bytes.length
      || !kittySuffix.isSuffixOf bytes then (none, self)
  else
    let payload := (bytes.take (bytes.length - 2)).drop 3
    match payload.findIdx? (· = 0x3b) with
    | none => (none, self)
    | some separator =>
        let controls := payload.take separator
        match self.retired.filter fun (retiredId, _) =>
          matchingResponseControls controls retiredId with
        | some _ => (some none, { self with retired := none }.refreshActive)
        | none =>
            match self.expected with
            | none => (none, self)
            | some (transferId, imageId, _) =>
                if !matchingResponseControls controls imageId then (none, self)
                else
                  (some (some ⟨transferId, imageId, payload.drop (separator + 1) = ascii "OK"⟩),
                    { self with expected := none }.refreshActive)

def consume (self : ResponseMatcher) (now : Instant) (bytes : Bytes) :
    Option (Option Response) × ResponseMatcher :=
  (self.expireAt now).answer bytes

end ResponseMatcher

/-! ### The filter -/

/-- What the filter asks of a matcher. -/
structure Matcher (σ : Type) where
  interested : σ → Bool × σ
  consume : σ → Bytes → Option (Option Response) × σ

/-- The matcher of the source, with the times that its calls will read. -/
def timed : Matcher (ResponseMatcher × Stream' Instant) where
  interested state :=
    let (isInterested, matcher) := state.1.interested state.2.head
    (isInterested, matcher, state.2.tail)
  consume state bytes :=
    let (answer, matcher) := state.1.consume state.2.head bytes
    (answer, matcher, state.2.tail)

/-- What `push` hands on, in order: chunks of its output, and the replies that it takes out. Of
these it returns the responses. -/
inductive Delivery where
  | output (chunk : Bytes)
  | reply (command : Bytes) (response : Option Response)
deriving DecidableEq

structure InputFilter where
  pending : Bytes

namespace InputFilter

def initial : InputFilter := ⟨[]⟩

variable {σ : Type} (matcher : Matcher σ)

def hasPending (self : InputFilter) : Bool := !self.pending.isEmpty

def flushIfInactive (self : InputFilter) (state : σ) : Option Bytes × InputFilter × σ :=
  if self.hasPending then
    let (isInterested, state) := matcher.interested state
    if isInterested then (none, self, state) else (some self.pending, initial, state)
  else (none, self, state)

/-- How much of the end of the input may begin a command. -/
def keep (pending : Bytes) : Nat :=
  ([2, 1].find? fun len => (kittyPrefix.take len).isSuffixOf pending).getD 0

def chunk (bytes : Bytes) : List Delivery := if 0 < bytes.length then [.output bytes] else []

/-- A command that is no reply is output. -/
def deliver (command : Bytes) : Option (Option Response) → Delivery
  | some response => .reply command response
  | none => .output command

/-- The loop of `push`, with a bound on its turns: each takes a command out of `pending`. -/
def drain : Nat → Bytes → σ → List Delivery × Bytes × σ
  | 0, pending, state => ([], pending, state)
  | turns + 1, pending, state =>
      match firstIndex kittyPrefix pending with
      | none =>
          let emit := pending.length - keep pending
          (chunk (pending.take emit), pending.drop emit, state)
      | some start =>
          let typed := chunk (pending.take start)
          let pending := pending.drop start
          match firstIndex kittySuffix pending with
          | none =>
              if maxResponseBytes < pending.length then (typed ++ [.output pending], [], state)
              else (typed, pending, state)
          | some stop =>
              let command := pending.take (stop + 2)
              let (answer, state) := matcher.consume state command
              let (later, pending, state) := drain turns (pending.drop (stop + 2)) state
              (typed ++ deliver command answer :: later, pending, state)

def push (self : InputFilter) (bytes : Bytes) (state : σ) : List Delivery × InputFilter × σ :=
  let pending := self.pending ++ bytes
  let (isInterested, state) := matcher.interested state
  if isInterested then
    let (deliveries, pending, state) := drain matcher (pending.length + 1) pending state
    (deliveries, ⟨pending⟩, state)
  else ([.output pending], initial, state)

end InputFilter

namespace Delivery

/-- The output of `push`. -/
def outputs (deliveries : List Delivery) : List Bytes :=
  deliveries.filterMap fun
    | .output chunk => some chunk
    | .reply _ _ => none

/-- The responses of `push`. -/
def responses (deliveries : List Delivery) : List Response :=
  deliveries.filterMap fun
    | .output _ => none
    | .reply _ response => response

end Delivery

/-! ### The filter in use -/

/-- What happens to the filter. The matcher is shared: between two calls others may change it. -/
inductive Op (σ : Type) where
  | push (bytes : Bytes)
  | flushIfInactive
  | change (state : σ)

namespace Op

variable {σ : Type} (matcher : Matcher σ)

def step (filter : InputFilter) (state : σ) : Op σ → List Delivery × InputFilter × σ
  | .push bytes => filter.push matcher bytes state
  | .flushIfInactive =>
      let (released, filter, state) := filter.flushIfInactive matcher state
      (released.toList.map .output, filter, state)
  | .change state => ([], filter, state)

def run (filter : InputFilter) (state : σ) : List (Op σ) → List Delivery × InputFilter × σ
  | [] => ([], filter, state)
  | op :: ops =>
      let (deliveries, filter, state) := op.step matcher filter state
      let (later, filter, state) := run filter state ops
      (deliveries ++ later, filter, state)

/-- What was typed, or came from the terminal. -/
def input : Op σ → Bytes
  | .push bytes => bytes
  | _ => []

end Op

end Herden.Runtime.Client.DirectGraphics
