import Herden.Runtime.RawInput

/-!
# `Herden.Runtime.RawInputWindows`: the loop of the framer on Windows

The Windows build of `drain_available_chunks` (`runtime/src/raw_input.rs`) has one branch more: the
rest of a host color reply that was given up is looked for until a deadline. What the branch needs
is kept next to the framer of the other platforms, and the turn of the loop up to it is `recover`.
-/

namespace Herden.Runtime.RawInput

namespace RawInputByteFramer

/-- What the first part of a turn comes to: the turn is over, or the framer goes on with it. -/
inductive Recovery where
  | over (turn : Turn)
  | rest (framer : RawInputByteFramer)

/-- The framer once the mouse report that timed out is dealt with, unless that has to wait. -/
def afterTimedOutMouse (self : RawInputByteFramer) : Option RawInputByteFramer :=
  match self.timedOutMousePrefix with
  | none => some self
  | some start =>
      match classifySgrMouseContinuation start self.buffer with
      | .incomplete => none
      | .complete len =>
          some { self with buffer := self.buffer.drop len, timedOutMousePrefix := none }
      | .invalid => some { self with timedOutMousePrefix := none }

/-- A turn up to the discarded tails: the mouse report that timed out, then the tail behind a lone
escape. -/
def recover (self : RawInputByteFramer) : Recovery :=
  match self.afterTimedOutMouse with
  | none => .over (.stop self)
  | some self =>
      let flushed : RawInputByteFramer := { self with loneEscapeRecentlyFlushed := false }
      if self.loneEscapeRecentlyFlushed then
        if startsWithIncompleteOrphanedSgrMouseTail self.buffer then .over (.stop self)
        else
          match discardCompleteOrphanedSgrMouseTail self.buffer with
          | some buffer => .over (.next { flushed with buffer := buffer } none)
          | none => .rest flushed
      else .rest flushed

end RawInputByteFramer

structure WindowsFramer where
  framer : RawInputByteFramer
  hostColorTailDeadline : Option Nat
  hostColorTailSplitSt : Bool

/-- `plausible_host_color_tail_byte`: a hexadecimal digit, one of `; : / # ? . _ - + r g b R G B`,
or ESC. -/
def plausibleHostColorTailByte (byte : UInt8) : Bool :=
  isAsciiHexdigit byte || [0x3b, 0x3a, 0x2f, 0x23, 0x3f, 0x2e, 0x5f, 0x2d, 0x2b, 0x72, 0x67, 0x62,
    0x52, 0x47, 0x42, esc].contains byte

/-- Where an ESC is that does not begin a string terminator. -/
def newEscape : Bytes → Option Nat
  | first :: second :: rest =>
      if first = esc ∧ second ≠ 0x5c then some 0
      else (newEscape (second :: rest)).map (· + 1)
  | _ => none

namespace WindowsFramer

inductive Turn where
  | stop (framer : WindowsFramer)
  | next (framer : WindowsFramer) (chunk : Option Bytes)

def withBuffer (self : WindowsFramer) (buffer : Bytes) : WindowsFramer :=
  { self with framer := { self.framer with buffer := buffer } }

def endHostColorTailRecovery (self : WindowsFramer) : WindowsFramer where
  framer := { self.framer with discardUntil := none, discardedTailBytes := 0 }
  hostColorTailDeadline := none
  hostColorTailSplitSt := false

/-- Drop some bytes and end the recovery. -/
def endRecoveryBehind (self : WindowsFramer) (len : Nat) : Turn :=
  .next (self.withBuffer (self.framer.buffer.drop len)).endHostColorTailRecovery none

/-- A turn of the loop while the rest of a host color reply is looked for. -/
def drainHostColorTail (now deadline : Nat) (self : WindowsFramer) : Turn :=
  let buffer := self.framer.buffer
  let discarded := self.framer.discardedTailBytes
  if self.hostColorTailSplitSt && 1 < buffer.length && buffer[1]? ≠ some 0x5c then
    self.endRecoveryBehind 1
  else
    let terminatorLen := oscStringTerminator buffer
    match (newEscape buffer).filter fun index => terminatorLen.all (index < ·) with
    | some index => self.endRecoveryBehind index
    | none =>
        let bodyLen := match terminatorLen with
          | some len => len - if buffer[len - 1]? = some 0x07 then 1 else 2
          | none => buffer.length
        match (buffer.take bodyLen).findIdx? (!plausibleHostColorTailByte ·) with
        | some invalid => self.endRecoveryBehind invalid
        | none =>
            match terminatorLen.filter (discarded + · ≤ maxDiscardedControlTailBytes) with
            | some len => self.endRecoveryBehind len
            | none =>
                if deadline ≤ now || maxDiscardedControlTailBytes ≤ discarded + buffer.length then
                  .next self.endHostColorTailRecovery none
                else .stop self

/-- A turn of the common loop, with the rest of the Windows framer as it is. -/
def lift (self : WindowsFramer) : RawInputByteFramer.Turn → Turn
  | .stop framer => .stop { self with framer }
  | .next framer chunk => .next { self with framer } chunk

/-- One turn of the loop of `drain_available_chunks`. -/
def drainTurn (keys : KeyParser) (now : Nat) (self : WindowsFramer) : Turn :=
  match self.framer.recover with
  | .over turn => self.lift turn
  | .rest framer =>
      let self := { self with framer }
      match framer.discardUntil, self.hostColorTailDeadline with
      | some _, some deadline => self.drainHostColorTail now deadline
      | some family, none => self.lift (framer.drainDiscard family)
      | none, _ => self.lift (framer.drainEvent keys now)

/-- The loop of `drain_available_chunks`, with a bound on its turns. -/
def drainLoop (keys : KeyParser) (now : Nat) :
    Nat → WindowsFramer → List Bytes → WindowsFramer × List Bytes
  | 0, self, chunks => (self, chunks)
  | fuel + 1, self, chunks =>
      match drainTurn keys now self with
      | .stop self => (self, chunks)
      | .next self chunk => drainLoop keys now fuel self (chunks ++ chunk.toList)

/-- `drain_available_chunks`, with a bound that is never reached. -/
def drainAvailableChunks (keys : KeyParser) (now : Nat) (self : WindowsFramer) :
    WindowsFramer × List Bytes :=
  drainLoop keys now (self.framer.buffer.length + 3) self []

end WindowsFramer

end Herden.Runtime.RawInput
