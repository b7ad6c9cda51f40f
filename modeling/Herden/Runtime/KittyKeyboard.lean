import Herden.Lib.Text

/-!
# `Herden.Runtime.KittyKeyboard`: the record of requested keyboard modes

Embedding of `KittyKeyboardTracker` in `pane/kitty_keyboard.rs`. `observe` scans for CSI sequences
and keeps an unfinished one for the next call, and `replayAnsi` writes sequences that request the
recorded modes again. The loop of `observe` reads at least one byte a round, so the number of bytes
bounds its rounds.
-/

namespace Herden.Runtime.KittyKeyboard

open Herden.Lib
open Herden.Lib.Text (parseBelow)

abbrev Bytes := List UInt8

/-- The bytes of an ASCII text. -/
def ascii (text : Text) : Bytes := text.map fun ch => UInt8.ofNat ch.toNat

structure KittyKeyboardTracker where
  pending : Bytes
  /-- The top is the last. -/
  stack : List Nat
  flags : Nat
  modifyOtherKeysLevel : Nat

/-- `KittyKeyboardTracker::default`. -/
def KittyKeyboardTracker.initial : KittyKeyboardTracker := ⟨[], [], 0, 0⟩

def esc : UInt8 := 0x1b

/-- `[`. -/
def bracket : UInt8 := 0x5b

/-- `;`. -/
def semicolon : UInt8 := 0x3b

def isFinal (byte : UInt8) : Bool := 0x40 ≤ byte.toNat && byte.toNat ≤ 0x7e

/-- A byte that is no ASCII is no part of a number, however it is decoded. -/
def parseKittyKeyboardFlags (bytes : Bytes) : Nat :=
  let firstParam := (bytes.splitOn semicolon).headD []
  (parseBelow (2 ^ 16) (firstParam.map fun byte => Char.ofNat byte.toNat)).getD 0

namespace KittyKeyboardTracker

def storePending (self : KittyKeyboardTracker) (bytes : Bytes) : KittyKeyboardTracker :=
  { self with pending := if bytes.length ≤ 64 then bytes else [] }

/-- What ESC c does. -/
def reset (self : KittyKeyboardTracker) : KittyKeyboardTracker :=
  { self with stack := [], flags := 0, modifyOtherKeysLevel := 0 }

/-- The body of the loop that pops. -/
def popOnce (self : KittyKeyboardTracker) : KittyKeyboardTracker :=
  { self with flags := self.stack.getLast?.getD 0, stack := self.stack.dropLast }

def popTimes : Nat → KittyKeyboardTracker → KittyKeyboardTracker
  | 0, self => self
  | count + 1, self => popTimes count self.popOnce

def observeCsiU (self : KittyKeyboardTracker) : Bytes → KittyKeyboardTracker
  | [] => self
  | kind :: rest =>
      if kind = 0x3e then
        { self with stack := self.stack ++ [self.flags], flags := parseKittyKeyboardFlags rest }
      else if kind = 0x3d then { self with flags := parseKittyKeyboardFlags rest }
      else if kind = 0x3c then popTimes (max (parseKittyKeyboardFlags rest) 1) self
      else self

def observeModifyOtherKeys (self : KittyKeyboardTracker) : Bytes → KittyKeyboardTracker
  | [] => self
  | kind :: params =>
      if kind ≠ 0x3e then self
      else if params = [] then { self with modifyOtherKeysLevel := 0 }
      else
        match params.splitOn semicolon with
        | [resource] =>
            if parseKittyKeyboardFlags resource = 4 then { self with modifyOtherKeysLevel := 0 }
            else self
        | [resource, value] =>
            if parseKittyKeyboardFlags resource = 4 then
              { self with modifyOtherKeysLevel := min (parseKittyKeyboardFlags value) 2 }
            else self
        | _ => self

/-- The arm of `b'n'`. -/
def observeCsiN (self : KittyKeyboardTracker) : Bytes → KittyKeyboardTracker
  | [] => self
  | kind :: params =>
      if kind = 0x3e ∧ semicolon ∉ params ∧ parseKittyKeyboardFlags params = 4 then
        { self with modifyOtherKeysLevel := 0 }
      else self

/-- The match on the last byte of a sequence. -/
def observeCsi (self : KittyKeyboardTracker) (params : Bytes) (final : UInt8) :
    KittyKeyboardTracker :=
  if final = 0x75 then self.observeCsiU params
  else if final = 0x6d then self.observeModifyOtherKeys params
  else if final = 0x6e then self.observeCsiN params
  else self

/-- The loop of `observe`, in so many rounds at most. -/
def scan : Nat → KittyKeyboardTracker → Bytes → KittyKeyboardTracker
  | 0, self, _ => self
  | _ + 1, self, [] => self
  | rounds + 1, self, byte :: rest =>
      if byte ≠ esc then scan rounds self rest
      else
        match rest with
        | [] => self.storePending [byte]
        | next :: behind =>
            let self := if next = 0x63 then self.reset else self
            if next ≠ bracket then scan rounds self rest
            else
              match behind.dropWhile (!isFinal ·) with
              | [] => self.storePending (byte :: rest)
              | final :: after =>
                  scan rounds (self.observeCsi (behind.takeWhile (!isFinal ·)) final) after

def observe (self : KittyKeyboardTracker) (bytes : Bytes) : KittyKeyboardTracker :=
  let combined := self.pending ++ bytes
  scan combined.length { self with pending := [] } combined

/-! ### Replay -/

/-- A number in a sequence. -/
def number (n : Nat) : Bytes := ascii (Nat.toDigits 10 n)

def setSequence (flags : Nat) : Bytes := ascii ['\x1b', '[', '='] ++ number flags ++ ascii ['u']

def pushSequence (flags : Nat) : Bytes := ascii ['\x1b', '[', '>'] ++ number flags ++ ascii ['u']

def levelSequence (level : Nat) : Bytes :=
  ascii ['\x1b', '[', '>', '4', ';'] ++ number level ++ ascii ['m']

/-- Nothing to replay is `None` in the source, and no bytes here. -/
def replayAnsi (self : KittyKeyboardTracker) : Bytes :=
  let modes :=
    match self.stack with
    | [] => if self.flags ≠ 0 then setSequence self.flags else []
    | baseline :: pushed =>
        (if baseline ≠ 0 then setSequence baseline else []) ++
          (pushed ++ [self.flags]).flatMap pushSequence
  modes ++
    if 0 < self.modifyOtherKeysLevel then levelSequence self.modifyOtherKeysLevel else []

end KittyKeyboardTracker

end Herden.Runtime.KittyKeyboard
