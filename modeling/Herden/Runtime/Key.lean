import Mathlib.Data.UInt

/-!
# `Herden.Runtime.Key`: keys as the terminal reports them

Embedding of `TerminalKey` and its identity (`runtime/src/input/model.rs`), with the key
codes, modifiers and event kinds it takes from `crossterm`. The constructors that the
source compiles on Windows only are part of the model: a Unix build never makes a
`KeySource.windowsConsole`.
-/

namespace Herden.Runtime.Key

/-- `crossterm::event::MediaKeyCode`. -/
inductive MediaKeyCode where
  | play
  | pause
  | playPause
  | reverse
  | stop
  | fastForward
  | rewind
  | trackNext
  | trackPrevious
  | record
  | lowerVolume
  | raiseVolume
  | muteVolume
deriving DecidableEq

/-- `crossterm::event::ModifierKeyCode`. -/
inductive ModifierKeyCode where
  | leftShift
  | leftControl
  | leftAlt
  | leftSuper
  | leftHyper
  | leftMeta
  | rightShift
  | rightControl
  | rightAlt
  | rightSuper
  | rightHyper
  | rightMeta
  | isoLevel3Shift
  | isoLevel5Shift
deriving DecidableEq

/-- `crossterm::event::KeyCode`. -/
inductive KeyCode where
  | backspace
  | enter
  | left
  | right
  | up
  | down
  | home
  | «end»
  | pageUp
  | pageDown
  | tab
  | backTab
  | delete
  | insert
  | f (n : UInt8)
  | char (c : Char)
  | null
  | esc
  | capsLock
  | scrollLock
  | numLock
  | printScreen
  | pause
  | menu
  | keypadBegin
  | media (code : MediaKeyCode)
  | modifier (code : ModifierKeyCode)
deriving DecidableEq

/-- `crossterm::event::KeyModifiers`, a set of flags. -/
structure KeyModifiers where
  bits : UInt8
deriving DecidableEq

/-- `crossterm::event::KeyEventKind`. -/
inductive KeyEventKind where
  | press
  | repeat
  | release
deriving DecidableEq

structure WindowsKeyRecord where
  keyDown : Bool
  repeatCount : UInt16
  virtualKeyCode : UInt16
  virtualScanCode : UInt16
  unicode : UInt16
  controlKeyState : UInt32
deriving DecidableEq

structure PhysicalKeyId where
  raw : UInt32
deriving DecidableEq

inductive KeyIdentity where
  | physical (id : PhysicalKeyId)
  | semantic (code : KeyCode)
deriving DecidableEq

inductive KeySource where
  | synthesized
  | vt (bytes : List UInt8)
  | windowsConsole (record : WindowsKeyRecord) (physicalKey : Option PhysicalKeyId)
deriving DecidableEq

structure TerminalKey where
  code : KeyCode
  modifiers : KeyModifiers
  kind : KeyEventKind
  repeatCount : UInt16
  shiftedCodepoint : Option UInt32
  generatedText : Option String
  physicalIdentityHint : Bool
  windowsDeadKey : Bool
  layoutKey : Option Char
  source : KeySource
deriving DecidableEq

namespace TerminalKey

def new (code : KeyCode) (modifiers : KeyModifiers) : TerminalKey where
  code := code
  modifiers := modifiers
  kind := .press
  repeatCount := 1
  shiftedCodepoint := none
  generatedText := none
  physicalIdentityHint := false
  windowsDeadKey := false
  layoutKey := none
  source := .synthesized

def withKind (self : TerminalKey) (kind : KeyEventKind) : TerminalKey :=
  if kind = .release then { self with repeatCount := 1, generatedText := none, kind := kind }
  else { self with kind := kind }

def identity (self : TerminalKey) : KeyIdentity :=
  match self.source with
  | .windowsConsole _ (some physicalKey) => .physical physicalKey
  | .windowsConsole _ none => .semantic self.code
  | .synthesized | .vt _ => .semantic ((self.layoutKey.map KeyCode.char).getD self.code)

def physicalKeyId (self : TerminalKey) : Option UInt32 :=
  match self.source with
  | .windowsConsole _ (some id) => some id.raw
  | .windowsConsole _ none => none
  | .synthesized | .vt _ => none

def hasPhysicalIdentity (self : TerminalKey) : Bool :=
  self.physicalIdentityHint || self.physicalKeyId.isSome

end TerminalKey

end Herden.Runtime.Key
