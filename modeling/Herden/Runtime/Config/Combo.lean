import Herden.Lib.Text
import Herden.Runtime.Key

/-!
# `Herden.Runtime.Config.Combo`: key combinations and the keys that match them

Embedding of the second half of `runtime/src/config/keybinds.rs`: how a combination is read from
the configuration, how it is written back as a label, and which keys of a terminal match it.

A label of the configuration is only compared with names in ASCII, so of `str::to_lowercase` the
model has the characters whose lower case is in ASCII. The label of the super key depends on the
build: `macos` is `cfg!(target_os = "macos")`.
-/

namespace Herden.Runtime.Key.KeyModifiers

def empty : KeyModifiers := ⟨0⟩
def shift : KeyModifiers := ⟨1⟩
def control : KeyModifiers := ⟨2⟩
def alt : KeyModifiers := ⟨4⟩
def super : KeyModifiers := ⟨8⟩
def hyper : KeyModifiers := ⟨16⟩
def «meta» : KeyModifiers := ⟨32⟩

def contains (self other : KeyModifiers) : Bool := self.bits &&& other.bits = other.bits

def union (self other : KeyModifiers) : KeyModifiers := ⟨self.bits ||| other.bits⟩

def difference (self other : KeyModifiers) : KeyModifiers := ⟨self.bits &&& ~~~ other.bits⟩

def isEmpty (self : KeyModifiers) : Bool := self.bits = 0

end Herden.Runtime.Key.KeyModifiers

namespace Herden.Runtime.Config

open Herden.Lib (Text)
open Herden.Runtime.Key

abbrev KeyCombo := KeyCode × KeyModifiers

/-- Shift and tab are one key, back tab. -/
def normalizeKeyCombo (combo : KeyCombo) : KeyCombo :=
  let (code, modifiers) := combo
  if code = .tab && modifiers.contains .shift then (.backTab, modifiers.difference .shift)
  else if code = .backTab then (code, modifiers.difference .shift)
  else (code, modifiers)

/-! ### Labels -/

/-- `format!("{:?}", code).to_lowercase()` of a media key. -/
def mediaName : MediaKeyCode → String
  | .play => "play"
  | .pause => "pause"
  | .playPause => "playpause"
  | .reverse => "reverse"
  | .stop => "stop"
  | .fastForward => "fastforward"
  | .rewind => "rewind"
  | .trackNext => "tracknext"
  | .trackPrevious => "trackprevious"
  | .record => "record"
  | .lowerVolume => "lowervolume"
  | .raiseVolume => "raisevolume"
  | .muteVolume => "mutevolume"

/-- The same of a modifier key. -/
def modifierName : ModifierKeyCode → String
  | .leftShift => "leftshift"
  | .leftControl => "leftcontrol"
  | .leftAlt => "leftalt"
  | .leftSuper => "leftsuper"
  | .leftHyper => "lefthyper"
  | .leftMeta => "leftmeta"
  | .rightShift => "rightshift"
  | .rightControl => "rightcontrol"
  | .rightAlt => "rightalt"
  | .rightSuper => "rightsuper"
  | .rightHyper => "righthyper"
  | .rightMeta => "rightmeta"
  | .isoLevel3Shift => "isolevel3shift"
  | .isoLevel5Shift => "isolevel5shift"

def keyName : KeyCode → Text
  | .char ' ' => "space".toList
  | .char c => [c]
  | .enter => "enter".toList
  | .esc => "esc".toList
  | .tab => "tab".toList
  | .backTab => "shift+tab".toList
  | .backspace => "backspace".toList
  | .left => "left".toList
  | .right => "right".toList
  | .up => "up".toList
  | .down => "down".toList
  | .f n => 'f' :: (toString n.toNat).toList
  | .home => "home".toList
  | .end => "end".toList
  | .pageUp => "pageup".toList
  | .pageDown => "pagedown".toList
  | .delete => "delete".toList
  | .insert => "insert".toList
  | .null => "null".toList
  | .capsLock => "capslock".toList
  | .scrollLock => "scrolllock".toList
  | .numLock => "numlock".toList
  | .printScreen => "printscreen".toList
  | .pause => "pause".toList
  | .menu => "menu".toList
  | .keypadBegin => "keypadbegin".toList
  | .media code => ("media(" ++ mediaName code ++ ")").toList
  | .modifier code => ("modifier(" ++ modifierName code ++ ")").toList

def superModifierLabel (macos : Bool) : String := if macos then "cmd" else "super"

/-- The names of the modifiers, in the order of a label. -/
def modifierLabels (macos : Bool) : List (KeyModifiers × String) :=
  [(.control, "ctrl"), (.alt, "alt"), (.shift, "shift"), (.super, superModifierLabel macos),
    (.hyper, "hyper"), (.meta, "meta")]

/-- The modifiers by name, then the key. Back tab says its shift itself. -/
def formatKeyCombo (combo : KeyCombo) (macos : Bool := false) : Text :=
  let (code, modifiers) := combo
  let parts := ((modifierLabels macos).filter fun label =>
    modifiers.contains label.1 && !(label.1 = .shift && code = .backTab)).map
      fun label => label.2.toList
  ['+'].intercalate (parts ++ [keyName code])

/-! ### Reading -/

/-- The characters whose lower case is in ASCII: the capitals and the Kelvin sign. -/
def toLowercase (text : Text) : Text :=
  text.map fun c => if c = '\u212a' then 'k' else c.toLower

def modifierTokens : List (String × KeyModifiers) :=
  [("ctrl", .control), ("control", .control), ("shift", .shift), ("alt", .alt), ("option", .alt),
    ("meta", .alt), ("cmd", .super), ("command", .super), ("super", .super), ("hyper", .hyper)]

def parseModifierToken (token : Text) : Option KeyModifiers :=
  modifierTokens.lookup (String.ofList (toLowercase token))

/-- `ctrl+alt` and the like, with one part that is `1..9`. -/
def parseRangeModifiers (s : Text) : Option KeyModifiers :=
  let found := (s.splitOn '+').foldlM (fun (found : KeyModifiers × Bool) part =>
    let trimmed := Text.trim part
    if trimmed = "1..9".toList then if found.2 then none else some (found.1, true)
    else (parseModifierToken trimmed).map fun modifier => (found.1.union modifier, found.2))
    (.empty, false)
  found.bind fun found => if found.2 then some found.1 else none

def parseModifierCombo (s : Text) : Option KeyModifiers :=
  let found := (s.splitOn '+').foldlM (fun (modifiers : KeyModifiers) part =>
    let trimmed := Text.trim part
    if trimmed.isEmpty then none
    else (parseModifierToken trimmed).map modifiers.union) .empty
  found.bind fun modifiers => if modifiers.isEmpty then none else some modifiers

/-- The keys that have names, but for tab, whose code depends on shift. -/
def namedKeys : List (String × KeyCode) :=
  [("space", .char ' '), (" ", .char ' '), ("enter", .enter), ("return", .enter), ("esc", .esc),
    ("escape", .esc), ("backspace", .backspace), ("bs", .backspace), ("left", .left),
    ("right", .right), ("up", .up), ("down", .down), ("minus", .char '-'), ("comma", .char ','),
    ("period", .char '.'), ("slash", .char '/'), ("backslash", .char '\\'),
    ("quote", .char '\x27'), ("double_quote", .char '\x22'), ("double-quote", .char '\x22'),
    ("semicolon", .char ';'), ("colon", .char ':'), ("percent", .char '%'),
    ("ampersand", .char '&'), ("backtick", .char '\x60'), ("plus", .char '+')]

/-- `str::parse::<u8>`. -/
def parseU8 (text : Text) : Option UInt8 :=
  let digits := if text.head? = some '+' then text.tail else text
  if digits.isEmpty || !digits.all Char.isDigit then none
  else
    let value := digits.foldl (fun value digit => value * 10 + (digit.toNat - '0'.toNat)) 0
    if value < 256 then some (UInt8.ofNat value) else none

/-- The key of a combination, and the modifiers with it. -/
def parseKeyCode (key : Text) (modifiers : KeyModifiers) : Option KeyCombo :=
  let lower := toLowercase key
  if lower = "tab".toList then
    if modifiers.contains .shift then some (.backTab, modifiers.difference .shift)
    else some (.tab, modifiers)
  else
    match namedKeys.lookup (String.ofList lower) with
    | some code => some (code, modifiers)
    | none =>
        match key, lower with
        | [c], _ =>
            if c.isUpper then some (.char c.toLower, modifiers.union .shift)
            else some (.char c, modifiers)
        | _, 'f' :: number => (parseU8 number).map fun n => (.f n, modifiers)
        | _, _ => none

/-- A part of a combination is a modifier or the key. -/
def addComboPart (found : KeyModifiers × Option Text) (part : Text) :
    Option (KeyModifiers × Option Text) :=
  let trimmed := Text.trim part
  if trimmed.isEmpty then none
  else
    match parseModifierToken trimmed with
    | some modifier => some (found.1.union modifier, found.2)
    | none => if found.2.isSome then none else some (found.1, some trimmed)

/-- A plus that is no separator is the key. -/
def parseKeyCombo (s : Text) : Option KeyCombo :=
  let s := Text.trim s
  if s = ['+'] then some (.char '+', .empty)
  else if ['+', '+'].isSuffixOf s then
    (parseModifierCombo (s.take (s.length - 2))).map fun modifiers => (.char '+', modifiers)
  else do
    let (modifiers, key) ← (s.splitOn '+').foldlM addComboPart (.empty, none)
    let combo ← parseKeyCode (← key) modifiers
    some (normalizeKeyCombo combo)

end Herden.Runtime.Config
