import Mathlib.Data.List.Basic
import Herden.Runtime.Key

/-!
# `Herden.Runtime.RawInput`: the byte framer of the terminal input

Embedding of `runtime/src/raw_input.rs`, Unix build: `RawInputByteFramer` cuts the bytes the
host terminal sends into complete events and keeps an unfinished one in its buffer. The
recogniser of one event is `extractOneEvent`, with the escape sequences, control strings,
bracketed pastes, mouse reports, host replies and UTF-8 characters it knows; the loop around
it is `drainAvailableChunks`.

Bytes are `List UInt8`, also where the source has a `&str` it just checked to be UTF-8. The
key parser of `input/parse.rs` and the Unicode table behind `char::is_uppercase` are a
parameter (`KeyParser`): the framer only asks whether a complete sequence is a key.
`Instant::now()` is an argument, in milliseconds, the same during one call.
-/

namespace Herden.Runtime.RawInput

open Herden.Runtime.Key

abbrev Bytes := List UInt8

/-- What the framer takes from `input/parse.rs` and from the Unicode tables. -/
structure KeyParser where
  parseTerminalKeySequence : Bytes → Option TerminalKey
  isUppercase : Char → Bool

/-! ### Byte strings -/

/-- `bytes.strip_prefix(start)`. -/
def stripStart (start bytes : Bytes) : Option Bytes :=
  if start.isPrefixOf bytes then some (bytes.drop start.length) else none

/-- `bytes.strip_suffix(end)`. -/
def stripEnd (stop bytes : Bytes) : Option Bytes :=
  if stop.isSuffixOf bytes then some (bytes.take (bytes.length - stop.length)) else none

/-- `text.split_once(separator)`. -/
def splitOnce (separator : UInt8) (bytes : Bytes) : Option (Bytes × Bytes) :=
  (bytes.findIdx? (· = separator)).map (fun i => (bytes.take i, bytes.drop (i + 1)))

def isAsciiDigit (byte : UInt8) : Bool := 0x30 ≤ byte && byte ≤ 0x39

def isAsciiHexdigit (byte : UInt8) : Bool :=
  isAsciiDigit byte || (0x41 ≤ byte && byte ≤ 0x46) || (0x61 ≤ byte && byte ≤ 0x66)

def hexValue (byte : UInt8) : Nat :=
  if isAsciiDigit byte then byte.toNat - 0x30
  else if byte ≤ 0x46 then byte.toNat - 0x41 + 10
  else byte.toNat - 0x61 + 10

def digitsValue (radix : Nat) (digits : Bytes) : Nat :=
  digits.foldl (fun value byte => value * radix + hexValue byte) 0

/-- `text.parse()` for an unsigned type with the given largest value: an optional plus
sign, at least one digit, no overflow. -/
def parseUnsigned (largest : Nat) (text : Bytes) : Option Nat :=
  let digits := (stripStart [0x2b] text).getD text
  if !digits.isEmpty && digits.all isAsciiDigit && digitsValue 10 digits ≤ largest then
    some (digitsValue 10 digits)
  else none

/-! ### UTF-8 -/

def isContinuation (byte : UInt8) : Bool := 0x80 ≤ byte && byte ≤ 0xbf

/-- The second byte of a three-byte character. -/
def isSecondOfThree (first second : UInt8) : Bool :=
  if first = 0xe0 then 0xa0 ≤ second && second ≤ 0xbf
  else if first = 0xed then 0x80 ≤ second && second ≤ 0x9f
  else isContinuation second

/-- The second byte of a four-byte character. -/
def isSecondOfFour (first second : UInt8) : Bool :=
  if first = 0xf0 then 0x90 ≤ second && second ≤ 0xbf
  else if first = 0xf4 then 0x80 ≤ second && second ≤ 0x8f
  else 0xf1 ≤ first && first ≤ 0xf3 && isContinuation second

/-- `std::str::from_utf8(bytes).is_ok()`. -/
def isUtf8 : Bytes → Bool
  | [] => true
  | first :: rest =>
    if first < 0x80 then isUtf8 rest
    else
      match rest with
      | [] => false
      | second :: rest =>
        if 0xc2 ≤ first && first ≤ 0xdf then isContinuation second && isUtf8 rest
        else
          match rest with
          | [] => false
          | third :: rest =>
            if 0xe0 ≤ first && first ≤ 0xef then
              isSecondOfThree first second && isContinuation third && isUtf8 rest
            else
              match rest with
              | [] => false
              | fourth :: rest =>
                isSecondOfFour first second && isContinuation third && isContinuation fourth
                  && isUtf8 rest

/-- `std::str::from_utf8(bytes).ok()`. -/
def fromUtf8 (bytes : Bytes) : Option Bytes := if isUtf8 bytes then some bytes else none

def utf8CharWidth (first : UInt8) : Option Nat :=
  if first < 0x80 then some 1
  else if first &&& 0b11100000 = 0b11000000 then some 2
  else if first &&& 0b11110000 = 0b11100000 then some 3
  else if first &&& 0b11111000 = 0b11110000 then some 4
  else none

def firstCompleteUtf8CharLen (buffer : Bytes) : Option Nat := do
  let width ← utf8CharWidth (← buffer.head?)
  if buffer.length < width then none
  else
    let _ ← fromUtf8 (buffer.take width)
    some width

/-! ### Constants -/

def esc : UInt8 := 0x1b

/-- `ESC [ 200 ~`. -/
def bracketedPasteStart : Bytes := [esc, 0x5b, 0x32, 0x30, 0x30, 0x7e]

/-- `ESC [ 201 ~`. -/
def bracketedPasteEnd : Bytes := [esc, 0x5b, 0x32, 0x30, 0x31, 0x7e]

/-- `ESC [ ? 997 ; 1 n`. -/
def ghosttyColorSchemeDarkReport : Bytes :=
  [esc, 0x5b, 0x3f, 0x39, 0x39, 0x37, 0x3b, 0x31, 0x6e]

/-- `ESC [ ? 997 ; 2 n`. -/
def ghosttyColorSchemeLightReport : Bytes :=
  [esc, 0x5b, 0x3f, 0x39, 0x39, 0x37, 0x3b, 0x32, 0x6e]

def hostColorQueryReplies : Nat := 258

/-- `HOST_COLOR_REPLY_IDLE_LIMIT`, in milliseconds. -/
def hostColorReplyIdleLimit : Nat := 1000

def maxDiscardedControlTailBytes : Nat := 128

def maxOrphanedSgrMouseTailBytes : Nat := 32

/-! ### Searching -/

/-- `find_subsequence`: where `needle` first occurs. -/
def findSubsequence (needle : Bytes) : Bytes → Option Nat
  | [] => if needle.isEmpty then some 0 else none
  | byte :: rest =>
      if needle.isPrefixOf (byte :: rest) then some 0
      else (findSubsequence needle rest).map (· + 1)

/-- `find_csi_final`: the length up to the first final byte behind the introducer. -/
def findCsiFinal (buffer finals : Bytes) : Option Nat :=
  ((buffer.drop 2).findIdx? (finals.contains ·)).map (· + 3)

/-- The final bytes of a control sequence, `@` to `~`. -/
def csiFinals : Bytes := (List.range 63).map (fun i => UInt8.ofNat (0x40 + i))

/-- The final bytes of an SGR mouse report, `M` and `m`. -/
def sgrMouseFinals : Bytes := [0x4d, 0x6d]

def oscStringTerminator (buffer : Bytes) : Option Nat :=
  let st := (findSubsequence [esc, 0x5c] buffer).map (· + 2)
  let bel := (buffer.findIdx? (· = 0x07)).map (· + 1)
  match st, bel with
  | some st, some bel => some (min st bel)
  | some st, none => some st
  | none, some bel => some bel
  | none, none => none

def stStringTerminator (buffer : Bytes) : Option Nat :=
  (findSubsequence [esc, 0x5c] buffer).map (· + 2)

inductive ControlStringFamily where
  | osc
  | stTerminated
  | hostReplyCsi
deriving DecidableEq

inductive ControlString where
  | complete (len : Nat) (family : ControlStringFamily)
  | incomplete (family : ControlStringFamily)
deriving DecidableEq

def controlStringTerminatorForFamily (buffer : Bytes) : ControlStringFamily → Option Nat
  | .osc => oscStringTerminator buffer
  | .stTerminated => stStringTerminator buffer
  | .hostReplyCsi => none

/-- The family two introducer bytes open: `ESC ]`, or `ESC` and one of `P _ ^ X`. -/
def controlStringFamily (first second : UInt8) : Option ControlStringFamily :=
  if first = esc then
    if second = 0x5d then some .osc
    else if second = 0x50 ∨ second = 0x5f ∨ second = 0x5e ∨ second = 0x58 then
      some .stTerminated
    else none
  else none

def controlString (buffer : Bytes) : Option ControlString :=
  match buffer with
  | first :: second :: _ =>
      (controlStringFamily first second).map fun family =>
        match controlStringTerminatorForFamily buffer family with
        | some len => .complete len family
        | none => .incomplete family
  | _ => none

/-! ### Mouse reports -/

/-- `crossterm::event::MouseButton`. -/
inductive MouseButton where
  | left
  | right
  | middle
deriving DecidableEq

/-- `crossterm::event::MouseEventKind`. -/
inductive MouseEventKind where
  | down (button : MouseButton)
  | up (button : MouseButton)
  | drag (button : MouseButton)
  | moved
  | scrollDown
  | scrollUp
  | scrollLeft
  | scrollRight
deriving DecidableEq

structure MouseEvent where
  kind : MouseEventKind
  column : Nat
  row : Nat
  modifiers : KeyModifiers
deriving DecidableEq

def mouseKind (buttonNumber : UInt8) (dragging : Bool) : Option MouseEventKind :=
  match buttonNumber.toNat, dragging with
  | 0, false => some (.down .left)
  | 1, false => some (.down .middle)
  | 2, false => some (.down .right)
  | 0, true => some (.drag .left)
  | 1, true => some (.drag .middle)
  | 2, true => some (.drag .right)
  | 3, false => some (.up .left)
  | 3, true | 4, true | 5, true | 8, true | 9, true => some .moved
  | 4, false => some .scrollUp
  | 5, false => some .scrollDown
  | 6, false => some .scrollLeft
  | 7, false => some .scrollRight
  | _, _ => none

/-- The `crossterm` bits of Shift, Control and Alt. -/
def mouseModifiers (cb : UInt8) : KeyModifiers :=
  ⟨(if cb &&& 0b00000100 ≠ 0 then 0b001 else 0) |||
    (if cb &&& 0b00001000 ≠ 0 then 0b100 else 0) |||
    (if cb &&& 0b00010000 ≠ 0 then 0b010 else 0)⟩

def mouseButtonNumber (cb : UInt8) : UInt8 :=
  (cb &&& (0b00000011 : UInt8)) ||| ((cb &&& (0b11000000 : UInt8)) >>> (4 : UInt8))

def parseMouseCb (cb : UInt8) : Option (MouseEventKind × KeyModifiers) := do
  let dragging := (cb &&& (0b00100000 : UInt8)) == 0b00100000
  let kind ← mouseKind (mouseButtonNumber cb) dragging
  some (kind, mouseModifiers cb)

/-- `checked_sub` of the source, on the numbers of a report. -/
def checkedSub (a b : Nat) : Option Nat := if b ≤ a then some (a - b) else none

def parseDefaultMouse (sequence : Bytes) : Option MouseEvent :=
  match sequence with
  | [first, second, third, encodedCb, encodedColumn, encodedRow] =>
      if first = esc ∧ second = 0x5b ∧ third = 0x4d then do
        let cb ← checkedSub encodedCb.toNat 32
        let column ← checkedSub encodedColumn.toNat 33
        let row ← checkedSub encodedRow.toNat 33
        let (kind, modifiers) ← parseMouseCb (UInt8.ofNat cb)
        some { kind := kind, column := column, row := row, modifiers := modifiers }
      else none
  | _ => none

structure SgrMouseReport where
  kind : MouseEventKind
  modifiers : KeyModifiers
  x : Nat
  y : Nat

/-- `u32::MAX`. -/
def u32Max : Nat := 2 ^ 32 - 1

def parseReportNumber (value : Bytes) : Option Nat :=
  if !value.isEmpty && value.all isAsciiDigit then parseUnsigned u32Max value else none

def parseSgrMouseReport (sequence : Bytes) : Option SgrMouseReport := do
  let body ← stripStart [esc, 0x5b, 0x3c] sequence
  let finalByte ← body.getLast?
  let payload := body.dropLast
  if finalByte ≠ 0x4d ∧ finalByte ≠ 0x6d then none
  else
    match payload.splitOn 0x3b with
    | [cb, x, y] => do
        let cb ← parseReportNumber cb
        if 255 < cb then none
        else
          let x ← parseReportNumber x
          let y ← parseReportNumber y
          let (kind, modifiers) ← parseMouseCb (UInt8.ofNat cb)
          let kind := match kind with
            | .down button => if finalByte = 0x6d then .up button else .down button
            | kind => kind
          some { kind := kind, modifiers := modifiers, x := x, y := y }
    | _ => none

def parseSgrMouse (sequence : Bytes) : Option MouseEvent := do
  let report ← parseSgrMouseReport sequence
  let column ← checkedSub report.x 1
  if 65535 < column then none
  else
    let row ← checkedSub report.y 1
    if 65535 < row then none
    else some { kind := report.kind, column := column, row := row, modifiers := report.modifiers }

/-! ### Host replies -/

inductive DefaultColorKind where
  | foreground
  | background

structure RgbColor where
  r : UInt8
  g : UInt8
  b : UInt8

inductive HostAppearance where
  | dark
  | light

def parseHexComponent (component : Bytes) : Option UInt8 :=
  if component.isEmpty || 4 < component.length || !component.all isAsciiHexdigit then none
  else
    let value := digitsValue 16 component
    let largest := 2 ^ (component.length * 4) - 1
    some (UInt8.ofNat ((value * 255 + largest / 2) / largest))

def parseRgbColor (value : Bytes) : Option RgbColor :=
  match stripStart [0x72, 0x67, 0x62, 0x3a] value with
  | some rgb =>
      match rgb.splitOn 0x2f with
      | [r, g, b] => do
          some ⟨← parseHexComponent r, ← parseHexComponent g, ← parseHexComponent b⟩
      | _ => none
  | none =>
      match stripStart [0x23] value with
      | some hex =>
          let digits := hex.length / 3
          if digits = 0 ∨ 4 < digits ∨ hex.length ≠ digits * 3 then none
          else do
            some ⟨← parseHexComponent (hex.take digits),
              ← parseHexComponent ((hex.drop digits).take digits),
              ← parseHexComponent (hex.drop (digits * 2))⟩
      | none => none

/-- The body of an OSC string behind `start`, without its terminator. -/
def oscBody (start sequence : Bytes) : Option Bytes := do
  let body ← stripStart start sequence
  (stripEnd [esc, 0x5c] body).or (stripEnd [0x07] body)

def parseDefaultColorResponse (sequence : Bytes) : Option (DefaultColorKind × RgbColor) := do
  let body ← oscBody [esc, 0x5d] sequence
  let (command, value) ← splitOnce 0x3b body
  let kind ←
    if command = [0x31, 0x30] then some DefaultColorKind.foreground
    else if command = [0x31, 0x31] then some .background
    else none
  some (kind, ← parseRgbColor value)

def parsePaletteColorResponse (sequence : Bytes) : Option (UInt8 × RgbColor) := do
  let body ← oscBody [esc, 0x5d, 0x34, 0x3b] sequence
  let (index, value) ← splitOnce 0x3b body
  let index ← parseUnsigned 255 index
  some (UInt8.ofNat index, ← parseRgbColor value)

def parseHostColorSchemeReport (buffer : Bytes) : Option HostAppearance :=
  if buffer = ghosttyColorSchemeDarkReport then some .dark
  else if buffer = ghosttyColorSchemeLightReport then some .light
  else none

/-- `CSI 6 ; height ; width t` as `(width_px, height_px)`. -/
def parseHostCellSizeReport (buffer : Bytes) : Option (Nat × Nat) := do
  let body ← stripEnd [0x74] (← stripStart [esc, 0x5b] buffer)
  let text ← fromUtf8 body
  match text.splitOn 0x3b with
  | [six, height, width] =>
      if six ≠ [0x36] then none
      else do
        let heightPx ← parseUnsigned u32Max height
        let widthPx ← parseUnsigned u32Max width
        if widthPx = 0 ∨ heightPx = 0 then none else some (widthPx, heightPx)
  | _ => none

def startsWithIncompleteDefaultColorResponse (buffer : Bytes) : Bool :=
  (buffer.take 5 = [esc, 0x5d, 0x31, 0x30, 0x3b] ||
    buffer.take 5 = [esc, 0x5d, 0x31, 0x31, 0x3b]) &&
  controlString buffer = some (.incomplete .osc)

/-! ### One event -/

inductive RawInputEvent where
  | key (key : TerminalKey)
  | paste (text : Bytes)
  | mouse (event : MouseEvent)
  | outerFocusGained
  | outerFocusLost
  | hostDefaultColor (kind : DefaultColorKind) (color : RgbColor)
  | hostPaletteColors (colors : List (UInt8 × RgbColor))
  | hostColorSchemeChanged (appearance : HostAppearance)
  | hostCellSizeReport (widthPx heightPx : Nat)
  | unsupported

def isHostReplyEvent : RawInputEvent → Bool
  | .hostDefaultColor _ _ | .hostPaletteColors _ | .hostCellSizeReport _ _
  | .hostColorSchemeChanged _ => true
  | _ => false

/-- The first check of `complete_escape_sequence_len`: an ESC before a complete SGR mouse
report stands alone. The outer `none` means that the check does not decide. -/
def doubledEscSgrMouse (buffer : Bytes) : Option (Option Nat) :=
  if [esc, esc, 0x5b, 0x3c].isPrefixOf buffer then
    match findCsiFinal (buffer.drop 1) sgrMouseFinals with
    | some mouseLen =>
        match fromUtf8 ((buffer.drop 1).take mouseLen) with
        | none => some none
        | some mouseSequence => if (parseSgrMouse mouseSequence).isSome then some (some 1) else none
    | none => none
  else none

/-- The second check: an ESC before a complete X10 mouse report stands alone. -/
def doubledEscDefaultMouse (buffer : Bytes) : Bool :=
  7 ≤ buffer.length && [esc, esc, 0x5b, 0x4d].isPrefixOf buffer &&
    (parseDefaultMouse ((buffer.drop 1).take 6)).isSome

/-- The length of a control sequence `ESC [ …`. -/
def csiSequenceLen (buffer : Bytes) : Option Nat :=
  if [esc, 0x5b, 0x3c].isPrefixOf buffer then findCsiFinal buffer sgrMouseFinals
  else if [esc, 0x5b, 0x4d].isPrefixOf buffer then
    if 6 ≤ buffer.length then some 6 else none
  else findCsiFinal buffer csiFinals

/-- The length of a two-byte escape `ESC c` with a UTF-8 character `c`. -/
def escapedCharLen (buffer : Bytes) (second : UInt8) : Option Nat := do
  let width ← utf8CharWidth second
  if buffer.length < 1 + width then none
  else
    let _ ← fromUtf8 ((buffer.drop 1).take width)
    some (1 + width)

/-- `complete_escape_sequence_len`, for a buffer that starts with ESC. -/
def completeEscapeSequenceLen : Bytes → Option Nat
  | [] => none
  | [_] => none
  | first :: second :: rest =>
      let buffer := first :: second :: rest
      match doubledEscSgrMouse buffer with
      | some decided => decided
      | none =>
          if doubledEscDefaultMouse buffer then some 1
          else if first = esc ∧ second = esc then
            (completeEscapeSequenceLen (second :: rest)).map (· + 1)
          else if first = esc ∧ second = 0x5b then csiSequenceLen buffer
          else
            match controlString buffer with
            | some (.complete len _) => some len
            | some (.incomplete _) => none
            | none =>
                if first = esc ∧ second = 0x4f then
                  if 3 ≤ buffer.length then some 3 else none
                else escapedCharLen buffer second

/-- `TerminalKey::with_vt_bytes`. -/
def withVtBytes (key : TerminalKey) (bytes : Bytes) : TerminalKey :=
  { key with source := .vt bytes }

/-- `TerminalKey::with_text_commit`. -/
def withTextCommit (keys : KeyParser) (key : TerminalKey) : TerminalKey :=
  let hasTextOnlyModifiers : Bool := match key.code with
    | .char ch =>
        if keys.isUppercase ch then key.modifiers.bits = 1 || key.modifiers.bits = 0
        else key.modifiers.bits = 0
    | _ => false
  match key.code with
  | .char ch =>
      if hasTextOnlyModifiers && key.kind = .press then
        { key with generatedText := some (String.singleton ch) }
      else key
  | _ => key

/-- What a complete escape sequence means. -/
def escapeEvent (keys : KeyParser) (sequence : Bytes) : RawInputEvent :=
  match parseDefaultColorResponse sequence with
  | some (kind, color) => .hostDefaultColor kind color
  | none =>
  match parsePaletteColorResponse sequence with
  | some (index, color) => .hostPaletteColors [(index, color)]
  | none =>
  if sequence = [esc, 0x5b, 0x49] then .outerFocusGained
  else if sequence = [esc, 0x5b, 0x4f] then .outerFocusLost
  else
  match parseHostColorSchemeReport sequence with
  | some appearance => .hostColorSchemeChanged appearance
  | none =>
  match parseHostCellSizeReport sequence with
  | some (widthPx, heightPx) => .hostCellSizeReport widthPx heightPx
  | none =>
  match parseSgrMouse sequence with
  | some mouse => .mouse mouse
  | none =>
  match keys.parseTerminalKeySequence sequence with
  | some key => .key (withVtBytes key sequence)
  | none => .unsupported

/-- `extract_one_event`: the first complete event of the buffer and its length. -/
def extractOneEvent (keys : KeyParser) (buffer : Bytes) : Option (RawInputEvent × Nat) :=
  match buffer with
  | [] => none
  | first :: _ =>
      if bracketedPasteStart.isPrefixOf buffer then do
        let stop ← findSubsequence bracketedPasteEnd buffer
        let content ← fromUtf8 ((buffer.take stop).drop bracketedPasteStart.length)
        some (.paste content, stop + bracketedPasteEnd.length)
      else if first = esc then do
        let seqLen ← completeEscapeSequenceLen buffer
        if [esc, 0x5b, 0x4d].isPrefixOf (buffer.take seqLen) then
          match parseDefaultMouse (buffer.take seqLen) with
          | some event => some (.mouse event, seqLen)
          | none => some (.unsupported, seqLen)
        else
          let sequence ← fromUtf8 (buffer.take seqLen)
          some (escapeEvent keys sequence, seqLen)
      else do
        let consumed ← firstCompleteUtf8CharLen buffer
        let text ← fromUtf8 (buffer.take consumed)
        let key ← keys.parseTerminalKeySequence text
        some (.key (withVtBytes (withTextCommit keys key) (buffer.take consumed)), consumed)

/-- `starts_with_kitty_key_report`: digit-led parameters of digits, `;` and `:`, then `u`. -/
def startsWithKittyKeyReport (bytes : Bytes) : Bool :=
  match stripStart [esc, 0x5b] bytes with
  | none => false
  | some rest =>
      let params :=
        (rest.takeWhile (fun byte => isAsciiDigit byte || byte = 0x3b || byte = 0x3a)).length
      rest.head?.any isAsciiDigit && rest[params]? = some 0x75

/-! ### Recovery after a flush

A flush that gives up on an unfinished sequence leaves the framer looking for the rest of
it. A framer that was never flushed is in none of these states. -/

def startsWithIncompleteOrphanedSgrMouseTail (buffer : Bytes) : Bool :=
  if maxOrphanedSgrMouseTailBytes < buffer.length then false
  else
    (buffer.length < 3 && buffer.isPrefixOf [0x5b, 0x3c]) ||
      ([0x5b, 0x3c].isPrefixOf buffer &&
        (buffer.drop 2).all (fun byte => isAsciiDigit byte || byte = 0x3b))

/-- `discard_complete_orphaned_sgr_mouse_tail`: the buffer without the tail, if the tail
is complete. -/
def discardCompleteOrphanedSgrMouseTail (buffer : Bytes) : Option Bytes := do
  let terminatorLen ← (buffer.findIdx? (sgrMouseFinals.contains ·)).map (· + 1)
  if maxOrphanedSgrMouseTailBytes < terminatorLen then none
  else
    let sequence ← fromUtf8 (esc :: buffer.take terminatorLen)
    let _ ← parseSgrMouse sequence
    some (buffer.drop terminatorLen)

/-- The loop of `discard_host_reply_csi_tail` over the bytes it may inspect: how many of
them go, and whether the reply ended there. -/
def hostReplyCsiTail : Bytes → Nat → Option Nat
  | [], _ => none
  | byte :: rest, index =>
      if 0x20 ≤ byte && byte ≤ 0x3f then hostReplyCsiTail rest (index + 1)
      else if 0x40 ≤ byte && byte ≤ 0x7e then some (index + 1)
      else some index

/-- `discard_host_reply_csi_tail`: the buffer, the count of discarded bytes, and whether the
tail is over. -/
def discardHostReplyCsiTail (buffer : Bytes) (discardedTailBytes : Nat) : Bytes × Nat × Bool :=
  let inspected := min buffer.length (maxDiscardedControlTailBytes - discardedTailBytes)
  match hostReplyCsiTail (buffer.take inspected) 0 with
  | some len => (buffer.drop len, discardedTailBytes, true)
  | none =>
      let discarded := discardedTailBytes + inspected
      (buffer.drop inspected, discarded, maxDiscardedControlTailBytes ≤ discarded)

/-- The fields of `plausible_sgr_mouse_prefix`, from the number `field` on. -/
def plausibleSgrMouseFields : Nat → List Bytes → Bool
  | _, [] => true
  | field, digits :: rest =>
      if 2 < field then false
      else if digits.isEmpty then rest.isEmpty
      else if !digits.all isAsciiDigit then false
      else
        match parseUnsigned 65535 digits with
        | none => false
        | some value =>
            if field = 0 ∧ 255 < value then false
            else if !rest.isEmpty && ((field = 0 && (parseMouseCb (UInt8.ofNat value)).isNone) ||
                (field = 1 && value = 0)) then false
            else plausibleSgrMouseFields (field + 1) rest

/-- `plausible_sgr_mouse_prefix`. -/
def plausibleSgrMouseStart (report : Bytes) : Bool :=
  match stripStart [esc, 0x5b, 0x3c] report with
  | none => false
  | some body => plausibleSgrMouseFields 0 (body.splitOn 0x3b)

inductive SgrMouseContinuation where
  | incomplete
  | complete (len : Nat)
  | invalid
deriving DecidableEq

def classifySgrMouseContinuation (start tail : Bytes) : SgrMouseContinuation :=
  let tail := tail.take (min tail.length (maxDiscardedControlTailBytes - start.length))
  let finalIndex := tail.findIdx? (fun byte => !isAsciiDigit byte && byte ≠ 0x3b)
  let report := start ++ tail.take (finalIndex.getD tail.length)
  if !plausibleSgrMouseStart report then .invalid
  else
    match finalIndex with
    | some index =>
        let report := report ++ (tail.drop index).take 1
        if ((fromUtf8 report).bind parseSgrMouse).isSome then .complete (index + 1)
        else .invalid
    | none =>
        if maxDiscardedControlTailBytes ≤ report.length then .invalid else .incomplete

/-- `continues_escape_sequence`: bytes after a held ESC or ESC[ still read as one sequence. -/
def continuesEscapeSequence (buffer : Bytes) : Bool :=
  match buffer with
  | [first] => first = esc
  | [first, second] =>
      first = esc && (second = 0x5b || second = 0x5d || second = 0x50 || second = 0x5f)
  | first :: second :: next :: _ =>
      first = esc && (second = 0x5d || second = 0x50 || second = 0x5f ||
        (second = 0x5b && (next = 0x4d || (0x20 ≤ next && next ≤ 0x3f))))
  | [] => false

/-! ### The framer -/

structure RawInputByteFramer where
  buffer : Bytes
  discardUntil : Option ControlStringFamily
  discardedTailBytes : Nat
  timedOutMousePrefix : Option Bytes
  loneEscapeRecentlyFlushed : Bool
  hostColorRepliesAwaited : Nat
  hostCellSizeRepliesAwaited : Nat
  hostAppearanceReplyAwaited : Bool
  hostReplyActivityAt : Option Nat
  partialHostColorReplyReadAt : Option Nat
  heldPendingHostReplyEsc : Bool
  hostColorSchemeChangeTracking : Bool
  hostAppearanceQueryOnFocus : Bool
  splitCoalescedEscape : Bool
  awaitingMouseTailAfter : Option Nat

namespace RawInputByteFramer

/-- `with_host_input_policy`. `RawInputByteFramer::default()` is the policy `true`. -/
def withHostInputPolicy (preserveLegacyDoubledEscapeInput : Bool) : RawInputByteFramer where
  buffer := []
  discardUntil := none
  discardedTailBytes := 0
  timedOutMousePrefix := none
  loneEscapeRecentlyFlushed := false
  hostColorRepliesAwaited := 0
  hostCellSizeRepliesAwaited := 0
  hostAppearanceReplyAwaited := false
  hostReplyActivityAt := none
  partialHostColorReplyReadAt := none
  heldPendingHostReplyEsc := false
  hostColorSchemeChangeTracking := false
  hostAppearanceQueryOnFocus := false
  splitCoalescedEscape := !preserveLegacyDoubledEscapeInput
  awaitingMouseTailAfter := none

/-- `host_color_query_sent`. The count of awaited replies is a saturating `u16`. -/
def hostColorQuerySent (self : RawInputByteFramer) (now : Nat) : RawInputByteFramer :=
  { self with
    hostColorRepliesAwaited := min (self.hostColorRepliesAwaited + hostColorQueryReplies) 65535
    heldPendingHostReplyEsc := false
    hostReplyActivityAt := some now }

def hostAppearanceQuerySent (self : RawInputByteFramer) (now : Nat) : RawInputByteFramer :=
  { self with
    hostAppearanceReplyAwaited := true
    heldPendingHostReplyEsc := false
    hostReplyActivityAt := some now }

/-- What the loop records about an event it is about to emit. -/
def noteEvent (self : RawInputByteFramer) (now : Nat) (event : RawInputEvent) :
    RawInputByteFramer :=
  let self := match event with
    | .hostDefaultColor _ _ | .hostPaletteColors _ =>
        { self with hostColorRepliesAwaited := self.hostColorRepliesAwaited - 1 }
    | .hostCellSizeReport _ _ =>
        { self with hostCellSizeRepliesAwaited := self.hostCellSizeRepliesAwaited - 1 }
    | .outerFocusGained =>
        if self.hostAppearanceQueryOnFocus then self.hostAppearanceQuerySent now else self
    | .hostColorSchemeChanged _ =>
        let self := { self with hostAppearanceReplyAwaited := false }
        if self.hostColorSchemeChangeTracking then self.hostColorQuerySent now else self
    | _ => self
  let self :=
    if isHostReplyEvent event && self.hostReplyActivityAt.isSome then
      { self with hostReplyActivityAt := some now }
    else self
  { self with heldPendingHostReplyEsc := false }

/-- How one turn of the loop ends: it stops, or it goes on, with a chunk or without. -/
inductive Turn where
  | stop (framer : RawInputByteFramer)
  | next (framer : RawInputByteFramer) (chunk : Option Bytes)

/-- A turn of the loop once no recovery is pending. -/
def drainEvent (keys : KeyParser) (now : Nat) (self : RawInputByteFramer) : Turn :=
  -- ESC before a complete Kitty key report is its own key
  if [esc, esc].isPrefixOf self.buffer &&
      (self.splitCoalescedEscape || startsWithKittyKeyReport (self.buffer.drop 1)) then
    .next { self with buffer := self.buffer.drop 1 } (some [esc])
  else
    match extractOneEvent keys self.buffer with
    | none => .stop self
    | some (event, consumed) =>
        .next { self.noteEvent now event with buffer := self.buffer.drop consumed }
          (some (self.buffer.take consumed))

/-- A turn of the loop while the rest of a lost control string is discarded. -/
def drainDiscard (self : RawInputByteFramer) (family : ControlStringFamily) : Turn :=
  match family with
  | .hostReplyCsi =>
      match discardHostReplyCsiTail self.buffer self.discardedTailBytes with
      | (buffer, _, true) =>
          .next { self with buffer := buffer, discardUntil := none, discardedTailBytes := 0 } none
      | (buffer, discarded, false) =>
          .stop { self with buffer := buffer, discardedTailBytes := discarded }
  | family =>
      match controlStringTerminatorForFamily self.buffer family with
      | none => .stop self
      | some terminatorLen =>
          .next { self with
              buffer := self.buffer.drop terminatorLen
              discardUntil := none
              discardedTailBytes := 0 } none

/-- `retain_timed_out_mouse_prefix`. -/
def retainTimedOutMousePrefix (self : RawInputByteFramer) (start : Bytes) : RawInputByteFramer :=
  { self with
    timedOutMousePrefix :=
      if start.length < maxDiscardedControlTailBytes && plausibleSgrMouseStart start then some start
      else none }

/-- One turn of the loop of `drain_available_chunks`. -/
def drainTurn (keys : KeyParser) (now : Nat) (self : RawInputByteFramer) : Turn :=
  let timedOut : Option RawInputByteFramer := match self.timedOutMousePrefix with
    | none => some self
    | some start =>
        match classifySgrMouseContinuation start self.buffer with
        | .incomplete => none
        | .complete len =>
            some { self with buffer := self.buffer.drop len, timedOutMousePrefix := none }
        | .invalid => some { self with timedOutMousePrefix := none }
  match timedOut with
  | none => .stop self
  | some self =>
      let flushed : RawInputByteFramer := { self with loneEscapeRecentlyFlushed := false }
      if self.loneEscapeRecentlyFlushed &&
          startsWithIncompleteOrphanedSgrMouseTail self.buffer then .stop self
      else
        match self.loneEscapeRecentlyFlushed, discardCompleteOrphanedSgrMouseTail self.buffer with
        | true, some buffer => .next { flushed with buffer := buffer } none
        | _, _ =>
            match flushed.discardUntil with
            | some family => drainDiscard flushed family
            | none => drainEvent keys now flushed

/-- The loop of `drain_available_chunks`, with a bound on its turns. -/
def drainLoop (keys : KeyParser) (now : Nat) :
    Nat → RawInputByteFramer → List Bytes → RawInputByteFramer × List Bytes
  | 0, self, chunks => (self, chunks)
  | fuel + 1, self, chunks =>
      match drainTurn keys now self with
      | .stop self => (self, chunks)
      | .next self chunk => drainLoop keys now fuel self (chunks ++ chunk.toList)

/-- `drain_available_chunks`. A turn that goes on takes a byte from the buffer or leaves one
of two recovery states behind, so the bound is never reached. -/
def drainAvailableChunks (keys : KeyParser) (now : Nat) (self : RawInputByteFramer) :
    RawInputByteFramer × List Bytes :=
  drainLoop keys now (self.buffer.length + 3) self []

/-- Whether a buffered unfinished OSC 10/11 reply can no longer hold input. -/
def hostColorReplyAbandoned (self : RawInputByteFramer) (now : Nat) : Bool :=
  maxDiscardedControlTailBytes ≤ self.buffer.length ||
    self.partialHostColorReplyReadAt.all (fun readAt => hostColorReplyIdleLimit ≤ now - readAt)

/-- The guard of `drop_abandoned_host_color_reply`. -/
def dropsHostColorReply (self : RawInputByteFramer) (now : Nat) : Bool :=
  self.partialHostColorReplyReadAt.isSome &&
    startsWithIncompleteDefaultColorResponse self.buffer && self.hostColorReplyAbandoned now

def dropAbandonedHostColorReply (self : RawInputByteFramer) (now : Nat) : RawInputByteFramer :=
  if self.dropsHostColorReply now then
    { self with buffer := [], partialHostColorReplyReadAt := none }
  else self

def pushExtended (keys : KeyParser) (now : Nat) (self : RawInputByteFramer) :
    RawInputByteFramer × List Bytes :=
  let taken : RawInputByteFramer := { self with awaitingMouseTailAfter := none }
  match self.awaitingMouseTailAfter with
  | some prefixLen =>
      if !continuesEscapeSequence self.buffer then
        let rest :=
            { taken with buffer := taken.buffer.drop prefixLen }.drainAvailableChunks keys now
        (rest.1, taken.buffer.take prefixLen :: rest.2)
      else taken.drainAvailableChunks keys now
  | none => taken.drainAvailableChunks keys now

def push (keys : KeyParser) (now : Nat) (self : RawInputByteFramer) (data : Bytes) :
    RawInputByteFramer × List Bytes :=
  if data.isEmpty then self.pushExtended keys now
  else
    let self := self.dropAbandonedHostColorReply now
    let result := { self with buffer := self.buffer ++ data }.pushExtended keys now
    ({ result.1 with
        partialHostColorReplyReadAt :=
          if startsWithIncompleteDefaultColorResponse result.1.buffer then some now else none },
      result.2)

end RawInputByteFramer

end Herden.Runtime.RawInput
