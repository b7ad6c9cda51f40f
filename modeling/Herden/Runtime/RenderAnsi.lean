import Herden.Lib.Screen
import Herden.Runtime.Wire

/-!
# `Herden.Runtime.RenderAnsi`: drawing a frame on the host terminal

From `runtime/src/protocol/render_ansi.rs` and the underline bits of `runtime/src/protocol/wire.rs`.
`writeAllCells` draws a frame anew, `writeChangedCells` only what differs from the frame before it.

The output is a list of commands with the bytes the client sends for each. The width of a symbol
comes from the `unicode-width` crate and is a parameter. An index outside a frame's cells panics in
the client; here it reads the default cell.

The second half is the terminal the commands are for. Automatic wrapping is off, a wide glyph takes
two columns, and a symbol without width leaves no trace. A rendition begins with a reset, so it is
all there is to a style.
-/

namespace Herden.Runtime.RenderAnsi

open Herden.Runtime.Wire
open Herden.Lib.Screen (Line)

/-! ### Styles -/

def reversedModifier : UInt16 := 0x40

def underlineStyleShift : UInt16 := 12

def underlineStyleMask : UInt16 := 0xF000

def underlineStyleFromModifier (modifier : UInt16) : UInt8 :=
  ((modifier &&& underlineStyleMask) >>> underlineStyleShift).toUInt8

/-- The color of a packed value: 38 and 48 begin a color of the palette or an RGB color, the named
ones have parameters of their own. -/
def colorToSgr (extended reset : String) (named : Nat → String) (val : UInt32) : String :=
  match (val >>> 24).toNat with
  | 0x00 => named (val &&& 0xFF).toNat
  | 0x01 => extended ++ ";5;" ++ toString (val &&& 0xFF).toNat
  | 0x02 =>
    extended ++ ";2;" ++ toString ((val >>> 16) &&& 0xFF).toNat ++ ";"
      ++ toString ((val >>> 8) &&& 0xFF).toNat ++ ";" ++ toString (val &&& 0xFF).toNat
  | _ => reset

def colorToSgrFg : UInt32 → String :=
  colorToSgr "38" "39" fun
    | 0x00 => "39"
    | 0x01 => "30"
    | 0x02 => "31"
    | 0x03 => "32"
    | 0x04 => "33"
    | 0x05 => "34"
    | 0x06 => "35"
    | 0x07 => "36"
    | 0x08 => "37"
    | 0x09 => "90"
    | 0x0A => "91"
    | 0x0B => "92"
    | 0x0C => "93"
    | 0x0D => "94"
    | 0x0E => "95"
    | 0x0F => "96"
    | 0x10 => "97"
    | _ => "39"

def colorToSgrBg : UInt32 → String :=
  colorToSgr "48" "49" fun
    | 0x00 => "49"
    | 0x01 => "40"
    | 0x02 => "41"
    | 0x03 => "42"
    | 0x04 => "43"
    | 0x05 => "44"
    | 0x06 => "45"
    | 0x07 => "46"
    | 0x08 => "47"
    | 0x09 => "100"
    | 0x0A => "101"
    | 0x0B => "102"
    | 0x0C => "103"
    | 0x0D => "104"
    | 0x0E => "105"
    | 0x0F => "106"
    | 0x10 => "107"
    | _ => "49"

def underlineSgrPart (val : UInt16) : String :=
  match (underlineStyleFromModifier val).toNat with
  | 2 => "4:2"
  | 3 => "4:3"
  | 4 => "4:4"
  | 5 => "4:5"
  | _ => "4"

def modifierToSgrParts (val : UInt16) : List String :=
  let part (bit : UInt16) (text : String) : List String :=
    if val &&& bit != 0 then [text] else []
  part 0x01 "1" ++ part 0x02 "2" ++ part 0x04 "3"
    ++ part 0x08 (underlineSgrPart val) ++ part 0x10 "5" ++ part 0x20 "6"
    ++ part reversedModifier "7" ++ part 0x80 "8" ++ part 0x100 "9"

/-- The rendition of a cell. It resets whatever was set before. -/
def buildSgr (fg bg : UInt32) (modifier : UInt16) : String :=
  let parts := "0" :: modifierToSgrParts modifier ++ [colorToSgrFg fg, colorToSgrBg bg]
  "\x1b[" ++ String.intercalate ";" parts ++ "m"

/-! ### Symbols and links -/

def isHalfwidthKatakanaVoicedGrapheme (symbol : String) : Bool :=
  match symbol.toList with
  | [base, mark] =>
    (0xff66 ≤ base.toNat && base.toNat ≤ 0xff9d) && (mark.toNat == 0xff9e || mark.toNat == 0xff9f)
  | _ => false

/-- The columns a symbol takes. -/
def symbolWidth (unicodeWidth : String → Nat) (symbol : String) : Nat :=
  if isHalfwidthKatakanaVoicedGrapheme symbol then 2 else unicodeWidth symbol

def cellWidth (unicodeWidth : String → Nat) (cell : CellData) : Nat :=
  symbolWidth unicodeWidth cell.symbol

/-- `str::is_ascii`. -/
def isAscii (text : String) : Bool := text.toList.all fun ch => ch.toNat < 0x80

/-- `char::is_control`. -/
def isControl (ch : Char) : Bool := ch.toNat < 0x20 || (0x7f ≤ ch.toNat && ch.toNat < 0xa0)

def cellHyperlinkUri (frame : FrameData) (cell : CellData) : Option String :=
  cell.hyperlink.bind fun index => frame.hyperlinks[index.toNat]?

def sanitizedHyperlinkUri (uri : String) : Option String :=
  let sanitized := uri.toList.filter fun ch => ch != '\x1b' && ch != '\x07' && !isControl ch
  if sanitized.isEmpty then none else some (String.ofList sanitized)

def sanitizedFrameHyperlinks (frame : FrameData) : List (Option String) :=
  frame.hyperlinks.map sanitizedHyperlinkUri

def sanitizedCellHyperlinkUri (sanitizedHyperlinks : List (Option String)) (cell : CellData) :
    Option String :=
  cell.hyperlink.bind fun index => (sanitizedHyperlinks[index.toNat]?).join

/-! ### Commands -/

/-- What the client sends to the host terminal while it draws cells. -/
inductive Command where
  /-- Move the cursor to a column and row, counted from 0. -/
  | cursorPosition (col row : Nat)
  | sgr (text : String)
  | hyperlink (uri : String)
  | endHyperlink
  | print (symbol : String)

/-- The bytes of a command. -/
def Command.text : Command → String
  | .cursorPosition col row => "\x1b[" ++ toString (row + 1) ++ ";" ++ toString (col + 1) ++ "H"
  | .sgr text => text
  | .hyperlink uri => "\x1b]8;;" ++ uri ++ "\x1b\\"
  | .endHyperlink => "\x1b]8;;\x1b\\"
  | .print symbol => symbol

def resetStyle : Command := .sgr "\x1b[0m"

/-- The writer with the style and the link it last set. -/
structure Writer where
  out : List Command
  lastSgr : String
  lastStyle : Option (UInt32 × UInt32 × UInt16)
  activeHyperlink : Option String

def Writer.new : Writer := ⟨[], "", none, none⟩

def Writer.write (writer : Writer) (command : Command) : Writer :=
  { writer with out := writer.out ++ [command] }

def writeHyperlinkIfChanged (writer : Writer) (requested : Option String) : Writer :=
  let requested := requested.bind sanitizedHyperlinkUri
  if writer.activeHyperlink = requested then writer
  else
    let closed := if writer.activeHyperlink.isSome then writer.write .endHyperlink else writer
    let active := { closed with activeHyperlink := requested }
    match requested with
    | some uri => active.write (.hyperlink uri)
    | none => active

def closeHyperlink (writer : Writer) : Writer :=
  if writer.activeHyperlink.isSome then
    { writer.write .endHyperlink with activeHyperlink := none }
  else writer

def writeStyleIfChanged (writer : Writer) (cell : CellData) : Writer :=
  let style := (cell.fg, cell.bg, cell.modifier)
  if writer.lastStyle ≠ some style then
    let sgr := buildSgr cell.fg cell.bg cell.modifier
    let set :=
      if sgr ≠ writer.lastSgr then { writer.write (.sgr sgr) with lastSgr := sgr } else writer
    { set with lastStyle := some style }
  else writer

def writeCell (frame : FrameData) (writer : Writer) (cursorPosition : Option (Nat × Nat))
    (cell : CellData) : Writer :=
  if cell.skip then writer
  else
    let placed :=
      match cursorPosition with
      | some (col, row) => writer.write (.cursorPosition col row)
      | none => writer
    let styled := writeStyleIfChanged placed cell
    let linked := writeHyperlinkIfChanged styled (cellHyperlinkUri frame cell)
    linked.write (.print cell.symbol)

/-! ### Drawing frames -/

def cellAt (frame : FrameData) (row col : Nat) : CellData :=
  frame.cells.getD (row * frame.width.toNat + col) default

section

variable (unicodeWidth : String → Nat)

/-- The column behind a cell the cursor is sure to be at. -/
def inlineCol (cell : CellData) (col : Nat) : Option Nat :=
  if isAscii cell.symbol && cellWidth unicodeWidth cell == 1 then some (col + 1) else none

/-- The state of a row of `writeAllCells`. -/
structure AllRow where
  writer : Writer
  toSkip : Nat
  nextInlineCol : Option Nat

/-- One round of the inner loop of `writeAllCells`. -/
def writeAllCell (frame : FrameData) (row : Nat) (state : AllRow) (col : Nat) : AllRow :=
  if 0 < state.toSkip then { state with toSkip := state.toSkip - 1 }
  else
    let cell := cellAt frame row col
    if cell.skip then { state with nextInlineCol := none }
    else
      let cursorPosition := if state.nextInlineCol ≠ some col then some (col, row) else none
      { writer := writeCell frame state.writer cursorPosition cell
        nextInlineCol := inlineCol unicodeWidth cell col
        toSkip := cellWidth unicodeWidth cell - 1 }

def writeAllRow (frame : FrameData) (writer : Writer) (row : Nat) : Writer :=
  ((List.range frame.width.toNat).foldl (writeAllCell unicodeWidth frame row)
    ⟨writer, 0, none⟩).writer

def writeAllCells (frame : FrameData) : List Command :=
  let drawn := (List.range frame.height.toNat).foldl (writeAllRow unicodeWidth frame) Writer.new
  (closeHyperlink drawn).out ++ [resetStyle]

/-- Whether two cells look the same. The skip flag is not seen. -/
def cellsVisuallyEqual (sanitizedHyperlinks : List (Option String)) (cell : CellData)
    (prevSanitizedHyperlinks : List (Option String)) (prevCell : CellData) : Bool :=
  cell.symbol == prevCell.symbol && cell.fg == prevCell.fg && cell.bg == prevCell.bg
    && cell.modifier == prevCell.modifier
    && sanitizedCellHyperlinkUri sanitizedHyperlinks cell
      == sanitizedCellHyperlinkUri prevSanitizedHyperlinks prevCell

/-- The state of a row of `writeChangedCells`. -/
structure ChangedRow where
  writer : Writer
  invalidated : Nat
  toSkip : Nat
  nextInlineCol : Option Nat

/-- One round of the inner loop of `writeChangedCells`. -/
def writeChangedCell (frame prev : FrameData) (row : Nat) (state : ChangedRow) (col : Nat) :
    ChangedRow :=
  let cell := cellAt frame row col
  let prevCell := cellAt prev row col
  let changed := !cellsVisuallyEqual (sanitizedFrameHyperlinks frame) cell
    (sanitizedFrameHyperlinks prev) prevCell
  let drawn :=
    if !cell.skip && (changed || decide (0 < state.invalidated)) && state.toSkip == 0 then
      let cursorPosition :=
        if state.nextInlineCol ≠ some col ∨ 0 < state.invalidated then some (col, row) else none
      { state with
        writer := writeCell frame state.writer cursorPosition cell
        nextInlineCol := inlineCol unicodeWidth cell col }
    else state
  let affectedWidth := max (cellWidth unicodeWidth cell) (cellWidth unicodeWidth prevCell)
  { drawn with
    toSkip := cellWidth unicodeWidth cell - 1
    invalidated := max affectedWidth state.invalidated - 1 }

def writeChangedRow (frame prev : FrameData) (writer : Writer) (row : Nat) : Writer :=
  ((List.range frame.width.toNat).foldl (writeChangedCell unicodeWidth frame prev row)
    ⟨writer, 0, 0, none⟩).writer

def writeChangedCells (frame prev : FrameData) : List Command :=
  let drawn :=
    (List.range frame.height.toNat).foldl (writeChangedRow unicodeWidth frame prev) Writer.new
  let closed := closeHyperlink drawn
  if closed.lastSgr = "" then closed.out else closed.out ++ [resetStyle]

end

/-! ### The host terminal -/

/-- A symbol as a column shows it. -/
structure Glyph where
  symbol : String
  style : String
  hyperlink : Option String
deriving DecidableEq

structure HostTerminal where
  columns : Nat
  cursor : Nat × Nat
  style : String
  hyperlink : Option String
  lines : Nat → Line Glyph

section

variable (unicodeWidth : String → Nat) (erase : Glyph → Glyph)

/-- A symbol is written at the cursor, which then moves behind it and stays in the row. -/
def HostTerminal.print (terminal : HostTerminal) (symbol : String) : HostTerminal :=
  let (col, row) := terminal.cursor
  let width := symbolWidth unicodeWidth symbol
  let glyph : Glyph := ⟨symbol, terminal.style, terminal.hyperlink⟩
  let line := (terminal.lines row).put erase terminal.columns col width glyph
  { terminal with
    cursor := (min (col + width) (terminal.columns - 1), row)
    lines := Function.update terminal.lines row line }

def HostTerminal.exec (terminal : HostTerminal) : Command → HostTerminal
  | .cursorPosition col row => { terminal with cursor := (col, row) }
  | .sgr text => { terminal with style := text }
  | .hyperlink uri => { terminal with hyperlink := some uri }
  | .endHyperlink => { terminal with hyperlink := none }
  | .print symbol => terminal.print unicodeWidth erase symbol

def HostTerminal.run (terminal : HostTerminal) (commands : List Command) : HostTerminal :=
  commands.foldl (HostTerminal.exec unicodeWidth erase) terminal

end

end Herden.Runtime.RenderAnsi
