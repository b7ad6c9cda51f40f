import Herden.Lib.Machine
import Herden.Runtime.RenderAnsi

/-!
# `Herden.Runtime.Blit`: the frame a client has on its host terminal

From `BlitEncoder` in `runtime/src/protocol/render_ansi.rs`. The encoder keeps the frame it sent
last and turns the next one into the bytes that lead there. A surface patch is sent without a
frame of its own: `encodePatch` writes the rows and `commitPatch` puts them into the frame that is
kept. Where the client draws the cursor itself, the frame holds the cell of the cursor reversed,
and `patchRowsWithDrawnCursor` adds to the rows what the move of the cursor changes.

Bytes are given as the text they encode. The width of a symbol and whether the cursor is anchored
again behind the synchronized part depend on the platform and are parameters. A column that
overflows wraps here, as it does without overflow checks.
-/

namespace Herden.Runtime.Blit

open Herden.Lib
open Herden.Lib.Machine (saturatingAdd)
open Herden.Runtime.Wire
open Herden.Runtime.RenderAnsi

/-! ### The cursor -/

/-- `saturating_sub(1)`. -/
def before (n : UInt16) : UInt16 := if n = 0 then 0 else n - 1

def clamp (last x : UInt16) : UInt16 := if x ≤ last then x else last

def clampCursorPosition (frame : FrameData) (x y : UInt16) : UInt16 × UInt16 :=
  (clamp (before frame.width) x, clamp (before frame.height) y)

def normalizeCursorShape (shape : UInt8) : UInt8 := if shape ≤ 6 then shape else 0

def defaultHiddenCursorPosition (frame : FrameData) : UInt16 × UInt16 :=
  (before frame.width, before frame.height)

structure HostCursorState where
  position : UInt16 × UInt16
  visible : Bool
  shape : UInt8

/-- What the host's cursor is to be, and the position that is remembered for frames without a
cursor. -/
def resolveHostCursorState (frame : FrameData) (lastVisibleCursor : Option (UInt16 × UInt16)) :
    HostCursorState × Option (UInt16 × UInt16) :=
  match frame.cursor with
  | some cursor =>
      let position := clampCursorPosition frame cursor.x cursor.y
      let shape := normalizeCursorShape cursor.shape
      if cursor.visible then (⟨position, true, shape⟩, some position)
      else (⟨position, false, shape⟩, lastVisibleCursor)
  | none =>
      let position :=
        (lastVisibleCursor.map fun last => clampCursorPosition frame last.1 last.2).getD
          (defaultHiddenCursorPosition frame)
      (⟨position, false, 0⟩, lastVisibleCursor)

def cursorPositionText (position : UInt16 × UInt16) : String :=
  (Command.cursorPosition position.1.toNat position.2.toNat).text

def cursorVisibilityText (visible : Bool) : String :=
  if visible then "\x1b[?25h" else "\x1b[?25l"

/-- The text that sets the cursor, and the shape that is set after it. -/
def writeHostCursorState (cursor : HostCursorState) (lastShape : UInt8) : String × UInt8 :=
  let position := cursorPositionText cursor.position
  let visibility := cursorVisibilityText cursor.visible
  if cursor.shape ≠ lastShape then
    (position ++ "\x1b[" ++ toString cursor.shape.toNat ++ " q" ++ visibility, cursor.shape)
  else (position ++ visibility, lastShape)

def writeImeAnchorCursorState (cursor : HostCursorState) : String :=
  cursorPositionText cursor.position ++ cursorVisibilityText cursor.visible

/-! ### The encoder -/

structure EncodedBlit where
  bytes : String
  full : Bool
  nextLastVisibleCursor : Option (UInt16 × UInt16)
  nextLastCursorShape : UInt8
  suppressVisibleCursor : Bool

structure BlitEncoder where
  lastFrame : Option FrameData := none
  lastVisibleCursor : Option (UInt16 × UInt16) := none
  lastCursorShape : UInt8 := 0
  suppressVisibleCursor : Bool := false

def frameCellIndex (frame : FrameData) (x y : UInt16) : Option Nat :=
  if x < frame.width ∧ y < frame.height then
    some (y.toNat * frame.width.toNat + x.toNat)
  else none

def cellsEqual (a b : CellData) : Bool :=
  a.symbol == b.symbol && a.fg == b.fg && a.bg == b.bg && a.modifier == b.modifier
    && a.hyperlink == b.hyperlink

/-- Change the cell at a position in the last row that has it. -/
def patchCellMut (change : CellData → CellData) (x y : UInt16) :
    List PaneSurfacePatchRow → Option (List PaneSurfacePatchRow)
  | [] => none
  | row :: rest =>
      match patchCellMut change x y rest with
      | some rest => some (row :: rest)
      | none =>
          if row.y ≠ y ∨ x < row.x then none
          else
            let offset := (x - row.x).toNat
            if offset < row.cells.length then
              some ({ row with cells := row.cells.modify offset change } :: rest)
            else none

/-- The lexicographic order of spans. -/
def spanLe (a b : Nat × Nat × Nat) : Bool :=
  decide (a.1 < b.1 ∨ a.1 = b.1 ∧ (a.2.1 < b.2.1 ∨ a.2.1 = b.2.1 ∧ a.2.2 ≤ b.2.2))

def patchRowsOverlap (rows : List PaneSurfacePatchRow) : Bool :=
  if rows.length < 2 then false
  else
    let spans := rows.map fun row =>
      (row.y.toNat, row.x.toNat, saturatingAdd 16 row.x.toNat (row.cells.length % 2 ^ 16))
    let spans := spans.mergeSort spanLe
    (spans.zip spans.tail).any fun (a, b) => a.1 == b.1 && b.2.1 < a.2.2

/-- Where the cells of a row begin in the frame. -/
def rowStart (frame : FrameData) (row : PaneSurfacePatchRow) : Nat :=
  row.y.toNat * frame.width.toNat + row.x.toNat

def patchRowFits (frame : FrameData) (row : PaneSurfacePatchRow) : Bool :=
  let len := row.cells.length
  if 2 ^ 16 ≤ len then false
  else if frame.height ≤ row.y || frame.width.toNat < saturatingAdd 16 row.x.toNat len
      || row.cells.any fun cell => cell.hyperlink.isSome then false
  else
    let start := rowStart frame row
    decide (start + len ≤ frame.cells.length)
      && ((frame.cells.drop start).take len).all fun cell => cell.hyperlink.isNone

/-- Write the rows into a frame. The result tells whether all of them were inside the frame. -/
def writeRows (frame : FrameData) : List PaneSurfacePatchRow → FrameData × Bool
  | [] => (frame, true)
  | row :: rest =>
      let start := rowStart frame row
      if start + row.cells.length ≤ frame.cells.length then
        writeRows { frame with cells := setSlice frame.cells start row.cells } rest
      else (frame, false)

def reverseCell (cell : CellData) : CellData :=
  { cell with modifier := cell.modifier ^^^ reversedModifier }

/-- The cell of a visible cursor. -/
def drawnPosition (frame : FrameData) (cursor : Option CursorState) : Option (UInt16 × UInt16) :=
  (cursor.filter fun cursor => cursor.visible).map fun cursor =>
    clampCursorPosition frame cursor.x cursor.y

/-- The index of a cell stays below `2 ^ 32`, so the saturating product and sum are exact. -/
def frameWithDrawnCursor (frame : FrameData) : FrameData :=
  match drawnPosition frame frame.cursor with
  | some (x, y) =>
      let index := y.toNat * frame.width.toNat + x.toNat
      { frame with cells := frame.cells.modify index reverseCell }
  | none => frame

/-! ### Drawing the rows of a patch -/

section

variable (unicodeWidth : String → Nat) (repeatImeAnchor : Bool)

/-- One round of the inner loop of `blitPatchTo`. -/
def blitPatchCell (frame : FrameData) (row : PaneSurfacePatchRow) (state : ChangedRow)
    (item : CellData × Nat) : ChangedRow :=
  let (cell, offset) := item
  let col := (row.x + UInt16.ofNat offset).toNat
  let prevCell := cellAt frame row.y.toNat col
  let drawn :=
    if !cell.skip && (!cellsEqual cell prevCell || decide (0 < state.invalidated))
        && state.toSkip == 0 then
      let cursorPosition :=
        if state.nextInlineCol ≠ some col ∨ 0 < state.invalidated then some (col, row.y.toNat)
        else none
      { state with
        writer := writeCell frame state.writer cursorPosition cell
        nextInlineCol :=
          if isAscii cell.symbol && cellWidth unicodeWidth cell == 1 then
            some (saturatingAdd 16 col 1)
          else none }
    else state
  let affectedWidth := max (cellWidth unicodeWidth cell) (cellWidth unicodeWidth prevCell)
  { drawn with
    toSkip := cellWidth unicodeWidth cell - 1
    invalidated := max affectedWidth state.invalidated - 1 }

def blitPatchRow (frame : FrameData) (writer : Writer) (row : PaneSurfacePatchRow) : Writer :=
  (row.cells.zipIdx.foldl (blitPatchCell unicodeWidth frame row) ⟨writer, 0, 0, none⟩).writer

def commandsText (commands : List Command) : String := String.join (commands.map Command.text)

/-- The end of a frame or a patch: the cursor is set, the synchronized part ends, and the cursor
may be anchored again. The text comes with the position and the shape to remember. -/
def finishBlit (frame : FrameData) (lastVisibleCursor : Option (UInt16 × UInt16))
    (lastCursorShape : UInt8) (suppressVisibleCursor : Bool) :
    String × Option (UInt16 × UInt16) × UInt8 :=
  let (resolved, lastVisible) := resolveHostCursorState frame lastVisibleCursor
  let hostCursor :=
    if suppressVisibleCursor && resolved.visible then { resolved with visible := false }
    else resolved
  let (text, lastShape) := writeHostCursorState hostCursor lastCursorShape
  let anchor := if repeatImeAnchor then writeImeAnchorCursorState hostCursor else ""
  (text ++ "\x1b[?2026l" ++ anchor, lastVisible, lastShape)

def blitPatchTo (frame : FrameData) (rows : List PaneSurfacePatchRow)
    (cursor : Option CursorState) (lastVisibleCursor : Option (UInt16 × UInt16))
    (lastCursorShape : UInt8) (suppressVisibleCursor : Bool) :
    String × Option (UInt16 × UInt16) × UInt8 :=
  let closed := closeHyperlink (rows.foldl (blitPatchRow unicodeWidth frame) Writer.new)
  let cells := if closed.lastSgr = "" then closed.out else closed.out ++ [resetStyle]
  let cursorFrame : FrameData :=
    { cells := [], width := frame.width, height := frame.height, cursor, hyperlinks := [],
      graphics := [] }
  let (finish, memory) := finishBlit repeatImeAnchor cursorFrame lastVisibleCursor lastCursorShape
    suppressVisibleCursor
  ("\x1b[?2026h\x1b[?25l\x1b]8;;\x1b\\" ++ commandsText cells ++ finish, memory)

def blitFrameTo (frame : FrameData) (prev : Option FrameData)
    (lastVisibleCursor : Option (UInt16 × UInt16)) (lastCursorShape : UInt8)
    (clearBeforeFullRedraw suppressVisibleCursor : Bool) :
    String × Option (UInt16 × UInt16) × UInt8 :=
  let all :=
    (if clearBeforeFullRedraw then "\x1b[2J" else "")
      ++ commandsText (writeAllCells unicodeWidth frame)
  let cells :=
    match prev with
    | none => all
    | some prev =>
        if prev.width ≠ frame.width || prev.height ≠ frame.height then all
        else commandsText (writeChangedCells unicodeWidth frame prev)
  let (finish, memory) := finishBlit repeatImeAnchor frame lastVisibleCursor lastCursorShape
    suppressVisibleCursor
  ("\x1b[?2026h\x1b[?25l\x1b]8;;\x1b\\" ++ cells ++ finish, memory)

/-! ### Frames and patches -/

def BlitEncoder.encodeInner (self : BlitEncoder) (frame : FrameData)
    (repaint suppressVisibleCursor : Bool) : EncodedBlit :=
  let prev := if repaint then none else self.lastFrame
  let full := repaint || prev.isNone
    || prev.any fun p => p.width ≠ frame.width || p.height ≠ frame.height
  let (bytes, lastVisible, lastShape) := blitFrameTo unicodeWidth repeatImeAnchor frame prev
    self.lastVisibleCursor self.lastCursorShape self.lastFrame.isNone suppressVisibleCursor
  ⟨bytes, full, lastVisible, lastShape, suppressVisibleCursor⟩

def BlitEncoder.encode (self : BlitEncoder) (frame : FrameData) (repaint : Bool) : EncodedBlit :=
  self.encodeInner unicodeWidth repeatImeAnchor frame repaint false

def BlitEncoder.encodeWithSuppressedVisibleCursor (self : BlitEncoder) (frame : FrameData)
    (repaint : Bool) : EncodedBlit :=
  self.encodeInner unicodeWidth repeatImeAnchor frame repaint true

/-- Every field is replaced. -/
def BlitEncoder.commit (frame : FrameData) (encoded : EncodedBlit) : BlitEncoder where
  lastFrame := some frame
  lastVisibleCursor := encoded.nextLastVisibleCursor
  lastCursorShape := encoded.nextLastCursorShape
  suppressVisibleCursor := encoded.suppressVisibleCursor

def BlitEncoder.encodePatch (self : BlitEncoder) (rows : List PaneSurfacePatchRow)
    (cursor : Option CursorState) (suppressVisibleCursor : Bool) : Option EncodedBlit := do
  let frame ← self.lastFrame
  if (rows.any fun row => !patchRowFits frame row) || patchRowsOverlap rows then none
  else if rows.isEmpty && cursor == frame.cursor
      && self.suppressVisibleCursor == suppressVisibleCursor then
    return ⟨"", false, self.lastVisibleCursor, self.lastCursorShape, suppressVisibleCursor⟩
  else
    let (bytes, lastVisible, lastShape) := blitPatchTo unicodeWidth repeatImeAnchor frame rows
      cursor self.lastVisibleCursor self.lastCursorShape suppressVisibleCursor
    return ⟨bytes, false, lastVisible, lastShape, suppressVisibleCursor⟩

end

/-- A row with the reversed cell of the frame at a position. -/
def reversedRow (frame : FrameData) (x y : UInt16) : Option PaneSurfacePatchRow := do
  let cell ← frame.cells[← frameCellIndex frame x y]?
  return { x, y, cells := [reverseCell cell] }

/-- The first half of `patchRowsWithDrawnCursor`: where the cursor was, its cell is put back, unless
a row writes it anyway. -/
def eraseCursor (frame : FrameData) (previous next : Option (UInt16 × UInt16))
    (rows : List PaneSurfacePatchRow) : Option (List PaneSurfacePatchRow) :=
  match previous.filter fun position => some position ≠ next with
  | some (x, y) =>
      match patchCellMut id x y rows with
      | some _ => some rows
      | none => (reversedRow frame x y).map fun row => rows ++ [row]
  | none => some rows

/-- The second half: where the cursor comes to stand, the cell is reversed. -/
def drawCursor (frame : FrameData) (previous next : Option (UInt16 × UInt16))
    (rows : List PaneSurfacePatchRow) : Option (List PaneSurfacePatchRow) :=
  match next with
  | some (x, y) =>
      match patchCellMut reverseCell x y rows with
      | some rows => some rows
      | none =>
          if previous ≠ next then (reversedRow frame x y).map fun row => rows ++ [row]
          else some rows
  | none => some rows

def BlitEncoder.patchRowsWithDrawnCursor (self : BlitEncoder) (rows : List PaneSurfacePatchRow)
    (cursor : Option CursorState) : Option (List PaneSurfacePatchRow) := do
  let frame ← self.lastFrame
  let previous := drawnPosition frame frame.cursor
  let next := drawnPosition frame cursor
  drawCursor frame previous next (← eraseCursor frame previous next rows)

def BlitEncoder.commitPatch (self : BlitEncoder) (rows : List PaneSurfacePatchRow)
    (cursor : Option CursorState) (encoded : EncodedBlit) : BlitEncoder × Bool :=
  match self.lastFrame with
  | none => (self, false)
  | some frame =>
      match writeRows frame rows with
      | (frame, false) => ({ self with lastFrame := some frame }, false)
      | (frame, true) => (BlitEncoder.commit { frame with cursor } encoded, true)

/-! ### Using the encoder -/

/-- What a client does with its encoder: present a frame, or a patch where one is possible. -/
inductive Output where
  | frame (frame : FrameData) (repaint suppressVisibleCursor : Bool)
  | patch (rows : List PaneSurfacePatchRow) (cursor : Option CursorState)
      (suppressVisibleCursor : Bool)

section

variable (unicodeWidth : String → Nat) (repeatImeAnchor : Bool)

/-- Encode the output and commit it. A patch that is not possible leaves the encoder alone. -/
def BlitEncoder.present (self : BlitEncoder) : Output → Option (BlitEncoder × Unit)
  | .frame frame repaint suppressVisibleCursor =>
      some (.commit frame (self.encodeInner unicodeWidth repeatImeAnchor frame repaint
        suppressVisibleCursor), ())
  | .patch rows cursor suppressVisibleCursor =>
      match self.encodePatch unicodeWidth repeatImeAnchor rows cursor suppressVisibleCursor with
      | some encoded => some ((self.commitPatch rows cursor encoded).1, ())
      | none => some (self, ())

end

end Herden.Runtime.Blit
