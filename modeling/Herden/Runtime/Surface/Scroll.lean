import Herden.Lib.Base64
import Herden.Lib.Grid
import Herden.Runtime.Wire

/-!
# `Herden.Runtime.Surface.Scroll`: patches with scrolled panes

The model of `protocol/surface_scroll.rs`. The sender looks, pane by pane, for a vertical shift
that explains most of a patch, and sends the shift with the rows that still differ after it.
The receiver moves the rows of its own grid, writes the remaining ones, and expands the message
into a patch without shifts.

Coordinates are the machine's 16-bit numbers in the data and naturals in the arithmetic: the
source converts them to `usize` first, or adds them only where the sum is known to fit. Writing
a slice or exchanging cells outside the grid panics, which is `none` here.
-/

namespace Herden.Runtime.Surface.Scroll

open Herden.Lib
open Herden.Lib.Bincode
open Herden.Runtime.Wire

def messageKind : String := "endpoint.surface-scroll.v1"

def maxScrolls : Nat := 64

def scrollBytes : Nat := 10

structure SurfaceScroll where
  rect : SurfaceRect
  shift : Int16

structure ScrollPatch where
  scrolls : List SurfaceScroll
  patch : PaneSurfacePatch

/-! ### Moving rows -/

/-- The row swaps that define a scroll, in order. -/
def forEachSwap (height : Nat) (shift : Int16) : List (Nat × Nat) :=
  let distance := shift.toInt.natAbs
  if shift > 0 then (List.range (height - distance)).map fun y => (y, y + distance)
  else (List.range' distance (height - distance)).reverse.map fun y => (y, y - distance)

def scrollFits (scroll : SurfaceScroll) (width height : UInt16) : Bool :=
  let rect := scroll.rect
  rect.width > 0 && rect.height ≥ 2 && scroll.shift ≠ 0
    && scroll.shift.toInt.natAbs < rect.height.toNat
    && rect.x.toNat + rect.width.toNat ≤ width.toNat
    && rect.y.toNat + rect.height.toNat ≤ height.toNat

def rectsOverlap (a b : SurfaceRect) : Bool :=
  a.x.toNat < b.x.toNat + b.width.toNat && b.x.toNat < a.x.toNat + a.width.toNat
    && a.y.toNat < b.y.toNat + b.height.toNat && b.y.toNat < a.y.toNat + a.height.toNat

def scrollsDisjoint : List SurfaceScroll → Bool
  | [] => true
  | scroll :: rest =>
      rest.all (fun other => !rectsOverlap scroll.rect other.rect) && scrollsDisjoint rest

def rowFits (row : PaneSurfacePatchRow) (width height : UInt16) : Bool :=
  row.y < height && row.x.toNat + row.cells.length ≤ width.toNat

/-- Apply one validated scroll to a row-major grid. -/
def applyScroll (cells : List CellData) (width : UInt16) (scroll : SurfaceScroll) :
    Option (List CellData) :=
  (forEachSwap scroll.rect.height.toNat scroll.shift).foldlM
    (fun cells swap => scroll.rect.region.swapRows? width.toNat cells swap.1 swap.2) cells

/-! ### Finding a shift -/

/-- One pane row as the patch leaves it: committed cells under the patch rows that touch it. -/
structure RowView where
  base : List CellData
  left : Nat
  spans : List PaneSurfacePatchRow

/-- The cell at an offset from the left: the last span that covers it decides. -/
def RowView.cell (self : RowView) (x : Nat) : CellData :=
  let column := self.left + x
  match self.spans.reverse.find? fun span =>
      column ≥ span.x.toNat && column < span.x.toNat + span.cells.length with
  | some span => span.cells.getD (column - span.x.toNat) default
  | none => self.base.getD x default

def rotateLeft (value : UInt64) (bits : UInt64) : UInt64 :=
  value <<< bits ||| value >>> (64 - bits)

def mix (hash value : UInt64) : UInt64 := (rotateLeft hash 5 ^^^ value) * 0x517cc1b727220a95

def cellHash (hash : UInt64) (cell : CellData) : UInt64 :=
  let hash := cell.symbol.toByteArray.data.toList.foldl
      (fun hash byte => mix hash byte.toUInt64) hash
  let hash := mix hash (cell.fg.toUInt64 <<< 32 ||| cell.bg.toUInt64)
  mix hash (cell.modifier.toUInt64 ||| (if cell.skip then (1 : UInt64) else 0) <<< 16
    ||| (cell.hyperlink.elim (0 : UInt64) fun index => index.toUInt64 + 1) <<< 17)

def RowView.hash (self : RowView) : UInt64 :=
  (List.range self.base.length).foldl (fun hash x => cellHash hash (self.cell x)) 0

def fullyInside (row : PaneSurfacePatchRow) (rect : SurfaceRect) : Bool :=
  row.y ≥ rect.y && row.y.toNat - rect.y.toNat < rect.height.toNat && row.x ≥ rect.x
    && row.x.toNat + row.cells.length ≤ rect.x.toNat + rect.width.toNat

/-- The pane's cells in one row of the committed frame. -/
def previous (frame : FrameData) (rect : SurfaceRect) (y : Nat) : List CellData :=
  (frame.cells.drop ((rect.y.toNat + y) * frame.width.toNat + rect.x.toNat)).take rect.width.toNat

def rowTouches (row : PaneSurfacePatchRow) (rect : SurfaceRect) : Bool :=
  row.y ≥ rect.y && row.y.toNat - rect.y.toNat < rect.height.toNat
    && row.x.toNat < rect.x.toNat + rect.width.toNat
    && row.x.toNat + row.cells.length > rect.x.toNat

/-- The pane's row as the patch leaves it. -/
def rowView (frame : FrameData) (rect : SurfaceRect) (rows : List PaneSurfacePatchRow) (y : Nat) :
    RowView where
  base := previous frame rect y
  left := rect.x.toNat
  spans := rows.filter fun row => rowTouches row rect && row.y.toNat - rect.y.toNat = y

/-- How many rows a shift explains, by the hashes of the old and the new rows. -/
def shiftMatches (oldHashes newHashes : List UInt64) (height : Nat) (shift : Int) : Nat :=
  (List.range height).countP fun (y : Nat) =>
    let source := (y : Int) + shift
    source ≥ 0 && source.toNat < height && newHashes[y]? = oldHashes[source.toNat]?

/-- The loop over distances, in both directions, that keeps the best shift and its count. -/
def bestShift (matching : Int → Nat) (height : Nat) : List Nat → Int × Nat → Int × Nat
  | [], best => best
  | distance :: rest, best =>
      if height - distance ≤ best.2 then best
      else
        let consider (best : Int × Nat) (shift : Int) : Int × Nat :=
          if matching shift > best.2 then (shift, matching shift) else best
        bestShift matching height rest (consider (consider best distance) (-distance))

/-- A run of changed cells as a row of the patch. -/
def residualRow (rect : SurfaceRect) (y : Nat) (run : Nat × List CellData) :
    PaneSurfacePatchRow where
  x := rect.x + UInt16.ofNat run.1
  y := rect.y + UInt16.ofNat y
  cells := run.2

/-- Collect the rows of a pane that differ after its rows were reordered, while they are fewer
than half the cells of the patch. -/
def residualRows (frame : FrameData) (rect : SurfaceRect) (rows : List PaneSurfacePatchRow)
    (patchCells : Nat) (order : List Nat) : Option (Nat × List PaneSurfacePatchRow) :=
  order.zipIdx.foldlM (fun collected (source, y) =>
    let target := rowView frame rect rows y
    let runs := changedRuns (previous frame rect source)
      ((List.range rect.width.toNat).map target.cell)
    runs.foldlM (fun (residualCells, residual) run =>
      let residualCells := residualCells + run.2.length
      if residualCells * 2 ≥ patchCells then none
      else some (residualCells, residual ++ [residualRow rect y run])) collected) (0, [])

/-- The shift that best explains one pane's patch, with the rows that still differ after it. -/
def paneScroll (frame : FrameData) (rect : SurfaceRect) (rows : List PaneSurfacePatchRow) :
    Option (Int16 × List PaneSurfacePatchRow) := do
  let height := rect.height.toNat
  let next := (List.range height).map (rowView frame rect rows)
  let patchCells := ((rows.filter fun row => rowTouches row rect && fullyInside row rect).map
    fun row => row.cells.length).sum
  -- A shift can only beat the plain patch when at least two rows changed.
  guard (2 ≤ next.countP fun row => !row.spans.isEmpty)
  let oldHashes := next.map fun row => row.base.foldl cellHash 0
  let newHashes := (next.zip oldHashes).map fun (row, old) =>
    if row.spans.isEmpty then old else row.hash
  let matching := shiftMatches oldHashes newHashes height
  let best := bestShift matching height (List.range' 1 (height - 1)) (0, matching 0)
  guard (best.1 ≠ 0)
  guard (Int16.minValue.toInt ≤ best.1 ∧ best.1 ≤ Int16.maxValue.toInt)
  let shift := Int16.ofInt best.1
  let order ← (forEachSwap height shift).foldlM (fun order swap => swapAt? order swap.1 swap.2)
    (List.range height)
  let (_, residual) ← residualRows frame rect rows patchCells order
  return (shift, residual)

/-! ### The message -/

/-- What the loop over the panes of a patch has found. -/
structure Found where
  scrolls : List SurfaceScroll
  residual : List PaneSurfacePatchRow

/-- One pane. A region that moved, or that the frame does not hold, is not scrolled, and
nothing is after the last scroll the message has room for. -/
def Found.visit (last : PaneSurfaceFrame) (rows : List PaneSurfacePatchRow) (self : Found)
    (pane : PaneSurfacePane) : Found :=
  let rect := pane.innerRect
  let committed := last.panes.any fun existing =>
    existing.paneId = pane.paneId && existing.innerRect = rect
  if self.scrolls.length = maxScrolls then self
  else if !committed || !scrollFits ⟨rect, 1⟩ last.frame.width last.frame.height then self
  else
    match paneScroll last.frame rect rows with
    | none => self
    | some (shift, residual) => ⟨self.scrolls ++ [⟨rect, shift⟩], self.residual ++ residual⟩

/-- One scroll on the wire: its rectangle and its shift, least significant bytes first. -/
def SurfaceScroll.bytes (self : SurfaceScroll) : Bytes :=
  [self.rect.x, self.rect.y, self.rect.width, self.rect.height, self.shift.toUInt16].flatMap
    fun value => leBytes 2 value.toNat

def message (last : PaneSurfaceFrame) (patch : PaneSurfacePatch) : Option ServerMessage := do
  let frame := last.frame
  guard (frame.cells.length = frame.width.toNat * frame.height.toNat)
  let { scrolls, residual } := patch.panes.foldl (Found.visit last patch.rows) ⟨[], []⟩
  guard (scrolls ≠ [])
  -- Rows that straddle a scrolled region keep their final values, so they stay in the patch
  -- and apply after the scroll.
  let rows := (patch.rows.filter fun row =>
    !scrolls.any fun scroll => fullyInside row scroll.rect) ++ residual
  let inner := ServerMessage.paneSurfacePatch { patch with rows }
  let framed ← (writeMessage inner.tokens).toOption
  let bytes := UInt8.ofNat scrolls.length :: scrolls.flatMap SurfaceScroll.bytes ++ framed
  let message := ServerMessage.endpointControl messageKind (Base64.encode bytes)
  guard (encodedSize message.tokens ≤ maxFrameSize)
  return message

/-! ### Decoding -/

inductive ScrollError where
  | exceedsFrameLimit
  | invalidBase64
  | empty
  | invalidCount
  | truncated
  | trailingBytes
  | noPatch
  | invalidPatch (error : FramingError)
  | invalidGrid
  | exceedsBaseline

/-- The scroll that ten bytes describe. -/
def SurfaceScroll.ofBytes (chunk : Bytes) : SurfaceScroll :=
  let value (offset : Nat) : UInt16 := UInt16.ofNat (ofLeBytes ((chunk.drop offset).take 2))
  ⟨⟨value 0, value 2, value 4, value 6⟩, (value 8).toInt16⟩

/-- So many scrolls from the front of the bytes. -/
def scrollsOfBytes : Nat → Bytes → List SurfaceScroll
  | 0, _ => []
  | count + 1, bytes =>
      .ofBytes (bytes.take scrollBytes) :: scrollsOfBytes count (bytes.drop scrollBytes)

def decode (data : String) : Except ScrollError ScrollPatch :=
  if data.utf8ByteSize > (Base64.encodedLen maxFrameSize).getD (2 ^ 64 - 1) then
    .error .exceedsFrameLimit
  else
    match Base64.decode data with
    | none => .error .invalidBase64
    | some [] => .error .empty
    | some (first :: bytes) =>
        let count := first.toNat
        if count = 0 || count > maxScrolls then .error .invalidCount
        else if bytes.length < count * scrollBytes then .error .truncated
        else
          let scrolls := scrollsOfBytes count bytes
          let (decoded, rest) :=
            readMessage ServerMessage.decode (bytes.drop (count * scrollBytes)) maxFrameSize
          if rest ≠ [] then .error .trailingBytes
          else
            match decoded with
            | .ok (.paneSurfacePatch patch) => .ok { scrolls, patch }
            | .ok _ => .error .noPatch
            | .error error => .error (.invalidPatch error)

/-! ### Applying -/

/-- The spans of a row that no covered interval reaches, from a cursor on. The intervals are
sorted. -/
def uncoveredSpans (row : PaneSurfacePatchRow) (rowEnd : Nat) :
    Nat → List (Nat × Nat) → List PaneSurfacePatchRow
  | _, [] => []
  | cursor, (left, right) :: rest =>
      let spanEnd := max cursor (min left rowEnd)
      let span : List PaneSurfacePatchRow :=
        if spanEnd > cursor then
          [{ x := UInt16.ofNat cursor
             y := row.y
             cells := (row.cells.drop (cursor - row.x.toNat)).take (spanEnd - cursor) }]
        else []
      span ++ uncoveredSpans row rowEnd (max cursor (min right rowEnd)) rest

/-- The spans of a row not covered by any scrolled region. -/
def outsideScrolls (row : PaneSurfacePatchRow) (scrolls : List SurfaceScroll) :
    List PaneSurfacePatchRow :=
  let covered := ((scrolls.map SurfaceScroll.rect).filter fun rect =>
    row.y ≥ rect.y && row.y.toNat - rect.y.toNat < rect.height.toNat).map fun rect =>
      (rect.x.toNat, rect.x.toNat + rect.width.toNat)
  if covered = [] then [row]
  else
    let rowEnd := row.x.toNat + row.cells.length
    let sorted := covered.mergeSort fun a b => a.1 < b.1 || (a.1 = b.1 && a.2 ≤ b.2)
    uncoveredSpans row rowEnd row.x.toNat (sorted ++ [(rowEnd, rowEnd)])

/-- The rows of a scrolled region, each once with its final cells. -/
def scrolledRows (cells : List CellData) (width : UInt16) (rect : SurfaceRect) :
    List PaneSurfacePatchRow :=
  (List.range' rect.y.toNat rect.height.toNat).map fun y =>
    { x := rect.x
      y := UInt16.ofNat y
      cells := (cells.drop (y * width.toNat + rect.x.toNat)).take rect.width.toNat }

/-- Apply a decoded scroll patch to a grid, and expand it into an ordinary patch. `none` is a
panic. -/
def apply (cells : List CellData) (width height : UInt16) (scrollPatch : ScrollPatch) :
    Option (Except ScrollError (List CellData × PaneSurfacePatch)) :=
  let { scrolls, patch } := scrollPatch
  if cells.length ≠ width.toNat * height.toNat then some (.error .invalidGrid)
  else if !scrolls.all (fun scroll => scrollFits scroll width height)
      || !scrollsDisjoint scrolls
      || !patch.rows.all (fun row => rowFits row width height) then
    some (.error .exceedsBaseline)
  else do
    let cells ← scrolls.foldlM (fun cells scroll => applyScroll cells width scroll) cells
    let cells ← applyRows cells width patch.rows
    let rows := patch.rows.flatMap (outsideScrolls · scrolls)
      ++ scrolls.flatMap fun scroll => scrolledRows cells width scroll.rect
    return .ok (cells, { patch with rows })

end Herden.Runtime.Surface.Scroll
