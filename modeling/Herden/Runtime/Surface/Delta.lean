import Herden.Lib.Base64
import Herden.Lib.Grid
import Herden.Runtime.Wire

/-!
# `Herden.Runtime.Surface.Delta`: sparse updates of a surface

The model of `protocol/surface_delta.rs` and of its decoder, `surface_delta/decode.rs`. The
sender recomputes the whole surface, finds the runs of cells that differ from the last one, and
sends the metadata with those runs in place of the grids. The receiver's decoder is written by
hand: it checks every count before it allocates, and every span against the grid it is for.

A span borrows its cells in the source and is otherwise a patch row, so both are
`PaneSurfacePatchRow` here. Sizes are those of `Lib.Bincode`; writing to a `SizeWriter` does not
fail.
-/

namespace Herden.Runtime.Surface.Delta

open Herden.Lib
open Herden.Lib.Bincode
open Herden.Runtime.Wire

def messageKind : String := "endpoint.surface-delta.v1"

def maxSpans : Nat := 4096

/-! ### The message -/

inductive GridUpdate where
  | patch (rows : List PaneSurfacePatchRow)
  | replace (cells : List CellData)

structure SurfaceDelta where
  baseProjectionRevision : UInt64
  baseSurfaceRevision : UInt64
  surface : PaneSurfaceFrame
  rows : List PaneSurfacePatchRow
  popupCells : Option GridUpdate

/-! ### Changed cells -/

/-- A run of changed cells in row `y`. -/
def cellSpan (y : Nat) (run : Nat × List CellData) : PaneSurfacePatchRow where
  x := UInt16.ofNat run.1
  y := UInt16.ofNat y
  cells := run.2

/-- The runs in which two grids of one size differ, row by row. -/
def differingSpans (last next : List CellData) (width : Nat) : List PaneSurfacePatchRow :=
  ((chunks width last).zip (chunks width next)).zipIdx.flatMap fun row =>
    (changedRuns row.1.1 row.1.2).map (cellSpan row.2)

/-- Keep one more span, unless there are too many or their bytes alone outgrow the full
surface. -/
def addSpan (fullSize : Nat) (collected : Nat × List PaneSurfacePatchRow)
    (span : PaneSurfacePatchRow) : Option (Nat × List PaneSurfacePatchRow) :=
  let size := collected.1 + encodedSize span.tokens
  -- This lower bound excludes metadata, so aborting cannot discard a smaller delta.
  if collected.2.length = maxSpans || (Base64.encodedLen size).all
      (fun size => size ≥ fullSize) then
    none
  else some (size, collected.2 ++ [span])

def changedRows (last next : List CellData) (width : UInt16) (fullSize : Nat) :
    Option (List PaneSurfacePatchRow) :=
  if width = 0 then some []
  else ((differingSpans last next width.toNat).foldlM (addSpan fullSize) (0, [])).map Prod.snd

/-! ### Limits -/

def maxGridDimension : UInt16 := 4096

def maxGridCells : Nat := 1000000

def maxPanes : Nat := 4096

def maxSplits : Nat := 4096

def maxSplitPath : Nat := 4096

def maxHyperlinks : Nat := 65536

def maxAssets : Nat := 4096

def maxPlacements : Nat := 65536

def maxRetainedAssets : Nat := 65536

def checkedGridSize (width height : UInt16) : Except DecodeError Nat :=
  if width > maxGridDimension || height > maxGridDimension then
    .error (.other "surface dimensions exceed the limit")
  else
    let cells := width.toNat * height.toNat
    if cells > maxGridCells then .error (.other "surface cell count exceeds the limit")
    else .ok cells

/-! ### Sending -/

/-- Whether a surface has graphics, and with them the larger frame limit. -/
def hasGraphics (graphics : SurfaceGraphicsScene) : Bool :=
  !graphics.assets.isEmpty || !graphics.placements.isEmpty || !graphics.retainedAssets.isEmpty

/-! ### Bounded decoding -/

def decodeCount (max : Nat) (message : String) : Bincode.Decoder Nat := do
  let count ← decodeLen
  if count > max then throw (.other message)
  return count

def decodeBoundedVec {α : Type} (item : Bincode.Decoder α) (max : Nat) (message : String) :
    Bincode.Decoder (List α) := do
  let count ← decodeCount max message
  decodeMany item count

def decodeBytesVec (max : Nat) (message : String) : Bincode.Decoder Bytes := do
  let count ← decodeCount max message
  decodeRaw count

def requireEmptySequence (message : String) : Bincode.Decoder Unit := do
  if (← decodeLen) ≠ 0 then throw (.other message)

/-- Check a span of `cellsLen` cells against its row, the end of the span before it and the cells
the grid has left. The result is the new total and where the span ends. -/
def checkSpan (width height : UInt16) (cellBudget totalCells previousEnd : Nat) (x y : UInt16)
    (cellsLen : Nat) : Except DecodeError (Nat × Nat) :=
  let rowWidth := width.toNat
  if cellsLen = 0 || y ≥ height || x.toNat ≥ rowWidth || cellsLen > rowWidth - x.toNat then
    .error (.other "surface delta span is outside its row")
  else
    let start := y.toNat * rowWidth + x.toNat
    if start < previousEnd then
      .error (.other "surface delta spans overlap or are not sorted")
    else
      let totalCells := totalCells + cellsLen
      if totalCells > cellBudget then .error (.other "surface delta cell budget exceeded")
      else .ok (totalCells, start + cellsLen)

/-- So many spans, each checked before its cells are read. -/
def decodeSpans (width height : UInt16) (cellBudget : Nat) :
    Nat → Nat → Nat → Bincode.Decoder (List PaneSurfacePatchRow)
  | 0, _, _ => return []
  | count + 1, totalCells, previousEnd => do
      let x ← decodeU16
      let y ← decodeU16
      let cellsLen ← decodeLen
      let (totalCells, previousEnd) ←
        checkSpan width height cellBudget totalCells previousEnd x y cellsLen
      let cells ← decodeMany CellData.decode cellsLen
      let rest ← decodeSpans width height cellBudget count totalCells previousEnd
      return { x, y, cells } :: rest

def decodeRows (width height : UInt16) : Bincode.Decoder (List PaneSurfacePatchRow) := do
  let cellBudget ← checkedGridSize width height
  let count ← decodeCount (min maxSpans cellBudget) "too many surface delta spans"
  decodeSpans width height cellBudget count 0 0

def decodePopupUpdate (popup : Option ClientShellPopupSurface) :
    Bincode.Decoder (Option GridUpdate) := do
  match ← decodeU8 with
  | 0 => return none
  | 1 =>
      match popup with
      | none => throw (.other "popup cell update has no popup metadata")
      | some popup =>
          let width := popup.frame.width
          let height := popup.frame.height
          match ← decodeU32 with
          | 0 => return some (.patch (← decodeRows width height))
          | 1 => do
              let expected ← checkedGridSize width height
              let count ← decodeLen
              if count ≠ expected then
                throw (.other "popup replacement does not match popup dimensions")
              return some (.replace (← decodeMany CellData.decode count))
          | _ => throw (.other "invalid popup grid update")
  | _ => throw (.other "invalid popup update option")

/-! ### Metadata -/

def decodeFrame : Bincode.Decoder FrameData := do
  -- Both grids were taken out before the metadata was written.
  requireEmptySequence "surface metadata contains main cells"
  let width ← decodeU16
  let height ← decodeU16
  let _ ← checkedGridSize width height
  let cursor ← decodeOption CursorState.decode
  let hyperlinks ← decodeBoundedVec decodeString maxHyperlinks "too many hyperlinks"
  let graphics ← decodeBytesVec maxGraphicsFrameSize "graphics payload too large"
  return { cells := [], width, height, cursor, hyperlinks, graphics }

def decodePopup : Bincode.Decoder (Option ClientShellPopupSurface) := do
  match ← decodeU8 with
  | 0 => return none
  | 1 => do
      let terminalId ← decodeString
      let title ← decodeString
      let width ← decodeOption ClientShellPopupSize.decode
      let height ← decodeOption ClientShellPopupSize.decode
      let frame ← decodeFrame
      let mouseReporting ← decodeBool
      let sgrPixelMouse ← decodeBool
      let pixelWidth ← decodeU32
      let pixelHeight ← decodeU32
      return some {
        terminalId, title, width, height, frame, mouseReporting, sgrPixelMouse, pixelWidth
        pixelHeight }
  | _ => throw (.other "invalid popup option")

def decodeSplit : Bincode.Decoder PaneSurfaceSplit := do
  let direction ← PaneSurfaceSplitDirection.decode
  let pos ← decodeU16
  let area ← SurfaceRect.decode
  let hitRect ← SurfaceRect.decode
  let path ← decodeBoundedVec decodeBool maxSplitPath "split path too long"
  return { direction, pos, area, hitRect, path }

def decodeSplits : Bincode.Decoder (List PaneSurfaceSplit) :=
  decodeBoundedVec decodeSplit maxSplits "too many splits"

def decodeAsset : Bincode.Decoder SurfaceGraphicsAsset := do
  let key ← SurfaceGraphicsAssetKey.decode
  let data ← decodeBytesVec maxGraphicsFrameSize "graphics asset payload too large"
  return { key, data }

def decodeGraphicsScene : Bincode.Decoder SurfaceGraphicsScene := do
  let assets ← decodeBoundedVec decodeAsset maxAssets "too many graphics assets"
  let placements ←
    decodeBoundedVec SurfaceGraphicsPlacement.decode maxPlacements "too many graphics placements"
  let retainedAssets ← decodeBoundedVec SurfaceGraphicsAssetKey.decode maxRetainedAssets
    "too many retained graphics assets"
  return { assets, placements, retainedAssets }

def decodeSurface : Bincode.Decoder PaneSurfaceFrame := do
  let bootId ← decodeString
  let projectionRevision ← decodeU64
  let surfaceRevision ← decodeU64
  let frame ← decodeFrame
  let panes ← decodeBoundedVec PaneSurfacePane.decode maxPanes "too many panes"
  let splits ← decodeSplits
  let popup ← decodePopup
  let graphics ← decodeGraphicsScene
  return { bootId, projectionRevision, surfaceRevision, frame, panes, splits, popup, graphics }

/-! ### The whole delta -/

/-- The delta behind its Base64, for a baseline of the expected size. `dataLen` is the length of
the text it came from. -/
def decodeDelta (expected : UInt16 × UInt16) (dataLen : Nat) : Bincode.Decoder SurfaceDelta := do
  let baseProjectionRevision ← decodeU64
  let baseSurfaceRevision ← decodeU64
  let surface ← decodeSurface
  -- An ordinary surface keeps to the ordinary frame limit.
  if !hasGraphics surface.graphics && dataLen > maxFrameSize then
    throw (.other "ordinary surface delta exceeds the frame limit")
  if expected ≠ (surface.frame.width, surface.frame.height) then
    throw (.other "surface dimensions do not match the baseline")
  let _ ← checkedGridSize expected.1 expected.2
  let rows ← decodeRows expected.1 expected.2
  let popupCells ← decodePopupUpdate surface.popup
  return { baseProjectionRevision, baseSurfaceRevision, surface, rows, popupCells }

inductive DeltaError where
  | exceedsFrameLimit
  | invalidBase64
  | decodedExceedsFrameLimit
  | decode (error : DecodeError)
  | trailingBytes

def decodeFor (data : String) (expected : UInt16 × UInt16) : Except DeltaError SurfaceDelta :=
  if data.utf8ByteSize > maxGraphicsFrameSize then .error .exceedsFrameLimit
  else
    match Base64.decode data with
    | none => .error .invalidBase64
    | some bytes =>
        if bytes.length > maxGraphicsFrameSize then .error .decodedExceedsFrameLimit
        else
          match decodeDelta expected data.utf8ByteSize ⟨bytes, some maxGraphicsFrameSize⟩ with
          | .error error => .error (.decode error)
          | .ok (delta, reader) =>
              if reader.bytes ≠ [] then .error .trailingBytes else .ok delta

end Herden.Runtime.Surface.Delta
