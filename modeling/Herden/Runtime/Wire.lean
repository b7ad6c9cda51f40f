import Herden.Lib.Bincode
import Herden.Lib.Grid

/-!
# `Herden.Runtime.Wire`: surface messages and their frames

The part of `protocol/wire.rs` that carries pane surfaces: the data types, their layout on the
wire as tokens of `Lib.Bincode`, the derived decoders, and the length-prefixed frame around
a message (`write_message`, `read_message`).

A structure is written field by field and an enumeration as the number of its variant. Of
`ServerMessage` the variants that the surface codecs build or match are here, under their
numbers in the source. Reading any other variant fails, as its one reader here,
`surface_scroll::decode`, fails on it anyway.
-/

namespace Herden.Runtime.Wire

open Herden.Lib
open Herden.Lib.Bincode

def maxFrameSize : Nat := 2 * 1024 * 1024

def maxGraphicsFrameSize : Nat := 32 * 1024 * 1024

/-! ### Cells and frames -/

structure CellData where
  symbol : String
  fg : UInt32
  bg : UInt32
  modifier : UInt16
  skip : Bool
  hyperlink : Option UInt32
  deriving DecidableEq, Inhabited

def CellData.tokens (self : CellData) : List Token :=
  strTokens self.symbol ++ [.u32 self.fg, .u32 self.bg, .u16 self.modifier]
    ++ boolTokens self.skip ++ optionTokens (fun index => [.u32 index]) self.hyperlink

def CellData.decode : Decoder CellData := do
  let symbol ← decodeString
  let fg ← decodeU32
  let bg ← decodeU32
  let modifier ← decodeU16
  let skip ← decodeBool
  let hyperlink ← decodeOption decodeU32
  return { symbol, fg, bg, modifier, skip, hyperlink }

structure CursorState where
  x : UInt16
  y : UInt16
  visible : Bool
  shape : UInt8
  deriving DecidableEq

def CursorState.tokens (self : CursorState) : List Token :=
  [.u16 self.x, .u16 self.y] ++ boolTokens self.visible ++ [.u8 self.shape]

def CursorState.decode : Decoder CursorState := do
  let x ← decodeU16
  let y ← decodeU16
  let visible ← decodeBool
  let shape ← decodeU8
  return { x, y, visible, shape }

structure FrameData where
  cells : List CellData
  width : UInt16
  height : UInt16
  cursor : Option CursorState
  hyperlinks : List String
  graphics : Bytes

/-- A list of bytes: its length, then the bytes as they are. -/
def bytesTokens (bytes : Bytes) : List Token := [.len bytes.length, .raw bytes]

def FrameData.tokens (self : FrameData) : List Token :=
  seqTokens CellData.tokens self.cells ++ [.u16 self.width, .u16 self.height]
    ++ optionTokens CursorState.tokens self.cursor ++ seqTokens strTokens self.hyperlinks
    ++ bytesTokens self.graphics

/-! ### Panes and splits -/

structure SurfaceRect where
  x : UInt16
  y : UInt16
  width : UInt16
  height : UInt16
  deriving DecidableEq

/-- The rectangle as a region of a grid. -/
def SurfaceRect.region (self : SurfaceRect) : Region :=
  ⟨self.x.toNat, self.y.toNat, self.width.toNat, self.height.toNat⟩

def SurfaceRect.tokens (self : SurfaceRect) : List Token :=
  [.u16 self.x, .u16 self.y, .u16 self.width, .u16 self.height]

def SurfaceRect.decode : Decoder SurfaceRect := do
  let x ← decodeU16
  let y ← decodeU16
  let width ← decodeU16
  let height ← decodeU16
  return { x, y, width, height }

structure PaneSurfaceScrollMetrics where
  offsetFromBottom : UInt64
  maxOffsetFromBottom : UInt64
  viewportRows : UInt64

def PaneSurfaceScrollMetrics.tokens (self : PaneSurfaceScrollMetrics) : List Token :=
  [.u64 self.offsetFromBottom, .u64 self.maxOffsetFromBottom, .u64 self.viewportRows]

def PaneSurfaceScrollMetrics.decode : Decoder PaneSurfaceScrollMetrics := do
  let offsetFromBottom ← decodeU64
  let maxOffsetFromBottom ← decodeU64
  let viewportRows ← decodeU64
  return { offsetFromBottom, maxOffsetFromBottom, viewportRows }

structure PaneSurfacePane where
  paneId : String
  contentRevision : UInt64
  rect : SurfaceRect
  innerRect : SurfaceRect
  scrollbarRect : Option SurfaceRect
  scroll : Option PaneSurfaceScrollMetrics
  focused : Bool
  mouseReporting : Bool
  sgrPixelMouse : Bool
  alternateScreenActive : Bool
  pixelWidth : UInt32
  pixelHeight : UInt32

def PaneSurfacePane.tokens (self : PaneSurfacePane) : List Token :=
  strTokens self.paneId ++ [.u64 self.contentRevision] ++ self.rect.tokens
    ++ self.innerRect.tokens ++ optionTokens SurfaceRect.tokens self.scrollbarRect
    ++ optionTokens PaneSurfaceScrollMetrics.tokens self.scroll ++ boolTokens self.focused
    ++ boolTokens self.mouseReporting ++ boolTokens self.sgrPixelMouse
    ++ boolTokens self.alternateScreenActive ++ [.u32 self.pixelWidth, .u32 self.pixelHeight]

def PaneSurfacePane.decode : Decoder PaneSurfacePane := do
  let paneId ← decodeString
  let contentRevision ← decodeU64
  let rect ← SurfaceRect.decode
  let innerRect ← SurfaceRect.decode
  let scrollbarRect ← decodeOption SurfaceRect.decode
  let scroll ← decodeOption PaneSurfaceScrollMetrics.decode
  let focused ← decodeBool
  let mouseReporting ← decodeBool
  let sgrPixelMouse ← decodeBool
  let alternateScreenActive ← decodeBool
  let pixelWidth ← decodeU32
  let pixelHeight ← decodeU32
  return {
    paneId, contentRevision, rect, innerRect, scrollbarRect, scroll, focused, mouseReporting
    sgrPixelMouse, alternateScreenActive, pixelWidth, pixelHeight }

inductive PaneSurfaceSplitDirection where
  | horizontal
  | vertical

def PaneSurfaceSplitDirection.tokens : PaneSurfaceSplitDirection → List Token
  | .horizontal => [.u32 0]
  | .vertical => [.u32 1]

def PaneSurfaceSplitDirection.decode : Decoder PaneSurfaceSplitDirection := do
  match ← decodeU32 with
  | 0 => return .horizontal
  | 1 => return .vertical
  | _ => throw .unexpectedVariant

structure PaneSurfaceSplit where
  direction : PaneSurfaceSplitDirection
  pos : UInt16
  area : SurfaceRect
  hitRect : SurfaceRect
  path : List Bool

def PaneSurfaceSplit.tokens (self : PaneSurfaceSplit) : List Token :=
  self.direction.tokens ++ [.u16 self.pos] ++ self.area.tokens ++ self.hitRect.tokens
    ++ seqTokens boolTokens self.path

/-! ### Graphics -/

inductive SurfaceGraphicsTarget where
  | pane (paneId : String)
  | popup (terminalId : String)

def SurfaceGraphicsTarget.tokens : SurfaceGraphicsTarget → List Token
  | .pane paneId => .u32 0 :: strTokens paneId
  | .popup terminalId => .u32 1 :: strTokens terminalId

def SurfaceGraphicsTarget.decode : Decoder SurfaceGraphicsTarget := do
  match ← decodeU32 with
  | 0 => return .pane (← decodeString)
  | 1 => return .popup (← decodeString)
  | _ => throw .unexpectedVariant

inductive SurfaceGraphicsSource where
  | terminal (target : SurfaceGraphicsTarget) (imageId : UInt32)
  | paneLayer (paneId layerId : String)

def SurfaceGraphicsSource.tokens : SurfaceGraphicsSource → List Token
  | .terminal target imageId => .u32 0 :: (target.tokens ++ [.u32 imageId])
  | .paneLayer paneId layerId => .u32 1 :: (strTokens paneId ++ strTokens layerId)

def SurfaceGraphicsSource.decode : Decoder SurfaceGraphicsSource := do
  match ← decodeU32 with
  | 0 => do
      let target ← SurfaceGraphicsTarget.decode
      let imageId ← decodeU32
      return .terminal target imageId
  | 1 => do
      let paneId ← decodeString
      let layerId ← decodeString
      return .paneLayer paneId layerId
  | _ => throw .unexpectedVariant

inductive SurfaceGraphicsFormat where
  | rgb
  | rgba
  | png

def SurfaceGraphicsFormat.tokens : SurfaceGraphicsFormat → List Token
  | .rgb => [.u32 0]
  | .rgba => [.u32 1]
  | .png => [.u32 2]

def SurfaceGraphicsFormat.decode : Decoder SurfaceGraphicsFormat := do
  match ← decodeU32 with
  | 0 => return .rgb
  | 1 => return .rgba
  | 2 => return .png
  | _ => throw .unexpectedVariant

structure SurfaceGraphicsAssetKey where
  source : SurfaceGraphicsSource
  imageWidth : UInt32
  imageHeight : UInt32
  format : SurfaceGraphicsFormat
  dataLen : UInt64
  dataFingerprint : UInt64

def SurfaceGraphicsAssetKey.tokens (self : SurfaceGraphicsAssetKey) : List Token :=
  self.source.tokens ++ [.u32 self.imageWidth, .u32 self.imageHeight] ++ self.format.tokens
    ++ [.u64 self.dataLen, .u64 self.dataFingerprint]

def SurfaceGraphicsAssetKey.decode : Decoder SurfaceGraphicsAssetKey := do
  let source ← SurfaceGraphicsSource.decode
  let imageWidth ← decodeU32
  let imageHeight ← decodeU32
  let format ← SurfaceGraphicsFormat.decode
  let dataLen ← decodeU64
  let dataFingerprint ← decodeU64
  return { source, imageWidth, imageHeight, format, dataLen, dataFingerprint }

structure SurfaceGraphicsAsset where
  key : SurfaceGraphicsAssetKey
  data : Bytes

def SurfaceGraphicsAsset.tokens (self : SurfaceGraphicsAsset) : List Token :=
  self.key.tokens ++ bytesTokens self.data

structure SurfaceGraphicsPlacement where
  asset : SurfaceGraphicsAssetKey
  logicalPlacementId : UInt32
  x : UInt16
  y : UInt16
  cols : UInt32
  rows : UInt32
  sourceX : UInt32
  sourceY : UInt32
  sourceWidth : UInt32
  sourceHeight : UInt32
  xOffset : UInt32
  yOffset : UInt32
  z : Int32
  scrollbackOffset : UInt32

def SurfaceGraphicsPlacement.tokens (self : SurfaceGraphicsPlacement) : List Token :=
  self.asset.tokens ++ [.u32 self.logicalPlacementId, .u16 self.x, .u16 self.y, .u32 self.cols,
    .u32 self.rows, .u32 self.sourceX, .u32 self.sourceY, .u32 self.sourceWidth,
    .u32 self.sourceHeight, .u32 self.xOffset, .u32 self.yOffset, .i32 self.z,
    .u32 self.scrollbackOffset]

def SurfaceGraphicsPlacement.decode : Decoder SurfaceGraphicsPlacement := do
  let asset ← SurfaceGraphicsAssetKey.decode
  let logicalPlacementId ← decodeU32
  let x ← decodeU16
  let y ← decodeU16
  let cols ← decodeU32
  let rows ← decodeU32
  let sourceX ← decodeU32
  let sourceY ← decodeU32
  let sourceWidth ← decodeU32
  let sourceHeight ← decodeU32
  let xOffset ← decodeU32
  let yOffset ← decodeU32
  let z ← decodeI32
  let scrollbackOffset ← decodeU32
  return {
    asset, logicalPlacementId, x, y, cols, rows, sourceX, sourceY, sourceWidth, sourceHeight
    xOffset, yOffset, z, scrollbackOffset }

structure SurfaceGraphicsScene where
  assets : List SurfaceGraphicsAsset
  placements : List SurfaceGraphicsPlacement
  retainedAssets : List SurfaceGraphicsAssetKey

def SurfaceGraphicsScene.tokens (self : SurfaceGraphicsScene) : List Token :=
  seqTokens SurfaceGraphicsAsset.tokens self.assets
    ++ seqTokens SurfaceGraphicsPlacement.tokens self.placements
    ++ seqTokens SurfaceGraphicsAssetKey.tokens self.retainedAssets

/-! ### Surfaces and patches -/

inductive ClientShellPopupSize where
  | cells (count : UInt16)
  | percent (value : UInt8)

def ClientShellPopupSize.tokens : ClientShellPopupSize → List Token
  | .cells count => [.u32 0, .u16 count]
  | .percent value => [.u32 1, .u8 value]

def ClientShellPopupSize.decode : Decoder ClientShellPopupSize := do
  match ← decodeU32 with
  | 0 => return .cells (← decodeU16)
  | 1 => return .percent (← decodeU8)
  | _ => throw .unexpectedVariant

structure ClientShellPopupSurface where
  terminalId : String
  title : String
  width : Option ClientShellPopupSize
  height : Option ClientShellPopupSize
  frame : FrameData
  mouseReporting : Bool
  sgrPixelMouse : Bool
  pixelWidth : UInt32
  pixelHeight : UInt32

def ClientShellPopupSurface.tokens (self : ClientShellPopupSurface) : List Token :=
  strTokens self.terminalId ++ strTokens self.title
    ++ optionTokens ClientShellPopupSize.tokens self.width
    ++ optionTokens ClientShellPopupSize.tokens self.height ++ self.frame.tokens
    ++ boolTokens self.mouseReporting ++ boolTokens self.sgrPixelMouse
    ++ [.u32 self.pixelWidth, .u32 self.pixelHeight]

structure PaneSurfaceFrame where
  bootId : String
  projectionRevision : UInt64
  surfaceRevision : UInt64
  frame : FrameData
  panes : List PaneSurfacePane
  splits : List PaneSurfaceSplit
  popup : Option ClientShellPopupSurface
  graphics : SurfaceGraphicsScene

def PaneSurfaceFrame.tokens (self : PaneSurfaceFrame) : List Token :=
  strTokens self.bootId ++ [.u64 self.projectionRevision, .u64 self.surfaceRevision]
    ++ self.frame.tokens ++ seqTokens PaneSurfacePane.tokens self.panes
    ++ seqTokens PaneSurfaceSplit.tokens self.splits
    ++ optionTokens ClientShellPopupSurface.tokens self.popup ++ self.graphics.tokens

structure PaneSurfacePatchRow where
  x : UInt16
  y : UInt16
  cells : List CellData
  deriving DecidableEq

def PaneSurfacePatchRow.tokens (self : PaneSurfacePatchRow) : List Token :=
  [.u16 self.x, .u16 self.y] ++ seqTokens CellData.tokens self.cells

def PaneSurfacePatchRow.decode : Decoder PaneSurfacePatchRow := do
  let x ← decodeU16
  let y ← decodeU16
  let cells ← decodeSeq CellData.decode
  return { x, y, cells }

/-- The row as a span of a grid. -/
def PaneSurfacePatchRow.span (self : PaneSurfacePatchRow) : Span CellData :=
  ⟨self.x.toNat, self.y.toNat, self.cells⟩

/-- Write the rows into a grid. A row outside of it panics. -/
def applyRows (cells : List CellData) (width : UInt16) (rows : List PaneSurfacePatchRow) :
    Option (List CellData) :=
  writeSpans? width.toNat cells (rows.map PaneSurfacePatchRow.span)

structure PaneSurfacePatch where
  bootId : String
  projectionRevision : UInt64
  baseSurfaceRevision : UInt64
  surfaceRevision : UInt64
  rows : List PaneSurfacePatchRow
  panes : List PaneSurfacePane
  cursor : Option CursorState

def PaneSurfacePatch.tokens (self : PaneSurfacePatch) : List Token :=
  strTokens self.bootId ++ [.u64 self.projectionRevision, .u64 self.baseSurfaceRevision,
    .u64 self.surfaceRevision] ++ seqTokens PaneSurfacePatchRow.tokens self.rows
    ++ seqTokens PaneSurfacePane.tokens self.panes
    ++ optionTokens CursorState.tokens self.cursor

def PaneSurfacePatch.decode : Decoder PaneSurfacePatch := do
  let bootId ← decodeString
  let projectionRevision ← decodeU64
  let baseSurfaceRevision ← decodeU64
  let surfaceRevision ← decodeU64
  let rows ← decodeSeq PaneSurfacePatchRow.decode
  let panes ← decodeSeq PaneSurfacePane.decode
  let cursor ← decodeOption CursorState.decode
  return {
    bootId, projectionRevision, baseSurfaceRevision, surfaceRevision, rows, panes, cursor }

/-! ### Messages -/

inductive ServerMessage where
  | paneSurface (surface : PaneSurfaceFrame)
  | paneSurfacePatch (patch : PaneSurfacePatch)
  | endpointControl (kind data : String)

def ServerMessage.tokens : ServerMessage → List Token
  | .paneSurface surface => .u32 13 :: surface.tokens
  | .paneSurfacePatch patch => .u32 19 :: patch.tokens
  | .endpointControl kind data => .u32 20 :: (strTokens kind ++ strTokens data)

def ServerMessage.decode : Decoder ServerMessage := do
  match ← decodeU32 with
  | 19 => return .paneSurfacePatch (← PaneSurfacePatch.decode)
  | 20 => do
      let kind ← decodeString
      let data ← decodeString
      return .endpointControl kind data
  | _ => throw .unexpectedVariant

/-- The size of a value on the wire. -/
def encodedSize (tokens : List Token) : Nat := (encode tokens).length

/-! ### Frames -/

inductive FramingError where
  | oversized (claimed max : Nat)
  | bincode
  | unexpectedEof

/-- The frame of a message: the length of the payload as four bytes, and the payload. -/
def writeMessage (tokens : List Token) : Except FramingError Bytes :=
  let payload := encode tokens
  if payload.length > 2 ^ 32 - 1 then .error .bincode
  else .ok (leBytes 4 payload.length ++ payload)

/-- Read one frame from the front of a stream. What is left of the stream is returned too,
also behind an error: a stream that ends early is used up, and of a frame that is too long
only the length is read. -/
def readMessage {M : Type} (decode : Decoder M) (input : Bytes) (maxFrameSize : Nat) :
    Except FramingError M × Bytes :=
  if input.length < 4 then (.error .unexpectedEof, [])
  else
    let claimedLen := ofLeBytes (input.take 4)
    let input := input.drop 4
    if claimedLen > maxFrameSize then (.error (.oversized claimedLen maxFrameSize), input)
    else if input.length < claimedLen then (.error .unexpectedEof, [])
    else
      let message := match decode ⟨input.take claimedLen, none⟩ with
        | .error _ => .error .bincode
        -- The decoder must have consumed the payload.
        | .ok (message, reader) => if reader.bytes ≠ [] then .error .bincode else .ok message
      (message, input.drop claimedLen)

end Herden.Runtime.Wire
