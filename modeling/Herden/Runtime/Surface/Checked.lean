import Herden.Lib.Machine
import Herden.Runtime.Surface.Reuse

/-!
# `Herden.Runtime.Surface.Checked`: the receiver with the machine's arithmetic

The receiving side of `Surface.Scroll`, `Surface.Delta` and `Surface.Reuse` a second time, now
with every addition, subtraction and multiplication of the source in its own width and every
slice with its bounds (`Lib.Machine`). Coordinates are 16 bits wide and `usize` has 64. Where the
source uses a checked or saturating operation, so does this module; where it uses a plain one,
`none` is the overflow, and `none` is also a slice or an exchange outside its list. `&&` and `||`
evaluate no more than they do in the source.

Only what computes with positions is here: decoders that read fields and nothing else are those
of the other modules.
-/

namespace Herden.Runtime.Surface.Checked

open Herden.Lib
open Herden.Lib.Machine
open Herden.Lib.Bincode
open Herden.Runtime.Wire
open Herden.Runtime.Surface.Scroll (SurfaceScroll ScrollPatch ScrollError)
open Herden.Runtime.Surface.Reuse (CellBaseline Rejection nextRevision popupBaseline
  hasInvalidHyperlink)

/-- The bits of a coordinate. -/
def u16 : Nat := 16

/-- The bits of a length or an index. -/
def usize : Nat := 64

/-- Where a row of the grid starts, from a column on. -/
def cellIndex (width : UInt16) (x y : Nat) : Option Nat := do
  add? usize (← mul? usize y width.toNat) x

/-! ### Scrolls -/

def forEachSwap (height : Nat) (shift : Int16) : Option (List (Nat × Nat)) :=
  let distance := shift.toInt.natAbs
  if shift > 0 then do
    let count ← sub? height distance
    (List.range count).mapM fun y => (add? usize y distance).map fun other => (y, other)
  else
    (List.range' distance (height - distance)).reverse.mapM fun y =>
      (sub? y distance).map fun other => (y, other)

def scrollFits (scroll : SurfaceScroll) (width height : UInt16) : Bool :=
  let rect := scroll.rect
  rect.width > 0 && rect.height ≥ 2 && scroll.shift ≠ 0
    && scroll.shift.toInt.natAbs < rect.height.toNat
    && (add? u16 rect.x.toNat rect.width.toNat).any (fun stop => stop ≤ width.toNat)
    && (add? u16 rect.y.toNat rect.height.toNat).any (fun stop => stop ≤ height.toNat)

def rectsOverlap (a b : SurfaceRect) : Option Bool := do
  if !(a.x.toNat < (← add? u16 b.x.toNat b.width.toNat)) then return false
  if !(b.x.toNat < (← add? u16 a.x.toNat a.width.toNat)) then return false
  if !(a.y.toNat < (← add? u16 b.y.toNat b.height.toNat)) then return false
  return b.y.toNat < (← add? u16 a.y.toNat a.height.toNat)

/-- Whether a rectangle is apart from those of other scrolls. -/
def apart (rect : SurfaceRect) : List SurfaceScroll → Option Bool
  | [] => some true
  | other :: rest => do
      if ← rectsOverlap rect other.rect then return false
      apart rect rest

def scrollsDisjoint : List SurfaceScroll → Option Bool
  | [] => some true
  | scroll :: rest => do
      if !(← apart scroll.rect rest) then return false
      scrollsDisjoint rest

def rowFits (row : PaneSurfacePatchRow) (width height : UInt16) : Bool :=
  row.y < height && saturatingAdd usize row.x.toNat row.cells.length ≤ width.toNat

/-- Where a row of a rectangle starts. -/
def rowStart (width : UInt16) (rect : SurfaceRect) (y : Nat) : Option Nat := do
  cellIndex width rect.x.toNat (← add? usize rect.y.toNat y)

def applyScroll (cells : List CellData) (width : UInt16) (scroll : SurfaceScroll) :
    Option (List CellData) := do
  let swaps ← forEachSwap scroll.rect.height.toNat scroll.shift
  swaps.foldlM (fun cells swap => do
    let a ← rowStart width scroll.rect swap.1
    let b ← rowStart width scroll.rect swap.2
    (List.range scroll.rect.width.toNat).foldlM (fun cells x => do
      swapAt? cells (← add? usize a x) (← add? usize b x)) cells) cells

def applyRows (cells : List CellData) (width : UInt16) (rows : List PaneSurfacePatchRow) :
    Option (List CellData) :=
  rows.foldlM (fun cells row => do
    let start ← cellIndex width row.x.toNat row.y.toNat
    copyInto? cells start (← add? usize start row.cells.length) row.cells) cells

/-- `clamp` panics when its bounds are the wrong way round. -/
def clamp? (value low high : Nat) : Option Nat :=
  if low ≤ high then some (max low (min value high)) else none

def uncoveredSpans (row : PaneSurfacePatchRow) (start rowEnd : Nat) :
    Nat → List (Nat × Nat) → Option (List PaneSurfacePatchRow)
  | _, [] => some []
  | cursor, (left, right) :: rest => do
      let spanEnd ← clamp? left cursor rowEnd
      let span ← if spanEnd > cursor then do
          let cells ← slice? row.cells (← sub? cursor start) (← sub? spanEnd start)
          pure [({ x := UInt16.ofNat cursor, y := row.y, cells } : PaneSurfacePatchRow)]
        else pure []
      return span ++ (← uncoveredSpans row start rowEnd (max cursor (min right rowEnd)) rest)

/-- Whether a row crosses a rectangle. -/
def crosses (row : PaneSurfacePatchRow) (rect : SurfaceRect) : Option Bool :=
  if row.y ≥ rect.y then
    (sub? row.y.toNat rect.y.toNat).map fun distance => distance < rect.height.toNat
  else some false

def outsideScrolls (row : PaneSurfacePatchRow) (scrolls : List SurfaceScroll) :
    Option (List PaneSurfacePatchRow) := do
  let rects ← (scrolls.map SurfaceScroll.rect).filterM (crosses row)
  let covered ← rects.mapM fun rect =>
    (add? usize rect.x.toNat rect.width.toNat).map fun stop => (rect.x.toNat, stop)
  if covered = [] then return [row]
  let rowEnd ← add? usize row.x.toNat row.cells.length
  let sorted := covered.mergeSort fun a b => a.1 < b.1 || (a.1 = b.1 && a.2 ≤ b.2)
  uncoveredSpans row row.x.toNat rowEnd row.x.toNat (sorted ++ [(rowEnd, rowEnd)])

def scrolledRows (cells : List CellData) (width : UInt16) (rect : SurfaceRect) :
    Option (List PaneSurfacePatchRow) := do
  let bottom ← add? u16 rect.y.toNat rect.height.toNat
  (List.range' rect.y.toNat (bottom - rect.y.toNat)).mapM fun y => do
    let start ← cellIndex width rect.x.toNat y
    let cells ← slice? cells start (← add? usize start rect.width.toNat)
    return ({ x := rect.x, y := UInt16.ofNat y, cells } : PaneSurfacePatchRow)

def apply (cells : List CellData) (width height : UInt16) (scrollPatch : ScrollPatch) :
    Option (Except ScrollError (List CellData × PaneSurfacePatch)) := do
  let { scrolls, patch } := scrollPatch
  if cells.length ≠ (← mul? usize width.toNat height.toNat) then return .error .invalidGrid
  if !scrolls.all (fun scroll => scrollFits scroll width height) then
    return .error .exceedsBaseline
  if !(← scrollsDisjoint scrolls) then return .error .exceedsBaseline
  if !patch.rows.all (fun row => rowFits row width height) then return .error .exceedsBaseline
  let cells ← scrolls.foldlM (fun cells scroll => applyScroll cells width scroll) cells
  let cells ← applyRows cells width patch.rows
  let outside ← patch.rows.mapM (outsideScrolls · scrolls)
  let scrolled ← scrolls.mapM fun scroll => scrolledRows cells width scroll.rect
  return .ok (cells, { patch with rows := outside.flatten ++ scrolled.flatten })

def decodeScroll (base : CellBaseline) (data : String) :
    Option (CellBaseline × Except Rejection PaneSurfacePatch) :=
  match Scroll.decode data with
  | .error error => some (base, .error (.scroll error))
  | .ok scroll =>
      if !base.matchesPatch scroll.patch then some (base, .error .scrollMismatch)
      else do
        match ← apply base.cells base.width base.height scroll with
        | .error error => return (base, .error (.scroll error))
        | .ok (cells, patch) =>
            return ({ base with cells, surfaceRevision := patch.surfaceRevision }, .ok patch)

/-! ### Deltas -/

/-- A decoder whose arithmetic can fail. -/
abbrev CheckedDecoder := StateT Reader (ExceptT DecodeError Option)

section

variable {α : Type}

/-- A decoder that computes with no positions. -/
def reading (decoder : Bincode.Decoder α) : CheckedDecoder α :=
  fun reader => ExceptT.mk (some (decoder reader))

/-- A check of what was read. -/
def checking (check : Option (Except DecodeError α)) : CheckedDecoder α :=
  fun reader => ExceptT.mk (check.map fun result => result.map fun value => (value, reader))

end

def checkedGridSize (width height : UInt16) : Option (Except DecodeError Nat) :=
  if width > Delta.maxGridDimension || height > Delta.maxGridDimension then
    some (.error (.other "surface dimensions exceed the limit"))
  else do
    let cells ← mul? usize width.toNat height.toNat
    if cells > Delta.maxGridCells then
      return .error (.other "surface cell count exceeds the limit")
    else return .ok cells

def checkSpan (width height : UInt16) (cellBudget totalCells previousEnd : Nat) (x y : UInt16)
    (cellsLen : Nat) : Option (Except DecodeError (Nat × Nat)) := do
  let rowWidth := width.toNat
  let outside := Except.error (.other "surface delta span is outside its row")
  if cellsLen = 0 || y ≥ height || x.toNat ≥ rowWidth then return outside
  if cellsLen > (← sub? rowWidth x.toNat) then return outside
  -- `checked_mul` and `checked_add`: an overflow is an error of the message.
  match cellIndex width x.toNat y.toNat with
  | none => return .error (.other "surface delta span overflow")
  | some start =>
      if start < previousEnd then
        return .error (.other "surface delta spans overlap or are not sorted")
      match add? usize totalCells cellsLen with
      | none => return .error (.other "surface delta cell budget overflow")
      | some totalCells =>
          if totalCells > cellBudget then
            return .error (.other "surface delta cell budget exceeded")
          return .ok (totalCells, ← add? usize start cellsLen)

def decodeSpans (width height : UInt16) (cellBudget : Nat) :
    Nat → Nat → Nat → CheckedDecoder (List PaneSurfacePatchRow)
  | 0, _, _ => return []
  | count + 1, totalCells, previousEnd => do
      let x ← reading decodeU16
      let y ← reading decodeU16
      let cellsLen ← reading decodeLen
      let (totalCells, previousEnd) ←
        checking (checkSpan width height cellBudget totalCells previousEnd x y cellsLen)
      let cells ← reading (decodeMany CellData.decode cellsLen)
      let rest ← decodeSpans width height cellBudget count totalCells previousEnd
      return { x, y, cells } :: rest

def decodeRows (width height : UInt16) : CheckedDecoder (List PaneSurfacePatchRow) := do
  let cellBudget ← checking (checkedGridSize width height)
  let count ← reading
    (Delta.decodeCount (min Delta.maxSpans cellBudget) "too many surface delta spans")
  decodeSpans width height cellBudget count 0 0

def decodePopupUpdate (popup : Option ClientShellPopupSurface) :
    CheckedDecoder (Option Delta.GridUpdate) := do
  match ← reading decodeU8 with
  | 0 => return none
  | 1 =>
      match popup with
      | none => reading (throw (.other "popup cell update has no popup metadata"))
      | some popup =>
          let width := popup.frame.width
          let height := popup.frame.height
          match ← reading decodeU32 with
          | 0 => return some (.patch (← decodeRows width height))
          | 1 => do
              let expected ← checking (checkedGridSize width height)
              let count ← reading decodeLen
              if count ≠ expected then
                reading (throw (.other "popup replacement does not match popup dimensions"))
              return some (.replace (← reading (decodeMany CellData.decode count)))
          | _ => reading (throw (.other "invalid popup grid update"))
  | _ => reading (throw (.other "invalid popup update option"))

def decodeWhole (expected : UInt16 × UInt16) (dataLen : Nat) : CheckedDecoder Delta.SurfaceDelta :=
  do
  let baseProjectionRevision ← reading decodeU64
  let baseSurfaceRevision ← reading decodeU64
  let surface ← reading Delta.decodeSurface
  if !Delta.hasGraphics surface.graphics && dataLen > maxFrameSize then
    reading (throw (.other "ordinary surface delta exceeds the frame limit"))
  if expected ≠ (surface.frame.width, surface.frame.height) then
    reading (throw (.other "surface dimensions do not match the baseline"))
  let _ ← checking (checkedGridSize expected.1 expected.2)
  let rows ← decodeRows expected.1 expected.2
  let popupCells ← decodePopupUpdate surface.popup
  return { baseProjectionRevision, baseSurfaceRevision, surface, rows, popupCells }

def decodeFor (data : String) (expected : UInt16 × UInt16) :
    Option (Except Delta.DeltaError Delta.SurfaceDelta) :=
  if data.utf8ByteSize > maxGraphicsFrameSize then some (.error .exceedsFrameLimit)
  else
    match Base64.decode data with
    | none => some (.error .invalidBase64)
    | some bytes =>
        if bytes.length > maxGraphicsFrameSize then some (.error .decodedExceedsFrameLimit)
        else
          (decodeWhole expected data.utf8ByteSize ⟨bytes, some maxGraphicsFrameSize⟩).run.map
            fun result =>
              match result with
              | .error error => .error (.decode error)
              | .ok (delta, reader) =>
                  if reader.bytes ≠ [] then .error .trailingBytes else .ok delta

def deltaPopup (base : CellBaseline) (popup : Option ClientShellPopupSurface)
    (update : Option Delta.GridUpdate) :
    Option (Except Rejection (Option ClientShellPopupSurface)) :=
  match popup, update with
  | none, none => some (.ok none)
  | some popup, some update => do
      let count ← mul? usize popup.frame.width.toNat popup.frame.height.toNat
      match update with
      | .replace cells => return .ok (some { popup with frame := { popup.frame with cells } })
      | .patch rows =>
          let previous := base.popup.filter fun previous =>
            previous.terminalId = popup.terminalId && previous.width = popup.frame.width
              && previous.height = popup.frame.height && previous.cells.length = count
          match previous with
          | none => return .error .popupMismatch
          | some previous => do
              let cells ← applyRows previous.cells previous.width rows
              return .ok (some { popup with frame := { popup.frame with cells } })
  | _, _ => some (.error .popupUnexpected)

def decodeDelta (base : CellBaseline) (data : String) :
    Option (CellBaseline × Except Rejection PaneSurfaceFrame) := do
  match ← decodeFor data (base.width, base.height) with
  | .error error => return (base, .error (.delta error))
  | .ok delta =>
      let surface := delta.surface
      if surface.bootId ≠ base.bootId
          || delta.baseProjectionRevision ≠ base.projectionRevision
          || delta.baseSurfaceRevision ≠ base.surfaceRevision
          || surface.surfaceRevision ≠ nextRevision base.surfaceRevision
          || surface.projectionRevision < base.projectionRevision then
        return (base, .error .deltaMismatch)
      if base.cells.length ≠ (← mul? usize base.width.toNat base.height.toNat) then
        return (base, .error .deltaMismatch)
      let cells ← applyRows base.cells base.width delta.rows
      let surface := { surface with frame := { surface.frame with cells } }
      match ← deltaPopup base surface.popup delta.popupCells with
      | .error error => return (base, .error error)
      | .ok popup =>
          let surface := { surface with popup }
          if hasInvalidHyperlink surface.frame
              || surface.popup.any fun popup => hasInvalidHyperlink popup.frame then
            return (base, .error .invalidHyperlink)
          else
            let cells ← applyRows base.cells base.width delta.rows
            return ({ base with
              cells
              popup := popupBaseline surface
              projectionRevision := surface.projectionRevision
              surfaceRevision := surface.surfaceRevision }, .ok surface)

end Herden.Runtime.Surface.Checked
