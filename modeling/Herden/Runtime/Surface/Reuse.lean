import Herden.Runtime.Surface.Delta
import Herden.Runtime.Surface.Scroll

/-!
# `Herden.Runtime.Surface.Reuse`: the receiver's baseline

The model of the decoder in `protocol/surface_reuse.rs`. A client keeps the cells of the last
surface it was sent. A full surface replaces them; a reuse message takes all of them over; a
delta, a scroll message and a plain patch of rows change some, each against the revision it was
made from.

The decoder is stepped with its state: `none` is a panic, and a message that is refused leaves
whatever the code has written by then. A reuse message is JSON, whose parser is a parameter. A
message of any other kind passes through.
-/

namespace Herden.Runtime.Surface.Reuse

open Herden.Lib
open Herden.Runtime.Wire

def messageKind : String := "endpoint.surface-reuse.v1"

structure SurfaceReuse where
  baseSurfaceRevision : UInt64
  surface : PaneSurfaceFrame

structure PopupBaseline where
  terminalId : String
  width : UInt16
  height : UInt16
  cells : List CellData
  deriving DecidableEq

structure CellBaseline where
  bootId : String := ""
  projectionRevision : UInt64 := 0
  surfaceRevision : UInt64 := 0
  width : UInt16 := 0
  height : UInt16 := 0
  cells : List CellData := []
  popup : Option PopupBaseline := none
  deriving DecidableEq

/-- The next revision, of which there is always one. -/
def nextRevision (revision : UInt64) : UInt64 :=
  if revision.toNat + 1 < 2 ^ 64 then revision + 1 else revision

/-- Whether a patch applies to exactly this baseline as its next revision. -/
def CellBaseline.matchesPatch (self : CellBaseline) (patch : PaneSurfacePatch) : Bool :=
  patch.bootId = self.bootId
    && patch.projectionRevision = self.projectionRevision
    && patch.baseSurfaceRevision = self.surfaceRevision
    && patch.surfaceRevision = nextRevision self.surfaceRevision

def popupBaseline (surface : PaneSurfaceFrame) : Option PopupBaseline :=
  surface.popup.map fun popup =>
    { terminalId := popup.terminalId
      width := popup.frame.width
      height := popup.frame.height
      cells := popup.frame.cells }

structure Decoder where
  baseline : Option CellBaseline
  surfaceDelta : Bool
  surfaceScroll : Bool

def Decoder.new (surfaceDelta surfaceScroll : Bool) : Decoder :=
  { baseline := none, surfaceDelta, surfaceScroll }

/-- A message from the server: one that carries surfaces, or any other. -/
inductive Incoming (Other : Type) where
  | known (message : ServerMessage)
  | other (message : Other)

/-- Why a message is refused. -/
inductive Rejection where
  | deltaNotNegotiated
  | scrollNotNegotiated
  | invalidReuse
  | reuseWithoutBaseline
  | reuseMismatch
  | patchExceedsBaseline
  | scrollWithoutBaseline
  | scroll (error : Scroll.ScrollError)
  | scrollMismatch
  | deltaWithoutBaseline
  | delta (error : Delta.DeltaError)
  | deltaMismatch
  | popupMismatch
  | popupUnexpected
  | invalidHyperlink

/-! ### Scrolls and deltas -/

def decodeScroll (base : CellBaseline) (data : String) :
    Option (CellBaseline × Except Rejection PaneSurfacePatch) :=
  match Scroll.decode data with
  | .error error => some (base, .error (.scroll error))
  | .ok scroll =>
      if !base.matchesPatch scroll.patch then some (base, .error .scrollMismatch)
      else do
        match ← Scroll.apply base.cells base.width base.height scroll with
        | .error error => return (base, .error (.scroll error))
        | .ok (cells, patch) =>
            return ({ base with cells, surfaceRevision := patch.surfaceRevision }, .ok patch)

/-- The popup of a delta with its cells: all of them, or the baseline's under the rows of the
delta. -/
def deltaPopup (base : CellBaseline) (popup : Option ClientShellPopupSurface)
    (update : Option Delta.GridUpdate) :
    Option (Except Rejection (Option ClientShellPopupSurface)) :=
  match popup, update with
  | none, none => some (.ok none)
  | some popup, some (.replace cells) =>
      some (.ok (some { popup with frame := { popup.frame with cells } }))
  | some popup, some (.patch rows) =>
      let count := popup.frame.width.toNat * popup.frame.height.toNat
      let previous := base.popup.filter fun previous =>
        previous.terminalId = popup.terminalId && previous.width = popup.frame.width
          && previous.height = popup.frame.height && previous.cells.length = count
      match previous with
      | none => some (.error .popupMismatch)
      | some previous => do
          let cells ← applyRows previous.cells previous.width rows
          return .ok (some { popup with frame := { popup.frame with cells } })
  | _, _ => some (.error .popupUnexpected)

/-- Whether a cell links to a text that the frame does not have. -/
def hasInvalidHyperlink (frame : FrameData) : Bool :=
  frame.cells.any fun cell =>
    cell.hyperlink.any fun index => index.toNat ≥ frame.hyperlinks.length

def decodeDelta (base : CellBaseline) (data : String) :
    Option (CellBaseline × Except Rejection PaneSurfaceFrame) :=
  match Delta.decodeFor data (base.width, base.height) with
  | .error error => some (base, .error (.delta error))
  | .ok delta =>
      let surface := delta.surface
      if surface.bootId ≠ base.bootId
          || delta.baseProjectionRevision ≠ base.projectionRevision
          || delta.baseSurfaceRevision ≠ base.surfaceRevision
          || surface.surfaceRevision ≠ nextRevision base.surfaceRevision
          || surface.projectionRevision < base.projectionRevision
          || base.cells.length ≠ base.width.toNat * base.height.toNat then
        some (base, .error .deltaMismatch)
      else do
        let cells ← applyRows base.cells base.width delta.rows
        let surface := { surface with frame := { surface.frame with cells } }
        match ← deltaPopup base surface.popup delta.popupCells with
        | .error error => return (base, .error error)
        | .ok popup =>
            let surface := { surface with popup }
            if hasInvalidHyperlink surface.frame
                || surface.popup.any fun popup => hasInvalidHyperlink popup.frame then
              return (base, .error .invalidHyperlink)
            else
              -- Validate the entire update before advancing either grid or revision.
              let cells ← applyRows base.cells base.width delta.rows
              return ({ base with
                cells
                popup := popupBaseline surface
                projectionRevision := surface.projectionRevision
                surfaceRevision := surface.surfaceRevision }, .ok surface)

/-! ### Plain messages -/

/-- Whether a patch row lies inside the baseline. -/
def CellBaseline.rowFits (self : CellBaseline) (row : PaneSurfacePatchRow) : Bool :=
  let start := row.y.toNat * self.width.toNat + row.x.toNat
  row.y < self.height && row.x.toNat + row.cells.length ≤ self.width.toNat
    && start + row.cells.length ≤ self.cells.length

/-- Write the rows of a plain patch one after the other. The result tells whether all of them
were inside the grid. -/
def writeRows (base : CellBaseline) : List PaneSurfacePatchRow → CellBaseline × Bool
  | [] => (base, true)
  | row :: rest =>
      if !base.rowFits row then (base, false)
      else
        let start := row.y.toNat * base.width.toNat + row.x.toNat
        writeRows { base with cells := setSlice base.cells start row.cells } rest

/-- A full surface becomes the baseline. The popup is kept for deltas only. -/
def acceptSurface (decoder : Decoder) (surface : PaneSurfaceFrame) : Decoder :=
  let base := decoder.baseline.getD {}
  let base := { base with
    bootId := surface.bootId
    projectionRevision := surface.projectionRevision
    surfaceRevision := surface.surfaceRevision
    width := surface.frame.width
    height := surface.frame.height
    cells := surface.frame.cells
    popup := if decoder.surfaceDelta then popupBaseline surface else base.popup }
  { decoder with baseline := some base }

/-- A patch that does not continue the baseline drops it. -/
def acceptPatch (decoder : Decoder) (patch : PaneSurfacePatch) :
    Decoder × Except Rejection PaneSurfacePatch :=
  match decoder.baseline with
  | none => (decoder, .ok patch)
  | some base =>
      if !base.matchesPatch patch then ({ decoder with baseline := none }, .ok patch)
      else
        match writeRows base patch.rows with
        | (base, false) =>
            ({ decoder with baseline := some base }, .error .patchExceedsBaseline)
        | (base, true) =>
            let base := { base with surfaceRevision := patch.surfaceRevision }
            ({ decoder with baseline := some base }, .ok patch)

def acceptReuse (decoder : Decoder) (reuse : SurfaceReuse) :
    Decoder × Except Rejection PaneSurfaceFrame :=
  match decoder.baseline with
  | none => (decoder, .error .reuseWithoutBaseline)
  | some base =>
      let surface := reuse.surface
      if base.bootId ≠ surface.bootId
          || base.surfaceRevision ≠ reuse.baseSurfaceRevision
          || surface.surfaceRevision ≠ nextRevision base.surfaceRevision
          || base.width ≠ surface.frame.width
          || base.height ≠ surface.frame.height
          || !surface.frame.cells.isEmpty then
        (decoder, .error .reuseMismatch)
      else
        let surface := { surface with frame := { surface.frame with cells := base.cells } }
        let base := { base with
          projectionRevision := surface.projectionRevision
          surfaceRevision := surface.surfaceRevision
          popup := if decoder.surfaceDelta then popupBaseline surface else base.popup }
        ({ decoder with baseline := some base }, .ok surface)

/-! ### One message -/

section

variable {Other : Type} (parseReuse : String → Option SurfaceReuse)

/-- One message with the state after it, and the message it stands for. -/
def Decoder.decode (self : Decoder) :
    Incoming Other → Option (Decoder × Except Rejection (Incoming Other))
  | .known (.endpointControl kind data) =>
      if kind = Delta.messageKind then
        if !self.surfaceDelta then some (self, .error .deltaNotNegotiated)
        else
          match self.baseline with
          | none => some (self, .error .deltaWithoutBaseline)
          | some base => (decodeDelta base data).map fun (base, result) =>
              ({ self with baseline := some base },
                result.map fun surface => .known (.paneSurface surface))
      else if kind = Scroll.messageKind then
        if !self.surfaceScroll then some (self, .error .scrollNotNegotiated)
        else
          match self.baseline with
          | none => some (self, .error .scrollWithoutBaseline)
          | some base => (decodeScroll base data).map fun (base, result) =>
              ({ self with baseline := some base },
                result.map fun patch => .known (.paneSurfacePatch patch))
      else if kind = messageKind then
        match parseReuse data with
        | none => some (self, .error .invalidReuse)
        | some reuse =>
            let (after, result) := acceptReuse self reuse
            some (after, result.map fun surface => .known (.paneSurface surface))
      else some (self, .ok (.known (.endpointControl kind data)))
  | .known (.paneSurface surface) =>
      some (acceptSurface self surface, .ok (.known (.paneSurface surface)))
  | .known (.paneSurfacePatch patch) =>
      let (after, result) := acceptPatch self patch
      some (after, result.map fun patch => .known (.paneSurfacePatch patch))
  | .other message => some (self, .ok (.other message))

end

end Herden.Runtime.Surface.Reuse
