import Herden.Lib.Machine
import Herden.Runtime.Wire

/-!
# `Herden.Runtime.Surface.Retained`: dirty rows of a retained surface

The model of `changed_rows` in `server/headless/retained_surface.rs`. While nothing but terminal
output changes, the server does not render a surface again: it takes the rows that a terminal
reports as dirty, compares them with the cells it sent last, and sends the runs that differ.
-/

namespace Herden.Runtime.Surface.Retained

open Herden.Lib
open Herden.Lib.Machine
open Herden.Runtime.Wire

/-- The rows of a pane that were drawn anew, by their distance from its top. -/
structure TerminalDirtyPatch where
  rows : List (UInt16 × List CellData)

def rectFitsFrame (rect : SurfaceRect) (frame : FrameData) : Bool :=
  saturatingAdd 16 rect.x.toNat rect.width.toNat ≤ frame.width.toNat
    && saturatingAdd 16 rect.y.toNat rect.height.toNat ≤ frame.height.toNat

/-- The rows of the patch for one dirty row: its runs of changed cells, each with the cell that
follows it, so that a change of a grapheme's width repaints what the old one covered. -/
def changedRow (frame : FrameData) (area : SurfaceRect) (row : UInt16 × List CellData) :
    Option (List PaneSurfacePatchRow) :=
  let (localY, cells) := row
  if localY ≥ area.height then some []
  else
    let width := area.width.toNat
    if cells.length < width then none
    else do
      let y := area.y + localY
      let frameStart := y.toNat * frame.width.toNat + area.x.toNat
      let frameEnd ← add? 64 frameStart width
      let existing ← slice? frame.cells frameStart frameEnd
      let desired := cells.take width
      (widenedRuns existing desired).mapM fun run => do
        let x ← add? 16 area.x.toNat run.1
        return ({ x := UInt16.ofNat x, y, cells := run.2 } : PaneSurfacePatchRow)

def changedRows (frame : FrameData) (area : SurfaceRect) (patch : TerminalDirtyPatch) :
    Option (List PaneSurfacePatchRow) :=
  if !rectFitsFrame area frame then none
  else (patch.rows.mapM (changedRow frame area)).map List.flatten

end Herden.Runtime.Surface.Retained
