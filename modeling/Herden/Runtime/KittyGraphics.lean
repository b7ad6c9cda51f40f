import Herden.Runtime.Layout

/-!
# `Herden.Runtime.KittyGraphics`: images around overlays

The part of `kitty_graphics/surface.rs` that crops images to what no overlay touches: `Occlusion`
with the covering rectangles of a frame, the pieces of a placement's grid of cells, and the source
pixels of a piece. Cells are naturals here: pieces stay inside the grid, whose size is a `u32`.
-/

namespace Herden.Runtime.KittyGraphics

open Herden.Runtime.Layout (Rect saturatingAdd)

inductive SurfaceGraphicsTarget where
  | pane
  | popup

inductive SurfaceGraphicsSource where
  | terminal (target : SurfaceGraphicsTarget)
  | paneLayer

/-- A placement, as far as cropping looks at it. -/
structure SurfaceGraphicsPlacement where
  source : SurfaceGraphicsSource
  x : UInt16
  y : UInt16
  cols : UInt32
  rows : UInt32

/-! ### Pieces -/

structure GridPiece where
  col : Nat
  row : Nat
  cols : Nat
  rows : Nat
deriving DecidableEq

namespace GridPiece

def whole (placement : SurfaceGraphicsPlacement) : GridPiece :=
  ⟨0, 0, placement.cols.toNat, placement.rows.toNat⟩

/-- The piece between two corners `(left, top)` and `(right, bottom)`. -/
def ofBounds : Nat × Nat × Nat × Nat → GridPiece
  | (left, top, right, bottom) => ⟨left, top, right - left, bottom - top⟩

def subtract (self : GridPiece) (colStart colEnd rowStart rowEnd : Nat) : List GridPiece :=
  let right := self.col + self.cols
  let bottom := self.row + self.rows
  if colEnd ≤ self.col || right ≤ colStart || rowEnd ≤ self.row || bottom ≤ rowStart then [self]
  else
    let middleTop := max rowStart self.row
    let middleBottom := min rowEnd bottom
    ([(self.col, self.row, right, middleTop),
      (self.col, middleBottom, right, bottom),
      (self.col, middleTop, max colStart self.col, middleBottom),
      (min colEnd right, middleTop, right, middleBottom)].filter
        fun (left, top, right, bottom) => left < right && top < bottom).map ofBounds

end GridPiece

/-! ### Occlusion -/

/-- The covering rectangles, those in front of a popup from `popupStart` on. -/
structure Occlusion where
  regions : List Rect
  popupStart : Nat
  popupStart_le : popupStart ≤ regions.length

def rectRight (rect : Rect) : Nat := (saturatingAdd rect.x rect.width).toNat

def rectBottom (rect : Rect) : Nat := (saturatingAdd rect.y rect.height).toNat

def maxExtraCropPieces : Nat := 32

/-- The closure `covered_span`: where `start..end` covers an image of length `len`. -/
def coveredSpan (start stop imageStart len : Nat) : Option (Nat × Nat) :=
  let first := start - imageStart
  let last := min (stop - imageStart) len
  if first < last then some (first, last) else none

/-- The loop of `visible_pieces`. -/
def cutAround (placement : SurfaceGraphicsPlacement) (x y limit : Nat) :
    List Rect → List GridPiece → Option (List GridPiece)
  | [], pieces => some pieces
  | rect :: regions, pieces =>
      match coveredSpan rect.x.toNat (rectRight rect) x placement.cols.toNat,
          coveredSpan rect.y.toNat (rectBottom rect) y placement.rows.toNat with
      | some (colStart, colEnd), some (rowStart, rowEnd) =>
          let pieces := pieces.flatMap (·.subtract colStart colEnd rowStart rowEnd)
          if pieces.isEmpty then some pieces
          else if limit < pieces.length then none
          else cutAround placement x y limit regions pieces
      | _, _ => cutAround placement x y limit regions pieces

namespace Occlusion

def initial : Occlusion := ⟨[], 0, Nat.le_refl 0⟩

def cover (self : Occlusion) (rect : Rect) : Occlusion :=
  if rect.width = 0 ∨ rect.height = 0 then self
  else ⟨self.regions ++ [rect], self.popupStart,
    Nat.le_trans self.popupStart_le (by rw [List.length_append]; exact Nat.le_add_right _ _)⟩

def startPopup (self : Occlusion) (rect : Rect) : Occlusion :=
  let self := self.cover rect
  ⟨self.regions, self.regions.length, Nat.le_refl _⟩

/-- The covers that apply to a placement. -/
def regionsFor (self : Occlusion) (placement : SurfaceGraphicsPlacement) : List Rect :=
  match placement.source with
  | .terminal .popup => self.regions.drop self.popupStart
  | _ => self.regions

def visiblePieces (self : Occlusion) (placement : SurfaceGraphicsPlacement)
    (origin : UInt16 × UInt16) (limit : Nat) : Option (List GridPiece) :=
  cutAround placement (saturatingAdd origin.1 placement.x).toNat
    (saturatingAdd origin.2 placement.y).toNat limit (self.regionsFor placement)
    [.whole placement]

/-- The loop of `frame_pieces`. The outer `none` is a budget that underflows, the inner one a
placement that would take too many pieces. -/
def cropAll (self : Occlusion) :
    Nat → List (SurfaceGraphicsPlacement × UInt16 × UInt16) →
      Option (Option (List (List GridPiece)))
  | _, [] => some (some [])
  | extraBudget, (placement, origin) :: rest =>
      match self.visiblePieces placement origin (extraBudget + 1) with
      | none => some none
      | some found =>
          if extraBudget < found.length - 1 then none
          else
            (self.cropAll (extraBudget - (found.length - 1)) rest).map (·.map (found :: ·))

/-- `frame_pieces`; `none` is a panic. -/
def framePieces (self : Occlusion)
    (placements : List (SurfaceGraphicsPlacement × UInt16 × UInt16)) :
    Option (List (List GridPiece)) :=
  match self.cropAll maxExtraCropPieces placements with
  | none => none
  | some (some pieces) => some pieces
  | some none =>
      some (placements.map fun (placement, origin) =>
        let whole := [GridPiece.whole placement]
        if self.visiblePieces placement origin 1 = some whole then whole else [])

end Occlusion

/-! ### Source pixels -/

/-- The closure `edge` of `piece_source_span`: the source pixel at which a cell begins. The product
with the source length is one of `u64`. -/
def sourceEdge (totalCells cellPx offset sourceLen cell : UInt32) : UInt32 :=
  let display := totalCells.toNat * cellPx.toNat
  let offset := min offset.toNat (display - 1)
  let pixel := max (cell.toNat * cellPx.toNat) offset
  UInt32.ofNat ((pixel - offset) * sourceLen.toNat % 2 ^ 64 / max (display - offset) 1)

/-- `piece_source_span`: the first source pixel of the cells, and how many there are. -/
def pieceSourceSpan (startCell cells totalCells cellPx offset sourceLen : UInt32) :
    UInt32 × UInt32 :=
  let start := sourceEdge totalCells cellPx offset sourceLen startCell
  let stop := sourceEdge totalCells cellPx offset sourceLen (startCell + cells)
  if start.toNat < stop.toNat then (start, stop - start)
  else (UInt32.ofNat (min start.toNat (sourceLen.toNat - 1)), 1)

end Herden.Runtime.KittyGraphics
