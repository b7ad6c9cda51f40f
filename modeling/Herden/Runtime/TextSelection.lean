import Herden.Runtime.Layout

/-!
# `Herden.Runtime.TextSelection`: text selections

From `runtime/src/selection.rs`: a selection keeps its two ends in rows of the screen buffer, and
the viewport shows a window of those rows. `contains` decides about one cell of the viewport, and
`visibleRects` gives the rectangles that are highlighted. Rows are `u32` and columns `u16`. Sums
wrap as they do in a release build.
-/

namespace Herden.Runtime.TextSelection

open Herden.Runtime.Layout

structure ScrollMetrics where
  offsetFromBottom : Nat
  maxOffsetFromBottom : Nat
  viewportRows : Nat

inductive Phase where
  | anchored
  | dragging
  | done
deriving DecidableEq

structure Selection (P : Type) where
  paneId : P
  anchor : UInt32 × UInt16
  cursor : UInt32 × UInt16
  phase : Phase

/-! ### Rectangles -/

def defaultRect : Rect := ⟨0, 0, 0, 0⟩

def isEmpty (self : Rect) : Bool := self.width == 0 || self.height == 0

def rectContains (self : Rect) (x y : UInt16) : Bool :=
  self.x ≤ x && x < saturatingAdd self.x self.width
    && self.y ≤ y && y < saturatingAdd self.y self.height

/-! ### Rows -/

/-- The row of the screen buffer at the top of the viewport. -/
def viewportTopRow (metrics : Option ScrollMetrics) : UInt32 :=
  UInt32.ofNat ((metrics.map fun metrics =>
    metrics.maxOffsetFromBottom - metrics.offsetFromBottom).getD 0)

def absoluteRowForViewportRow (viewportRow : UInt16) (metrics : Option ScrollMetrics) : UInt32 :=
  viewportTopRow metrics + viewportRow.toUInt32

/-- `saturating_add` on `u32`. -/
def saturatingAdd32 (a b : UInt32) : UInt32 := UInt32.ofNat (min (a.toNat + b.toNat) 4294967295)

def smaller (a b : UInt32) : UInt32 := if a ≤ b then a else b

def larger (a b : UInt32) : UInt32 := if a ≤ b then b else a

def smaller16 (a b : UInt16) : UInt16 := if a ≤ b then a else b

/-! ### Selections -/

section

variable {P : Type}

def absoluteRange (paneId : P) (anchor cursor : UInt32 × UInt16) : Selection P :=
  ⟨paneId, anchor, cursor, .dragging⟩

def Selection.isVisible (self : Selection P) : Bool :=
  self.phase == .dragging || self.phase == .done

/-- The two ends in reading order. -/
def Selection.ordered (self : Selection P) : (UInt32 × UInt16) × (UInt32 × UInt16) :=
  let (ar, ac) := self.anchor
  let (cr, cc) := self.cursor
  if ar < cr || (ar == cr && ac ≤ cc) then ((ar, ac), (cr, cc)) else ((cr, cc), (ar, ac))

/-- The part of a run of rows and columns that is in the viewport. -/
def visibleRect (inner : Rect) (top bottom first stop : UInt32) (left right : UInt16) : Rect :=
  let first := larger first top
  let stop := smaller stop bottom
  let left := smaller16 left inner.width
  let right := smaller16 right inner.width
  if stop ≤ first || right ≤ left then defaultRect
  else
    Rect.new (inner.x + left) (inner.y + (first - top).toUInt16) (right - left)
      (stop - first).toUInt16

def Selection.visibleRects (self : Selection P) (inner : Rect) (metrics : Option ScrollMetrics) :
    List Rect :=
  if !self.isVisible || isEmpty inner then [defaultRect, defaultRect, defaultRect]
  else
    let ((startRow, startCol), (endRow, endCol)) := self.ordered
    let top := viewportTopRow metrics
    let bottom := saturatingAdd32 top inner.height.toUInt32
    let rect := visibleRect inner top bottom
    if startRow == endRow then
      [rect startRow (saturatingAdd32 startRow 1) startCol (saturatingAdd endCol 1),
        defaultRect, defaultRect]
    else
      [rect startRow (saturatingAdd32 startRow 1) startCol inner.width,
        rect (saturatingAdd32 startRow 1) endRow 0 inner.width,
        rect endRow (saturatingAdd32 endRow 1) 0 (saturatingAdd endCol 1)]

/-- Whether a cell of the viewport is selected. -/
def Selection.contains (self : Selection P) (viewportRow col : UInt16)
    (metrics : Option ScrollMetrics) : Bool :=
  if !self.isVisible then false
  else
    let row := absoluteRowForViewportRow viewportRow metrics
    let ((sr, sc), (er, ec)) := self.ordered
    if row < sr || er < row then false
    else if sr == er then sc ≤ col && col ≤ ec
    else if row == sr then sc ≤ col
    else if row == er then col ≤ ec
    else true

end

end Herden.Runtime.TextSelection
