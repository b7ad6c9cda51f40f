import Herden.Lib.Float32

/-!
# `Herden.Runtime.Layout`: the BSP tiling layout

Embedding of `runtime/src/layout.rs`: the split tree of one tab (`Node`), the layout with
its focus and focus history (`TileLayout`), the geometry derived from it (`panes`,
`splits`), and the ten operations that edit it.

A method that takes `&mut self` returns the layout after the call, next to its result.
`find_pane_mut` hands out a mutable reference to one leaf; here it returns the function
that puts a new node in that leaf's place. `PaneId::alloc` reads a global counter, so the
id it hands out is an argument of `splitPane`. Coordinates are `u16` and wrap as they do
in a release build. `Rect::new` limits the size so that both far edges fit in a `u16`.
-/

namespace Herden.Runtime.Layout

open Herden.Lib (F32)

/-- `PaneId`, a globally unique number. -/
structure PaneId where
  raw : UInt32
deriving DecidableEq

inductive Direction where
  | horizontal
  | vertical
deriving DecidableEq

/-- Cardinal direction for pane navigation. -/
inductive NavDirection where
  | left
  | right
  | up
  | down

structure Rect where
  x : UInt16
  y : UInt16
  width : UInt16
  height : UInt16
deriving DecidableEq

/-- `x.saturating_add(y)` on `u16`. -/
def saturatingAdd (a b : UInt16) : UInt16 := UInt16.ofNat (min (a.toNat + b.toNat) 65535)

/-- `x.saturating_sub(y)` on `u16`. -/
def saturatingSub (a b : UInt16) : UInt16 := if b ≤ a then a - b else 0

def Rect.new (x y width height : UInt16) : Rect where
  x := x
  y := y
  width := saturatingAdd x width - x
  height := saturatingAdd y height - y

/-- Snapshot of a pane's position and focus state. `scrollbar_rect` and `borders` are left
out: `collect_panes` always writes their empty values. -/
structure PaneInfo where
  id : PaneId
  rect : Rect
  innerRect : Rect
  isFocused : Bool
deriving DecidableEq

/-- A split boundary. `path` leads from the root to the split: `false` is the first
child. -/
structure SplitBorder where
  pos : UInt16
  direction : Direction
  ratio : F32
  area : Rect
  path : List Bool
deriving DecidableEq

/-- A node in the BSP tree. -/
inductive Node where
  | pane (id : PaneId)
  | split (direction : Direction) (ratio : F32) (first second : Node)
deriving DecidableEq

structure TileLayout where
  root : Node
  focus : PaneId
  prevFocus : Option PaneId
deriving DecidableEq

/-! ### Tree operations -/

def countPanes : Node → Nat
  | .pane _ => 1
  | .split _ _ first second => countPanes first + countPanes second

/-- `collect_ids`: the leaf ids in leaf order. -/
def collectIds : Node → List PaneId
  | .pane id => [id]
  | .split _ _ first second => collectIds first ++ collectIds second

def splitRect (area : Rect) (direction : Direction) (ratio : F32) : Rect × Rect :=
  match direction with
  | .horizontal =>
      let firstW := ((F32.ofRat area.width.toNat).mul ratio).round.toU16
      let secondW := saturatingSub area.width firstW
      (Rect.new area.x area.y firstW area.height,
        Rect.new (area.x + firstW) area.y secondW area.height)
  | .vertical =>
      let firstH := ((F32.ofRat area.height.toNat).mul ratio).round.toU16
      let secondH := saturatingSub area.height firstH
      (Rect.new area.x area.y area.width firstH,
        Rect.new area.x (area.y + firstH) area.width secondH)

def collectPanes (area : Rect) (focus : PaneId) : Node → List PaneInfo
  | .pane id => [{ id := id, rect := area, innerRect := area, isFocused := id = focus }]
  | .split direction ratio first second =>
      let rects := splitRect area direction ratio
      collectPanes rects.1 focus first ++ collectPanes rects.2 focus second

def collectSplits (area : Rect) (path : List Bool) : Node → List SplitBorder
  | .pane _ => []
  | .split direction ratio first second =>
      let rects := splitRect area direction ratio
      let pos := match direction with
        | .horizontal => rects.1.x + rects.1.width
        | .vertical => rects.1.y + rects.1.height
      { pos := pos, direction := direction, ratio := ratio, area := area, path := path } ::
        (collectSplits rects.1 (path ++ [false]) first ++
          collectSplits rects.2 (path ++ [true]) second)

/-- `split_ratios`: every split's ratio next to its path, in preorder. -/
def splitRatios (path : List Bool) : Node → List (List Bool × F32)
  | .pane _ => []
  | .split _ ratio first second =>
      (path, ratio) ::
        (splitRatios (path ++ [false]) first ++ splitRatios (path ++ [true]) second)

def swapPaneIds (a b : PaneId) : Node → Node
  | .pane id => if id = a then .pane b else if id = b then .pane a else .pane id
  | .split direction ratio first second =>
      .split direction ratio (swapPaneIds a b first) (swapPaneIds a b second)

/-- `find_pane_mut`: the place of the first leaf named `target`, as the function that
writes a node there. -/
def findPaneMut (target : PaneId) : Node → Option (Node → Node)
  | .pane id => if id = target then some (fun node => node) else none
  | .split direction ratio first second =>
      match findPaneMut target first with
      | some place => some (fun node => .split direction ratio (place node) second)
      | none =>
          (findPaneMut target second).map
            (fun place node => .split direction ratio first (place node))

def splitNode (target : PaneId) (direction : Direction) (newId : PaneId) (splitRatio : F32) :
    Node :=
  .split direction splitRatio (.pane target) (.pane newId)

/-- The `f32` literals `0.1`, `0.9` and `0.5`. -/
def minRatio : F32 := F32.ofRat (1 / 10)
def maxRatio : F32 := F32.ofRat (9 / 10)
def halfRatio : F32 := F32.ofRat (1 / 2)

def validSplitRatio (ratio : F32) : F32 :=
  if ratio.isFinite then ratio.clamp minRatio maxRatio else halfRatio

def removePane (target : PaneId) : Node → Option Node
  | .pane id => if id = target then none else some (.pane id)
  | .split direction ratio first second =>
      match removePane target first, removePane target second with
      | none, some s => some s
      | some f, none => some f
      | some f, some s => some (.split direction ratio f s)
      | none, none => none

/-- The free function `set_ratio_at`: the tree after the call, and whether the path named
a split. -/
def setRatioAtNode (newRatio : F32) : Node → List Bool → Node × Bool
  | .pane id, _ => (.pane id, false)
  | .split direction _ first second, [] => (.split direction newRatio first second, true)
  | .split direction ratio first second, true :: path =>
      let result := setRatioAtNode newRatio second path
      (.split direction ratio first result.1, result.2)
  | .split direction ratio first second, false :: path =>
      let result := setRatioAtNode newRatio first path
      (.split direction ratio result.1 second, result.2)

def getRatioAt : Node → List Bool → Option F32
  | .pane _, _ => none
  | .split _ ratio _ _, [] => some ratio
  | .split _ _ _ second, true :: path => getRatioAt second path
  | .split _ _ first _, false :: path => getRatioAt first path

/-! ### Choosing the split to resize -/

def rangesOverlap (aStart aLen bStart bLen : UInt16) : Bool :=
  aStart < bStart + bLen && aStart + aLen > bStart

/-- `(a as i32 - b as i32).unsigned_abs()`. -/
def absDistance (a b : UInt16) : Nat := ((a.toNat : Int) - (b.toNat : Int)).natAbs

def splitEdgeDistance (split : SplitBorder) (focused : Rect) : NavDirection → Nat
  | .left => absDistance split.pos focused.x
  | .right => absDistance split.pos (focused.x + focused.width)
  | .up => absDistance split.pos focused.y
  | .down => absDistance split.pos (focused.y + focused.height)

def splitOnRequestedEdge (split : SplitBorder) (focused : Rect) (nav : NavDirection) : Bool :=
  splitEdgeDistance split focused nav ≤ 1

def splitAreaOverlapsFocusedPane (split : SplitBorder) (focused : Rect) (nav : NavDirection) :
    Bool :=
  match nav with
  | .left | .right =>
      rangesOverlap split.area.y split.area.height focused.y focused.height
  | .up | .down =>
      rangesOverlap split.area.x split.area.width focused.x focused.width

/-- `Iterator::min_by_key`: the first element with the least key. -/
def minByKey {α : Type} (key : α → Nat) : List α → Option α
  | [] => none
  | x :: xs => some (xs.foldl (fun best y => if key y < key best then y else best) x)

def nearestResizeSplit (splits : List SplitBorder) (targetDir : Direction) (focused : Rect)
    (nav : NavDirection) : Option SplitBorder :=
  minByKey (fun split => splitEdgeDistance split focused nav)
    (((splits.filter (fun split => split.direction = targetDir)).filter
      (fun split => splitAreaOverlapsFocusedPane split focused nav)).filter
      (fun split => splitOnRequestedEdge split focused nav))

def oppositeDirection : NavDirection → NavDirection
  | .left => .right
  | .right => .left
  | .up => .down
  | .down => .up

/-! ### `TileLayout` -/

namespace TileLayout

/-- `TileLayout::new`, with the id `PaneId::alloc` hands out. -/
def new (rootId : PaneId) : TileLayout where
  root := .pane rootId
  focus := rootId
  prevFocus := none

def fromSaved (root : Node) (focus : PaneId) : TileLayout where
  root := root
  focus := focus
  prevFocus := none

/-- Move focus, recording the pane being left. No-op when focus is unchanged. -/
def setFocus (self : TileLayout) (id : PaneId) : TileLayout :=
  if id ≠ self.focus then { self with prevFocus := some self.focus, focus := id } else self

def paneCount (self : TileLayout) : Nat := countPanes self.root

def paneIds (self : TileLayout) : List PaneId := collectIds self.root

def panes (self : TileLayout) (area : Rect) : List PaneInfo :=
  collectPanes area self.focus self.root

def splits (self : TileLayout) (area : Rect) : List SplitBorder :=
  collectSplits area [] self.root

/-- `panes_after_split`: the rectangles after splitting `target`, and the new pane's index. The
entry of the new pane carries `target`'s id. -/
def panesAfterSplit (self : TileLayout) (area : Rect) (target : PaneId) (direction : Direction)
    (ratio : F32) : Option (List PaneInfo × Nat) := do
  let panes := self.panes area
  let index ← panes.findIdx? (·.id = target)
  let info ← panes[index]?
  let rects := splitRect info.rect direction (validSplitRatio ratio)
  let split := { info with rect := rects.1, innerRect := rects.1 }
  let newPane := { split with rect := rects.2, innerRect := rects.2, isFocused := false }
  some ((panes.set index split).insertIdx (index + 1) newPane, index + 1)

/-- Split `target` without moving focus. `newId` is the id `PaneId::alloc` hands out. -/
def splitPane (self : TileLayout) (target : PaneId) (direction : Direction) (ratio : F32)
    (newId : PaneId) : TileLayout × Option PaneId :=
  match findPaneMut target self.root with
  | none => (self, none)
  | some place =>
      ({ self with root := place (splitNode target direction newId (validSplitRatio ratio)) },
        some newId)

def insertPaneNear (self : TileLayout) (target moved : PaneId) (direction : Direction)
    (ratio : F32) (focus : Bool) : TileLayout × Bool :=
  if target = moved then (self, false)
  else if moved ∈ self.paneIds then (self, false)
  else
    match findPaneMut target self.root with
    | none => (self, false)
    | some place =>
        let inserted : TileLayout :=
          { self with root := place (splitNode target direction moved (validSplitRatio ratio)) }
        (if focus then inserted.setFocus moved else inserted, true)

/-- `ids[pos + 1]`, or `ids[pos - 1]` at the end of the leaf order. -/
def orderedNeighbour (ids : List PaneId) (pos : Nat) : Option PaneId :=
  if pos + 1 < ids.length then ids[pos + 1]? else ids[pos - 1]?

/-- Close the focused pane. `none` is a panic: the focused pane is not in the tree, or it
has no neighbour. The source replaces the root by a placeholder leaf while it removes the
pane, and leaves the placeholder there when nothing remains. -/
def closeFocused (self : TileLayout) : Option (TileLayout × Bool) :=
  if self.paneCount ≤ 1 then some (self, false)
  else do
    let target := self.focus
    let ids := self.paneIds
    let pos ← ids.findIdx? (· = target)
    let ordered ← orderedNeighbour ids pos
    let newFocus := match self.prevFocus with
      | some prev => if prev ≠ target ∧ prev ∈ ids then prev else ordered
      | none => ordered
    match removePane target self.root with
    | some newRoot =>
        some ({ self with root := newRoot, focus := newFocus, prevFocus := none }, true)
    | none => some ({ self with root := .pane ⟨0⟩ }, false)

/-- Close any pane. Focus and its history are left alone unless the closed pane is the
focused one. -/
def closePane (self : TileLayout) (id : PaneId) : Option (TileLayout × Bool) :=
  if self.focus = id then self.closeFocused
  else if self.paneCount ≤ 1 ∨ id ∉ self.paneIds then some (self, false)
  else
    match removePane id self.root with
    | none => some ({ self with root := .pane ⟨0⟩ }, false)
    | some newRoot =>
        some ({ self with
            root := newRoot
            prevFocus := if self.prevFocus = some id then none else self.prevFocus }, true)

def focusPane (self : TileLayout) (id : PaneId) : TileLayout :=
  if id ∈ self.paneIds then self.setFocus id else self

def swapPanes (self : TileLayout) (first second : PaneId) : TileLayout × Bool :=
  if first = second then (self, false)
  else if first ∉ self.paneIds ∨ second ∉ self.paneIds then (self, false)
  else ({ self with root := swapPaneIds first second self.root }, true)

def setRatioAt (self : TileLayout) (path : List Bool) (ratio : F32) : TileLayout × Bool :=
  let result := setRatioAtNode (ratio.clamp minRatio maxRatio) self.root path
  ({ self with root := result.1 }, result.2)

def resizeFocused (self : TileLayout) (nav : NavDirection) (delta : F32) (area : Rect) :
    TileLayout :=
  match (self.panes area).find? (·.isFocused) with
  | none => self
  | some focused =>
      let splits := self.splits area
      let targetDir := match nav with
        | .left | .right => Direction.horizontal
        | .up | .down => Direction.vertical
      let grows := match nav with
        | .right | .down => true
        | .left | .up => false
      let best := (nearestResizeSplit splits targetDir focused.rect nav).or
        (nearestResizeSplit splits targetDir focused.rect (oppositeDirection nav))
      match best with
      | none => self
      | some split =>
          let currentRatio := (getRatioAt self.root split.path).getD halfRatio
          let adj := if grows then delta else delta.neg
          (self.setRatioAt split.path (currentRatio.add adj)).1

/-- `!=` on the vectors `split_ratios` returns: the ratios compare as numbers. -/
def ratiosDiffer (before after : List (List Bool × F32)) : Bool :=
  !(before.length == after.length &&
    (before.zip after).all (fun pair => pair.1.1 == pair.2.1 && pair.1.2.eq pair.2.2))

def resizePane (self : TileLayout) (paneId : PaneId) (nav : NavDirection) (delta : F32)
    (area : Rect) : TileLayout × Bool :=
  if paneId ∉ self.paneIds then (self, false)
  else
    let before := splitRatios [] self.root
    let resized := { self with focus := paneId }.resizeFocused nav delta area
    let restored := { resized with focus := self.focus }
    (restored, ratiosDiffer (splitRatios [] restored.root) before)

/-! ### The operations as one machine -/

/-- A call on a layout, with the arguments the caller chooses. `splitPane` carries the id
`PaneId::alloc` hands out. -/
inductive Op where
  | splitPane (target : PaneId) (direction : Direction) (ratio : F32) (newId : PaneId)
  | insertPaneNear (target moved : PaneId) (direction : Direction) (ratio : F32) (focus : Bool)
  | closePane (id : PaneId)
  | closeFocused
  | focusPane (id : PaneId)
  | swapPanes (first second : PaneId)
  | setRatioAt (path : List Bool) (ratio : F32)
  | resizeFocused (nav : NavDirection) (delta : F32) (area : Rect)
  | resizePane (paneId : PaneId) (nav : NavDirection) (delta : F32) (area : Rect)

/-- What a call answers: nothing, a flag, or the new pane's id if there is one. -/
inductive Answer where
  | unit
  | flag (ok : Bool)
  | pane (id : Option PaneId)

/-- The answer reports failure: `false` or `None`. -/
def Answer.failed : Answer → Bool
  | .unit => false
  | .flag ok => !ok
  | .pane id => id.isNone

/-- One call. `none` is a panic. -/
def step (self : TileLayout) : Op → Option (TileLayout × Answer)
  | .splitPane target direction ratio newId =>
      let result := self.splitPane target direction ratio newId
      some (result.1, .pane result.2)
  | .insertPaneNear target moved direction ratio focus =>
      let result := self.insertPaneNear target moved direction ratio focus
      some (result.1, .flag result.2)
  | .closePane id => (self.closePane id).map (fun result => (result.1, .flag result.2))
  | .closeFocused => self.closeFocused.map (fun result => (result.1, .flag result.2))
  | .focusPane id => some (self.focusPane id, .unit)
  | .swapPanes first second =>
      let result := self.swapPanes first second
      some (result.1, .flag result.2)
  | .setRatioAt path ratio =>
      let result := self.setRatioAt path ratio
      some (result.1, .flag result.2)
  | .resizeFocused nav delta area => some (self.resizeFocused nav delta area, .unit)
  | .resizePane paneId nav delta area =>
      let result := self.resizePane paneId nav delta area
      some (result.1, .flag result.2)

end TileLayout

end Herden.Runtime.Layout
