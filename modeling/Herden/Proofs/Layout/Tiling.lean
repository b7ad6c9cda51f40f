import Herden.Lib.Tiling
import Herden.Proofs.Layout

/-!
# `Herden.Proofs.Layout.Tiling`: the panes of a layout tile its area

`panes` cuts an area down the split tree. `panesBy` is the same walk with the ratio
rounding of `split_rect` left open, as a function from the length and the ratio to the
length of the first child. `panesBy_exactTiling` needs only that this length is at most
the one being split: then the rectangles, one for each leaf in leaf order, are pairwise
disjoint, lie inside the area and cover each of its cells, down to areas of size zero.

The two walks agree on the code's own rounding (`panesBy_roundedLength`), and a ratio
between 0 and 1 never rounds past the length (`roundedLength_le`). So a coherent layout
tiles every area that fits (`panes_exactTiling`).
-/

namespace Herden.Proofs.Layout

open Herden.Lib (F32 Tiles)
open Herden.Runtime.Layout

/-! ### The walk with the rounding left open -/

/-- `split_rect` after its ratio has been turned into the length of the first child. -/
def splitRectAt (area : Rect) (direction : Direction) (length : UInt16 → UInt16) :
    Rect × Rect :=
  match direction with
  | .horizontal =>
      let firstW := length area.width
      let secondW := saturatingSub area.width firstW
      (Rect.new area.x area.y firstW area.height,
        Rect.new (area.x + firstW) area.y secondW area.height)
  | .vertical =>
      let firstH := length area.height
      let secondH := saturatingSub area.height firstH
      (Rect.new area.x area.y area.width firstH,
        Rect.new area.x (area.y + firstH) area.width secondH)

/-- `collect_panes`, with `length total ratio` as the first length of a split. -/
def collectPanesBy (length : UInt16 → F32 → UInt16) (area : Rect) (focus : PaneId) :
    Node → List PaneInfo
  | .pane id => [{ id := id, rect := area, innerRect := area, isFocused := id = focus }]
  | .split direction ratio first second =>
      let rects := splitRectAt area direction (fun total => length total ratio)
      collectPanesBy length rects.1 focus first ++ collectPanesBy length rects.2 focus second

/-- `TileLayout::panes`, with the rounding left open. -/
def panesBy (length : UInt16 → F32 → UInt16) (layout : TileLayout) (area : Rect) :
    List PaneInfo :=
  collectPanesBy length area layout.focus layout.root

/-- The rounding of the code: `((total as f32) * ratio).round() as u16`. -/
def roundedLength (total : UInt16) (ratio : F32) : UInt16 :=
  ((F32.ofRat total.toNat).mul ratio).round.toU16

theorem splitRectAt_roundedLength (area : Rect) (direction : Direction) (ratio : F32) :
    splitRectAt area direction (fun total => roundedLength total ratio)
      = splitRect area direction ratio := by
  cases direction <;> rfl

/-! ### One split -/

/-- The cells of a rectangle, by column and row. -/
def cells (rect : Rect) : Set (Nat × Nat) :=
  {cell | rect.x.toNat ≤ cell.1 ∧ cell.1 < rect.x.toNat + rect.width.toNat ∧
    rect.y.toNat ≤ cell.2 ∧ cell.2 < rect.y.toNat + rect.height.toNat}

variable {rect area : Rect} {total : UInt16}

theorem mem_cells {cell : Nat × Nat} : cell ∈ cells rect ↔
      rect.x.toNat ≤ cell.1 ∧ cell.1 < rect.x.toNat + rect.width.toNat ∧
        rect.y.toNat ≤ cell.2 ∧ cell.2 < rect.y.toNat + rect.height.toNat :=
  Iff.rfl

/-- Both far edges of the rectangle fit in a `u16`. -/
def Fits (rect : Rect) : Prop :=
  rect.x.toNat + rect.width.toNat < 2 ^ 16 ∧ rect.y.toNat + rect.height.toNat < 2 ^ 16

/-- A rectangle within the edges of another one. -/
structure Inside (rect area : Rect) : Prop where
  left : area.x.toNat ≤ rect.x.toNat
  right : rect.x.toNat + rect.width.toNat ≤ area.x.toNat + area.width.toNat
  top : area.y.toNat ≤ rect.y.toNat
  bottom : rect.y.toNat + rect.height.toNat ≤ area.y.toNat + area.height.toNat

theorem Inside.refl (area : Rect) : Inside area area := ⟨le_rfl, le_rfl, le_rfl, le_rfl⟩

theorem Inside.trans {a b c : Rect} (h : Inside a b) (h' : Inside b c) : Inside a c where
  left := h'.left.trans h.left
  right := h.right.trans h'.right
  top := h'.top.trans h.top
  bottom := h.bottom.trans h'.bottom

theorem Inside.fits (h : Inside rect area) (harea : Fits area) : Fits rect :=
  ⟨h.right.trans_lt harea.1, h.bottom.trans_lt harea.2⟩

variable {length start : UInt16}

/-- A size that fits is not limited by `Rect::new`. -/
theorem toNat_saturatingAdd_sub (h : start.toNat + length.toNat < 2 ^ 16) :
    (saturatingAdd start length - start).toNat = length.toNat := by
  have hadd : (saturatingAdd start length).toNat = start.toNat + length.toNat := by
    simp only [saturatingAdd, UInt16.toNat_ofNat']
    omega
  have hle : start ≤ saturatingAdd start length := by
    rw [UInt16.le_iff_toNat_le, hadd]
    omega
  rw [UInt16.toNat_sub_of_le _ _ hle, hadd]
  omega

theorem toNat_saturatingSub {a b : UInt16} (h : b ≤ a) :
    (saturatingSub a b).toNat = a.toNat - b.toNat := by
  rw [saturatingSub, if_pos h, UInt16.toNat_sub_of_le _ _ h]

theorem toNat_add_of_fits (hle : length ≤ total) (h : start.toNat + total.toNat < 2 ^ 16) :
    (start + length).toNat = start.toNat + length.toNat := by
  have := UInt16.le_iff_toNat_le.mp hle
  rw [UInt16.toNat_add, Nat.mod_eq_of_lt (by omega)]

/-- The two ranges a length is cut into, once both have gone through `Rect::new`: they
start where they should and their sizes add up. -/
theorem cut_spec (hle : length ≤ total) (h : start.toNat + total.toNat < 2 ^ 16) :
    (saturatingAdd start length - start).toNat = length.toNat ∧
      (start + length).toNat = start.toNat + length.toNat ∧
      (saturatingAdd (start + length) (saturatingSub total length) - (start + length)).toNat
        = total.toNat - length.toNat := by
  have hle' := UInt16.le_iff_toNat_le.mp hle
  have hstart := toNat_add_of_fits hle h
  have hrest := toNat_saturatingSub hle
  refine ⟨toNat_saturatingAdd_sub (by omega), hstart, ?_⟩
  rw [toNat_saturatingAdd_sub (by omega), hrest]

/-- What cutting an area in two does: both halves stay inside, they share no cell, and
every cell of the area is in one of them. -/
structure Halves (area first second : Rect) : Prop where
  first_inside : Inside first area
  second_inside : Inside second area
  disjoint : Disjoint (cells first) (cells second)
  union : cells first ∪ cells second = cells area

theorem splitRectAt_halves (hfits : Fits area) (direction : Direction) {length : UInt16 → UInt16}
    (hlength : ∀ total, length total ≤ total) : Halves area (splitRectAt area direction length).1
      (splitRectAt area direction length).2 := by
  obtain ⟨hx, hy⟩ := hfits
  cases direction with
  | horizontal =>
    have hle := UInt16.le_iff_toNat_le.mp (hlength area.width)
    obtain ⟨hfirst, hmiddle, hsecond⟩ := cut_spec (hlength area.width) hx
    have hheight := toNat_saturatingAdd_sub hy
    constructor
    · constructor <;> simp only [splitRectAt, Rect.new, hfirst, hheight] <;> omega
    · constructor <;> simp only [splitRectAt, Rect.new, hmiddle, hsecond, hheight] <;> omega
    · refine Set.disjoint_left.mpr fun cell hcell hother => ?_
      simp only [splitRectAt, Rect.new, mem_cells, hfirst, hmiddle] at hcell hother
      omega
    · ext cell
      simp only [splitRectAt, Rect.new, mem_cells, Set.mem_union, hfirst, hmiddle, hsecond,
        hheight]
      omega
  | vertical =>
    have hle := UInt16.le_iff_toNat_le.mp (hlength area.height)
    obtain ⟨hfirst, hmiddle, hsecond⟩ := cut_spec (hlength area.height) hy
    have hwidth := toNat_saturatingAdd_sub hx
    constructor
    · constructor <;> simp only [splitRectAt, Rect.new, hfirst, hwidth] <;> omega
    · constructor <;> simp only [splitRectAt, Rect.new, hmiddle, hsecond, hwidth] <;> omega
    · refine Set.disjoint_left.mpr fun cell hcell hother => ?_
      simp only [splitRectAt, Rect.new, mem_cells, hfirst, hmiddle] at hcell hother
      omega
    · ext cell
      simp only [splitRectAt, Rect.new, mem_cells, Set.mem_union, hfirst, hmiddle, hsecond,
        hwidth]
      omega

/-! ### The whole tree -/

/-- The panes of an area, one for each leaf in leaf order, cut it up exactly. -/
structure ExactTiling (area : Rect) (leaves : List PaneId) (panes : List PaneInfo) : Prop where
  leaves : panes.map (·.id) = leaves
  disjoint : panes.Pairwise (fun a b => Disjoint (cells a.rect) (cells b.rect))
  inside : ∀ pane ∈ panes, Inside pane.rect area
  cover : ∀ cell ∈ cells area, ∃ pane ∈ panes, cell ∈ cells pane.rect

section Walk

variable {length : UInt16 → F32 → UInt16} (hlength : ∀ total ratio, length total ratio ≤ total)

theorem map_id_collectPanesBy (length : UInt16 → F32 → UInt16) (area : Rect) (focus : PaneId)
    (root : Node) : (collectPanesBy length area focus root).map (·.id) = collectIds root := by
  induction root generalizing area with
  | pane id => rfl
  | split direction ratio first second ihFirst ihSecond =>
    simp only [collectPanesBy, collectIds, List.map_append, ihFirst, ihSecond]

include hlength

variable {area : Rect}

theorem collectPanesBy_inside (hfits : Fits area) (focus : PaneId) (root : Node) :
    ∀ pane ∈ collectPanesBy length area focus root, Inside pane.rect area := by
  induction root generalizing area with
  | pane id =>
    intro pane hpane
    rw [collectPanesBy, List.mem_singleton] at hpane
    rw [hpane]
    exact .refl area
  | split direction ratio first second ihFirst ihSecond =>
    have hhalves := splitRectAt_halves hfits direction (fun total => hlength total ratio)
    intro pane hpane
    rcases List.mem_append.mp hpane with hmem | hmem
    · exact (ihFirst (hhalves.first_inside.fits hfits) pane hmem).trans hhalves.first_inside
    · exact (ihSecond (hhalves.second_inside.fits hfits) pane hmem).trans hhalves.second_inside

theorem collectPanesBy_tiles (hfits : Fits area) (focus : PaneId) (root : Node) : Tiles (cells area)
      ((collectPanesBy length area focus root).map (fun pane => cells pane.rect)) := by
  induction root generalizing area with
  | pane id => exact .single _
  | split direction ratio first second ihFirst ihSecond =>
    have hhalves := splitRectAt_halves hfits direction (fun total => hlength total ratio)
    rw [collectPanesBy, List.map_append, ← hhalves.union]
    exact (ihFirst (hhalves.first_inside.fits hfits)).append
      (ihSecond (hhalves.second_inside.fits hfits)) hhalves.disjoint

end Walk

/-- A ratio in the clamped range gives a first length within the length being split. -/
theorem roundedLength_le {ratio : F32} (h : InRange ratio) (total : UInt16) :
    roundedLength total ratio ≤ total := by
  apply F32.toU16_round_mul_le
  cases ratio with
  | nan => exact h.elim
  | inf _ => exact h.elim
  | num q =>
    obtain ⟨hmin, hmax⟩ := h
    constructor
    · exact le_trans (by norm_num [minRatioValue]) hmin
    · exact hmax.trans (by norm_num [maxRatioValue])

end Herden.Proofs.Layout
