import Mathlib.Tactic.Common
import Herden.Lib.Tiling
import Herden.Runtime.KittyGraphics

/-!
# `Herden.Proofs.KittyGraphics`: what is shown of an image is what no overlay touches

Cutting a rectangle out of a piece tiles what is left of it (`tiles_subtract`), so cutting one cover
after the other tiles the cells under none of them (`cutAround_spec`). A frame takes the pieces of
each placement out of one budget, which a placement that fits never exceeds (`cropAll_spec`). The
source pixels of a piece begin and end at the edges of its cells (`sourceEdge_spec`), so pieces that
meet share an edge, unless the first is so thin that it would get no pixel at all.
-/

namespace Herden.Proofs.KittyGraphics

open Herden.Lib
open Herden.Runtime.Layout (Rect saturatingAdd)
open Herden.Runtime.KittyGraphics

/-! ### Cells -/

/-- The cells of a piece. -/
def cells (piece : GridPiece) : Set (Nat × Nat) :=
  { cell | piece.col ≤ cell.1 ∧ cell.1 < piece.col + piece.cols
      ∧ piece.row ≤ cell.2 ∧ cell.2 < piece.row + piece.rows }

/-- The cells between two corners. -/
def between : Nat × Nat × Nat × Nat → Set (Nat × Nat)
  | (left, top, right, bottom) =>
      { cell | left ≤ cell.1 ∧ cell.1 < right ∧ top ≤ cell.2 ∧ cell.2 < bottom }

variable {cell : Nat × Nat} {piece : GridPiece} {imageStart len start stop : Nat}
  {pieces : List GridPiece} {regions : List Rect}

theorem mem_between {left top right bottom : Nat} : cell ∈ between (left, top, right, bottom)
      ↔ left ≤ cell.1 ∧ cell.1 < right ∧ top ≤ cell.2 ∧ cell.2 < bottom := Iff.rfl

theorem mem_cells : cell ∈ cells piece ↔ piece.col ≤ cell.1 ∧ cell.1 < piece.col + piece.cols
      ∧ piece.row ≤ cell.2 ∧ cell.2 < piece.row + piece.rows := Iff.rfl

theorem cells_ofBounds (bounds : Nat × Nat × Nat × Nat) :
    cells (.ofBounds bounds) = between bounds := by
  obtain ⟨left, top, right, bottom⟩ := bounds
  ext cell
  rw [mem_cells, mem_between]
  change left ≤ cell.1 ∧ cell.1 < left + (right - left) ∧ top ≤ cell.2
    ∧ cell.2 < top + (bottom - top) ↔ _
  omega

theorem disjoint_of {s t : Set (Nat × Nat)} (h : ∀ cell, cell ∈ s → cell ∈ t → False) :
    Disjoint s t :=
  Set.disjoint_left.mpr fun cell hs ht => h cell hs ht

/-- A piece that has cells, all of them in the grid. -/
structure Sound (width height : Nat) (piece : GridPiece) : Prop where
  cols_pos : 0 < piece.cols
  rows_pos : 0 < piece.rows
  right_le : piece.col + piece.cols ≤ width
  bottom_le : piece.row + piece.rows ≤ height

/-! ### Subtraction -/

/-- A piece without a rectangle is tiled by what `subtract` leaves. -/
theorem tiles_subtract (piece : GridPiece) {colStart colEnd rowStart rowEnd : Nat}
    (hcols : colStart < colEnd) (hrows : rowStart < rowEnd) :
    Tiles (cells piece \ between (colStart, rowStart, colEnd, rowEnd))
      ((piece.subtract colStart colEnd rowStart rowEnd).map cells) := by
  unfold GridPiece.subtract
  dsimp only
  split
  next houtside =>
    have hsame : cells piece \ between (colStart, rowStart, colEnd, rowEnd) = cells piece := by
      simp only [Bool.or_eq_true, decide_eq_true_eq] at houtside
      ext cell
      rw [Set.mem_sdiff, mem_between, mem_cells]
      omega
    rw [hsame]
    exact Tiles.single _
  next hinside =>
    simp only [Bool.or_eq_true, decide_eq_true_eq, not_or, Nat.not_le] at hinside
    obtain ⟨⟨⟨hleft, hright⟩, htop⟩, hbottom⟩ := hinside
    have hcells : cells ∘ GridPiece.ofBounds = between := funext cells_ofBounds
    rw [List.map_map, hcells]
    constructor
    · rw [List.pairwise_map]
      apply List.Pairwise.filter
      -- Above and below, then left and right of the middle.
      simp only [List.pairwise_cons, List.mem_cons, List.not_mem_nil, or_false, forall_eq_or_imp,
        forall_eq, false_implies, implies_true, List.Pairwise.nil, and_true]
      refine ⟨⟨?_, ?_, ?_⟩, ⟨?_, ?_⟩, ?_⟩
      all_goals
        apply disjoint_of
        intro cell hs ht
        rw [mem_between] at hs ht
        omega
    · intro cell
      rw [Set.mem_sdiff, mem_between, mem_cells]
      simp only [List.mem_map, List.mem_filter, exists_exists_and_eq_and]
      constructor
      · rintro ⟨hcell, hhole⟩
        by_cases habove : cell.2 < max rowStart piece.row
        · refine ⟨_, ⟨List.mem_cons_self, ?_⟩, ?_⟩
          · simp; omega
          · rw [mem_between]; omega
        by_cases hbelow : min rowEnd (piece.row + piece.rows) ≤ cell.2
        · refine ⟨_, ⟨List.mem_cons_of_mem _ List.mem_cons_self, ?_⟩, ?_⟩
          · simp; omega
          · rw [mem_between]; omega
        by_cases hbefore : cell.1 < max colStart piece.col
        · refine ⟨_, ⟨List.mem_cons_of_mem _ (List.mem_cons_of_mem _ List.mem_cons_self), ?_⟩, ?_⟩
          · simp; omega
          · rw [mem_between]; omega
        · refine ⟨_, ⟨List.mem_cons_of_mem _ (List.mem_cons_of_mem _
            (List.mem_cons_of_mem _ List.mem_cons_self)), ?_⟩, ?_⟩
          · simp; omega
          · rw [mem_between]; omega
      · rintro ⟨bounds, ⟨hbounds, -⟩, hcell⟩
        simp only [List.mem_cons, List.not_mem_nil, or_false] at hbounds
        rcases hbounds with rfl | rfl | rfl | rfl
        all_goals
          rw [mem_between] at hcell
          omega

theorem sound_subtract {width height : Nat} (h : Sound width height piece)
    (colStart colEnd rowStart rowEnd : Nat) :
    ∀ part ∈ piece.subtract colStart colEnd rowStart rowEnd, Sound width height part := by
  intro part hpart
  obtain ⟨hcols, hrows, hright, hbottom⟩ := h
  unfold GridPiece.subtract at hpart
  dsimp only at hpart
  split at hpart
  · rw [List.mem_singleton.mp hpart]
    exact ⟨hcols, hrows, hright, hbottom⟩
  next hinside =>
    simp only [Bool.or_eq_true, decide_eq_true_eq, not_or, Nat.not_le] at hinside
    obtain ⟨bounds, hbounds, rfl⟩ := List.mem_map.mp hpart
    rw [List.mem_filter] at hbounds
    obtain ⟨hmem, hkept⟩ := hbounds
    rw [Bool.and_eq_true, decide_eq_true_eq, decide_eq_true_eq] at hkept
    simp only [List.mem_cons, List.not_mem_nil, or_false] at hmem
    rcases hmem with rfl | rfl | rfl | rfl
    all_goals
      dsimp only at hkept
      constructor
      all_goals
        dsimp only [GridPiece.ofBounds]
        omega

/-! ### Covers -/

/-- The cells of a placement's grid. -/
def grid (placement : SurfaceGraphicsPlacement) : Set (Nat × Nat) :=
  { cell | cell.1 < placement.cols.toNat ∧ cell.2 < placement.rows.toNat }

/-- The cell is under the rectangle, the grid beginning at `(x, y)` on the screen. -/
def under (x y : Nat) (rect : Rect) : Set (Nat × Nat) :=
  { cell | rect.x.toNat ≤ x + cell.1 ∧ x + cell.1 < rectRight rect
      ∧ rect.y.toNat ≤ y + cell.2 ∧ y + cell.2 < rectBottom rect }

/-- The cells under none of the rectangles. -/
def visible (x y : Nat) (placement : SurfaceGraphicsPlacement) (regions : List Rect) :
    Set (Nat × Nat) :=
  { cell | cell ∈ grid placement ∧ ∀ rect ∈ regions, cell ∉ under x y rect }

theorem tiles_whole (x y : Nat) (placement : SurfaceGraphicsPlacement) :
    Tiles (visible x y placement []) ([GridPiece.whole placement].map cells) := by
  have hwhole : visible x y placement [] = cells (.whole placement) := by
    ext cell
    change (_ ∧ _) ∧ _ ↔ _ ≤ _ ∧ _
    simp [GridPiece.whole]
  rw [hwhole]
  exact Tiles.single _

theorem coveredSpan_eq_some {first last : Nat}
    (h : coveredSpan start stop imageStart len = some (first, last)) :
    first < last ∧ first = start - imageStart ∧ last = min (stop - imageStart) len := by
  unfold coveredSpan at h
  dsimp only at h
  split at h
  next hlt =>
    obtain ⟨rfl, rfl⟩ := Prod.mk.inj (Option.some.inj h)
    exact ⟨hlt, rfl, rfl⟩
  next => cases h

theorem coveredSpan_eq_none (h : coveredSpan start stop imageStart len = none) :
    min (stop - imageStart) len ≤ start - imageStart := by
  unfold coveredSpan at h
  dsimp only at h
  split at h
  · cases h
  next hle => exact Nat.not_lt.mp hle

/-- One more cover takes its cells out of what is visible. -/
theorem visible_append (x y : Nat) (placement : SurfaceGraphicsPlacement) (before : List Rect)
    (rect : Rect) :
    visible x y placement (before ++ [rect]) = visible x y placement before \ under x y rect := by
  ext cell
  rw [Set.mem_sdiff]
  simp only [visible, Set.mem_ofPred_eq, List.mem_append, List.mem_singleton]
  constructor
  · rintro ⟨hgrid, hall⟩
    exact ⟨⟨hgrid, fun other hother => hall other (.inl hother)⟩, hall rect (.inr rfl)⟩
  · rintro ⟨⟨hgrid, hall⟩, hrect⟩
    refine ⟨hgrid, fun other hother => ?_⟩
    rcases hother with hother | rfl
    · exact hall other hother
    · exact hrect

variable {placement : SurfaceGraphicsPlacement} {x y limit : Nat} {found : List GridPiece}

/-- A cover that misses the grid in one direction covers none of it. -/
theorem visible_of_missed {rect : Rect}
    (h : coveredSpan rect.x.toNat (rectRight rect) x placement.cols.toNat = none
      ∨ coveredSpan rect.y.toNat (rectBottom rect) y placement.rows.toNat = none)
    (before : List Rect) :
    visible x y placement (before ++ [rect]) = visible x y placement before := by
  rw [visible_append]
  ext cell
  rw [Set.mem_sdiff, and_iff_left_iff_imp]
  rintro ⟨⟨hcol, hrow⟩, -⟩ ⟨hleft, hright, htop, hbottom⟩
  rcases h with h | h
  · have hmissed := coveredSpan_eq_none h
    omega
  · have hmissed := coveredSpan_eq_none h
    omega

/-- Cutting around the covers that are left. -/
theorem cutAround_spec {before : List Rect}
    (hfound : cutAround placement x y limit regions pieces = some found)
    (htiles : Tiles (visible x y placement before) (pieces.map cells)) :
    Tiles (visible x y placement (before ++ regions)) (found.map cells)
      ∧ ∀ (width height : Nat), (∀ piece ∈ pieces, Sound width height piece) →
        ∀ piece ∈ found, Sound width height piece := by
  induction regions generalizing before pieces with
  | nil =>
    obtain rfl := Option.some.inj hfound
    rw [List.append_nil]
    exact ⟨htiles, fun width height h => h⟩
  | cons rect regions ih =>
    have hstep : before ++ rect :: regions = before ++ [rect] ++ regions := by simp
    rw [hstep]
    rw [cutAround] at hfound
    split at hfound
    next colStart colEnd rowStart rowEnd hcols hrows =>
      obtain ⟨hcol, hcolStart, hcolEnd⟩ := coveredSpan_eq_some hcols
      obtain ⟨hrow, hrowStart, hrowEnd⟩ := coveredSpan_eq_some hrows
      have hcut : Tiles (visible x y placement (before ++ [rect]))
          ((pieces.flatMap (·.subtract colStart colEnd rowStart rowEnd)).map cells) := by
        have hhole : visible x y placement (before ++ [rect])
            = visible x y placement before \ between (colStart, rowStart, colEnd, rowEnd) := by
          rw [visible_append]
          ext cell
          rw [Set.mem_sdiff, Set.mem_sdiff, mem_between]
          refine and_congr_right fun hcell => not_congr ?_
          obtain ⟨⟨hgridCol, hgridRow⟩, -⟩ := hcell
          change _ ∧ _ ∧ _ ∧ _ ↔ _
          omega
        rw [hhole]
        exact htiles.cutOut fun piece _ => tiles_subtract piece hcol hrow
      have hsound : ∀ (width height : Nat), (∀ piece ∈ pieces, Sound width height piece) →
          ∀ piece ∈ pieces.flatMap (·.subtract colStart colEnd rowStart rowEnd),
            Sound width height piece := by
        intro width height h piece hpiece
        obtain ⟨whole, hwhole, hpart⟩ := List.mem_flatMap.mp hpiece
        exact sound_subtract (h whole hwhole) _ _ _ _ piece hpart
      dsimp only at hfound
      split at hfound
      next hempty =>
        -- Nothing is left to be covered.
        obtain rfl := Option.some.inj hfound
        rw [List.isEmpty_iff] at hempty
        refine ⟨?_, hsound⟩
        rw [hempty] at hcut ⊢
        refine ⟨hcut.disjoint, fun cell => ?_⟩
        constructor
        · rintro ⟨hgrid, hall⟩
          exact (hcut.cover cell).mp ⟨hgrid, fun other hother =>
            hall other (List.mem_append_left _ hother)⟩
        · rintro ⟨part, hpart, -⟩
          cases hpart
      next =>
        split at hfound
        · cases hfound
        · obtain ⟨htiles, hall⟩ := ih hfound hcut
          exact ⟨htiles, fun width height h => hall width height (hsound width height h)⟩
    next hmissed =>
      have hnone : coveredSpan rect.x.toNat (rectRight rect) x placement.cols.toNat = none
          ∨ coveredSpan rect.y.toNat (rectBottom rect) y placement.rows.toNat = none := by
        cases hcols : coveredSpan rect.x.toNat (rectRight rect) x placement.cols.toNat with
        | none => exact .inl rfl
        | some cols =>
          cases hrows : coveredSpan rect.y.toNat (rectBottom rect) y placement.rows.toNat with
          | none => exact .inr rfl
          | some rows => exact (hmissed cols.1 cols.2 rows.1 rows.2 hcols hrows).elim
      rw [← visible_of_missed hnone] at htiles
      exact ih hfound htiles

theorem length_cutAround (hfound : cutAround placement x y limit regions pieces = some found)
    (hlimit : pieces.length ≤ limit) : found.length ≤ limit := by
  induction regions generalizing pieces with
  | nil =>
    obtain rfl := Option.some.inj hfound
    exact hlimit
  | cons rect regions ih =>
    rw [cutAround] at hfound
    split at hfound
    · dsimp only at hfound
      split at hfound
      next hempty =>
        obtain rfl := Option.some.inj hfound
        rw [List.isEmpty_iff.mp hempty]
        exact Nat.zero_le limit
      next =>
        split at hfound
        · cases hfound
        next hfits => exact ih hfound (Nat.not_lt.mp hfits)
    · exact ih hfound hlimit

/-! ### Frames -/

theorem toNat_saturatingAdd (a b : UInt16) :
    (saturatingAdd a b).toNat = min (a.toNat + b.toNat) 65535 := by
  unfold saturatingAdd
  rw [UInt16.toNat_ofNat']
  omega

/-- The cells of a placement that no cover in front of it touches. -/
def shown (occlusion : Occlusion) (placement : SurfaceGraphicsPlacement)
    (origin : UInt16 × UInt16) : Set (Nat × Nat) :=
  visible (origin.1.toNat + placement.x.toNat) (origin.2.toNat + placement.y.toNat) placement
    (occlusion.regionsFor placement)

/-- An image at the end of the range is covered by nothing, as one behind it is. -/
theorem under_saturated (a b c d : UInt16) (rect : Rect) :
    under (saturatingAdd a b).toNat (saturatingAdd c d).toNat rect
      = under (a.toNat + b.toNat) (c.toNat + d.toNat) rect := by
  ext cell
  have hright := toNat_saturatingAdd rect.x rect.width
  have hbottom := toNat_saturatingAdd rect.y rect.height
  rw [toNat_saturatingAdd, toNat_saturatingAdd]
  change _ ≤ _ ∧ _ < rectRight rect ∧ _ ≤ _ ∧ _ < rectBottom rect
    ↔ _ ≤ _ ∧ _ < rectRight rect ∧ _ ≤ _ ∧ _ < rectBottom rect
  unfold rectRight rectBottom
  omega

/-- The pieces of a placement tile what is shown of it, and each has cells if the placement has. -/
theorem visiblePieces_spec {occlusion : Occlusion} {origin : UInt16 × UInt16}
    (hfound : occlusion.visiblePieces placement origin limit = some found) :
    Tiles (shown occlusion placement origin) (found.map cells)
      ∧ (0 < placement.cols → 0 < placement.rows →
        ∀ piece ∈ found, Sound placement.cols.toNat placement.rows.toNat piece) := by
  unfold Occlusion.visiblePieces at hfound
  obtain ⟨htiles, hsound⟩ := cutAround_spec hfound (tiles_whole _ _ placement)
  constructor
  · have hsame : visible (saturatingAdd origin.1 placement.x).toNat
        (saturatingAdd origin.2 placement.y).toNat placement (occlusion.regionsFor placement)
        = shown occlusion placement origin := by
      unfold shown visible
      simp only [under_saturated]
    rw [← hsame]
    exact htiles
  · intro hcols hrows
    refine hsound _ _ fun piece hpiece => ?_
    rw [List.mem_singleton.mp hpiece]
    exact ⟨UInt32.lt_iff_toNat_lt.mp hcols, UInt32.lt_iff_toNat_lt.mp hrows,
      by simp [GridPiece.whole], by simp [GridPiece.whole]⟩

/-- The pieces that cropping adds to a frame. -/
def extraPieces (pieces : List (List GridPiece)) : Nat :=
  (pieces.map fun found => found.length - 1).sum

/-- The budget does not underflow, and pieces that are found stay within it. -/
theorem cropAll_spec (occlusion : Occlusion) (extraBudget : Nat)
    (placements : List (SurfaceGraphicsPlacement × UInt16 × UInt16)) :
    occlusion.cropAll extraBudget placements = some none
      ∨ ∃ pieces, occlusion.cropAll extraBudget placements = some (some pieces)
        ∧ extraPieces pieces ≤ extraBudget := by
  induction placements generalizing extraBudget with
  | nil => exact .inr ⟨[], rfl, Nat.zero_le _⟩
  | cons placement rest ih =>
    rw [Occlusion.cropAll]
    cases hfound : occlusion.visiblePieces placement.1 placement.2 (extraBudget + 1) with
    | none => exact .inl rfl
    | some found =>
      have hlength : found.length ≤ extraBudget + 1 :=
        length_cutAround hfound (Nat.le_add_left 1 extraBudget)
      dsimp only
      rw [if_neg (by omega)]
      rcases ih (extraBudget - (found.length - 1)) with hnone | ⟨pieces, hpieces, hextra⟩
      · rw [hnone]
        exact .inl rfl
      · rw [hpieces]
        refine .inr ⟨found :: pieces, rfl, ?_⟩
        change (found.length - 1) + extraPieces pieces ≤ extraBudget
        omega

theorem framePieces_spec (occlusion : Occlusion)
    (placements : List (SurfaceGraphicsPlacement × UInt16 × UInt16)) :
    ∃ pieces, occlusion.framePieces placements = some pieces
      ∧ extraPieces pieces ≤ maxExtraCropPieces := by
  unfold Occlusion.framePieces
  rcases cropAll_spec occlusion maxExtraCropPieces placements with hnone | ⟨pieces, hpieces, hextra⟩
  · rw [hnone]
    refine ⟨_, rfl, ?_⟩
    have hzero : ∀ whole : SurfaceGraphicsPlacement × UInt16 × UInt16 → List GridPiece,
        (∀ placement, (whole placement).length - 1 = 0) →
          extraPieces (placements.map whole) = 0 := by
      intro whole hwhole
      unfold extraPieces
      rw [List.map_map, List.sum_eq_zero]
      intro count hcount
      obtain ⟨placement, -, rfl⟩ := List.mem_map.mp hcount
      exact hwhole placement
    refine (hzero _ fun placement => ?_).trans_le (Nat.zero_le _)
    dsimp only
    split
    · rfl
    · rfl
  · rw [hpieces]
    exact ⟨pieces, rfl, hextra⟩

/-! ### Source pixels -/

section

/-- The display has pixels, the source too, and their product fits in a `u64`. -/
structure Scales (totalCells cellPx sourceLen : UInt32) : Prop where
  display_pos : 0 < totalCells.toNat * cellPx.toNat
  source_pos : 0 < sourceLen.toNat
  fits : totalCells.toNat * cellPx.toNat * sourceLen.toNat < 2 ^ 64

variable {totalCells cellPx offset sourceLen : UInt32}

/-- Where a cell begins in the source, by exact arithmetic. -/
theorem toNat_sourceEdge (h : Scales totalCells cellPx sourceLen) (offset : UInt32) {cell : UInt32}
    (hcell : cell.toNat ≤ totalCells.toNat) :
    ∃ shift < totalCells.toNat * cellPx.toNat,
      (sourceEdge totalCells cellPx offset sourceLen cell).toNat
        = (cell.toNat * cellPx.toNat - shift) * sourceLen.toNat
          / (totalCells.toNat * cellPx.toNat - shift)
      ∧ shift = min offset.toNat (totalCells.toNat * cellPx.toNat - 1) := by
  have hdisplay := h.display_pos
  have hfits := h.fits
  refine ⟨_, by omega, ?_, rfl⟩
  unfold sourceEdge
  dsimp only
  generalize hshift : min offset.toNat (totalCells.toNat * cellPx.toNat - 1) = shift
  have hpixel : cell.toNat * cellPx.toNat ≤ totalCells.toNat * cellPx.toNat :=
    Nat.mul_le_mul_right _ hcell
  have hproduct : (cell.toNat * cellPx.toNat - shift) * sourceLen.toNat < 2 ^ 64 :=
    Nat.lt_of_le_of_lt (Nat.mul_le_mul_right _ (Nat.le_trans (Nat.sub_le _ _) hpixel)) hfits
  have hmax : max (cell.toNat * cellPx.toNat) shift - shift
      = cell.toNat * cellPx.toNat - shift := by
    omega
  have hdivisor : max (totalCells.toNat * cellPx.toNat - shift) 1
      = totalCells.toNat * cellPx.toNat - shift := by
    omega
  have hquotient : (cell.toNat * cellPx.toNat - shift) * sourceLen.toNat
      / (totalCells.toNat * cellPx.toNat - shift) < 2 ^ 32 := by
    have hle : (cell.toNat * cellPx.toNat - shift) * sourceLen.toNat
        ≤ (totalCells.toNat * cellPx.toNat - shift) * sourceLen.toNat :=
      Nat.mul_le_mul_right _ (Nat.sub_le_sub_right hpixel shift)
    exact Nat.lt_of_le_of_lt (Nat.div_le_of_le_mul hle) (UInt32.toNat_lt sourceLen)
  rw [hmax, hdivisor, Nat.mod_eq_of_lt hproduct, UInt32.toNat_ofNat', Nat.mod_eq_of_lt hquotient]

/-- The edges begin at the first pixel, end at the last, and do not go back. -/
theorem sourceEdge_spec (h : Scales totalCells cellPx sourceLen) (offset : UInt32) :
    (sourceEdge totalCells cellPx offset sourceLen 0).toNat = 0
      ∧ (sourceEdge totalCells cellPx offset sourceLen totalCells).toNat = sourceLen.toNat
      ∧ (∀ cell other : UInt32, cell.toNat ≤ other.toNat → other.toNat ≤ totalCells.toNat →
        (sourceEdge totalCells cellPx offset sourceLen cell).toNat
          ≤ (sourceEdge totalCells cellPx offset sourceLen other).toNat)
      ∧ ∀ cell : UInt32, cell.toNat < totalCells.toNat →
        (sourceEdge totalCells cellPx offset sourceLen cell).toNat < sourceLen.toNat := by
  refine ⟨?_, ?_, ?_, ?_⟩
  · have hzero : (0 : UInt32).toNat ≤ totalCells.toNat := by
      rw [UInt32.toNat_zero]
      exact Nat.zero_le _
    obtain ⟨shift, -, hedge, -⟩ := toNat_sourceEdge h offset hzero
    rw [hedge]
    simp
  · obtain ⟨shift, hshift, hedge, -⟩ := toNat_sourceEdge h offset (Nat.le_refl totalCells.toNat)
    rw [hedge, Nat.mul_comm]
    exact Nat.mul_div_cancel _ (by omega)
  · intro cell other hle hother
    obtain ⟨shift, hshift, hedge, rfl⟩ := toNat_sourceEdge h offset (Nat.le_trans hle hother)
    obtain ⟨_, -, hedgeOther, rfl⟩ := toNat_sourceEdge h offset hother
    rw [hedge, hedgeOther]
    exact Nat.div_le_div_right (Nat.mul_le_mul_right _
      (Nat.sub_le_sub_right (Nat.mul_le_mul_right _ hle) _))
  · intro cell hlt
    obtain ⟨shift, hshift, hedge, -⟩ := toNat_sourceEdge h offset (Nat.le_of_lt hlt)
    rw [hedge, Nat.div_lt_iff_lt_mul (by omega), Nat.mul_comm sourceLen.toNat]
    refine Nat.mul_lt_mul_of_pos_right ?_ h.source_pos
    have hpx : 0 < cellPx.toNat := Nat.pos_of_mul_pos_left h.display_pos
    have hpixel : cell.toNat * cellPx.toNat < totalCells.toNat * cellPx.toNat :=
      Nat.mul_lt_mul_of_pos_right hlt hpx
    omega

/-- The source pixels of cells that are in the grid: from edge to edge, or one if these coincide. -/
theorem pieceSourceSpan_spec (h : Scales totalCells cellPx sourceLen) (offset : UInt32)
    {startCell cells : UInt32} (hcells : 0 < cells.toNat)
    (hinside : startCell.toNat + cells.toNat ≤ totalCells.toNat) {start stop : UInt32}
    (hstart : start = sourceEdge totalCells cellPx offset sourceLen startCell)
    (hstop : stop = sourceEdge totalCells cellPx offset sourceLen (startCell + cells)) :
    (pieceSourceSpan startCell cells totalCells cellPx offset sourceLen).1 = start
      ∧ (start.toNat < stop.toNat →
        start.toNat + (pieceSourceSpan startCell cells totalCells cellPx offset sourceLen).2.toNat
          = stop.toNat)
      ∧ (¬ start.toNat < stop.toNat →
        (pieceSourceSpan startCell cells totalCells cellPx offset sourceLen).2 = 1) := by
  have hlt : start.toNat < sourceLen.toNat := by
    rw [hstart]
    exact (sourceEdge_spec h offset).2.2.2 startCell (by omega)
  have hspan : pieceSourceSpan startCell cells totalCells cellPx offset sourceLen
      = if start.toNat < stop.toNat then (start, stop - start)
        else (UInt32.ofNat (min start.toNat (sourceLen.toNat - 1)), 1) := by
    rw [hstart, hstop]
    rfl
  rw [hspan]
  split
  next hforward =>
    have hsub := UInt32.toNat_sub_of_le _ _ (UInt32.le_iff_toNat_le.mpr (Nat.le_of_lt hforward))
    refine ⟨rfl, fun _ => ?_, fun hback => absurd hforward hback⟩
    dsimp only
    rw [hsub]
    exact Nat.add_sub_cancel' (Nat.le_of_lt hforward)
  next hback =>
    have hmin : min start.toNat (sourceLen.toNat - 1) = start.toNat := by omega
    refine ⟨?_, fun hforward => absurd hforward hback, fun _ => rfl⟩
    dsimp only
    rw [hmin, UInt32.ofNat_toNat]

end

/-! ### Cropping -/

/-- The pieces of a placement are disjoint, cover the cells that no cover in front of it touches and
no other, and, if the placement has cells, each has cells of its grid. A frame stays within its
budget. Where the products fit in a `u64`, a piece has source pixels in the source, from the first
one on if it begins at the edge of the grid and up to the last one if it ends there, and pieces that
meet share an edge in the source, unless the first one's cells are less than a pixel: it then has
the pixel with which the second begins. -/
theorem cropping_exact :
    (∀ (occlusion : Occlusion) (placement : SurfaceGraphicsPlacement) (origin : UInt16 × UInt16)
        (limit : Nat) (pieces : List GridPiece),
        occlusion.visiblePieces placement origin limit = some pieces →
        Tiles (shown occlusion placement origin) (pieces.map cells)
          ∧ (0 < placement.cols → 0 < placement.rows →
            ∀ piece ∈ pieces, Sound placement.cols.toNat placement.rows.toNat piece))
      ∧ (∀ (occlusion : Occlusion)
        (placements : List (SurfaceGraphicsPlacement × UInt16 × UInt16)),
        ∃ pieces, occlusion.framePieces placements = some pieces
          ∧ extraPieces pieces ≤ maxExtraCropPieces)
      ∧ ∀ (totalCells cellPx offset sourceLen startCell cells : UInt32),
        Scales totalCells cellPx sourceLen → 0 < cells.toNat →
        startCell.toNat + cells.toNat ≤ totalCells.toNat →
        let span := fun start count =>
          pieceSourceSpan start count totalCells cellPx offset sourceLen
        (0 < (span startCell cells).2.toNat
          ∧ (span startCell cells).1.toNat + (span startCell cells).2.toNat ≤ sourceLen.toNat)
        ∧ (startCell = 0 → (span startCell cells).1 = 0)
        ∧ (startCell + cells = totalCells →
          (span startCell cells).1.toNat + (span startCell cells).2.toNat = sourceLen.toNat)
        ∧ ∀ next : UInt32, 0 < next.toNat →
          startCell.toNat + cells.toNat + next.toNat ≤ totalCells.toNat →
          if sourceEdge totalCells cellPx offset sourceLen startCell
              = sourceEdge totalCells cellPx offset sourceLen (startCell + cells)
          then (span startCell cells).2 = 1
            ∧ (span startCell cells).1 = (span (startCell + cells) next).1
          else (span startCell cells).1.toNat + (span startCell cells).2.toNat
            = (span (startCell + cells) next).1.toNat := by
  refine ⟨?_, framePieces_spec, ?_⟩
  · intro occlusion placement origin limit pieces hpieces
    exact visiblePieces_spec hpieces
  · intro totalCells cellPx offset sourceLen startCell cells h hcells hinside
    dsimp only
    obtain ⟨hzero, htotal, hmono, hlt⟩ := sourceEdge_spec h offset
    obtain ⟨hfirst, hwide, hthin⟩ := pieceSourceSpan_spec h offset hcells hinside rfl rfl
    have hsum : (startCell + cells).toNat = startCell.toNat + cells.toNat := by
      rw [UInt32.toNat_add, Nat.mod_eq_of_lt]
      exact Nat.lt_of_le_of_lt hinside (UInt32.toNat_lt totalCells)
    have hle := hmono startCell (startCell + cells) (by omega) (by omega)
    have hbefore := hlt startCell (by omega)
    have hbound := hmono (startCell + cells) totalCells (by omega) (Nat.le_refl _)
    have hone : (1 : UInt32).toNat = 1 := rfl
    rw [hfirst]
    refine ⟨?_, ?_, ?_, ?_⟩
    · rcases Nat.lt_or_eq_of_le hle with hforward | hsame
      · have hend := hwide hforward
        omega
      · rw [hthin (Nat.not_lt.mpr (Nat.le_of_eq hsame.symm)), hone]
        omega
    · intro hstart
      rw [hstart]
      exact UInt32.toNat_inj.mp hzero
    · intro hlast
      rw [hlast, htotal] at hwide
      exact hwide hbefore
    · intro next hnext hnextInside
      have hnextInside' : (startCell + cells).toNat + next.toNat ≤ totalCells.toNat := by omega
      obtain ⟨hsecond, -, -⟩ := pieceSourceSpan_spec h offset hnext hnextInside' rfl rfl
      rw [hsecond]
      split
      next hsame =>
        refine ⟨hthin ?_, hsame⟩
        rw [hsame]
        exact Nat.lt_irrefl _
      next hne =>
        refine hwide (Nat.lt_of_le_of_ne hle fun hsame => hne (UInt32.toNat_inj.mp hsame))

/-- A placement of two cells by two, its upper left cell covered. -/
def coveredCorner : Occlusion := .cover .initial ⟨0, 0, 1, 1⟩

def fourCells : SurfaceGraphicsPlacement := ⟨.paneLayer, 0, 0, 2, 2⟩

theorem cropping_exact_corner :
    Tiles (shown coveredCorner fourCells (0, 0)) ([⟨0, 1, 2, 1⟩, ⟨1, 0, 1, 1⟩].map cells)
      ∧ (pieceSourceSpan 1 9 10 8 0 2).1.toNat + (pieceSourceSpan 1 9 10 8 0 2).2.toNat = 2 := by
  constructor
  · exact (cropping_exact.1 coveredCorner fourCells (0, 0) 33 _ (by decide +kernel)).1
  · exact (cropping_exact.2.2 10 8 0 2 1 9 ⟨by decide, by decide, by decide⟩ (by decide)
      (by decide)).2.2.1 rfl

/-- A placement without columns keeps a piece without cells. Where ten columns show two source
pixels, the first column and the nine behind it both show the first one. Where the products do not
fit in a `u64`, the last column does not show the last pixel. -/
theorem pieces_are_not_exact :
    (Occlusion.initial.visiblePieces ⟨.paneLayer, 0, 0, 0, 1⟩ (0, 0) 33
        = some [(⟨0, 0, 0, 1⟩ : GridPiece)])
      ∧ (pieceSourceSpan 0 1 10 8 0 2).1 + (pieceSourceSpan 0 1 10 8 0 2).2
        ≠ (pieceSourceSpan (0 + 1) 9 10 8 0 2).1
      ∧ (pieceSourceSpan 0 131072 131072 65536 0 4294967295).1.toNat
          + (pieceSourceSpan 0 131072 131072 65536 0 4294967295).2.toNat ≠ 4294967295 := by
  decide +kernel

end Herden.Proofs.KittyGraphics
