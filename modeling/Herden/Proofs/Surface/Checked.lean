import Herden.Proofs.Surface.Delta
import Herden.Proofs.Surface.Scroll
import Herden.Runtime.Surface.Checked

/-!
# `Herden.Proofs.Surface.Checked`: the receiver does not overflow or leave its grids

Each function of `Surface.Checked` gives what the function of the same name gives without the
checks, once the tests that the source makes before it have passed: a span that `checkSpan` lets
through, or a rectangle that `scrollFits` does, lies inside the grid, and a grid of 16-bit sizes
has fewer cells than a machine word can count. No input makes the receiver panic
(`accepted_updates_stay_inside`).
-/

namespace Herden.Proofs.Surface.Checked

open Herden.Lib
open Herden.Lib.Machine
open Herden.Lib.Bincode
open Herden.Runtime.Wire
open Herden.Runtime.Surface
open Herden.Runtime.Surface.Scroll (SurfaceScroll ScrollPatch)
open Herden.Runtime.Surface.Reuse (CellBaseline)

/-! ### Positions -/

/-- No grid of 16-bit sizes has more cells than a word can count. -/
theorem cells_lt (width height : UInt16) : width.toNat * height.toNat < 2 ^ 32 := by
  have hwidth := width.toNat_lt
  have hheight := height.toNat_lt
  have hproduct : width.toNat * height.toNat < 2 ^ 16 * 2 ^ 16 := Nat.mul_lt_mul'' hwidth hheight
  omega

variable {width height : UInt16}

theorem cellIndex_eq {x y : Nat} (hx : x < 2 ^ 17) (hy : y < 2 ^ 17) :
    Checked.cellIndex width x y = some (y * width.toNat + x) := by
  have hrow : y * width.toNat < 2 ^ 17 * 2 ^ 16 := Nat.mul_lt_mul'' hy width.toNat_lt
  unfold Checked.cellIndex Checked.usize
  rw [mul?_eq (by omega)]
  exact add?_eq (by omega)

variable {cells : List CellData} {rows : List PaneSurfacePatchRow} {cellBudget totalCells : Nat}

theorem applyRows_eq (hcells : cells.length = width.toNat * height.toNat)
    (hrows : ∀ row ∈ rows, row.span.Fits width.toNat height.toNat) :
    Checked.applyRows cells width rows = applyRows cells width rows := by
  have hsize := cells_lt width height
  unfold Checked.applyRows applyRows writeSpans?
  rw [List.foldlM_map]
  refine foldlM_congr (fun cells => cells.length = width.toNat * height.toNat)
    (fun cells row hmem hcells => ?_) (fun cells row next hmem hcells hnext => ?_) hcells
  · have hend : row.span.start width.toNat + row.cells.length ≤ width.toNat * height.toNat :=
      (hrows row hmem).end_le
    have hx := row.x.toNat_lt
    have hy := row.y.toNat_lt
    rw [cellIndex_eq (by omega) (by omega)]
    show (add? 64 (row.span.start width.toNat) row.cells.length).bind _ = _
    rw [add?_eq (by omega)]
    show copyInto? cells (row.span.start width.toNat) _ row.cells = _
    rw [copyInto?_eq (by omega)]
    exact (if_pos (by rw [hcells]; exact hend)).symm
  · unfold setSlice? at hnext
    split at hnext
    next hend =>
      obtain rfl := Option.some.inj hnext
      rw [length_setSlice hend, hcells]
    next => cases hnext

/-- Rows that fit are written. -/
theorem isSome_applyRows (hcells : cells.length = width.toNat * height.toNat)
    (hrows : ∀ row ∈ rows, row.span.Fits width.toNat height.toNat) :
    ∃ after, applyRows cells width rows = some after
      ∧ after.length = width.toNat * height.toNat := by
  have hspans : ∀ span ∈ rows.map PaneSurfacePatchRow.span,
      span.Fits width.toNat height.toNat := by
    intro span hmem
    obtain ⟨row, hrow, rfl⟩ := List.mem_map.mp hmem
    exact hrows row hrow
  exact ⟨_, writeSpans?_eq hcells hspans, length_writeSpans hcells hspans⟩

/-! ### Scrolls -/

theorem scrollFits_eq (scroll : SurfaceScroll) (width height : UInt16) :
    Checked.scrollFits scroll width height = Scroll.scrollFits scroll width height := by
  have hend : ∀ a b bound : UInt16, (add? Checked.u16 a.toNat b.toNat).any
      (fun stop => decide (stop ≤ bound.toNat)) = decide (a.toNat + b.toNat ≤ bound.toNat) := by
    intro a b bound
    have hbound := bound.toNat_lt
    unfold add? Checked.u16
    by_cases hsum : a.toNat + b.toNat < 2 ^ 16
    · rw [if_pos hsum]
      rfl
    · rw [if_neg hsum, decide_eq_false (by omega)]
      rfl
  unfold Checked.scrollFits Scroll.scrollFits
  dsimp only
  rw [hend, hend]

theorem rowFits_eq (row : PaneSurfacePatchRow) (width height : UInt16) :
    Checked.rowFits row width height = Scroll.rowFits row width height := by
  have hwidth := width.toNat_lt
  unfold Checked.rowFits Scroll.rowFits
  congr 1
  exact decide_eq_decide.mpr (saturatingAdd_le (show width.toNat < 2 ^ 64 - 1 by omega))

theorem forEachSwap_eq {height : Nat} {shift : Int16} (hheight : height < 2 ^ 16)
    (hlt : shift.toInt.natAbs < height) :
    Checked.forEachSwap height shift = some (Scroll.forEachSwap height shift) := by
  unfold Checked.forEachSwap Scroll.forEachSwap Checked.usize
  dsimp only
  split
  · rw [sub?_eq (by omega)]
    refine mapM_eq_some fun y hy => ?_
    have hy := List.mem_range.mp hy
    rw [add?_eq (by omega)]
    rfl
  · refine mapM_eq_some fun y hy => ?_
    rw [List.mem_reverse, List.mem_range'_1] at hy
    rw [sub?_eq (by omega)]
    rfl

section

variable {width height : UInt16}

theorem rectsOverlap_eq {a b : SurfaceScroll} (ha : Proofs.Surface.Scroll.Fits a width height)
    (hb : Proofs.Surface.Scroll.Fits b width height) :
    Checked.rectsOverlap a.rect b.rect = some (Scroll.rectsOverlap a.rect b.rect) := by
  have hwidth := width.toNat_lt
  have hheight := height.toNat_lt
  have hax := ha.columns
  have hay := ha.rows
  have hbx := hb.columns
  have hby := hb.rows
  unfold Checked.rectsOverlap Checked.u16
  rw [add?_eq (by omega), add?_eq (by omega), add?_eq (by omega), add?_eq (by omega)]
  simp only [Scroll.rectsOverlap, Option.pure_def, Option.bind_eq_bind, Option.bind_some,
    Bool.not_eq_true', decide_eq_false_iff_not]
  by_cases hleft : a.rect.x.toNat < b.rect.x.toNat + b.rect.width.toNat
  · by_cases hright : b.rect.x.toNat < a.rect.x.toNat + a.rect.width.toNat
    · by_cases htop : a.rect.y.toNat < b.rect.y.toNat + b.rect.height.toNat
      · simp [hleft, hright, htop]
      · simp [hleft, hright, htop]
    · simp [hleft, hright]
  · simp [hleft]

variable {scroll : SurfaceScroll} {scrolls : List SurfaceScroll} {cells : List CellData}

theorem apart_eq (hfits : Proofs.Surface.Scroll.Fits scroll width height)
    (hrest : ∀ other ∈ scrolls, Proofs.Surface.Scroll.Fits other width height) :
    Checked.apart scroll.rect scrolls
      = some (scrolls.all fun other => !Scroll.rectsOverlap scroll.rect other.rect) := by
  induction scrolls with
  | nil => rfl
  | cons other rest ih =>
    have htail := ih fun next hmem => hrest next (by simp [hmem])
    unfold Checked.apart
    rw [rectsOverlap_eq hfits (hrest other (by simp)), List.all_cons]
    cases hoverlap : Scroll.rectsOverlap scroll.rect other.rect with
    | true => rfl
    | false => exact htail

theorem scrollsDisjoint_eq
    (hfits : ∀ scroll ∈ scrolls, Proofs.Surface.Scroll.Fits scroll width height) :
    Checked.scrollsDisjoint scrolls = some (Scroll.scrollsDisjoint scrolls) := by
  induction scrolls with
  | nil => rfl
  | cons scroll rest ih =>
    have hrest : ∀ other ∈ rest, Proofs.Surface.Scroll.Fits other width height :=
      fun other hmem => hfits other (by simp [hmem])
    unfold Checked.scrollsDisjoint Scroll.scrollsDisjoint
    rw [apart_eq (hfits scroll (by simp)) hrest]
    cases rest.all fun other => !Scroll.rectsOverlap scroll.rect other.rect with
    | false => rfl
    | true => exact ih hrest

/-- A row of a rectangle that fits. -/
theorem rowStart_eq {y : Nat} (hy : y < scroll.rect.height.toNat) :
    Checked.rowStart width scroll.rect y
      = some ((scroll.rect.region.top + y) * width.toNat + scroll.rect.region.left) := by
  have hx := scroll.rect.x.toNat_lt
  have htop := scroll.rect.y.toNat_lt
  have hheight := scroll.rect.height.toNat_lt
  unfold Checked.rowStart Checked.usize
  rw [add?_eq (by omega)]
  exact cellIndex_eq (by omega) (by omega)

theorem applyScroll_eq (hfits : Proofs.Surface.Scroll.Fits scroll width height)
    (hcells : cells.length = width.toNat * height.toNat) :
    Checked.applyScroll cells width scroll = Scroll.applyScroll cells width scroll := by
  have hsize := cells_lt width height
  unfold Checked.applyScroll Scroll.applyScroll
  rw [forEachSwap_eq scroll.rect.height.toNat_lt hfits.shift_lt]
  refine foldlM_congr (fun _ => True) (fun cells swap hmem _ => ?_) (fun _ _ _ _ _ _ => trivial)
    trivial
  obtain ⟨ha, hb, -⟩ := Proofs.Surface.Scroll.forEachSwap_bounds hfits.shift_ne hfits.shift_lt hmem
  rw [rowStart_eq ha, rowStart_eq hb]
  unfold Region.swapRows? swapRuns?
  refine foldlM_congr (fun _ => True) (fun cells x hx _ => ?_) (fun _ _ _ _ _ _ => trivial) trivial
  have hx := List.mem_range.mp hx
  -- The rows of the rectangle end inside the grid.
  have hrow : ∀ y, y < scroll.rect.height.toNat →
      (scroll.rect.region.top + y) * width.toNat + scroll.rect.region.left + x < 2 ^ 64 := by
    intro y hy
    have hcolumns := hfits.columns
    have hrows := hfits.rows
    have hindex := index_lt (show scroll.rect.x.toNat + x < width.toNat by omega)
      (show scroll.rect.y.toNat + y < height.toNat by omega)
    show (scroll.rect.y.toNat + y) * width.toNat + scroll.rect.x.toNat + x < _
    omega
  unfold Checked.usize
  rw [add?_eq (hrow _ ha), add?_eq (hrow _ hb)]
  rfl

theorem applyScrolls_eq (hfits : ∀ scroll ∈ scrolls, Proofs.Surface.Scroll.Fits scroll width height)
    (hcells : cells.length = width.toNat * height.toNat) :
    scrolls.foldlM (fun cells scroll => Checked.applyScroll cells width scroll) cells
      = scrolls.foldlM (fun cells scroll => Scroll.applyScroll cells width scroll) cells := by
  refine foldlM_congr (fun cells => cells.length = width.toNat * height.toNat)
    (fun cells scroll hmem hcells => applyScroll_eq (hfits scroll hmem) hcells)
    (fun cells scroll next hmem hcells hnext => ?_) hcells
  obtain ⟨after, order, hafter, -, hreordered⟩ :=
    Proofs.Surface.Scroll.applyScroll_spec (hfits scroll hmem) hcells
  rw [hafter] at hnext
  obtain rfl := Option.some.inj hnext
  exact hreordered.length

/-! ### The expanded patch -/

theorem crosses_eq (row : PaneSurfacePatchRow) (rect : SurfaceRect) :
    Checked.crosses row rect = some (row.y ≥ rect.y
      && row.y.toNat - rect.y.toNat < rect.height.toNat) := by
  unfold Checked.crosses
  by_cases hy : row.y ≥ rect.y
  · have hle : rect.y.toNat ≤ row.y.toNat := hy
    rw [if_pos hy, sub?_eq hle, decide_eq_true hy]
    rfl
  · rw [if_neg hy, decide_eq_false hy]
    rfl

variable {row : PaneSurfacePatchRow}

theorem uncoveredSpans_eq {rowEnd cursor : Nat} (hend : rowEnd = row.x.toNat + row.cells.length)
    (intervals : List (Nat × Nat)) (hlow : row.x.toNat ≤ cursor) (hhigh : cursor ≤ rowEnd) :
    Checked.uncoveredSpans row row.x.toNat rowEnd cursor intervals
      = some (Scroll.uncoveredSpans row rowEnd cursor intervals) := by
  induction intervals generalizing cursor with
  | nil => rfl
  | cons interval rest ih =>
    obtain ⟨left, right⟩ := interval
    have hrest := ih (show row.x.toNat ≤ max cursor (min right rowEnd) by omega)
      (show max cursor (min right rowEnd) ≤ rowEnd by omega)
    have hclamp : Checked.clamp? left cursor rowEnd = some (max cursor (min left rowEnd)) :=
      if_pos hhigh
    unfold Checked.uncoveredSpans Scroll.uncoveredSpans
    rw [hclamp, hrest]
    simp only [Option.bind_eq_bind, Option.bind_some, Option.pure_def]
    by_cases hopen : max cursor (min left rowEnd) > cursor
    · have hslice : slice? row.cells (cursor - row.x.toNat)
          (max cursor (min left rowEnd) - row.x.toNat)
          = some ((row.cells.drop (cursor - row.x.toNat)).take
            (max cursor (min left rowEnd) - cursor)) := by
        rw [slice?_eq (by omega) (by omega)]
        congr 2
        omega
      rw [if_pos hopen, if_pos hopen, sub?_eq hlow, sub?_eq (by omega), Option.bind_some,
        Option.bind_some, hslice, Option.bind_some]
    · rw [if_neg hopen, if_neg hopen]

theorem outsideScrolls_eq (scrolls : List SurfaceScroll)
    (hrow : row.span.Fits width.toNat height.toNat) :
    Checked.outsideScrolls row scrolls = some (Scroll.outsideScrolls row scrolls) := by
  have hwidth := width.toNat_lt
  have hcolumns : row.x.toNat + row.cells.length ≤ width.toNat := hrow.2
  unfold Checked.outsideScrolls Scroll.outsideScrolls Checked.usize
  rw [filterM_eq_some fun rect _ => crosses_eq row rect]
  simp only [Option.bind_eq_bind, Option.bind_some, Option.pure_def]
  rw [mapM_eq_some (g := fun rect : SurfaceRect =>
    (rect.x.toNat, rect.x.toNat + rect.width.toNat)) fun rect _ => ?_]
  · rw [Option.bind_some]
    split
    · rfl
    · rw [add?_eq (by omega), Option.bind_some]
      exact uncoveredSpans_eq rfl _ (Nat.le_refl _) (Nat.le_add_right _ _)
  · have hx := rect.x.toNat_lt
    have hrect := rect.width.toNat_lt
    rw [add?_eq (by omega)]
    rfl

theorem scrolledRows_eq (hfits : Proofs.Surface.Scroll.Fits scroll width height)
    (hcells : cells.length = width.toNat * height.toNat) :
    Checked.scrolledRows cells width scroll.rect
      = some (Scroll.scrolledRows cells width scroll.rect) := by
  have hsize := cells_lt width height
  have hheight := height.toNat_lt
  have hcolumns := hfits.columns
  have hrows := hfits.rows
  unfold Checked.scrolledRows Scroll.scrolledRows Checked.u16 Checked.usize
  rw [add?_eq (by omega)]
  simp only [Option.bind_eq_bind, Option.bind_some, Option.pure_def, Nat.add_sub_cancel_left]
  refine mapM_eq_some fun y hy => ?_
  rw [List.mem_range'_1] at hy
  have hend := Nat.mul_le_mul_right width.toNat (show y + 1 ≤ height.toNat by omega)
  rw [Nat.succ_mul, Nat.mul_comm height.toNat] at hend
  have hx := scroll.rect.x.toNat_lt
  rw [cellIndex_eq (by omega) (by omega), Option.bind_some, add?_eq (by omega), Option.bind_some,
    slice?_eq (by omega) (by omega), Option.bind_some, Nat.add_sub_cancel_left]

end

/-- Scrolls and rows of any kind: what the checks let through stays inside the grid. -/
theorem apply_eq (cells : List CellData) (width height : UInt16) (scrollPatch : ScrollPatch) :
    Checked.apply cells width height scrollPatch = Scroll.apply cells width height scrollPatch
      ∧ (Scroll.apply cells width height scrollPatch).isSome = true := by
  have hsize := cells_lt width height
  obtain ⟨scrolls, patch⟩ := scrollPatch
  unfold Checked.apply Scroll.apply Checked.usize
  dsimp only
  rw [mul?_eq (by omega)]
  simp only [Option.bind_eq_bind, Option.bind_some, Option.pure_def]
  by_cases hcells : cells.length = width.toNat * height.toNat
  case neg => simp [hcells]
  rw [if_neg (not_not.mpr hcells), if_neg (not_not.mpr hcells)]
  have hscrolls : scrolls.all (fun scroll => Checked.scrollFits scroll width height)
      = scrolls.all fun scroll => Scroll.scrollFits scroll width height := by
    simp only [scrollFits_eq]
  have hrows : patch.rows.all (fun row => Checked.rowFits row width height)
      = patch.rows.all fun row => Scroll.rowFits row width height := by
    simp only [rowFits_eq]
  rw [hscrolls, hrows]
  cases hallScrolls : scrolls.all fun scroll => Scroll.scrollFits scroll width height with
  | false => simp
  | true =>
    have hfits : ∀ scroll ∈ scrolls, Proofs.Surface.Scroll.Fits scroll width height :=
      fun scroll hmem => Proofs.Surface.Scroll.scrollFits_iff.mp
        (List.all_eq_true.mp hallScrolls scroll hmem)
    rw [scrollsDisjoint_eq hfits]
    cases hdisjoint : Scroll.scrollsDisjoint scrolls with
    | false => simp
    | true =>
      cases hallRows : patch.rows.all fun row => Scroll.rowFits row width height with
      | false => simp
      | true =>
        have hrowFits : ∀ row ∈ patch.rows, row.span.Fits width.toNat height.toNat :=
          fun row hmem => Proofs.Surface.Scroll.rowFits_iff.mp
            (List.all_eq_true.mp hallRows row hmem)
        -- From here on every step has a result, and the same one on both sides.
        obtain ⟨moved, hmoved, hscrolled⟩ := Proofs.Surface.Scroll.applyScrolls_spec hfits
          (Proofs.Surface.Scroll.scrollsDisjoint_iff.mp hdisjoint) hcells
        obtain ⟨written, hwritten, hlen⟩ := isSome_applyRows hscrolled.length hrowFits
        have houtside : patch.rows.mapM (Checked.outsideScrolls · scrolls)
            = some (patch.rows.map (Scroll.outsideScrolls · scrolls)) :=
          mapM_eq_some fun row hmem => outsideScrolls_eq scrolls (hrowFits row hmem)
        have hscrolledRows : scrolls.mapM (fun scroll =>
              Checked.scrolledRows written width scroll.rect)
            = some (scrolls.map fun scroll => Scroll.scrolledRows written width scroll.rect) :=
          mapM_eq_some fun scroll hmem => scrolledRows_eq (hfits scroll hmem) hlen
        simp only [Bool.not_true, Bool.false_eq_true, if_false, Bool.or_self, Option.bind_some]
        rw [applyScrolls_eq hfits hcells, hmoved, Option.bind_some, Option.bind_some,
          applyRows_eq hscrolled.length hrowFits, hwritten, Option.bind_some, Option.bind_some,
          houtside, Option.bind_some, hscrolledRows, Option.bind_some, ← List.flatMap_def,
          ← List.flatMap_def]
        exact ⟨rfl, rfl⟩

theorem decodeScroll_eq (base : CellBaseline) (data : String) :
    Checked.decodeScroll base data = Reuse.decodeScroll base data
      ∧ (Reuse.decodeScroll base data).isSome = true := by
  unfold Checked.decodeScroll Reuse.decodeScroll
  cases Scroll.decode data with
  | error error => exact ⟨rfl, rfl⟩
  | ok scroll =>
    dsimp only
    split
    · exact ⟨rfl, rfl⟩
    · obtain ⟨happly, hsome⟩ := apply_eq base.cells base.width base.height scroll
      rw [happly]
      obtain ⟨result, hresult⟩ := Option.isSome_iff_exists.mp hsome
      rw [hresult]
      cases result with
      | error error => exact ⟨rfl, rfl⟩
      | ok result => exact ⟨rfl, rfl⟩

/-! ### Deltas -/

theorem checkedGridSize_eq (width height : UInt16) :
    Checked.checkedGridSize width height = some (Delta.checkedGridSize width height) := by
  have hsize := cells_lt width height
  unfold Checked.checkedGridSize Delta.checkedGridSize Checked.usize
  split
  · rfl
  · rw [mul?_eq (by omega), Option.bind_eq_bind, Option.bind_some]
    dsimp only
    split <;> rfl

theorem le_of_checkedGridSize {cells : Nat} (h : Delta.checkedGridSize width height = .ok cells) :
    cells = width.toNat * height.toNat := by
  unfold Delta.checkedGridSize at h
  dsimp only at h
  split at h
  · cases h
  · split at h
    · cases h
    · exact (Except.ok.inj h).symm

theorem checkSpan_eq (previousEnd : Nat) (x y : UInt16) (cellsLen : Nat)
    (htotal : totalCells ≤ cellBudget) (hbudget : cellBudget < 2 ^ 32) :
    Checked.checkSpan width height cellBudget totalCells previousEnd x y cellsLen
      = some (Delta.checkSpan width height cellBudget totalCells previousEnd x y cellsLen) := by
  have hwidth := width.toNat_lt
  have hx := x.toNat_lt
  have hy := y.toNat_lt
  have hrow : y.toNat * width.toNat < 2 ^ 16 * 2 ^ 16 := Nat.mul_lt_mul'' hy hwidth
  unfold Checked.checkSpan Delta.checkSpan
  dsimp only
  by_cases houtside : (cellsLen = 0 || y ≥ height || x.toNat ≥ width.toNat) = true
  · simp [houtside]
  · rw [if_neg houtside, sub?_eq (by simp at houtside; omega)]
    simp only [houtside, Option.bind_eq_bind, Option.bind_some, Option.pure_def, Bool.false_or,
      decide_eq_true_eq]
    by_cases hlong : cellsLen > width.toNat - x.toNat
    · rw [if_pos hlong, if_pos hlong]
    · rw [if_neg hlong, if_neg hlong, cellIndex_eq (by omega) (by omega)]
      dsimp only
      by_cases hsorted : y.toNat * width.toNat + x.toNat < previousEnd
      · rw [if_pos hsorted, if_pos hsorted]
      · unfold Checked.usize
        rw [if_neg hsorted, if_neg hsorted, add?_eq (by omega)]
        dsimp only
        by_cases hmore : totalCells + cellsLen > cellBudget
        · rw [if_pos hmore, if_pos hmore]
        · rw [if_neg hmore, if_neg hmore, add?_eq (by omega), Option.bind_some]

section

variable {α β : Type}

theorem reading_bind (d : Bincode.Decoder α) (f : α → Bincode.Decoder β) :
    Checked.reading (d >>= f) = Checked.reading d >>= fun value => Checked.reading (f value) := by
  funext reader
  show some (Except.bind (d reader) _) = _
  cases hread : d reader with
  | error error =>
    show _ = (ExceptT.bind (some (d reader)) _ : Option _)
    rw [hread]
    rfl
  | ok result =>
    show _ = (ExceptT.bind (some (d reader)) _ : Option _)
    rw [hread]
    rfl

theorem checking_some (result : Except DecodeError α) :
    Checked.checking (some result) = Checked.reading (liftM result) := by
  funext reader
  cases result with
  | error error => rfl
  | ok value => rfl

/-- After a check that succeeds. -/
theorem reading_ok_bind (value : α) (f : α → Checked.CheckedDecoder β) :
    (Checked.reading (liftM (Except.ok value : Except DecodeError α)) >>= f) = f value := rfl

end

theorem decodeSpans_eq (hbudget : cellBudget < 2 ^ 32) (count : Nat) {previousEnd : Nat}
    (htotal : totalCells ≤ cellBudget) :
    Checked.decodeSpans width height cellBudget count totalCells previousEnd
      = Checked.reading
          (Delta.decodeSpans width height cellBudget count totalCells previousEnd) := by
  induction count generalizing totalCells previousEnd with
  | zero => rfl
  | succ count ih =>
    unfold Checked.decodeSpans Delta.decodeSpans
    rw [reading_bind]
    refine bind_congr fun x => ?_
    rw [reading_bind]
    refine bind_congr fun y => ?_
    rw [reading_bind]
    refine bind_congr fun cellsLen => ?_
    rw [checkSpan_eq previousEnd x y cellsLen htotal hbudget, checking_some]
    cases hcheck : Delta.checkSpan width height cellBudget totalCells previousEnd x y cellsLen with
    | error error => rfl
    | ok after =>
      obtain ⟨⟨-, -, -, -, hwithin⟩, rfl⟩ := Proofs.Surface.Delta.checkSpan_eq_ok.mp hcheck
      rw [reading_bind, reading_ok_bind, reading_ok_bind]
      dsimp only
      rw [reading_bind]
      refine bind_congr fun cells => ?_
      rw [reading_bind, ih hwithin]
      rfl

theorem decodeRows_eq (width height : UInt16) :
    Checked.decodeRows width height = Checked.reading (Delta.decodeRows width height) := by
  unfold Checked.decodeRows Delta.decodeRows
  rw [reading_bind, checkedGridSize_eq, checking_some]
  cases hgrid : Delta.checkedGridSize width height with
  | error error => rfl
  | ok cellBudget =>
    have hbudget : cellBudget < 2 ^ 32 := by
      rw [le_of_checkedGridSize hgrid]
      exact cells_lt width height
    rw [reading_ok_bind, reading_ok_bind, reading_bind]
    exact bind_congr fun count => decodeSpans_eq hbudget count (Nat.zero_le _)

theorem decodePopupUpdate_eq (popup : Option ClientShellPopupSurface) :
    Checked.decodePopupUpdate popup = Checked.reading (Delta.decodePopupUpdate popup) := by
  unfold Checked.decodePopupUpdate Delta.decodePopupUpdate
  rw [reading_bind]
  refine bind_congr fun tag => ?_
  by_cases hnone : tag = 0
  · subst hnone
    rfl
  by_cases hsome : tag = 1
  · subst hsome
    cases popup with
    | none => rfl
    | some popup =>
      show (Checked.reading decodeU32 >>= _) = Checked.reading (decodeU32 >>= _)
      rw [reading_bind]
      refine bind_congr fun kind => ?_
      by_cases hpatch : kind = 0
      · subst hpatch
        show (Checked.decodeRows _ _ >>= _) = Checked.reading (Delta.decodeRows _ _ >>= _)
        rw [decodeRows_eq, reading_bind]
        rfl
      by_cases hreplace : kind = 1
      · subst hreplace
        show (Checked.checking (Checked.checkedGridSize _ _) >>= _)
          = Checked.reading (liftM (Delta.checkedGridSize _ _) >>= _)
        rw [reading_bind, checkedGridSize_eq, checking_some]
        refine bind_congr fun expected => ?_
        rw [reading_bind]
        refine bind_congr fun count => ?_
        by_cases hcount : count ≠ expected
        · rw [if_pos hcount, if_pos hcount]
          rfl
        · rw [if_neg hcount, if_neg hcount]
          exact (reading_bind _ _).symm
      · split <;> simp_all
  · split <;> simp_all

theorem decodeWhole_eq (expected : UInt16 × UInt16) (dataLen : Nat) :
    Checked.decodeWhole expected dataLen
      = Checked.reading (Delta.decodeDelta expected dataLen) := by
  unfold Checked.decodeWhole Delta.decodeDelta
  rw [reading_bind]
  refine bind_congr fun baseProjectionRevision => ?_
  rw [reading_bind]
  refine bind_congr fun baseSurfaceRevision => ?_
  rw [reading_bind]
  refine bind_congr fun surface => ?_
  by_cases hsize : (!Delta.hasGraphics surface.graphics && dataLen > maxFrameSize) = true
  · rw [if_pos hsize, if_pos hsize]
    rfl
  rw [if_neg hsize, if_neg hsize]
  by_cases hexpected : expected ≠ (surface.frame.width, surface.frame.height)
  · rw [if_pos hexpected, if_pos hexpected]
    rfl
  rw [if_neg hexpected, if_neg hexpected, checkedGridSize_eq, checking_some, reading_bind]
  refine bind_congr fun cells => ?_
  rw [reading_bind, decodeRows_eq]
  refine bind_congr fun rows => ?_
  rw [reading_bind, decodePopupUpdate_eq]
  rfl

theorem decodeFor_eq (data : String) (expected : UInt16 × UInt16) :
    Checked.decodeFor data expected = some (Delta.decodeFor data expected) := by
  unfold Checked.decodeFor Delta.decodeFor
  split
  · rfl
  · cases Base64.decode data with
    | none => rfl
    | some bytes =>
      dsimp only
      split
      · rfl
      · rw [decodeWhole_eq]
        rfl

/-! ### What an accepted delta satisfies -/

/-- Rows that all lie inside a grid. -/
def RowsFit (width height : UInt16) (rows : List PaneSurfacePatchRow) : Prop :=
  ∀ row ∈ rows, row.span.Fits width.toNat height.toNat

theorem ensures_decodeSpans (width height : UInt16)
    (cellBudget count totalCells previousEnd : Nat) :
    Ensures (Delta.decodeSpans width height cellBudget count totalCells previousEnd)
      (RowsFit width height) := by
  induction count generalizing totalCells previousEnd with
  | zero => exact ensures_pure fun row hmem => by cases hmem
  | succ count ih =>
    refine .skip fun x => .skip fun y => .skip fun cellsLen => ?_
    refine (ensures_check fun after hcheck => hcheck).bind fun after hcheck => ?_
    obtain ⟨⟨-, hy, hx, -, -⟩, rfl⟩ := Proofs.Surface.Delta.checkSpan_eq_ok.mp hcheck
    refine (ensures_decodeMany CellData.decode cellsLen).bind fun cells hcells => ?_
    refine (ih _ _).bind fun rest hrest => ensures_pure fun row hmem => ?_
    rcases List.mem_cons.mp hmem with rfl | hmem
    · refine ⟨hy, ?_⟩
      show x.toNat + cells.length ≤ width.toNat
      rw [hcells]
      exact hx
    · exact hrest row hmem

theorem ensures_decodeRows (width height : UInt16) :
    Ensures (Delta.decodeRows width height) (RowsFit width height) :=
  .skip fun cellBudget => .skip fun count => ensures_decodeSpans width height cellBudget count 0 0

/-- The rows of an update lie inside the popup. -/
def PopupFits (popup : Option ClientShellPopupSurface) (update : Option Delta.GridUpdate) : Prop :=
  ∀ popup' rows, popup = some popup' → update = some (.patch rows) →
    RowsFit popup'.frame.width popup'.frame.height rows

theorem ensures_decodePopupUpdate (popup : Option ClientShellPopupSurface) :
    Ensures (Delta.decodePopupUpdate popup) (PopupFits popup) := by
  refine .skip fun tag => ?_
  split
  · exact ensures_pure fun popup rows _ hupdate => by cases hupdate
  · cases popup with
    | none => exact ensures_throw _
    | some popup =>
      refine .skip fun kind => ?_
      split
      · refine (ensures_decodeRows popup.frame.width popup.frame.height).bind fun rows hrows =>
          ensures_pure fun popup' rows' hpopup hupdate => ?_
        cases hpopup
        cases hupdate
        exact hrows
      · refine .skip fun expected => .skip fun count => ?_
        split
        · exact .skip fun _ => .skip fun cells => ensures_pure fun _ _ _ hupdate => by cases hupdate
        · exact .skip fun cells => ensures_pure fun _ _ _ hupdate => by cases hupdate
      · exact ensures_throw _
  · exact ensures_throw _

/-- A delta that was decoded for a baseline has rows inside it, and popup rows inside its popup. -/
theorem decodeFor_fits {data : String} {expected : UInt16 × UInt16} {delta : Delta.SurfaceDelta}
    (h : Delta.decodeFor data expected = .ok delta) :
    RowsFit expected.1 expected.2 delta.rows ∧ PopupFits delta.surface.popup delta.popupCells := by
  have hensures : ∀ dataLen, Ensures (Delta.decodeDelta expected dataLen) fun delta =>
      RowsFit expected.1 expected.2 delta.rows
        ∧ PopupFits delta.surface.popup delta.popupCells := by
    intro dataLen
    have hrest : ∀ projectionRevision surfaceRevision surface, Ensures (do
        let _ ← liftM (Delta.checkedGridSize expected.1 expected.2)
        let rows ← Delta.decodeRows expected.1 expected.2
        let popupCells ← Delta.decodePopupUpdate surface.popup
        return (⟨projectionRevision, surfaceRevision, surface, rows, popupCells⟩ :
          Delta.SurfaceDelta)) fun delta => RowsFit expected.1 expected.2 delta.rows
        ∧ PopupFits delta.surface.popup delta.popupCells :=
      fun _ _ surface => .skip fun _ => (ensures_decodeRows expected.1 expected.2).bind
        fun rows hrows => (ensures_decodePopupUpdate surface.popup).bind fun update hupdate =>
          ensures_pure ⟨hrows, hupdate⟩
    refine .skip fun projectionRevision => .skip fun surfaceRevision => .skip fun surface => ?_
    dsimp only
    split
    · exact .skip fun _ => by split <;> first | exact .skip fun _ => hrest _ _ _ | exact hrest _ _ _
    · split
      · exact .skip fun _ => hrest _ _ _
      · exact hrest _ _ _
  unfold Delta.decodeFor at h
  split at h
  · cases h
  · split at h
    · cases h
    · split at h
      · cases h
      · split at h
        · cases h
        next delta' reader hrun =>
          split at h
          · cases h
          · obtain rfl := Except.ok.inj h
            exact hensures _ _ _ _ hrun

theorem deltaPopup_eq {base : CellBaseline} {popup : Option ClientShellPopupSurface}
    {update : Option Delta.GridUpdate} (hfits : PopupFits popup update) :
    Checked.deltaPopup base popup update = Reuse.deltaPopup base popup update
      ∧ (Reuse.deltaPopup base popup update).isSome = true := by
  cases popup with
  | none =>
    cases update with
    | none => exact ⟨rfl, rfl⟩
    | some update => exact ⟨by cases update <;> rfl, by cases update <;> rfl⟩
  | some popup =>
    have hsize := cells_lt popup.frame.width popup.frame.height
    cases update with
    | none => exact ⟨rfl, rfl⟩
    | some update =>
      unfold Checked.deltaPopup Checked.usize
      dsimp only
      rw [mul?_eq (by omega), Option.bind_eq_bind, Option.bind_some]
      cases update with
      | replace cells => exact ⟨rfl, rfl⟩
      | patch rows =>
        unfold Reuse.deltaPopup
        dsimp only
        cases hprevious : base.popup.filter fun previous =>
          previous.terminalId = popup.terminalId && previous.width = popup.frame.width
            && previous.height = popup.frame.height
            && previous.cells.length = popup.frame.width.toNat * popup.frame.height.toNat with
        | none => exact ⟨rfl, rfl⟩
        | some previous =>
          obtain ⟨-, hkeep⟩ := Option.filter_eq_some_iff.mp hprevious
          simp only [Bool.and_eq_true, decide_eq_true_eq] at hkeep
          obtain ⟨⟨⟨-, hwidth⟩, hheight⟩, hlen⟩ := hkeep
          rw [← hwidth, ← hheight] at hlen
          have hrows : RowsFit previous.width previous.height rows := by
            rw [hwidth, hheight]
            exact hfits popup rows rfl rfl
          obtain ⟨after, hafter, -⟩ := isSome_applyRows hlen hrows
          dsimp only
          rw [applyRows_eq hlen hrows, hafter]
          exact ⟨rfl, rfl⟩

theorem decodeDelta_eq (base : CellBaseline) (data : String) :
    Checked.decodeDelta base data = Reuse.decodeDelta base data
      ∧ (Reuse.decodeDelta base data).isSome = true := by
  have hsize := cells_lt base.width base.height
  unfold Checked.decodeDelta Reuse.decodeDelta
  rw [decodeFor_eq, Option.bind_eq_bind, Option.bind_some]
  cases hdecode : Delta.decodeFor data (base.width, base.height) with
  | error error => exact ⟨rfl, rfl⟩
  | ok delta =>
    obtain ⟨hrows, hpopup⟩ := decodeFor_fits hdecode
    dsimp only
    rw [mul?_eq (by unfold Checked.usize; omega), Option.bind_eq_bind, Option.bind_some]
    by_cases hlen : base.cells.length = base.width.toNat * base.height.toNat
    · cases hrevisions : (delta.surface.bootId ≠ base.bootId
          || delta.baseProjectionRevision ≠ base.projectionRevision
          || delta.baseSurfaceRevision ≠ base.surfaceRevision
          || delta.surface.surfaceRevision ≠ Reuse.nextRevision base.surfaceRevision
          || delta.surface.projectionRevision < base.projectionRevision : Bool) with
      | true => exact ⟨rfl, rfl⟩
      | false =>
        obtain ⟨cells, hcells, -⟩ := isSome_applyRows hlen hrows
        obtain ⟨hsame, hsome⟩ := @deltaPopup_eq base _ _ hpopup
        obtain ⟨popup, hresult⟩ := Option.isSome_iff_exists.mp hsome
        have hsame' : Checked.deltaPopup base delta.surface.popup delta.popupCells
            = some popup := hsame.trans hresult
        rw [if_neg (not_not.mpr hlen), applyRows_eq hlen hrows, hcells]
        simp only [Option.bind_eq_bind, Option.bind_some, Option.pure_def]
        rw [hsame', hresult, Bool.false_or, decide_eq_false (not_not.mpr hlen)]
        refine ⟨rfl, ?_⟩
        rw [if_neg Bool.false_ne_true, Option.bind_some]
        cases popup with
        | error error => rfl
        | ok popup =>
          dsimp only
          split <;> rfl
    · -- A baseline without all its cells takes no delta.
      have hshort : decide (base.cells.length ≠ base.width.toNat * base.height.toNat) = true :=
        decide_eq_true hlen
      rw [if_pos hlen, hshort, Bool.or_true, if_pos rfl]
      exact ⟨by split <;> rfl, rfl⟩

/-! ### The receiver -/

/-- No message makes the receiver overflow, or take a slice or an exchange outside its grids.
With the machine's arithmetic and the bounds of every slice (`Checked`), sizing a grid, decoding a
delta, applying a delta to any baseline, and applying any scroll patch to any grid all have a
result, the one that they have in the naturals. The rows of a delta that is decoded lie inside
the baseline it was decoded for, and those of its popup inside the popup. -/
theorem accepted_updates_stay_inside :
    (∀ width height,
        Checked.checkedGridSize width height = some (Delta.checkedGridSize width height))
      ∧ (∀ data expected, Checked.decodeFor data expected = some (Delta.decodeFor data expected))
      ∧ (∀ data expected delta, Delta.decodeFor data expected = .ok delta →
        RowsFit expected.1 expected.2 delta.rows
          ∧ PopupFits delta.surface.popup delta.popupCells)
      ∧ (∀ base data, Checked.decodeDelta base data = Reuse.decodeDelta base data
        ∧ (Reuse.decodeDelta base data).isSome = true)
      ∧ (∀ cells width height scrollPatch,
        Checked.apply cells width height scrollPatch = Scroll.apply cells width height scrollPatch
          ∧ (Scroll.apply cells width height scrollPatch).isSome = true)
      ∧ ∀ base data, Checked.decodeScroll base data = Reuse.decodeScroll base data
        ∧ (Reuse.decodeScroll base data).isSome = true :=
  ⟨checkedGridSize_eq, decodeFor_eq, fun _ _ _ => decodeFor_fits, decodeDelta_eq, apply_eq,
    decodeScroll_eq⟩

end Herden.Proofs.Surface.Checked
