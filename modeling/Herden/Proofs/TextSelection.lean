import Herden.Runtime.TextSelection

/-!
# `Herden.Proofs.TextSelection`: what is highlighted is what is selected

A cell is selected when it lies between the two ends in reading order (`contains_iff`). The
rectangles cut that stretch of cells at the ends of the first and the last row and at the edges of
the viewport: each covers the cells of its rows and columns that are in view
(`visibleRect_contains`). `visibleRects_exact` puts the two together.
-/

namespace Herden.Proofs.TextSelection

open Herden.Runtime.Layout
open Herden.Runtime.TextSelection

/-! ### Machine numbers -/

theorem toNat_saturatingAdd (a b : UInt16) :
    (saturatingAdd a b).toNat = min (a.toNat + b.toNat) 65535 := by
  unfold saturatingAdd
  rw [UInt16.toNat_ofNat']
  omega

theorem toNat_saturatingAdd32 (a b : UInt32) :
    (saturatingAdd32 a b).toNat = min (a.toNat + b.toNat) 4294967295 := by
  unfold saturatingAdd32
  rw [UInt32.toNat_ofNat']
  omega

theorem toNat_smaller (a b : UInt32) : (smaller a b).toNat = min a.toNat b.toNat := by
  unfold smaller
  split
  next h => exact (Nat.min_eq_left (UInt32.le_iff_toNat_le.mp h)).symm
  next h =>
    have hlt := UInt32.lt_iff_toNat_lt.mp (UInt32.not_le.mp h)
    omega

theorem toNat_larger (a b : UInt32) : (larger a b).toNat = max a.toNat b.toNat := by
  unfold larger
  split
  next h => exact (Nat.max_eq_right (UInt32.le_iff_toNat_le.mp h)).symm
  next h =>
    have hlt := UInt32.lt_iff_toNat_lt.mp (UInt32.not_le.mp h)
    omega

theorem toNat_smaller16 (a b : UInt16) : (smaller16 a b).toNat = min a.toNat b.toNat := by
  unfold smaller16
  split
  next h => exact (Nat.min_eq_left (UInt16.le_iff_toNat_le.mp h)).symm
  next h =>
    have hlt := UInt16.lt_iff_toNat_lt.mp (UInt16.not_le.mp h)
    omega

/-! ### Rectangles -/

theorem rect_contains_iff (rect : Rect) (x y : UInt16) :
    rectContains rect x y = true
      ↔ rect.x.toNat ≤ x.toNat ∧ x.toNat < min (rect.x.toNat + rect.width.toNat) 65535
        ∧ rect.y.toNat ≤ y.toNat ∧ y.toNat < min (rect.y.toNat + rect.height.toNat) 65535 := by
  unfold rectContains
  simp only [Bool.and_eq_true, decide_eq_true_eq, UInt16.le_iff_toNat_le, UInt16.lt_iff_toNat_lt,
    toNat_saturatingAdd, and_assoc]

theorem not_contains_default (x y : UInt16) : ¬ rectContains defaultRect x y = true := by
  rw [rect_contains_iff]
  show ¬ (0 ≤ x.toNat ∧ x.toNat < 0 ∧ _)
  omega

theorem isEmpty_iff (rect : Rect) :
    isEmpty rect = true ↔ rect.width.toNat = 0 ∨ rect.height.toNat = 0 := by
  unfold isEmpty
  simp only [Bool.or_eq_true, beq_iff_eq, ← UInt16.toNat_inj]
  rfl

theorem rect_new_contains_iff (left top width height x y : UInt16) :
    rectContains (Rect.new left top width height) x y = true
      ↔ left.toNat ≤ x.toNat ∧ x.toNat < min (left.toNat + width.toNat) 65535
        ∧ top.toNat ≤ y.toNat ∧ y.toNat < min (top.toNat + height.toNat) 65535 := by
  have hsize : ∀ a b : UInt16, (saturatingAdd a b - a).toNat
      = min (a.toNat + b.toNat) 65535 - a.toNat := by
    intro a b
    have hsum := toNat_saturatingAdd a b
    have ha := a.toNat_lt
    rw [UInt16.toNat_sub_of_le _ _ (UInt16.le_iff_toNat_le.mpr (by omega)), hsum]
  rw [rect_contains_iff]
  unfold Rect.new
  dsimp only
  rw [hsize, hsize]
  omega

theorem toNat_add_of_lt {a b : UInt16} (h : a.toNat + b.toNat < 2 ^ 16) :
    (a + b).toNat = a.toNat + b.toNat := by
  rw [UInt16.toNat_add, Nat.mod_eq_of_lt h]

/-- A distance of rows that fits in a column's width. -/
theorem toNat_distance {a b : UInt32} (hle : b.toNat ≤ a.toNat)
    (h : a.toNat - b.toNat < 2 ^ 16) : (a - b).toUInt16.toNat = a.toNat - b.toNat := by
  rw [UInt32.toNat_toUInt16, UInt32.toNat_sub_of_le _ _ (UInt32.le_iff_toNat_le.mpr hle),
    Nat.mod_eq_of_lt h]

/-- An axis of so many cells, the first of which is number `base`. The cells from `first` to before
`stop` that are on the axis. -/
theorem cut_iff {start extent base first stop low high pos : Nat} (hfits : start + extent < 2 ^ 16)
    (hlow : low = max first base) (hhigh : high = min stop (base + extent)) (h : low < high) :
    start + (low - base) ≤ pos ∧ pos < min (start + (low - base) + (high - low)) 65535
      ↔ (start ≤ pos ∧ pos < min (start + extent) 65535)
        ∧ first ≤ base + (pos - start) ∧ base + (pos - start) < stop := by
  have hbase : base ≤ low := hlow ▸ Nat.le_max_right _ _
  have hfirst : first ≤ low := hlow ▸ Nat.le_max_left _ _
  have hend : high ≤ base + extent := hhigh ▸ Nat.min_le_right _ _
  have hstop : high ≤ stop := hhigh ▸ Nat.min_le_left _ _
  rw [Nat.lt_min, Nat.lt_min]
  constructor
  · rintro ⟨hafter, hbefore, -⟩
    clear hlow hhigh
    exact ⟨⟨by omega, by omega, by omega⟩, by omega, by omega⟩
  · rintro ⟨⟨hinside, hbefore, -⟩, hshown, hlast⟩
    have hlow' : low ≤ base + (pos - start) :=
      hlow.trans_le (Nat.max_le.mpr ⟨hshown, Nat.le_add_right _ _⟩)
    have hhigh' : base + (pos - start) < high :=
      (Nat.lt_min.mpr ⟨hlast, by omega⟩).trans_eq hhigh.symm
    clear hlow hhigh
    exact ⟨by omega, by omega, by omega⟩

/-- No cell of the axis is between them. -/
theorem not_cut {start extent base first stop low high pos : Nat}
    (hlow : low = max first base) (hhigh : high = min stop (base + extent)) (h : high ≤ low) :
    ¬ ((start ≤ pos ∧ pos < min (start + extent) 65535)
      ∧ first ≤ base + (pos - start) ∧ base + (pos - start) < stop) := by
  rintro ⟨⟨hinside, hbefore⟩, hfirst, hlast⟩
  have hend := (Nat.lt_min.mp hbefore).1
  have hlow' : low ≤ base + (pos - start) :=
    hlow.trans_le (Nat.max_le.mpr ⟨hfirst, Nat.le_add_right _ _⟩)
  have hhigh' : base + (pos - start) < high :=
    (Nat.lt_min.mpr ⟨hlast, by omega⟩).trans_eq hhigh.symm
  exact absurd (hhigh'.trans_le (h.trans hlow')) (Nat.lt_irrefl _)

section

variable {inner : Rect} (hx : inner.x.toNat + inner.width.toNat < 2 ^ 16)
  (hy : inner.y.toNat + inner.height.toNat < 2 ^ 16) {top : UInt32}
  (htop : top.toNat + inner.height.toNat < 2 ^ 32)

include hx hy htop

/-- The rectangle covers the cells of its rows and columns that are in view. -/
theorem visibleRect_contains (first stop : UInt32) (left right x y : UInt16) :
    rectContains (visibleRect inner top (saturatingAdd32 top inner.height.toUInt32) first stop
        left right) x y = true
      ↔ rectContains inner x y = true
        ∧ first.toNat ≤ top.toNat + (y.toNat - inner.y.toNat)
        ∧ top.toNat + (y.toNat - inner.y.toNat) < stop.toNat
        ∧ left.toNat ≤ x.toNat - inner.x.toNat ∧ x.toNat - inner.x.toNat < right.toNat := by
  have hbottom : (saturatingAdd32 top inner.height.toUInt32).toNat
      = top.toNat + inner.height.toNat := by
    rw [toNat_saturatingAdd32, UInt16.toNat_toUInt32]
    omega
  have hfirst := toNat_larger first top
  have hstop := toNat_smaller stop (saturatingAdd32 top inner.height.toUInt32)
  have hleft := toNat_smaller16 left inner.width
  have hright := toNat_smaller16 right inner.width
  rw [hbottom] at hstop
  unfold visibleRect
  dsimp only
  generalize larger first top = clippedFirst at *
  generalize smaller stop (saturatingAdd32 top inner.height.toUInt32) = clippedStop at *
  generalize smaller16 left inner.width = clippedLeft at *
  generalize smaller16 right inner.width = clippedRight at *
  have hcells : (rectContains inner x y = true
        ∧ first.toNat ≤ top.toNat + (y.toNat - inner.y.toNat)
        ∧ top.toNat + (y.toNat - inner.y.toNat) < stop.toNat
        ∧ left.toNat ≤ x.toNat - inner.x.toNat ∧ x.toNat - inner.x.toNat < right.toNat)
      ↔ ((inner.x.toNat ≤ x.toNat ∧ x.toNat < min (inner.x.toNat + inner.width.toNat) 65535)
          ∧ left.toNat ≤ x.toNat - inner.x.toNat ∧ x.toNat - inner.x.toNat < right.toNat)
        ∧ (inner.y.toNat ≤ y.toNat ∧ y.toNat < min (inner.y.toNat + inner.height.toNat) 65535)
          ∧ first.toNat ≤ top.toNat + (y.toNat - inner.y.toNat)
          ∧ top.toNat + (y.toNat - inner.y.toNat) < stop.toNat := by
    rw [rect_contains_iff]
    constructor
    · rintro ⟨⟨hx₁, hx₂, hy₁, hy₂⟩, hrow, hrow', hcolumn, hcolumn'⟩
      exact ⟨⟨⟨hx₁, hx₂⟩, hcolumn, hcolumn'⟩, ⟨hy₁, hy₂⟩, hrow, hrow'⟩
    · rintro ⟨⟨⟨hx₁, hx₂⟩, hcolumn, hcolumn'⟩, ⟨hy₁, hy₂⟩, hrow, hrow'⟩
      exact ⟨⟨hx₁, hx₂, hy₁, hy₂⟩, hrow, hrow', hcolumn, hcolumn'⟩
  rw [hcells]
  by_cases hempty : clippedStop ≤ clippedFirst ∨ clippedRight ≤ clippedLeft
  · rw [if_pos (by simpa using hempty)]
    rw [UInt32.le_iff_toNat_le, UInt16.le_iff_toNat_le] at hempty
    refine iff_of_false (not_contains_default x y) ?_
    rintro ⟨hcolumn, hrow⟩
    rcases hempty with hempty | hempty
    · exact not_cut hfirst hstop hempty hrow
    · refine @not_cut _ _ 0 _ _ _ _ _ (Nat.max_zero _).symm ?_ (hempty.trans ?_)
        (by simpa only [Nat.zero_add] using hcolumn)
      · rw [hright, Nat.zero_add]
      · exact hleft.trans_le (Nat.min_le_left _ _)
  · rw [if_neg (by simpa using hempty)]
    rw [UInt32.le_iff_toNat_le, UInt16.le_iff_toNat_le, not_or, Nat.not_le, Nat.not_le] at hempty
    obtain ⟨hsomeRows, hsomeColumns⟩ := hempty
    have hfit : clippedLeft.toNat = left.toNat := by omega
    have hcolumn := @cut_iff inner.x.toNat inner.width.toNat 0 left.toNat right.toNat
      clippedLeft.toNat clippedRight.toNat x.toNat hx (by rw [hfit, Nat.max_zero])
      (by rw [hright, Nat.zero_add]) hsomeColumns
    simp only [Nat.sub_zero, Nat.zero_add] at hcolumn
    have hheight := inner.height.toNat_lt
    have hinside : top.toNat ≤ clippedFirst.toNat := hfirst ▸ Nat.le_max_right _ _
    have hend : clippedStop.toNat ≤ top.toNat + inner.height.toNat := hstop ▸ Nat.min_le_right _ _
    have hedge : clippedRight.toNat ≤ inner.width.toNat := hright ▸ Nat.min_le_right _ _
    clear hcells hleft hright
    rw [← hcolumn, ← cut_iff hy hfirst hstop hsomeRows]
    clear hcolumn hfirst hstop hbottom htop
    have hrow := toNat_distance (a := clippedFirst) (b := top) hinside (by omega)
    have hrows := toNat_distance (a := clippedStop) (b := clippedFirst) hsomeRows.le (by omega)
    have hcolumns := UInt16.toNat_sub_of_le clippedRight clippedLeft
      (UInt16.le_iff_toNat_le.mpr hsomeColumns.le)
    rw [rect_new_contains_iff, toNat_add_of_lt (by omega), toNat_add_of_lt (by omega), hrow, hrows,
      hcolumns, and_assoc]

end

/-! ### Reading order -/

/-- The cell lies between two ends, the ends included. -/
def Between (start stop : UInt32 × UInt16) (row col : Nat) : Prop :=
  (start.1.toNat < row ∨ start.1.toNat = row ∧ start.2.toNat ≤ col)
    ∧ (row < stop.1.toNat ∨ row = stop.1.toNat ∧ col ≤ stop.2.toNat)

section

variable {P : Type} (selection : Selection P)

/-- The ends come in reading order. -/
theorem ordered_le :
    selection.ordered.1.1.toNat < selection.ordered.2.1.toNat
      ∨ selection.ordered.1.1.toNat = selection.ordered.2.1.toNat
        ∧ selection.ordered.1.2.toNat ≤ selection.ordered.2.2.toNat := by
  unfold Selection.ordered
  dsimp only
  by_cases h : selection.anchor.1 < selection.cursor.1
      ∨ selection.anchor.1 = selection.cursor.1 ∧ selection.anchor.2 ≤ selection.cursor.2
  · rw [if_pos (by simpa using h)]
    rw [UInt32.lt_iff_toNat_lt, UInt16.le_iff_toNat_le, ← UInt32.toNat_inj] at h
    exact h
  · rw [if_neg (by simpa using h)]
    rw [UInt32.lt_iff_toNat_lt, UInt16.le_iff_toNat_le, ← UInt32.toNat_inj] at h
    show selection.cursor.1.toNat < selection.anchor.1.toNat
      ∨ selection.cursor.1.toNat = selection.anchor.1.toNat
        ∧ selection.cursor.2.toNat ≤ selection.anchor.2.toNat
    omega

variable {metrics : Option ScrollMetrics}

/-- A cell of the viewport is selected when it lies between the ends in reading order. -/
theorem contains_iff {row col : UInt16}
    (htop : (viewportTopRow metrics).toNat + row.toNat < 2 ^ 32) :
    selection.contains row col metrics = true
      ↔ selection.isVisible = true ∧ Between selection.ordered.1 selection.ordered.2
        ((viewportTopRow metrics).toNat + row.toNat) col.toNat := by
  have hrow : (absoluteRowForViewportRow row metrics).toNat
      = (viewportTopRow metrics).toNat + row.toNat := by
    unfold absoluteRowForViewportRow
    rw [UInt32.toNat_add, UInt16.toNat_toUInt32, Nat.mod_eq_of_lt htop]
  have hordered := ordered_le selection
  unfold Selection.contains Between
  cases selection.isVisible with
  | false => simp
  | true =>
    obtain ⟨⟨startRow, startCol⟩, stopRow, stopCol⟩ := selection.ordered
    rw [← hrow]
    generalize absoluteRowForViewportRow row metrics = bufferRow
    simp only [Bool.not_true, Bool.false_eq_true, if_false, true_and, Bool.or_eq_true,
      decide_eq_true_eq, beq_iff_eq, UInt32.lt_iff_toNat_lt, ← UInt32.toNat_inj] at hordered ⊢
    -- The rows before, after and at the two ends, and between them.
    split
    next houtside =>
      refine iff_of_false Bool.false_ne_true ?_
      omega
    next hinside =>
      split
      next hsingle =>
        simp only [Bool.and_eq_true, decide_eq_true_eq, UInt16.le_iff_toNat_le]
        omega
      next hseveral =>
        split
        next hfirst =>
          simp only [decide_eq_true_eq, UInt16.le_iff_toNat_le]
          omega
        next =>
          split
          next hlast =>
            simp only [decide_eq_true_eq, UInt16.le_iff_toNat_le]
            omega
          next hmiddle =>
            refine iff_of_true rfl ?_
            omega

/-- The three rectangles of a visible selection: an end row, the rows between and the other end row,
or the one row there is. -/
theorem between_iff (width : UInt16) {row col : Nat} (hcol : col < width.toNat)
    (hrow : row < 2 ^ 32 - 1) {start stop : UInt32 × UInt16}
    (hordered : start.1.toNat < stop.1.toNat
      ∨ start.1.toNat = stop.1.toNat ∧ start.2.toNat ≤ stop.2.toNat) :
    Between start stop row col ↔
      if start.1.toNat = stop.1.toNat then
        start.1.toNat ≤ row ∧ row < (saturatingAdd32 start.1 1).toNat ∧ start.2.toNat ≤ col
          ∧ col < (saturatingAdd stop.2 1).toNat
      else
        (start.1.toNat ≤ row ∧ row < (saturatingAdd32 start.1 1).toNat ∧ start.2.toNat ≤ col
            ∧ col < width.toNat)
          ∨ ((saturatingAdd32 start.1 1).toNat ≤ row ∧ row < stop.1.toNat ∧ 0 ≤ col
            ∧ col < width.toNat)
          ∨ (stop.1.toNat ≤ row ∧ row < (saturatingAdd32 stop.1 1).toNat ∧ 0 ≤ col
            ∧ col < (saturatingAdd stop.2 1).toNat) := by
  have hwidth := width.toNat_lt
  have hone : (1 : UInt32).toNat = 1 := rfl
  have hone16 : (1 : UInt16).toNat = 1 := rfl
  rw [toNat_saturatingAdd32, toNat_saturatingAdd32, toNat_saturatingAdd, hone, hone16]
  unfold Between
  split
  · omega
  · omega

variable {inner : Rect}

/-- The rectangles, where something is to be seen. -/
theorem visibleRects_eq (hvisible : selection.isVisible = true) (hinner : isEmpty inner = false) :
    selection.visibleRects inner metrics =
      let rect := visibleRect inner (viewportTopRow metrics)
        (saturatingAdd32 (viewportTopRow metrics) inner.height.toUInt32)
      let start := selection.ordered.1
      let stop := selection.ordered.2
      if start.1.toNat = stop.1.toNat then
        [rect start.1 (saturatingAdd32 start.1 1) start.2 (saturatingAdd stop.2 1), defaultRect,
          defaultRect]
      else
        [rect start.1 (saturatingAdd32 start.1 1) start.2 inner.width,
          rect (saturatingAdd32 start.1 1) stop.1 0 inner.width,
          rect stop.1 (saturatingAdd32 stop.1 1) 0 (saturatingAdd stop.2 1)] := by
  unfold Selection.visibleRects
  rw [hvisible, hinner]
  dsimp only
  simp only [Bool.not_true, Bool.or_false, Bool.false_eq_true, if_false, beq_iff_eq,
    UInt32.toNat_inj]

theorem visibleRects_hidden (h : selection.isVisible = false ∨ isEmpty inner = true) :
    selection.visibleRects inner metrics = [defaultRect, defaultRect, defaultRect] :=
  if_pos (by simpa using h)

/-- For every selection: the cells the rectangles cover are the cells of the pane that are selected,
and no two of the rectangles share a cell. -/
theorem visibleRects_exact (inner : Rect) (metrics : Option ScrollMetrics)
    (hx : inner.x.toNat + inner.width.toNat < 2 ^ 16)
    (hy : inner.y.toNat + inner.height.toNat < 2 ^ 16)
    (htop : (viewportTopRow metrics).toNat + inner.height.toNat < 2 ^ 32) :
    (∀ x y, (∃ rect ∈ selection.visibleRects inner metrics, rectContains rect x y = true)
        ↔ rectContains inner x y = true
          ∧ selection.contains (y - inner.y) (x - inner.x) metrics = true)
      ∧ (selection.visibleRects inner metrics).Pairwise fun a b =>
        ∀ x y, rectContains a x y = true → ¬ rectContains b x y = true := by
  by_cases hshown : selection.isVisible = true ∧ isEmpty inner = false
  · obtain ⟨hvisible, hinner⟩ := hshown
    have hrect := visibleRect_contains hx hy htop
    have hordered := ordered_le selection
    rw [visibleRects_eq selection hvisible hinner]
    dsimp only
    constructor
    · intro x y
      by_cases hcell : rectContains inner x y = true
      · have hbounds := (rect_contains_iff inner x y).mp hcell
        have hcol : (x - inner.x).toNat = x.toNat - inner.x.toNat :=
          UInt16.toNat_sub_of_le _ _ (UInt16.le_iff_toNat_le.mpr hbounds.1)
        have hrow : (y - inner.y).toNat = y.toNat - inner.y.toNat :=
          UInt16.toNat_sub_of_le _ _ (UInt16.le_iff_toNat_le.mpr hbounds.2.2.1)
        rw [and_iff_right hcell, contains_iff selection (by omega), hrow, hcol,
          and_iff_right hvisible, between_iff inner.width (by omega) (by omega) hordered]
        split
        · simp [hrect, hcell, not_contains_default]
        · simp [hrect, hcell]
      · refine iff_of_false ?_ fun hboth => hcell hboth.1
        split
        · simp [hrect, hcell, not_contains_default]
        · simp [hrect, hcell]
    · -- The rows of one rectangle end where those of the next begin.
      split
      · simp [not_contains_default]
      next hseveral =>
        have hfirst := toNat_saturatingAdd32 selection.ordered.1.1 1
        have hone : (1 : UInt32).toNat = 1 := rfl
        simp only [List.pairwise_cons, List.mem_cons, List.not_mem_nil, or_false, forall_eq_or_imp,
          forall_eq, hrect]
        refine ⟨⟨fun x y hfirstRow hbetween => ?_, fun x y hfirstRow hlastRow => ?_⟩,
          fun x y hbetween hlastRow => ?_, by simp⟩
        · omega
        · omega
        · omega
  · have hhidden : selection.isVisible = false ∨ isEmpty inner = true := by
      rw [not_and_or, Bool.not_eq_true, Bool.not_eq_false] at hshown
      exact hshown
    rw [visibleRects_hidden selection hhidden]
    constructor
    · intro x y
      refine iff_of_false ?_ ?_
      · simp [not_contains_default]
      · rintro ⟨hcontains, hselected⟩
        rcases hhidden with hvisible | hempty
        · unfold Selection.contains at hselected
          rw [hvisible] at hselected
          cases hselected
        · rw [rect_contains_iff] at hcontains
          rw [isEmpty_iff] at hempty
          omega
    · simp [not_contains_default]

end

/-- The pane and the selections of the program's own test: a pane of six rows of eight columns, a
selection that was made upwards and a viewport that has scrolled. -/
theorem visibleRects_exact_reversed :
    (∀ x y, (∃ rect ∈ (absoluteRange () (4, 2) (1, 3)).visibleRects ⟨10, 5, 8, 6⟩ (some ⟨0, 2, 6⟩),
          rectContains rect x y = true)
        ↔ rectContains ⟨10, 5, 8, 6⟩ x y = true
          ∧ (absoluteRange () (4, 2) (1, 3)).contains (y - 5) (x - 10) (some ⟨0, 2, 6⟩) = true)
      ∧ ((absoluteRange () (4, 2) (1, 3)).visibleRects ⟨10, 5, 8, 6⟩ (some ⟨0, 2, 6⟩)).Pairwise
        fun a b => ∀ x y, rectContains a x y = true → ¬ rectContains b x y = true :=
  visibleRects_exact (absoluteRange () (4, 2) (1, 3)) ⟨10, 5, 8, 6⟩ (some ⟨0, 2, 6⟩) (by decide)
    (by decide) (by decide)

end Herden.Proofs.TextSelection
