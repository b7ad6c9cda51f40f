import Herden.Proofs.Surface.Wire
import Herden.Runtime.Surface.Scroll
import Mathlib.Data.List.Induction

/-!
# `Herden.Proofs.Surface.Scroll`: scrolled patches reach the same grid

The sender drops from a patch the cells that a shift of a pane's rows explains; the receiver
shifts its own rows and writes what is left. Both grids are compared cell by cell with `target`,
the cell that the rows of the patch leave.

* A scroll reorders the rows of its region and nothing else (`applyScrolls_spec`).
* The residual rows of a pane say `target` where they reach, and where they do not the shift
  has brought it (`Residual`, `paneScroll_spec`).
* The pieces of a row outside the regions keep clear of them and miss nothing
  (`outsideScrolls_spec`).

`scroll_round_trip` puts these together: the message decodes, and the grid of the receiver, of
the expanded patch and of the patch itself are one.
-/

namespace Herden.Proofs.Surface.Scroll

open Herden.Lib
open Herden.Lib.Bincode
open Herden.Runtime.Wire
open Herden.Runtime.Surface.Scroll

/-! ### Moving rows -/

/-- What `scroll_fits` checks, in naturals. -/
structure Fits (scroll : SurfaceScroll) (width height : UInt16) : Prop where
  width_pos : 0 < scroll.rect.width.toNat
  height_ge : 2 ≤ scroll.rect.height.toNat
  shift_ne : scroll.shift.toInt ≠ 0
  shift_lt : scroll.shift.toInt.natAbs < scroll.rect.height.toNat
  columns : scroll.rect.x.toNat + scroll.rect.width.toNat ≤ width.toNat
  rows : scroll.rect.y.toNat + scroll.rect.height.toNat ≤ height.toNat

theorem toInt_eq_zero_iff (shift : Int16) : shift.toInt = 0 ↔ shift = 0 := by
  rw [← Int16.toInt_inj]
  rfl

variable {height width : UInt16} {scroll : SurfaceScroll} {x y : Nat} {scrolls : List SurfaceScroll}
  {last : PaneSurfaceFrame} {row : PaneSurfacePatchRow}

theorem scrollFits_iff : scrollFits scroll width height = true ↔ Fits scroll width height := by
  have hzero := toInt_eq_zero_iff scroll.shift
  constructor
  · intro h
    simp only [scrollFits, Bool.and_eq_true, decide_eq_true_eq] at h
    obtain ⟨⟨⟨⟨⟨hwidth, hheight⟩, hshift⟩, hlt⟩, hcolumns⟩, hrows⟩ := h
    exact ⟨hwidth, hheight, fun h => hshift (hzero.mp h), hlt, hcolumns, hrows⟩
  · rintro ⟨hwidth, hheight, hshift, hlt, hcolumns, hrows⟩
    simp only [scrollFits, Bool.and_eq_true, decide_eq_true_eq]
    exact ⟨⟨⟨⟨⟨hwidth, hheight⟩, fun h => hshift (hzero.mpr h)⟩, hlt⟩, hcolumns⟩, hrows⟩

theorem Fits.region (h : Fits scroll width height) :
    scroll.rect.region.Fits width.toNat height.toNat :=
  ⟨h.columns, h.rows⟩

/-- The swaps exchange two different rows of the region. -/
theorem forEachSwap_bounds {height : Nat} {shift : Int16} (hne : shift.toInt ≠ 0)
    (hlt : shift.toInt.natAbs < height) {swap : Nat × Nat} (h : swap ∈ forEachSwap height shift) :
    swap.1 < height ∧ swap.2 < height ∧ swap.1 ≠ swap.2 := by
  unfold forEachSwap at h
  dsimp only at h
  split at h
  · obtain ⟨y, hy, rfl⟩ := List.mem_map.mp h
    have := List.mem_range.mp hy
    exact ⟨by dsimp only; omega, by dsimp only; omega, by dsimp only; omega⟩
  · obtain ⟨y, hy, rfl⟩ := List.mem_map.mp h
    rw [List.mem_reverse, List.mem_range'_1] at hy
    exact ⟨by dsimp only; omega, by dsimp only; omega, by dsimp only; omega⟩

/-- The order in which a scroll leaves the rows of its region. -/
def rowOrder (scroll : SurfaceScroll) : Option (List Nat) :=
  (forEachSwap scroll.rect.height.toNat scroll.shift).foldlM
    (fun order swap => swapAt? order swap.1 swap.2) (List.range scroll.rect.height.toNat)

variable {cells : List CellData} {piece : PaneSurfacePatchRow}

theorem applyScroll_spec (h : Fits scroll width height)
    (hcells : cells.length = width.toNat * height.toNat) :
    ∃ after order, applyScroll cells width scroll = some after ∧ rowOrder scroll = some order
      ∧ Reordered scroll.rect.region width.toNat height.toNat cells after order :=
  (Reordered.refl hcells).foldlM h.region _ fun _ hmem =>
    forEachSwap_bounds h.shift_ne h.shift_lt hmem

/-- Regions that do not overlap contain no position together. -/
theorem not_contains_of_not_overlap {a b : SurfaceRect} (h : rectsOverlap a b = false)
    (ha : a.region.Contains x y) : ¬ b.region.Contains x y := by
  intro hb
  have hoverlap : rectsOverlap a b = true := by
    obtain ⟨hax, hax', hay, hay'⟩ := ha
    obtain ⟨hbx, hbx', hby, hby'⟩ := hb
    dsimp only [SurfaceRect.region] at hax hax' hay hay' hbx hbx' hby hby'
    simp only [rectsOverlap, Bool.and_eq_true, decide_eq_true_eq]
    exact ⟨⟨⟨by omega, by omega⟩, by omega⟩, by omega⟩
  rw [h] at hoverlap
  cases hoverlap

theorem scrollsDisjoint_iff : scrollsDisjoint scrolls = true
      ↔ scrolls.Pairwise fun a b => rectsOverlap a.rect b.rect = false := by
  induction scrolls with
  | nil => simp [scrollsDisjoint]
  | cons scroll rest ih =>
    simp only [scrollsDisjoint, Bool.and_eq_true, List.all_eq_true, Bool.not_eq_true',
      List.pairwise_cons, ih]

/-- A grid after several scrolls of separate regions. -/
structure Scrolled (width height : UInt16) (scrolls : List SurfaceScroll)
    (original cells : List CellData) : Prop where
  length : cells.length = width.toNat * height.toNat
  inside : ∀ scroll ∈ scrolls, ∃ order, rowOrder scroll = some order
    ∧ order.length = scroll.rect.height.toNat
    ∧ (∀ source ∈ order, source < scroll.rect.height.toNat)
    ∧ ∀ x y source, scroll.rect.x.toNat ≤ x →
      x < scroll.rect.x.toNat + scroll.rect.width.toNat → order[y]? = some source →
      cellAt width.toNat cells x (scroll.rect.y.toNat + y)
        = cellAt width.toNat original x (scroll.rect.y.toNat + source)
  outside : ∀ x y, x < width.toNat → (∀ scroll ∈ scrolls, ¬ scroll.rect.region.Contains x y) →
    cellAt width.toNat cells x y = cellAt width.toNat original x y

/-- Applying the scrolls one after the other moves the rows of each region by its own order. -/
theorem applyScrolls_spec (hfits : ∀ scroll ∈ scrolls, Fits scroll width height)
    (hdisjoint : scrolls.Pairwise fun a b => rectsOverlap a.rect b.rect = false)
    (hcells : cells.length = width.toNat * height.toNat) :
    ∃ after, scrolls.foldlM (fun cells scroll => applyScroll cells width scroll) cells = some after
      ∧ Scrolled width height scrolls cells after := by
  induction scrolls generalizing cells with
  | nil => exact ⟨cells, rfl, hcells, fun _ h => (by cases h), fun _ _ _ _ => rfl⟩
  | cons first rest ih =>
    have hfirst := hfits first (by simp)
    obtain ⟨hapart, hrest⟩ := List.pairwise_cons.mp hdisjoint
    obtain ⟨middle, order, hmiddle, horder, hreordered⟩ := applyScroll_spec hfirst hcells
    obtain ⟨after, hafter, hscrolled⟩ :=
      ih (fun scroll hmem => hfits scroll (by simp [hmem])) hrest hreordered.length
    refine ⟨after, ?_, hscrolled.length, ?_, ?_⟩
    · rw [List.foldlM_cons, hmiddle]
      exact hafter
    · intro scroll hmem
      rcases List.mem_cons.mp hmem with rfl | hmem
      · -- The later regions leave the first one as its scroll left it.
        refine ⟨order, horder, hreordered.order_length, hreordered.order_lt, ?_⟩
        intro x y source hlow hhigh hsource
        have hy : y < scroll.rect.height.toNat := by
          have := (List.getElem?_eq_some_iff.mp hsource).1
          rwa [hreordered.order_length] at this
        have hinside : scroll.rect.region.Contains x (scroll.rect.y.toNat + y) :=
          ⟨hlow, hhigh, Nat.le_add_right _ _, Nat.add_lt_add_left hy _⟩
        rw [hscrolled.outside x _ (by have := hfirst.columns; omega) fun other hother =>
          not_contains_of_not_overlap (hapart other hother) hinside]
        exact hreordered.inside x y source hlow hhigh hsource
      · -- The first scroll left the cells of this region where they were.
        obtain ⟨order', horder', hlen, hlt, hinside⟩ := hscrolled.inside scroll hmem
        refine ⟨order', horder', hlen, hlt, ?_⟩
        intro x y source hlow hhigh hsource
        have hcontains : scroll.rect.region.Contains x (scroll.rect.y.toNat + source) :=
          ⟨hlow, hhigh, Nat.le_add_right _ _,
            Nat.add_lt_add_left (hlt source (List.mem_of_getElem? hsource)) _⟩
        have hcolumns := (hfits scroll (by simp [hmem])).columns
        rw [hinside x y source hlow hhigh hsource]
        refine hreordered.outside x _ (by omega) fun hfirstContains => ?_
        exact not_contains_of_not_overlap (hapart scroll hmem) hfirstContains hcontains
    · intro x y hx houtside
      rw [hscrolled.outside x y hx fun scroll hmem => houtside scroll (by simp [hmem])]
      exact hreordered.outside x y hx (houtside first (by simp))

/-! ### The rows of a pane -/

section

variable {frame : FrameData} {rect : SurfaceRect} {rows : List PaneSurfacePatchRow}

/-- The pane lies inside a frame with all its cells. -/
structure Inside (frame : FrameData) (rect : SurfaceRect) : Prop where
  length : frame.cells.length = frame.width.toNat * frame.height.toNat
  columns : rect.x.toNat + rect.width.toNat ≤ frame.width.toNat
  rows : rect.y.toNat + rect.height.toNat ≤ frame.height.toNat

variable {y x : Nat} {residual : List PaneSurfacePatchRow}

theorem Inside.end_le (h : Inside frame rect) (hy : y < rect.height.toNat) :
    (rect.y.toNat + y) * frame.width.toNat + rect.x.toNat + rect.width.toNat
      ≤ frame.cells.length := by
  have hcolumns := h.columns
  have := Nat.mul_le_mul_right frame.width.toNat
    (show rect.y.toNat + y + 1 ≤ frame.height.toNat by have := h.rows; omega)
  rw [Nat.succ_mul, Nat.mul_comm frame.height.toNat] at this
  rw [h.length]
  omega

theorem length_previous (h : Inside frame rect) (hy : y < rect.height.toNat) :
    (previous frame rect y).length = rect.width.toNat := by
  have hend := h.end_le hy
  rw [previous, List.length_take, List.length_drop]
  omega

theorem getElem?_previous (hx : x < rect.width.toNat) : (previous frame rect y)[x]?
      = cellAt frame.width.toNat frame.cells (rect.x.toNat + x) (rect.y.toNat + y) := by
  rw [previous, List.getElem?_take_of_lt hx, List.getElem?_drop, cellAt]
  congr 1
  omega

/-- Spans of one row: the last one that reaches the column decides. -/
theorem RowView.cell_eq_overlay {view : RowView} (hspans : ∀ span ∈ view.spans, span.y.toNat = y)
    (hx : x < view.base.length) : some (view.cell x)
      = overlay (view.spans.map PaneSurfacePatchRow.span) (view.left + x) y view.base[x]? := by
  obtain ⟨base, left, spans⟩ := view
  dsimp only at hspans hx ⊢
  unfold RowView.cell
  dsimp only
  induction spans using List.reverseRecOn with
  | nil =>
    rw [List.reverse_nil, List.find?_nil, List.map_nil, overlay_nil]
    dsimp only
    rw [List.getD_eq_getElem?_getD, List.getElem?_eq_getElem hx, Option.getD_some]
  | append_singleton spans span ih =>
    have hy := hspans span (by simp)
    have hrest := ih fun other hmem => hspans other (by simp [hmem])
    rw [List.reverse_append, List.reverse_singleton, List.singleton_append, List.find?_cons,
      List.map_append, overlay_append, List.map_singleton, overlay_cons, overlay_nil]
    by_cases hcovers : span.span.Covers (left + x) y
    · obtain ⟨-, hlow, hhigh⟩ := id hcovers
      dsimp only [PaneSurfacePatchRow.span] at hlow hhigh
      have htest : (decide (left + x ≥ span.x.toNat)
          && decide (left + x < span.x.toNat + span.cells.length)) = true := by
        simp only [Bool.and_eq_true, decide_eq_true_eq]
        exact ⟨hlow, hhigh⟩
      have hlt : left + x - span.x.toNat < span.cells.length := by omega
      rw [htest, Span.at_of_covers hcovers]
      show some (span.cells.getD _ default) = (span.cells[left + x - span.x.toNat]?).or _
      rw [List.getD_eq_getElem?_getD, List.getElem?_eq_getElem hlt, Option.some_or,
        Option.getD_some]
    · have htest : (decide (left + x ≥ span.x.toNat)
          && decide (left + x < span.x.toNat + span.cells.length)) = false := by
        refine Bool.eq_false_iff.mpr fun htrue => hcovers ?_
        simp only [Bool.and_eq_true, decide_eq_true_eq] at htrue
        exact ⟨hy, htrue.1, htrue.2⟩
      rw [htest, Span.at_eq_none hcovers, Option.none_or]
      exact hrest

/-- A cell of the pane as the patch leaves it is the cell that the patch's rows leave. -/
theorem rowView_cell (h : Inside frame rect) (hx : x < rect.width.toNat)
    (hy : y < rect.height.toNat) : some ((rowView frame rect rows y).cell x)
      = overlay (rows.map PaneSurfacePatchRow.span) (rect.x.toNat + x) (rect.y.toNat + y)
        (cellAt frame.width.toNat frame.cells (rect.x.toNat + x) (rect.y.toNat + y)) := by
  have hspans : ∀ span ∈ (rowView frame rect rows y).spans, span.y.toNat = rect.y.toNat + y := by
    intro span hmem
    simp only [rowView, List.mem_filter, rowTouches, Bool.and_eq_true, decide_eq_true_eq] at hmem
    have hle : rect.y.toNat ≤ span.y.toNat := hmem.2.1.1.1.1
    omega
  have hlen : x < (rowView frame rect rows y).base.length := by
    rw [rowView, length_previous h hy]
    exact hx
  rw [RowView.cell_eq_overlay hspans hlen]
  show overlay _ (rect.x.toNat + x) _ (previous frame rect y)[x]? = _
  rw [getElem?_previous hx]
  -- The rows left out do not reach the position.
  refine overlay_map_filter _ fun row hmem hout hcovers => ?_
  obtain ⟨hrow, hlow, hhigh⟩ := hcovers
  dsimp only [PaneSurfacePatchRow.span] at hrow hlow hhigh
  refine hout ?_
  simp only [rowTouches, Bool.and_eq_true, decide_eq_true_eq]
  have hge : row.y ≥ rect.y := by
    show rect.y.toNat ≤ row.y.toNat
    omega
  exact ⟨⟨⟨⟨hge, by omega⟩, by omega⟩, by omega⟩, by omega⟩

/-! ### The residual rows -/

/-- A collecting loop that gives up over budget has, when it ends, collected everything. -/
theorem foldlM_collect {α β σ : Type} (step : σ × List β → α → Option (σ × List β))
    (found : α → List β)
    (hstep : ∀ s rows item s' rows', step (s, rows) item = some (s', rows') →
      rows' = rows ++ found item)
    (items : List α) {s s' : σ} {rows rows' : List β}
    (h : items.foldlM step (s, rows) = some (s', rows')) :
    rows' = rows ++ items.flatMap found := by
  induction items generalizing s rows with
  | nil =>
    rw [List.flatMap_nil, List.append_nil]
    exact (Prod.mk.inj (Option.some.inj h)).2.symm
  | cons item rest ih =>
    rw [List.foldlM_cons] at h
    obtain ⟨⟨s₁, rows₁⟩, hitem, hrest⟩ := Option.bind_eq_some_iff.mp h
    rw [ih hrest, hstep _ _ _ _ _ hitem, List.flatMap_cons, List.append_assoc]

/-- The changed runs of one pane row, against the row a scroll put in its place. -/
def rowRuns (frame : FrameData) (rect : SurfaceRect) (rows : List PaneSurfacePatchRow)
    (source y : Nat) : List (Nat × List CellData) :=
  changedRuns (previous frame rect source)
    ((List.range rect.width.toNat).map (rowView frame rect rows y).cell)

variable {order : List Nat}

theorem residualRows_eq {patchCells : Nat} {count : Nat}
    (h : residualRows frame rect rows patchCells order = some (count, residual)) :
    residual = order.zipIdx.flatMap fun entry =>
      (rowRuns frame rect rows entry.1 entry.2).map (residualRow rect entry.2) := by
  refine (foldlM_collect _ _ (fun s collected entry s' collected' hentry => ?_) _ h).trans
    (List.nil_append _)
  refine (foldlM_collect _ (fun run => [residualRow rect entry.2 run])
    (fun s rows run s' rows' hrun => ?_) _ hentry).trans ?_
  · dsimp only at hrun
    split at hrun
    · cases hrun
    · exact (Prod.mk.inj (Option.some.inj hrun)).2.symm
  · rw [← List.map_eq_flatMap]
    rfl

/-- A coordinate of a residual row, where the frame has room for it. -/
theorem toNat_add_ofNat {origin : UInt16} {offset : Nat} (h : origin.toNat + offset < 2 ^ 16) :
    (origin + UInt16.ofNat offset).toNat = origin.toNat + offset := by
  rw [UInt16.toNat_add, UInt16.toNat_ofNat']
  omega

/-- A residual row as a span of the frame. -/
theorem residualRow_span (h : Inside frame rect) (hy : y < rect.height.toNat)
    {run : Nat × List CellData} (hrun : run.1 ≤ rect.width.toNat) :
    (residualRow rect y run).span = runSpan rect.x.toNat (rect.y.toNat + y) run := by
  have hwidth := frame.width.toNat_lt
  have hheight := frame.height.toNat_lt
  have hcolumns := h.columns
  have hrows := h.rows
  unfold PaneSurfacePatchRow.span residualRow runSpan
  dsimp only
  rw [toNat_add_ofNat (by omega), toNat_add_ofNat (by omega)]

/-- The residual rows of a pane, after its rows were reordered. -/
structure Residual (frame : FrameData) (rect : SurfaceRect) (rows : List PaneSurfacePatchRow)
    (order : List Nat) (residual : List PaneSurfacePatchRow) : Prop where
  inside : ∀ row ∈ residual, rect.y.toNat ≤ row.y.toNat
    ∧ row.y.toNat < rect.y.toNat + rect.height.toNat ∧ rect.x.toNat ≤ row.x.toNat
    ∧ row.x.toNat + row.cells.length ≤ rect.x.toNat + rect.width.toNat
  covered : ∀ x y row, row ∈ residual → x < rect.width.toNat →
    row.span.Covers (rect.x.toNat + x) (rect.y.toNat + y) →
    row.span.at (rect.x.toNat + x) (rect.y.toNat + y)
      = overlay (rows.map PaneSurfacePatchRow.span) (rect.x.toNat + x) (rect.y.toNat + y)
        (cellAt frame.width.toNat frame.cells (rect.x.toNat + x) (rect.y.toNat + y))
  uncovered : ∀ x y source, x < rect.width.toNat → order[y]? = some source →
    (∀ row ∈ residual, ¬ row.span.Covers (rect.x.toNat + x) (rect.y.toNat + y)) →
    cellAt frame.width.toNat frame.cells (rect.x.toNat + x) (rect.y.toNat + source)
      = overlay (rows.map PaneSurfacePatchRow.span) (rect.x.toNat + x) (rect.y.toNat + y)
        (cellAt frame.width.toNat frame.cells (rect.x.toNat + x) (rect.y.toNat + y))

theorem residual_of_order (h : Inside frame rect) (hlen : order.length = rect.height.toNat)
    (hlt : ∀ source ∈ order, source < rect.height.toNat)
    (hresidual : residual = order.zipIdx.flatMap fun entry =>
      (rowRuns frame rect rows entry.1 entry.2).map (residualRow rect entry.2)) :
    Residual frame rect rows order residual := by
  -- A residual row is a changed run of its pane row, as a span of the frame.
  have hspan : ∀ row ∈ residual, ∃ source y run, order[y]? = some source
      ∧ run ∈ rowRuns frame rect rows source y
      ∧ row.span = runSpan rect.x.toNat (rect.y.toNat + y) run := by
    intro row hmem
    rw [hresidual] at hmem
    obtain ⟨⟨source, y⟩, hentry, hrow⟩ := List.mem_flatMap.mp hmem
    obtain ⟨run, hrun, rfl⟩ := List.mem_map.mp hrow
    have hsource : order[y]? = some source := List.mk_mem_zipIdx_iff_getElem?.mp hentry
    have hy := (List.getElem?_eq_some_iff.mp hsource).1
    have hinside := changedRunsFrom_inside (Nat.le_refl 0) hrun
    rw [List.length_map, List.length_range] at hinside
    exact ⟨source, y, run, hsource, hrun, residualRow_span h (by omega) (by omega)⟩
  -- What a run says about a position is the cell as the patch leaves it.
  have htarget : ∀ {source x y : Nat}, order[y]? = some source → x < rect.width.toNat →
      ((List.range rect.width.toNat).map (rowView frame rect rows y).cell)[x]?
        = overlay (rows.map PaneSurfacePatchRow.span) (rect.x.toNat + x) (rect.y.toNat + y)
          (cellAt frame.width.toNat frame.cells (rect.x.toNat + x) (rect.y.toNat + y)) := by
    intro source x y hsource hx
    have hy := (List.getElem?_eq_some_iff.mp hsource).1
    rw [List.getElem?_map, List.getElem?_range hx, Option.map_some,
      rowView_cell h hx (by omega)]
  have hcovered : ∀ x y row, row ∈ residual → x < rect.width.toNat →
      row.span.Covers (rect.x.toNat + x) (rect.y.toNat + y) →
      row.span.at (rect.x.toNat + x) (rect.y.toNat + y)
        = overlay (rows.map PaneSurfacePatchRow.span) (rect.x.toNat + x) (rect.y.toNat + y)
          (cellAt frame.width.toNat frame.cells (rect.x.toNat + x) (rect.y.toNat + y)) := by
    intro x y row hmem hx hcovers
    obtain ⟨source, y', run, hsource, hrun, heq⟩ := hspan row hmem
    have hy' : rect.y.toNat + y' = rect.y.toNat + y := by
      rw [← hcovers.1, heq]
      rfl
    obtain rfl : y' = y := by omega
    rw [heq] at hcovers ⊢
    rw [← htarget hsource hx]
    exact runSpan_at hrun hcovers
  refine ⟨?_, hcovered, ?_⟩
  · intro row hmem
    obtain ⟨source, y, run, hsource, hrun, heq⟩ := hspan row hmem
    have hy := (List.getElem?_eq_some_iff.mp hsource).1
    have hinside := changedRunsFrom_inside (Nat.le_refl 0) hrun
    rw [List.length_map, List.length_range] at hinside
    have hx' : row.x.toNat = rect.x.toNat + run.1 := congrArg Span.x heq
    have hy' : row.y.toNat = rect.y.toNat + y := congrArg Span.y heq
    have hcells : row.cells = run.2 := congrArg Span.cells heq
    rw [hx', hy', hcells]
    exact ⟨by omega, by omega, by omega, by omega⟩
  · intro x y source hx hsource huncovered
    have hy := (List.getElem?_eq_some_iff.mp hsource).1
    have hprevious := length_previous h (hlt source (List.mem_of_getElem? hsource))
    have hruns := overlay_changedRuns
      (show (previous frame rect source).length
        = ((List.range rect.width.toNat).map (rowView frame rect rows y).cell).length by
          simp [hprevious])
      rect.x.toNat (rect.y.toNat + y) (show x < _ by simpa using hx)
    rw [overlay_of_not_covers ?_, getElem?_previous hx, htarget hsource hx] at hruns
    · exact hruns
    -- A run that reached the position would be a residual row that does.
    · intro span hmem hcovers
      obtain ⟨run, hrun, rfl⟩ := List.mem_map.mp hmem
      have hinside := changedRunsFrom_inside (Nat.le_refl 0) hrun
      rw [List.length_map, List.length_range] at hinside
      refine huncovered (residualRow rect y run) ?_ ?_
      · rw [hresidual]
        exact List.mem_flatMap.mpr ⟨(source, y), List.mk_mem_zipIdx_iff_getElem?.mpr hsource,
          List.mem_map_of_mem hrun⟩
      · rw [residualRow_span h (by omega) (by omega)]
        exact hcovers

/-- The best shift is the one to begin with, or goes over one of the distances. -/
theorem bestShift_natAbs (matching : Int → Nat) (height : Nat) (distances : List Nat)
    (best : Int × Nat) :
    (bestShift matching height distances best).1 = best.1
      ∨ (bestShift matching height distances best).1.natAbs ∈ distances := by
  induction distances generalizing best with
  | nil => exact .inl rfl
  | cons distance rest ih =>
    unfold bestShift
    split
    · exact .inl rfl
    · dsimp only
      generalize hnext : (if matching (-(distance : Int)) > _ then _ else _ : Int × Nat) = next
      have hcases : next.1 = best.1 ∨ next.1.natAbs = distance := by
        rw [← hnext]
        repeat' split
        · exact .inr (by simp)
        · exact .inr (by simp)
        · exact .inr (by simp)
        · exact .inl rfl
      rcases ih next with hsame | hmem
      · rw [hsame]
        exact hcases.imp id fun heq => by simp [heq]
      · exact .inr (by simp [hmem])

/-- What `pane_scroll` finds is a scroll of the pane, with the rows that still differ after
it. -/
theorem paneScroll_spec (h : Inside frame rect) (hwidth : 0 < rect.width.toNat)
    (hheight : 2 ≤ rect.height.toNat) {shift : Int16}
    (hsome : paneScroll frame rect rows = some (shift, residual)) :
    Fits ⟨rect, shift⟩ frame.width frame.height
      ∧ ∃ order, rowOrder ⟨rect, shift⟩ = some order ∧ order.length = rect.height.toNat
        ∧ Residual frame rect rows order residual := by
  unfold paneScroll at hsome
  simp only [Option.bind_eq_bind, Option.bind_eq_some_iff, Option.guard_eq_some', exists_const,
    Option.pure_def, Option.some.injEq, Prod.mk.injEq] at hsome
  generalize shiftMatches _ _ _ = matching at hsome
  generalize hbest : bestShift matching rect.height.toNat (List.range' 1 (rect.height.toNat - 1))
    (0, matching 0) = best at hsome
  obtain ⟨-, hne, ⟨hmin, hmax⟩, order, horder, ⟨count, residual'⟩, hresidual, rfl, rfl⟩ := hsome
  have hshift : (Int16.ofInt best.1).toInt = best.1 :=
    Int16.toInt_ofInt_of_le hmin (Int.lt_of_le_of_lt hmax (by decide))
  have habs : best.1.natAbs < rect.height.toNat := by
    have hcases := bestShift_natAbs matching rect.height.toNat
      (List.range' 1 (rect.height.toNat - 1)) (0, matching 0)
    rw [hbest] at hcases
    rcases hcases with hzero | hmem
    · exact absurd hzero hne
    · rw [List.mem_range'_1] at hmem
      omega
  have hfits : Fits ⟨rect, Int16.ofInt best.1⟩ frame.width frame.height :=
    ⟨hwidth, hheight, by rw [hshift]; exact hne, by rw [hshift]; exact habs, h.columns, h.rows⟩
  obtain ⟨after, order', -, horder', hreordered⟩ := applyScroll_spec hfits h.length
  have horder : rowOrder ⟨rect, Int16.ofInt best.1⟩ = some order := horder
  rw [horder] at horder'
  obtain rfl := Option.some.inj horder'
  exact ⟨hfits, order, horder, hreordered.order_length,
    residual_of_order h hreordered.order_length hreordered.order_lt (residualRows_eq hresidual)⟩

end

/-! ### The loop over panes -/

/-- A pane's scroll and the rows that still differ after it. -/
abbrev Part := SurfaceScroll × List PaneSurfacePatchRow

/-- The part is a scroll of the frame, and its rows make up for what the scroll leaves. -/
def Part.Sound (frame : FrameData) (rows : List PaneSurfacePatchRow) (part : Part) : Prop :=
  Fits part.1 frame.width frame.height
    ∧ ∃ order, rowOrder part.1 = some order ∧ order.length = part.1.rect.height.toNat
      ∧ Residual frame part.1.rect rows order part.2

/-- What the loop has found, part by part. -/
structure FoundParts (last : PaneSurfaceFrame) (rows : List PaneSurfacePatchRow)
    (panes : List PaneSurfacePane) (found : Found) (parts : List Part) : Prop where
  scrolls : found.scrolls = parts.map Prod.fst
  residual : found.residual = parts.flatMap Prod.snd
  count : parts.length ≤ maxScrolls
  rects : (parts.map fun part => part.1.rect).Sublist (panes.map PaneSurfacePane.innerRect)
  sound : ∀ part ∈ parts, part.Sound last.frame rows

theorem FoundParts.visit {rows : List PaneSurfacePatchRow}
    (hcells : last.frame.cells.length = last.frame.width.toNat * last.frame.height.toNat)
    {panes : List PaneSurfacePane} {found : Found} {parts : List Part}
    (h : FoundParts last rows panes found parts) (pane : PaneSurfacePane) :
    ∃ parts', FoundParts last rows (panes ++ [pane]) (found.visit last rows pane) parts' := by
  have hskip : FoundParts last rows (panes ++ [pane]) found parts := by
    refine ⟨h.scrolls, h.residual, h.count, ?_, h.sound⟩
    rw [List.map_append]
    exact h.rects.trans (List.sublist_append_left _ _)
  unfold Found.visit
  dsimp only
  split
  next => exact ⟨parts, hskip⟩
  next hroom =>
    split
    next => exact ⟨parts, hskip⟩
    next hfits =>
      simp only [Bool.or_eq_true, Bool.not_eq_true', not_or, Bool.not_eq_false] at hfits
      obtain ⟨hwidth, hheight, -, -, hcolumns, hrows⟩ := scrollFits_iff.mp hfits.2
      split
      next => exact ⟨parts, hskip⟩
      next shift residual hscroll =>
        have hsound : Part.Sound last.frame rows (⟨pane.innerRect, shift⟩, residual) :=
          paneScroll_spec ⟨hcells, hcolumns, hrows⟩ hwidth hheight hscroll
        refine ⟨parts ++ [(⟨pane.innerRect, shift⟩, residual)], ?_, ?_, ?_, ?_, ?_⟩
        · rw [List.map_append, ← h.scrolls]
          rfl
        · rw [List.flatMap_append, ← h.residual, List.flatMap_singleton]
        · have hlen : found.scrolls.length = parts.length := by rw [h.scrolls, List.length_map]
          have hcount := h.count
          rw [List.length_append, List.length_singleton]
          omega
        · rw [List.map_append, List.map_append]
          exact h.rects.append (List.Sublist.refl _)
        · intro part hmem
          rcases List.mem_append.mp hmem with hmem | hmem
          · exact h.sound part hmem
          · rw [List.mem_singleton.mp hmem]
            exact hsound

theorem foundParts_foldl
    (hcells : last.frame.cells.length = last.frame.width.toNat * last.frame.height.toNat)
    (rows : List PaneSurfacePatchRow) (panes : List PaneSurfacePane) :
    ∃ parts, FoundParts last rows panes (panes.foldl (Found.visit last rows) ⟨[], []⟩) parts := by
  induction panes using List.reverseRecOn with
  | nil =>
    exact ⟨[], rfl, rfl, Nat.zero_le _, List.Sublist.refl _, fun part hmem => (by cases hmem)⟩
  | append_singleton panes pane ih =>
    obtain ⟨parts, hparts⟩ := ih
    rw [List.foldl_append, List.foldl_cons, List.foldl_nil]
    exact hparts.visit hcells pane

/-! ### The message on the wire -/

theorem length_scrollBytes (scroll : SurfaceScroll) : scroll.bytes.length = scrollBytes := by
  simp [SurfaceScroll.bytes, scrollBytes]

theorem toUInt16_leBytes (value : UInt16) :
    UInt16.ofNat (ofLeBytes (leBytes 2 value.toNat)) = value := by
  rw [ofLeBytes_leBytes value.toNat_lt, UInt16.ofNat_toNat]

theorem ofBytes_bytes (scroll : SurfaceScroll) : .ofBytes scroll.bytes = scroll := by
  -- The bytes are a list of ten, so cutting it into pairs is computation.
  show SurfaceScroll.mk ⟨UInt16.ofNat (ofLeBytes (leBytes 2 scroll.rect.x.toNat)),
    UInt16.ofNat (ofLeBytes (leBytes 2 scroll.rect.y.toNat)),
    UInt16.ofNat (ofLeBytes (leBytes 2 scroll.rect.width.toNat)),
    UInt16.ofNat (ofLeBytes (leBytes 2 scroll.rect.height.toNat))⟩
    (UInt16.ofNat (ofLeBytes (leBytes 2 scroll.shift.toUInt16.toNat))).toInt16 = scroll
  simp only [toUInt16_leBytes]
  rfl

theorem scrollsOfBytes_flatMap (scrolls : List SurfaceScroll) (rest : Bytes) :
    scrollsOfBytes scrolls.length (scrolls.flatMap SurfaceScroll.bytes ++ rest) = scrolls := by
  induction scrolls with
  | nil => rfl
  | cons scroll scrolls ih =>
    rw [List.flatMap_cons, List.append_assoc, List.length_cons, scrollsOfBytes,
      List.take_left' (length_scrollBytes scroll), List.drop_left' (length_scrollBytes scroll),
      ofBytes_bytes, ih]

theorem length_flatMap_bytes (scrolls : List SurfaceScroll) :
    (scrolls.flatMap SurfaceScroll.bytes).length = scrolls.length * scrollBytes := by
  induction scrolls with
  | nil => simp
  | cons scroll scrolls ih =>
    rw [List.flatMap_cons, List.length_append, length_scrollBytes, ih, List.length_cons,
      Nat.succ_mul, Nat.add_comm]

/-- The patch that goes with the scrolls: rows that no scrolled region contains, and the rows
that still differ. -/
def scrolledPatch (patch : PaneSurfacePatch) (parts : List Part) : PaneSurfacePatch :=
  { patch with
    rows := (patch.rows.filter fun row =>
      !(parts.map Prod.fst).any fun scroll => fullyInside row scroll.rect)
        ++ parts.flatMap Prod.snd }

theorem eq_ok_of_toOption {ε α : Type} {result : Except ε α} {value : α}
    (h : result.toOption = some value) : result = .ok value := by
  cases result with
  | error error => cases h
  | ok found => exact congrArg Except.ok (Option.some.inj h)

/-- A message carries the parts found in the panes, and decoding gives them back. -/
theorem decode_message {patch : PaneSurfacePatch} {sent : ServerMessage}
    (h : message last patch = some sent) :
    last.frame.cells.length = last.frame.width.toNat * last.frame.height.toNat
      ∧ ∃ data parts, sent = .endpointControl messageKind data
        ∧ FoundParts last patch.rows patch.panes
          (patch.panes.foldl (Found.visit last patch.rows) ⟨[], []⟩) parts
        ∧ decode data = .ok ⟨parts.map Prod.fst, scrolledPatch patch parts⟩ := by
  unfold message at h
  simp only [Option.bind_eq_bind, Option.bind_eq_some_iff, Option.guard_eq_some', exists_const,
    Option.pure_def, Option.some.injEq] at h
  obtain ⟨hcells, hne, framed, hframed, hsize, rfl⟩ := h
  obtain ⟨parts, hparts⟩ := foundParts_foldl hcells patch.rows patch.panes
  generalize patch.panes.foldl (Found.visit last patch.rows) ⟨[], []⟩ = found at *
  obtain ⟨scrolls, residual⟩ := found
  obtain rfl : scrolls = parts.map Prod.fst := hparts.scrolls
  obtain rfl : residual = parts.flatMap Prod.snd := hparts.residual
  dsimp only at hne hframed hsize ⊢
  refine ⟨hcells, _, parts, rfl, hparts, ?_⟩
  have hwrite : writeMessage (ServerMessage.paneSurfacePatch (scrolledPatch patch parts)).tokens
      = .ok framed := eq_ok_of_toOption hframed
  have hpayload := length_writeMessage hwrite
  generalize hscrolls : parts.map Prod.fst = scrolls at *
  have hcount : scrolls.length ≤ maxScrolls := by
    rw [← hscrolls, List.length_map]
    exact hparts.count
  have hpos : scrolls.length ≠ 0 := fun hzero => hne (List.length_eq_zero_iff.mp hzero)
  unfold maxScrolls at hcount
  -- The message is below the frame limit, so its parts are.
  have hdata := (utf8ByteSize_le_encodedSize messageKind _).trans hsize
  have hbytes := (Base64.length_le_utf8ByteSize_encode _).trans hdata
  have hheader := length_flatMap_bytes scrolls
  rw [List.cons_append, List.length_cons, List.length_append, hheader, hpayload] at hbytes
  unfold maxFrameSize at hdata hbytes
  have hfirst : (UInt8.ofNat scrolls.length).toNat = scrolls.length := by
    rw [UInt8.toNat_ofNat']
    omega
  unfold decode
  rw [if_neg (by rw [Nat.not_lt]; exact hdata.trans (by decide)), Base64.decode_of_encode]
  dsimp only [List.cons_append]
  rw [hfirst, if_neg (by simp [hpos, maxScrolls]; omega),
    if_neg (by rw [List.length_append, hheader]; omega), scrollsOfBytes_flatMap,
    List.drop_left' hheader]
  have hread := readMessage_writeMessage (reads_patchMessage (scrolledPatch patch parts)) hwrite
    (show _ ≤ maxFrameSize by unfold maxFrameSize; omega) []
  rw [List.append_nil] at hread
  rw [hread]
  rfl

/-! ### The parts of a row outside the scrolled regions -/

/-- A row of the expanded patch that is cut out of `row`. -/
structure PieceOf (row piece : PaneSurfacePatchRow) : Prop where
  y_eq : piece.y = row.y
  x_le : row.x.toNat ≤ piece.x.toNat
  end_le : piece.x.toNat + piece.cells.length ≤ row.x.toNat + row.cells.length
  cells : ∀ i < piece.cells.length,
    piece.cells[i]? = row.cells[piece.x.toNat + i - row.x.toNat]?

theorem PieceOf.refl (row : PaneSurfacePatchRow) : PieceOf row row :=
  ⟨rfl, Nat.le_refl _, Nat.le_refl _, fun i _ => by rw [Nat.add_sub_cancel_left]⟩

theorem PieceOf.covers (h : PieceOf row piece) (hcovers : piece.span.Covers x y) :
    row.span.Covers x y := by
  obtain ⟨hy, hlow, hhigh⟩ := hcovers
  dsimp only [PaneSurfacePatchRow.span] at hy hlow hhigh
  have hx := h.x_le
  have hend := h.end_le
  rw [h.y_eq] at hy
  exact ⟨hy, by dsimp only [PaneSurfacePatchRow.span]; omega,
    by dsimp only [PaneSurfacePatchRow.span]; omega⟩

/-- A piece says about its positions what the row says. -/
theorem PieceOf.at_eq (h : PieceOf row piece) (hcovers : piece.span.Covers x y) :
    piece.span.at x y = row.span.at x y := by
  rw [Span.at_of_covers hcovers, Span.at_of_covers (h.covers hcovers)]
  obtain ⟨-, hlow, hhigh⟩ := hcovers
  dsimp only [PaneSurfacePatchRow.span] at hlow hhigh ⊢
  rw [h.cells _ (by omega)]
  congr 1
  omega

section

variable {row : PaneSurfacePatchRow} {rowEnd : Nat} {intervals : List (Nat × Nat)}

/-- The interval reaches the column. -/
def Reaches (interval : Nat × Nat) (column : Nat) : Prop :=
  interval.1 ≤ column ∧ column < interval.2

variable {cursor : Nat}

/-- Every span is a piece of the row from the cursor on, and keeps clear of the intervals. -/
theorem uncoveredSpans_piece (hend : rowEnd = row.x.toNat + row.cells.length)
    (hsize : rowEnd < 2 ^ 16) (hsorted : intervals.Pairwise fun a b => min a.1 rowEnd ≤ b.1)
    (hlow : row.x.toNat ≤ cursor) (hhigh : cursor ≤ rowEnd) {piece : PaneSurfacePatchRow}
    (h : piece ∈ uncoveredSpans row rowEnd cursor intervals) :
    PieceOf row piece ∧ cursor ≤ piece.x.toNat ∧ piece.cells ≠ []
      ∧ ∀ interval ∈ intervals, ∀ column, piece.x.toNat ≤ column →
        column < piece.x.toNat + piece.cells.length → ¬ Reaches interval column := by
  induction intervals generalizing cursor with
  | nil => cases h
  | cons interval rest ih =>
    obtain ⟨left, right⟩ := interval
    obtain ⟨hleft, hrest⟩ := List.pairwise_cons.mp hsorted
    unfold uncoveredSpans at h
    dsimp only at h
    rcases List.mem_append.mp h with h | h
    · split at h
      next hspan =>
        obtain rfl := List.mem_singleton.mp h
        have hx : (UInt16.ofNat cursor).toNat = cursor := by
          rw [UInt16.toNat_ofNat']
          omega
        have hlen : ((row.cells.drop (cursor - row.x.toNat)).take
            (max cursor (min left rowEnd) - cursor)).length = min left rowEnd - cursor := by
          rw [List.length_take, List.length_drop]
          omega
        refine ⟨⟨rfl, ?_, ?_, ?_⟩, ?_, ?_, ?_⟩
        · rw [hx]
          exact hlow
        · rw [hx, hlen]
          omega
        · intro i hi
          dsimp only at hi ⊢
          rw [hx, List.getElem?_take_of_lt (by omega), List.getElem?_drop]
          congr 1
          omega
        · rw [hx]
        · intro hnil
          dsimp only at hnil
          rw [hnil, List.length_nil] at hlen
          omega
        · -- The span ends before the first interval, and the others begin behind it.
          intro interval hmem column hcolumn hcolumn'
          dsimp only at hcolumn hcolumn'
          rw [hx] at hcolumn hcolumn'
          rw [hlen] at hcolumn'
          have hle : min left rowEnd ≤ interval.1 := by
            rcases List.mem_cons.mp hmem with rfl | hmem
            · exact Nat.min_le_left _ _
            · exact hleft interval hmem
          rintro ⟨hreach, -⟩
          omega
      next => cases h
    · obtain ⟨hpiece, hcursor, hne, hclear⟩ := ih hrest (by omega) (by omega) h
      refine ⟨hpiece, by omega, hne, ?_⟩
      intro interval hmem column hcolumn hcolumn'
      rcases List.mem_cons.mp hmem with rfl | hmem
      · have hpieceEnd := hpiece.end_le
        rintro ⟨-, hreach⟩
        dsimp only at hreach
        omega
      · exact hclear interval hmem column hcolumn hcolumn'

/-- The spans follow each other. -/
theorem uncoveredSpans_pairwise (hend : rowEnd = row.x.toNat + row.cells.length)
    (hsize : rowEnd < 2 ^ 16) (hsorted : intervals.Pairwise fun a b => min a.1 rowEnd ≤ b.1)
    (hproper : ∀ interval ∈ intervals, interval.1 ≤ interval.2) (hlow : row.x.toNat ≤ cursor)
    (hhigh : cursor ≤ rowEnd) : (uncoveredSpans row rowEnd cursor intervals).Pairwise fun a b =>
      a.x.toNat + a.cells.length ≤ b.x.toNat := by
  induction intervals generalizing cursor with
  | nil => exact .nil
  | cons interval rest ih =>
    obtain ⟨left, right⟩ := interval
    have hrest := (List.pairwise_cons.mp hsorted).2
    have hle : left ≤ right := hproper (left, right) (by simp)
    unfold uncoveredSpans
    dsimp only
    refine List.pairwise_append.mpr ⟨?_, ih hrest (fun other hmem => hproper other (by simp [hmem]))
      (by omega) (by omega), ?_⟩
    · split
      · exact List.pairwise_singleton _ _
      · exact .nil
    · intro a ha b hb
      have hcursor := (uncoveredSpans_piece hend hsize hrest (by omega) (by omega) hb).2.1
      split at ha
      · obtain rfl := List.mem_singleton.mp ha
        dsimp only
        rw [UInt16.toNat_ofNat', List.length_take, List.length_drop]
        omega
      · cases ha

/-- A column that no interval reaches is in one of the spans, if an interval marks the end of
the row. -/
theorem exists_mem_uncoveredSpans (hend : rowEnd = row.x.toNat + row.cells.length)
    (hsize : rowEnd < 2 ^ 16) (hmark : ∃ interval ∈ intervals, rowEnd ≤ interval.1)
    (hlow : row.x.toNat ≤ cursor) {column : Nat} (hcursor : cursor ≤ column)
    (hcolumn : column < rowEnd) (hclear : ∀ interval ∈ intervals, ¬ Reaches interval column) :
    ∃ piece ∈ uncoveredSpans row rowEnd cursor intervals,
      piece.y = row.y ∧ piece.x.toNat ≤ column ∧ column < piece.x.toNat + piece.cells.length := by
  induction intervals generalizing cursor with
  | nil =>
    obtain ⟨interval, hmem, -⟩ := hmark
    cases hmem
  | cons interval rest ih =>
    obtain ⟨left, right⟩ := interval
    have hfirst := hclear (left, right) (by simp)
    unfold Reaches at hfirst
    dsimp only at hfirst
    unfold uncoveredSpans
    dsimp only
    by_cases hbefore : column < left
    · rw [if_pos (by omega)]
      refine ⟨_, List.mem_append_left _ (List.mem_singleton.mpr rfl), rfl, ?_, ?_⟩
      · dsimp only
        rw [UInt16.toNat_ofNat']
        omega
      · dsimp only
        rw [UInt16.toNat_ofNat', List.length_take, List.length_drop]
        omega
    · have hmark' : ∃ interval ∈ rest, rowEnd ≤ interval.1 := by
        obtain ⟨interval, hmem, hle⟩ := hmark
        rcases List.mem_cons.mp hmem with rfl | hmem
        · dsimp only at hle
          omega
        · exact ⟨interval, hmem, hle⟩
      have hcursor' : max cursor (min right rowEnd) ≤ column := by omega
      obtain ⟨piece, hmem, hpiece⟩ := ih hmark' (by omega) hcursor'
        fun other hother => hclear other (by simp [hother])
      exact ⟨piece, List.mem_append_right _ hmem, hpiece⟩

end

/-- The intervals that the scrolled regions cover in a row. -/
def coveredIntervals (row : PaneSurfacePatchRow) (scrolls : List SurfaceScroll) :
    List (Nat × Nat) :=
  ((scrolls.map SurfaceScroll.rect).filter fun rect =>
    row.y ≥ rect.y && row.y.toNat - rect.y.toNat < rect.height.toNat).map fun rect =>
      (rect.x.toNat, rect.x.toNat + rect.width.toNat)

/-- The region has the row's line. -/
def Crosses (scroll : SurfaceScroll) (y : Nat) : Prop :=
  scroll.rect.y.toNat ≤ y ∧ y < scroll.rect.y.toNat + scroll.rect.height.toNat

theorem mem_coveredIntervals {interval : Nat × Nat} :
    interval ∈ coveredIntervals row scrolls ↔ ∃ scroll ∈ scrolls, Crosses scroll row.y.toNat
      ∧ interval = (scroll.rect.x.toNat, scroll.rect.x.toNat + scroll.rect.width.toNat) := by
  unfold coveredIntervals Crosses
  simp only [List.mem_map, List.mem_filter, Bool.and_eq_true, decide_eq_true_eq]
  constructor
  · rintro ⟨rect, ⟨⟨scroll, hmem, rfl⟩, hge, hlt⟩, rfl⟩
    have hge : scroll.rect.y.toNat ≤ row.y.toNat := hge
    exact ⟨scroll, hmem, ⟨hge, by omega⟩, rfl⟩
  · rintro ⟨scroll, hmem, ⟨hge, hlt⟩, rfl⟩
    exact ⟨scroll.rect, ⟨⟨scroll, hmem, rfl⟩, hge, by omega⟩, rfl⟩

/-- The intervals in order, with the mark at the end of the row behind them. -/
theorem sorted_intervals (intervals : List (Nat × Nat)) (rowEnd : Nat) :
    ((intervals.mergeSort fun a b => a.1 < b.1 || (a.1 = b.1 && a.2 ≤ b.2))
      ++ [(rowEnd, rowEnd)]).Pairwise fun a b => min a.1 rowEnd ≤ b.1 := by
  rw [List.pairwise_append]
  refine ⟨?_, List.pairwise_singleton _ _, ?_⟩
  · have hsorted := List.pairwise_mergeSort
      (fun (a b c : Nat × Nat) (hab : (decide (a.1 < b.1) || (decide (a.1 = b.1)
          && decide (a.2 ≤ b.2))) = true)
        (hbc : (decide (b.1 < c.1) || (decide (b.1 = c.1) && decide (b.2 ≤ c.2))) = true) =>
        show (decide (a.1 < c.1) || (decide (a.1 = c.1) && decide (a.2 ≤ c.2))) = true by
          simp only [Bool.or_eq_true, Bool.and_eq_true, decide_eq_true_eq] at *
          omega)
      (fun a b => by
        simp only [Bool.or_eq_true, Bool.and_eq_true, decide_eq_true_eq]
        omega)
      intervals
    apply hsorted.imp
    intro a b hab
    simp only [Bool.or_eq_true, Bool.and_eq_true, decide_eq_true_eq] at hab
    omega
  · intro a _ b hb
    rw [List.mem_singleton.mp hb]
    exact Nat.min_le_right _ _

/-- What `outside_scrolls` leaves of a row: pieces of it that keep clear of the regions, and
together all of the row outside them. -/
structure Outside (scrolls : List SurfaceScroll) (row : PaneSurfacePatchRow)
    (pieces : List PaneSurfacePatchRow) : Prop where
  piece : ∀ piece ∈ pieces, PieceOf row piece
  clear : ∀ piece ∈ pieces, ∀ x y, piece.span.Covers x y →
    ∀ scroll ∈ scrolls, ¬ scroll.rect.region.Contains x y
  complete : ∀ x y, row.span.Covers x y →
    (∀ scroll ∈ scrolls, ¬ scroll.rect.region.Contains x y) →
    ∃ piece ∈ pieces, piece.span.Covers x y
  apart : pieces.Pairwise fun a b => a.span.Disjoint b.span

theorem outsideScrolls_spec (scrolls : List SurfaceScroll)
    (hsize : row.x.toNat + row.cells.length < 2 ^ 16) :
    Outside scrolls row (outsideScrolls row scrolls) := by
  unfold outsideScrolls
  dsimp only
  change Outside scrolls row (if coveredIntervals row scrolls = [] then [row] else _)
  -- A region with the position crosses the row, and its interval reaches the column.
  have hreaches : ∀ scroll ∈ scrolls, ∀ {x : Nat}, scroll.rect.region.Contains x row.y.toNat →
      ∃ interval ∈ coveredIntervals row scrolls, Reaches interval x := by
    intro scroll hmem x hcontains
    obtain ⟨hlow, hhigh, hge, hlt⟩ := hcontains
    exact ⟨_, mem_coveredIntervals.mpr ⟨scroll, hmem, ⟨hge, hlt⟩, rfl⟩, hlow, hhigh⟩
  have hcontains : ∀ interval ∈ coveredIntervals row scrolls, ∀ {x : Nat}, Reaches interval x →
      ∃ scroll ∈ scrolls, scroll.rect.region.Contains x row.y.toNat := by
    intro interval hmem x hreach
    obtain ⟨scroll, hscroll, hcrosses, rfl⟩ := mem_coveredIntervals.mp hmem
    exact ⟨scroll, hscroll, hreach.1, hreach.2, hcrosses.1, hcrosses.2⟩
  by_cases hnone : coveredIntervals row scrolls = []
  · rw [if_pos hnone]
    refine ⟨?_, ?_, ?_, List.pairwise_singleton _ _⟩
    · intro piece hmem
      rw [List.mem_singleton.mp hmem]
      exact PieceOf.refl row
    · intro piece hmem x y hcovers scroll hscroll hinside
      rw [List.mem_singleton.mp hmem] at hcovers
      rw [← show row.y.toNat = y from hcovers.1] at hinside
      obtain ⟨interval, hinterval, -⟩ := hreaches scroll hscroll hinside
      rw [hnone] at hinterval
      cases hinterval
    · intro x y hcovers _
      exact ⟨row, List.mem_singleton.mpr rfl, hcovers⟩
  · rw [if_neg hnone]
    generalize hend : row.x.toNat + row.cells.length = rowEnd at *
    have hsorted := sorted_intervals (coveredIntervals row scrolls) rowEnd
    unfold coveredIntervals at hsorted hreaches hcontains
    generalize hlist : List.mergeSort _ _ ++ [(rowEnd, rowEnd)] = intervals at hsorted ⊢
    have hmem : ∀ interval, interval ∈ coveredIntervals row scrolls → interval ∈ intervals := by
      intro interval hinterval
      rw [← hlist]
      exact List.mem_append_left _ (List.mem_mergeSort.mpr hinterval)
    -- The mark reaches no column of the row.
    have hmark : ∀ interval ∈ intervals,
        interval ∈ coveredIntervals row scrolls ∨ interval = (rowEnd, rowEnd) := by
      intro interval hinterval
      rw [← hlist] at hinterval
      rcases List.mem_append.mp hinterval with hinterval | hinterval
      · exact .inl (List.mem_mergeSort.mp hinterval)
      · exact .inr (List.mem_singleton.mp hinterval)
    have hproper : ∀ interval ∈ intervals, interval.1 ≤ interval.2 := by
      intro interval hinterval
      rcases hmark interval hinterval with hcovered | rfl
      · obtain ⟨scroll, -, -, rfl⟩ := mem_coveredIntervals.mp hcovered
        exact Nat.le_add_right _ _
      · exact Nat.le_refl _
    have hlast : ∃ interval ∈ intervals, rowEnd ≤ interval.1 := by
      refine ⟨(rowEnd, rowEnd), ?_, Nat.le_refl _⟩
      rw [← hlist]
      exact List.mem_append_right _ (List.mem_singleton.mpr rfl)
    have hrow : row.x.toNat ≤ rowEnd := by omega
    refine ⟨?_, ?_, ?_, ?_⟩
    · intro piece hpiece
      exact (uncoveredSpans_piece hend.symm hsize hsorted (Nat.le_refl _) hrow hpiece).1
    · intro piece hpiece x y hcovers scroll hscroll hinside
      obtain ⟨hpieceOf, -, -, hclear⟩ :=
        uncoveredSpans_piece hend.symm hsize hsorted (Nat.le_refl _) hrow hpiece
      rw [← show row.y.toNat = y from (hpieceOf.covers hcovers).1] at hinside
      obtain ⟨interval, hinterval, hreach⟩ := hreaches scroll hscroll hinside
      exact hclear interval (hmem interval hinterval) x hcovers.2.1 hcovers.2.2 hreach
    · intro x y hcovers houtside
      obtain ⟨hy, hlow, hhigh⟩ := hcovers
      dsimp only [PaneSurfacePatchRow.span] at hy hlow hhigh
      obtain ⟨piece, hpiece, hy', hlow', hhigh'⟩ := exists_mem_uncoveredSpans hend.symm hsize
        hlast (Nat.le_refl _) hlow (show x < rowEnd by omega) (by
          intro interval hinterval hreach
          rcases hmark interval hinterval with hcovered | rfl
          · obtain ⟨scroll, hscroll, hinside⟩ := hcontains interval hcovered hreach
            rw [hy] at hinside
            exact houtside scroll hscroll hinside
          · have := hreach.1
            dsimp only at this
            omega)
      refine ⟨piece, hpiece, ?_, hlow', hhigh'⟩
      show piece.y.toNat = y
      rw [hy', hy]
    · apply (uncoveredSpans_pairwise hend.symm hsize hsorted hproper (Nat.le_refl _) hrow).imp
      intro a b hab x y ha hb
      have hlt : x < a.x.toNat + a.cells.length := ha.2.2
      have hge : b.x.toNat ≤ x := hb.2.1
      omega

/-! ### The grid that both sides reach -/

section

variable {frame : FrameData} {patch : PaneSurfacePatch} {parts : List Part}

/-- The cell that the rows of the patch leave at a position. -/
def target (frame : FrameData) (rows : List PaneSurfacePatchRow) (x y : Nat) : Option CellData :=
  overlay (rows.map PaneSurfacePatchRow.span) x y (cellAt frame.width.toNat frame.cells x y)

/-- A row says about every position it covers what the patch leaves there. -/
def Agrees (frame : FrameData) (rows : List PaneSurfacePatchRow) (row : PaneSurfacePatchRow) :
    Prop :=
  ∀ x y, row.span.Covers x y → row.span.at x y = target frame rows x y

variable {height width : UInt16} {row : PaneSurfacePatchRow} {cells : List CellData} {x y : Nat}
  {scroll : SurfaceScroll}

theorem rowFits_iff : rowFits row width height = true ↔ row.span.Fits width.toNat height.toNat := by
  unfold rowFits Span.Fits
  rw [Bool.and_eq_true, decide_eq_true_eq, decide_eq_true_eq]
  exact Iff.rfl

variable {rows : List PaneSurfacePatchRow}

/-- Writing rows that agree with the patch, into a grid that the patch leaves alone where no
row reaches, gives the grid of the patch. -/
theorem applyRows_eq_of_agrees (hlen : frame.cells.length = frame.width.toNat * frame.height.toNat)
    (hrows : ∀ row ∈ rows, row.span.Fits frame.width.toNat frame.height.toNat)
    (hcells : cells.length = frame.width.toNat * frame.height.toNat)
    {written : List PaneSurfacePatchRow}
    (hfits : ∀ row ∈ written, row.span.Fits frame.width.toNat frame.height.toNat)
    (hagrees : ∀ row ∈ written, Agrees frame rows row)
    (hclear : ∀ x y, x < frame.width.toNat → y < frame.height.toNat →
      (∀ row ∈ written, ¬ row.span.Covers x y) →
      cellAt frame.width.toNat cells x y = target frame rows x y) :
    applyRows cells frame.width written = applyRows frame.cells frame.width rows := by
  have hspans : ∀ {list : List PaneSurfacePatchRow},
      (∀ row ∈ list, row.span.Fits frame.width.toNat frame.height.toNat) →
      ∀ span ∈ list.map PaneSurfacePatchRow.span,
        span.Fits frame.width.toNat frame.height.toNat := by
    intro list hlist span hmem
    obtain ⟨row, hrow, rfl⟩ := List.mem_map.mp hmem
    exact hlist row hrow
  unfold applyRows
  rw [writeSpans?_eq hcells (hspans hfits), writeSpans?_eq hlen (hspans hrows)]
  apply congrArg some
  apply eq_of_cellAt (length_writeSpans hcells (hspans hfits))
    (length_writeSpans hlen (hspans hrows))
  intro x y hx hy
  rw [cellAt_writeSpans hcells (hspans hfits) hx, cellAt_writeSpans hlen (hspans hrows) hx]
  apply overlay_eq_target
  · intro span hmem hcovers
    obtain ⟨row, hrow, rfl⟩ := List.mem_map.mp hmem
    exact hagrees row hrow x y hcovers
  · intro hnone
    exact hclear x y hx hy fun row hrow => hnone _ (List.mem_map_of_mem hrow)

theorem cellAt_of_applyRows {written : List CellData}
    (hcells : cells.length = width.toNat * height.toNat)
    (hrows : ∀ row ∈ rows, row.span.Fits width.toNat height.toNat)
    (h : applyRows cells width rows = some written) :
    written.length = width.toNat * height.toNat ∧ ∀ x y, x < width.toNat →
      cellAt width.toNat written x y
        = overlay (rows.map PaneSurfacePatchRow.span) x y (cellAt width.toNat cells x y) := by
  have hspans : ∀ span ∈ rows.map PaneSurfacePatchRow.span,
      span.Fits width.toNat height.toNat := by
    intro span hmem
    obtain ⟨row, hrow, rfl⟩ := List.mem_map.mp hmem
    exact hrows row hrow
  unfold applyRows at h
  rw [writeSpans?_eq hcells hspans] at h
  obtain rfl := Option.some.inj h
  exact ⟨length_writeSpans hcells hspans, fun x y hx => cellAt_writeSpans hcells hspans hx⟩

/-- What a scrolled patch is built from: a patch of the frame in bounds with separate rows, and
sound parts in separate regions. -/
structure Parts (frame : FrameData) (patch : PaneSurfacePatch) (parts : List Part) : Prop where
  length : frame.cells.length = frame.width.toNat * frame.height.toNat
  fits : ∀ row ∈ patch.rows, row.span.Fits frame.width.toNat frame.height.toNat
  apart : patch.rows.Pairwise fun a b => a.span.Disjoint b.span
  regions : (parts.map Prod.fst).Pairwise fun a b => rectsOverlap a.rect b.rect = false
  sound : ∀ part ∈ parts, part.Sound frame patch.rows

theorem mem_scrolledPatch : row ∈ (scrolledPatch patch parts).rows
      ↔ (row ∈ patch.rows ∧ ∀ part ∈ parts, fullyInside row part.1.rect = false)
        ∨ ∃ part ∈ parts, row ∈ part.2 := by
  unfold scrolledPatch
  simp only [List.mem_append, List.mem_filter, List.mem_flatMap, Bool.not_eq_true',
    List.any_eq_false, List.mem_map, Bool.not_eq_true, forall_exists_index, and_imp,
    forall_apply_eq_imp_iff₂]

/-- A row inside a region covers positions of the region only. -/
theorem contains_of_fullyInside {rect : SurfaceRect} (h : fullyInside row rect = true)
    (hcovers : row.span.Covers x y) : rect.region.Contains x y := by
  simp only [fullyInside, Bool.and_eq_true, decide_eq_true_eq] at h
  obtain ⟨⟨⟨hge, hlt⟩, hleft⟩, hright⟩ := h
  have hge : rect.y.toNat ≤ row.y.toNat := hge
  have hleft : rect.x.toNat ≤ row.x.toNat := hleft
  obtain ⟨hy, hlow, hhigh⟩ := hcovers
  dsimp only [PaneSurfacePatchRow.span] at hy hlow hhigh
  unfold Region.Contains SurfaceRect.region
  dsimp only
  omega

/-- A residual row covers positions of its own region only. -/
theorem Parts.contains_of_residual (h : Parts frame patch parts) {part : Part}
    (hpart : part ∈ parts) (hrow : row ∈ part.2) (hcovers : row.span.Covers x y) :
    part.1.rect.region.Contains x y := by
  obtain ⟨-, order, -, -, hresidual⟩ := h.sound part hpart
  obtain ⟨htop, hbottom, hleft, hright⟩ := hresidual.inside row hrow
  obtain ⟨hy, hlow, hhigh⟩ := hcovers
  dsimp only [PaneSurfacePatchRow.span] at hy hlow hhigh
  unfold Region.Contains SurfaceRect.region
  dsimp only
  omega

theorem Parts.scrolledPatch_fits (h : Parts frame patch parts) :
    ∀ row ∈ (scrolledPatch patch parts).rows,
      row.span.Fits frame.width.toNat frame.height.toNat := by
  intro row hmem
  rcases mem_scrolledPatch.mp hmem with ⟨hrow, -⟩ | ⟨part, hpart, hrow⟩
  · exact h.fits row hrow
  · obtain ⟨hfits, order, -, -, hresidual⟩ := h.sound part hpart
    obtain ⟨htop, hbottom, hleft, hright⟩ := hresidual.inside row hrow
    have hcolumns := hfits.columns
    have hrows := hfits.rows
    show row.y.toNat < _ ∧ row.x.toNat + row.cells.length ≤ _
    omega

/-- The rows that go with the scrolls agree with the patch. -/
theorem Parts.scrolledPatch_agrees (h : Parts frame patch parts) :
    ∀ row ∈ (scrolledPatch patch parts).rows, Agrees frame patch.rows row := by
  intro row hmem x y hcovers
  rcases mem_scrolledPatch.mp hmem with ⟨hrow, -⟩ | ⟨part, hpart, hrow⟩
  · -- A row of the patch is the only one there.
    exact at_eq_overlay (List.pairwise_map.mpr h.apart) (List.mem_map_of_mem hrow) hcovers _
  · obtain ⟨hlow, hhigh, htop, hbottom⟩ := h.contains_of_residual hpart hrow hcovers
    obtain ⟨-, order, -, -, hresidual⟩ := h.sound part hpart
    dsimp only [SurfaceRect.region] at hlow hhigh htop hbottom
    obtain ⟨column, rfl⟩ := Nat.exists_eq_add_of_le hlow
    obtain ⟨line, rfl⟩ := Nat.exists_eq_add_of_le htop
    exact hresidual.covered column line row hrow (by omega) hcovers

/-- Outside the regions the rows that go with the scrolls cover what the patch covers. -/
theorem target_of_clear (houtside : ∀ part ∈ parts, ¬ part.1.rect.region.Contains x y)
    (hclear : ∀ row ∈ (scrolledPatch patch parts).rows, ¬ row.span.Covers x y) :
    cellAt frame.width.toNat frame.cells x y = target frame patch.rows x y := by
  symm
  apply overlay_of_not_covers
  intro span hmem hcovers
  obtain ⟨row, hrow, rfl⟩ := List.mem_map.mp hmem
  -- The row stayed in the patch, or lies inside a region.
  by_cases hkept : ∀ part ∈ parts, fullyInside row part.1.rect = false
  · exact hclear row (mem_scrolledPatch.mpr (.inl ⟨hrow, hkept⟩)) hcovers
  · simp only [not_forall, Bool.not_eq_false] at hkept
    obtain ⟨part, hpart, hinside⟩ := hkept
    exact houtside part hpart (contains_of_fullyInside hinside hcovers)

/-- Scrolling the regions and writing the remaining rows gives the grid of the patch. -/
theorem Parts.applyRows_scrolled (h : Parts frame patch parts)
    (hscrolled : Scrolled frame.width frame.height (parts.map Prod.fst) frame.cells cells) :
    applyRows cells frame.width (scrolledPatch patch parts).rows
      = applyRows frame.cells frame.width patch.rows := by
  apply applyRows_eq_of_agrees h.length h.fits hscrolled.length h.scrolledPatch_fits
    h.scrolledPatch_agrees
  intro x y hx hy hclear
  by_cases hinside : ∃ part ∈ parts, part.1.rect.region.Contains x y
  · -- No residual row reaches the position, so the scroll brought the right cell.
    obtain ⟨part, hpart, hlow, hhigh, htop, hbottom⟩ := hinside
    obtain ⟨hfits, order, horder, hlength, hresidual⟩ := h.sound part hpart
    obtain ⟨order', horder', -, -, hmoved⟩ :=
      hscrolled.inside part.1 (List.mem_map_of_mem hpart)
    rw [horder] at horder'
    obtain rfl := Option.some.inj horder'
    dsimp only [SurfaceRect.region] at hlow hhigh htop hbottom
    obtain ⟨column, rfl⟩ := Nat.exists_eq_add_of_le hlow
    obtain ⟨line, rfl⟩ := Nat.exists_eq_add_of_le htop
    have hline : line < order.length := by omega
    have hsource : order[line]? = some order[line] := List.getElem?_eq_getElem hline
    rw [hmoved _ _ _ (by omega) hhigh hsource]
    apply hresidual.uncovered column line _ (by omega) hsource
    intro row hrow
    exact hclear row (mem_scrolledPatch.mpr (.inr ⟨part, hpart, hrow⟩))
  · have houtside : ∀ part ∈ parts, ¬ part.1.rect.region.Contains x y :=
      fun part hpart hcontains => hinside ⟨part, hpart, hcontains⟩
    rw [hscrolled.outside x y hx (by
      intro scroll hmem
      obtain ⟨part, hpart, rfl⟩ := List.mem_map.mp hmem
      exact houtside part hpart)]
    exact target_of_clear houtside hclear

/-! ### The expanded patch -/

/-- The rows of the expanded patch. -/
def expandedRows (cells : List CellData) (width : UInt16) (scrolls : List SurfaceScroll)
    (rows : List PaneSurfacePatchRow) : List PaneSurfacePatchRow :=
  rows.flatMap (outsideScrolls · scrolls)
    ++ scrolls.flatMap fun scroll => scrolledRows cells width scroll.rect

/-- A row of a scrolled region lies in the region and shows the cells of the grid. -/
theorem mem_scrolledRows (hfits : Fits scroll width height)
    (hcells : cells.length = width.toNat * height.toNat)
    (h : row ∈ scrolledRows cells width scroll.rect) : row.span.Fits width.toNat height.toNat
      ∧ ∀ x y, row.span.Covers x y → scroll.rect.region.Contains x y
        ∧ row.span.at x y = cellAt width.toNat cells x y := by
  obtain ⟨line, hline, rfl⟩ := List.mem_map.mp h
  rw [List.mem_range'_1] at hline
  have hheight := height.toNat_lt
  have hcolumns := hfits.columns
  have hrows := hfits.rows
  have hy : (UInt16.ofNat line).toNat = line := by
    rw [UInt16.toNat_ofNat']
    omega
  have hindex := Nat.mul_le_mul_right width.toNat (show line + 1 ≤ height.toNat by omega)
  rw [Nat.succ_mul, Nat.mul_comm height.toNat, ← hcells] at hindex
  have hlen : ((cells.drop (line * width.toNat + scroll.rect.x.toNat)).take
      scroll.rect.width.toNat).length = scroll.rect.width.toNat := by
    rw [List.length_take, List.length_drop]
    omega
  constructor
  · dsimp only [Span.Fits, PaneSurfacePatchRow.span]
    rw [hy, hlen]
    omega
  · intro x y hcovers
    rw [Span.at_of_covers hcovers]
    obtain ⟨hline', hlow, hhigh⟩ := hcovers
    dsimp only [PaneSurfacePatchRow.span] at hline' hlow hhigh ⊢
    rw [hy] at hline'
    rw [hlen] at hhigh
    subst hline'
    constructor
    · unfold Region.Contains SurfaceRect.region
      dsimp only
      omega
    · rw [List.getElem?_take_of_lt (by omega), List.getElem?_drop, cellAt]
      congr 1
      omega

/-- Every position of a scrolled region is in one of its rows. -/
theorem exists_mem_scrolledRows (hfits : Fits scroll width height)
    (hcells : cells.length = width.toNat * height.toNat) (h : scroll.rect.region.Contains x y) :
    ∃ row ∈ scrolledRows cells width scroll.rect, row.span.Covers x y := by
  obtain ⟨hlow, hhigh, htop, hbottom⟩ := h
  dsimp only [SurfaceRect.region] at hlow hhigh htop hbottom
  have hheight := height.toNat_lt
  have hcolumns := hfits.columns
  have hrows := hfits.rows
  have hindex := Nat.mul_le_mul_right width.toNat (show y + 1 ≤ height.toNat by omega)
  rw [Nat.succ_mul, Nat.mul_comm height.toNat, ← hcells] at hindex
  refine ⟨_, List.mem_map_of_mem (List.mem_range'_1.mpr ⟨htop, hbottom⟩), ?_, hlow, ?_⟩
  · show (UInt16.ofNat y).toNat = y
    rw [UInt16.toNat_ofNat']
    omega
  · dsimp only [PaneSurfacePatchRow.span]
    rw [List.length_take, List.length_drop]
    omega

/-- The rows of one region follow each other. -/
theorem scrolledRows_pairwise (hfits : Fits scroll width height) :
    (scrolledRows cells width scroll.rect).Pairwise fun a b => a.span.Disjoint b.span := by
  have hheight := height.toNat_lt
  have hrows := hfits.rows
  apply List.pairwise_map.mpr
  apply List.Pairwise.imp_of_mem _ List.nodup_range'
  intro line line' hmem hmem' hne x y hcovers hcovers'
  rw [List.mem_range'_1] at hmem hmem'
  have hline : (UInt16.ofNat line).toNat = y := hcovers.1
  have hline' : (UInt16.ofNat line').toNat = y := hcovers'.1
  rw [UInt16.toNat_ofNat'] at hline hline'
  omega

theorem PieceOf.fits {piece : PaneSurfacePatchRow} (h : PieceOf row piece) {width height : Nat}
    (hfits : row.span.Fits width height) : piece.span.Fits width height := by
  obtain ⟨hy, hx⟩ := hfits
  dsimp only [PaneSurfacePatchRow.span] at hy hx
  have hend := h.end_le
  show piece.y.toNat < height ∧ piece.x.toNat + piece.cells.length ≤ width
  rw [h.y_eq]
  omega

theorem Parts.scrolls_fit (h : Parts frame patch parts) :
    ∀ scroll ∈ parts.map Prod.fst, Fits scroll frame.width frame.height := by
  intro scroll hmem
  obtain ⟨part, hpart, rfl⟩ := List.mem_map.mp hmem
  exact (h.sound part hpart).1

/-- The pieces of a row of the scrolled patch. -/
theorem Parts.outside (h : Parts frame patch parts)
    (hrow : row ∈ (scrolledPatch patch parts).rows) :
    Outside (parts.map Prod.fst) row (outsideScrolls row (parts.map Prod.fst)) := by
  have hwidth := frame.width.toNat_lt
  have hfits : row.x.toNat + row.cells.length ≤ frame.width.toNat :=
    (h.scrolledPatch_fits row hrow).2
  exact outsideScrolls_spec _ (by omega)

/-- The expanded patch written into the frame gives the grid of the patch, when its scrolled
rows show that grid. -/
theorem Parts.applyRows_expanded (h : Parts frame patch parts)
    (hcells : applyRows frame.cells frame.width patch.rows = some cells) :
    applyRows frame.cells frame.width
      (expandedRows cells frame.width (parts.map Prod.fst) (scrolledPatch patch parts).rows)
      = applyRows frame.cells frame.width patch.rows := by
  obtain ⟨hlength, hcell⟩ := cellAt_of_applyRows h.length h.fits hcells
  apply applyRows_eq_of_agrees h.length h.fits h.length
  · intro row hmem
    rcases List.mem_append.mp hmem with hmem | hmem
    · obtain ⟨source, hsource, hpiece⟩ := List.mem_flatMap.mp hmem
      exact ((h.outside hsource).piece row hpiece).fits (h.scrolledPatch_fits source hsource)
    · obtain ⟨scroll, hscroll, hrow⟩ := List.mem_flatMap.mp hmem
      exact (mem_scrolledRows (h.scrolls_fit scroll hscroll) hlength hrow).1
  · intro row hmem x y hcovers
    rcases List.mem_append.mp hmem with hmem | hmem
    · obtain ⟨source, hsource, hpiece⟩ := List.mem_flatMap.mp hmem
      have hpiece := (h.outside hsource).piece row hpiece
      rw [hpiece.at_eq hcovers]
      exact h.scrolledPatch_agrees source hsource x y (hpiece.covers hcovers)
    · obtain ⟨scroll, hscroll, hrow⟩ := List.mem_flatMap.mp hmem
      obtain ⟨hfits, hshows⟩ := mem_scrolledRows (h.scrolls_fit scroll hscroll) hlength hrow
      have hx : x < frame.width.toNat := Nat.lt_of_lt_of_le hcovers.2.2 hfits.2
      rw [(hshows x y hcovers).2, hcell x y hx]
      rfl
  · intro x y _ _ hclear
    -- No expanded row reaches the position, so no region has it and no patch row did.
    have houtside : ∀ scroll ∈ parts.map Prod.fst, ¬ scroll.rect.region.Contains x y := by
      intro scroll hscroll hcontains
      obtain ⟨row, hrow, hcovers⟩ :=
        exists_mem_scrolledRows (h.scrolls_fit scroll hscroll) hlength hcontains
      exact hclear row (List.mem_append_right _ (List.mem_flatMap.mpr ⟨scroll, hscroll, hrow⟩))
        hcovers
    apply target_of_clear fun part hpart => houtside part.1 (List.mem_map_of_mem hpart)
    intro row hrow hcovers
    obtain ⟨piece, hpiece, hpieceCovers⟩ := (h.outside hrow).complete x y hcovers houtside
    exact hclear piece (List.mem_append_left _ (List.mem_flatMap.mpr ⟨row, hrow, hpiece⟩))
      hpieceCovers

/-- The rows of the expanded patch share no position. -/
theorem Parts.expandedRows_pairwise (h : Parts frame patch parts)
    (hlength : cells.length = frame.width.toNat * frame.height.toNat) :
    (expandedRows cells frame.width (parts.map Prod.fst) (scrolledPatch patch parts).rows).Pairwise
      fun a b => a.span.Disjoint b.span := by
  -- What is left of a residual row covers nothing.
  have hresidual : ∀ part ∈ parts, ∀ row ∈ part.2,
      ∀ piece ∈ outsideScrolls row (parts.map Prod.fst), ∀ x y, ¬ piece.span.Covers x y := by
    intro part hpart row hrow piece hpiece x y hcovers
    have houtside := h.outside (mem_scrolledPatch.mpr (.inr ⟨part, hpart, hrow⟩))
    exact houtside.clear piece hpiece x y hcovers part.1 (List.mem_map_of_mem hpart)
      (h.contains_of_residual hpart hrow ((houtside.piece piece hpiece).covers hcovers))
  apply List.pairwise_append.mpr
  refine ⟨List.pairwise_flatMap.mpr ⟨fun row hrow => (h.outside hrow).apart, ?_⟩,
    List.pairwise_flatMap.mpr ⟨fun scroll hscroll =>
      scrolledRows_pairwise (h.scrolls_fit scroll hscroll), ?_⟩, ?_⟩
  · apply List.pairwise_append.mpr
    refine ⟨?_, List.pairwise_flatMap.mpr ⟨?_, ?_⟩, ?_⟩
    · -- Pieces of two rows of the patch.
      apply (h.apart.sublist List.filter_sublist).imp_of_mem
      intro row other hrow hother hdisjoint piece hpiece otherPiece hotherPiece x y hcovers
      have hsource := h.outside (List.mem_append_left _ hrow)
      have hother := h.outside (List.mem_append_left _ hother)
      intro hcovers'
      exact hdisjoint x y ((hsource.piece piece hpiece).covers hcovers)
        ((hother.piece otherPiece hotherPiece).covers hcovers')
    · intro part hpart
      apply List.pairwise_of_forall_mem_list
      intro row hrow other _ piece hpiece otherPiece _ x y hcovers
      exact absurd hcovers (hresidual part hpart row hrow piece hpiece x y)
    · apply List.pairwise_of_forall_mem_list
      intro part hpart otherPart _ row hrow other _ piece hpiece otherPiece _ x y hcovers
      exact absurd hcovers (hresidual part hpart row hrow piece hpiece x y)
    · intro row _ other hother piece _ otherPiece hotherPiece x y _
      obtain ⟨part, hpart, hother⟩ := List.mem_flatMap.mp hother
      exact hresidual part hpart other hother otherPiece hotherPiece x y
  · -- Rows of two regions.
    apply h.regions.imp_of_mem
    intro scroll other hscroll hother hapart row hrow otherRow hotherRow x y hcovers hcovers'
    have hcontains := ((mem_scrolledRows (h.scrolls_fit scroll hscroll) hlength hrow).2
      x y hcovers).1
    have hcontains' := ((mem_scrolledRows (h.scrolls_fit other hother) hlength hotherRow).2
      x y hcovers').1
    exact not_contains_of_not_overlap hapart hcontains hcontains'
  · intro piece hpiece row hrow x y hcovers hcovers'
    obtain ⟨source, hsource, hpiece⟩ := List.mem_flatMap.mp hpiece
    obtain ⟨scroll, hscroll, hrow⟩ := List.mem_flatMap.mp hrow
    have hcontains := ((mem_scrolledRows (h.scrolls_fit scroll hscroll) hlength hrow).2
      x y hcovers').1
    exact (h.outside hsource).clear piece hpiece x y hcovers scroll hscroll hcontains

/-- Applying the scrolled patch to the frame. -/
theorem Parts.apply_scrolledPatch (h : Parts frame patch parts) :
    ∃ cells, applyRows frame.cells frame.width patch.rows = some cells
      ∧ apply frame.cells frame.width frame.height ⟨parts.map Prod.fst, scrolledPatch patch parts⟩
        = some (.ok (cells, { patch with
            rows := expandedRows cells frame.width (parts.map Prod.fst)
              (scrolledPatch patch parts).rows })) := by
  obtain ⟨scrolled, hscrolls, hscrolled⟩ :=
    applyScrolls_spec h.scrolls_fit h.regions h.length
  have hspans : ∀ span ∈ patch.rows.map PaneSurfacePatchRow.span,
      span.Fits frame.width.toNat frame.height.toNat := by
    intro span hmem
    obtain ⟨row, hrow, rfl⟩ := List.mem_map.mp hmem
    exact h.fits row hrow
  have hwritten : applyRows frame.cells frame.width patch.rows = some _ :=
    writeSpans?_eq h.length hspans
  refine ⟨_, hwritten, ?_⟩
  -- The receiver's checks pass.
  have hfits : (parts.map Prod.fst).all
      (fun scroll => scrollFits scroll frame.width frame.height) = true :=
    List.all_eq_true.mpr fun scroll hmem => scrollFits_iff.mpr (h.scrolls_fit scroll hmem)
  have hdisjoint : scrollsDisjoint (parts.map Prod.fst) = true := scrollsDisjoint_iff.mpr h.regions
  have hrows : (scrolledPatch patch parts).rows.all
      (fun row => rowFits row frame.width frame.height) = true :=
    List.all_eq_true.mpr fun row hmem => rowFits_iff.mpr (h.scrolledPatch_fits row hmem)
  have hchecks :
      (!(parts.map Prod.fst).all (fun scroll => scrollFits scroll frame.width frame.height)
      || !scrollsDisjoint (parts.map Prod.fst)
      || !(scrolledPatch patch parts).rows.all
        (fun row => rowFits row frame.width frame.height)) = false := by
    rw [hfits, hdisjoint, hrows]
    rfl
  unfold apply
  dsimp only
  rw [if_neg (not_not.mpr h.length), hchecks, if_neg Bool.false_ne_true, hscrolls,
    Option.bind_eq_bind, Option.bind_some, h.applyRows_scrolled hscrolled, hwritten]
  rfl

end

/-! ### The codec -/

/-- A scroll message decodes, applying it to the committed frame gives the grid that the rows of
the patch give, and the expanded patch gives it too, with rows that share no position. -/
theorem scroll_round_trip {last : PaneSurfaceFrame} {patch : PaneSurfacePatch}
    {sent : ServerMessage}
    (hfits : ∀ row ∈ patch.rows, rowFits row last.frame.width last.frame.height = true)
    (hrows : patch.rows.Pairwise fun a b => a.span.Disjoint b.span)
    (hpanes : patch.panes.Pairwise fun a b => rectsOverlap a.innerRect b.innerRect = false)
    (hsent : message last patch = some sent) :
    ∃ data scrollPatch cells expanded,
      sent = .endpointControl messageKind data
        ∧ decode data = .ok scrollPatch
        ∧ apply last.frame.cells last.frame.width last.frame.height scrollPatch
          = some (.ok (cells, expanded))
        ∧ applyRows last.frame.cells last.frame.width patch.rows = some cells
        ∧ applyRows last.frame.cells last.frame.width expanded.rows = some cells
        ∧ expanded.rows.Pairwise fun a b => a.span.Disjoint b.span := by
  obtain ⟨hlength, data, parts, rfl, hfound, hdecode⟩ := decode_message hsent
  have hregions : (parts.map Prod.fst).Pairwise fun a b => rectsOverlap a.rect b.rect = false := by
    have hrects : (patch.panes.map PaneSurfacePane.innerRect).Pairwise
        fun a b => rectsOverlap a b = false := List.pairwise_map.mpr hpanes
    exact List.pairwise_map.mpr (List.pairwise_map.mp (hrects.sublist hfound.rects))
  have hparts : Parts last.frame patch parts :=
    ⟨hlength, fun row hmem => rowFits_iff.mp (hfits row hmem), hrows, hregions, hfound.sound⟩
  obtain ⟨cells, hcells, happly⟩ := hparts.apply_scrolledPatch
  have hcellsLength := (cellAt_of_applyRows hlength hparts.fits hcells).1
  refine ⟨data, _, cells, _, rfl, hdecode, happly, hcells, ?_, ?_⟩
  · exact (hparts.applyRows_expanded hcells).trans hcells
  · exact hparts.expandedRows_pairwise hcellsLength

/-- A pane of one column and four lines. -/
def column : PaneSurfacePane :=
  ⟨"pane", 1, ⟨0, 0, 1, 4⟩, ⟨0, 0, 1, 4⟩, none, none, true, false, false, false, 0, 0⟩

/-- The column shows four letters. -/
def fourLines : PaneSurfaceFrame where
  bootId := "boot"
  projectionRevision := 1
  surfaceRevision := 1
  frame := ⟨["a", "b", "c", "d"].map fun symbol => ⟨symbol, 0, 0, 0, false, none⟩,
    1, 4, none, [], []⟩
  panes := [column]
  splits := []
  popup := none
  graphics := ⟨[], [], []⟩

/-- One line more at the bottom: every line of the column changes. -/
def nextLine : PaneSurfacePatch where
  bootId := "boot"
  projectionRevision := 1
  baseSurfaceRevision := 1
  surfaceRevision := 2
  rows := ["b", "c", "d", "e"].zipIdx.map fun (symbol, y) =>
    ⟨0, UInt16.ofNat y, [⟨symbol, 0, 0, 0, false, none⟩]⟩
  panes := [column]
  cursor := none

theorem scroll_round_trip_nextLine : (message fourLines nextLine).isSome = true
    ∧ ∃ data scrollPatch cells expanded,
      message fourLines nextLine = some (.endpointControl messageKind data)
        ∧ decode data = .ok scrollPatch
        ∧ apply fourLines.frame.cells 1 4 scrollPatch = some (.ok (cells, expanded))
        ∧ applyRows fourLines.frame.cells 1 nextLine.rows = some cells
        ∧ applyRows fourLines.frame.cells 1 expanded.rows = some cells
        ∧ expanded.rows.Pairwise fun a b => a.span.Disjoint b.span := by
  have hsome : (message fourLines nextLine).isSome = true := by decide +kernel
  obtain ⟨sent, hsent⟩ := Option.isSome_iff_exists.mp hsome
  have hrows : nextLine.rows.Pairwise fun a b => a.span.Disjoint b.span := by
    -- The rows are on different lines.
    have hlines : nextLine.rows.Pairwise fun a b => a.y.toNat ≠ b.y.toNat := by decide
    exact hlines.imp fun hne x y ha hb => hne (ha.1.trans hb.1.symm)
  obtain ⟨data, scrollPatch, cells, expanded, rfl, h⟩ :=
    scroll_round_trip (by decide) hrows (by decide) hsent
  exact ⟨hsome, data, scrollPatch, cells, expanded, hsent, h⟩

end Herden.Proofs.Surface.Scroll
