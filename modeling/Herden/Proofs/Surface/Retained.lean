import Herden.Runtime.Surface.Retained
import Mathlib.Data.List.Nodup

/-!
# `Herden.Proofs.Surface.Retained`: what the patch of dirty rows writes

For one dirty row, the patch holds the changed runs of its part of the pane with one more cell
each (`Lib.widenedRuns`): they stay in the pane, are apart from each other, hold the new cells and
reach every cell that differs (`RowPatch`). Dirty rows are different rows, so the patches of
several of them do not meet, and writing all of them gives the new rows and nothing else
(`changedRows_confined`).
-/

namespace Herden.Proofs.Surface.Retained

open Herden.Lib
open Herden.Lib.Machine
open Herden.Runtime.Wire
open Herden.Runtime.Surface.Retained

/-- The pane lies inside the frame. -/
structure AreaInside (frame : FrameData) (area : SurfaceRect) : Prop where
  columns : area.x.toNat + area.width.toNat ≤ frame.width.toNat
  rows : area.y.toNat + area.height.toNat ≤ frame.height.toNat

theorem rectFitsFrame_of_inside {frame : FrameData} {area : SurfaceRect}
    (h : AreaInside frame area) : rectFitsFrame area frame = true := by
  unfold rectFitsFrame saturatingAdd
  have hcolumns := h.columns
  have hrows := h.rows
  rw [Bool.and_eq_true, decide_eq_true_eq, decide_eq_true_eq]
  omega

section

variable {frame : FrameData} {area : SurfaceRect}

/-- The cells of the frame that the pane has in one of its rows. -/
def paneRow (frame : FrameData) (area : SurfaceRect) (y : Nat) : List CellData :=
  (frame.cells.drop ((area.y.toNat + y) * frame.width.toNat + area.x.toNat)).take area.width.toNat

theorem getElem?_paneRow {x : Nat} (hx : x < area.width.toNat) (y : Nat) :
    (paneRow frame area y)[x]?
      = cellAt frame.width.toNat frame.cells (area.x.toNat + x) (area.y.toNat + y) := by
  unfold paneRow cellAt
  rw [List.getElem?_take, if_pos hx, List.getElem?_drop]
  congr 1
  omega

/-- Whether a dirty row is of the pane, with cells for all of its columns, in the frame too. -/
def RowComplete (frame : FrameData) (area : SurfaceRect) (row : UInt16 × List CellData) : Prop :=
  row.1.toNat < area.height.toNat → area.width.toNat ≤ row.2.length
    ∧ (area.y.toNat + row.1.toNat) * frame.width.toNat + area.x.toNat + area.width.toNat
      ≤ frame.cells.length

/-- The changed runs of a dirty row. -/
def rowRuns (frame : FrameData) (area : SurfaceRect) (row : UInt16 × List CellData) :
    List (Nat × List CellData) :=
  widenedRuns (paneRow frame area row.1.toNat) (row.2.take area.width.toNat)

/-- The rows of the patch for a dirty row. -/
def rowPatch (frame : FrameData) (area : SurfaceRect) (row : UInt16 × List CellData) :
    List PaneSurfacePatchRow :=
  (rowRuns frame area row).map fun run =>
    { x := UInt16.ofNat (area.x.toNat + run.1), y := area.y + row.1, cells := run.2 }

variable {row : UInt16 × List CellData}

theorem changedRow_outside (h : area.height.toNat ≤ row.1.toNat) :
    changedRow frame area row = some [] := if_pos h

theorem toNat_add_row (harea : AreaInside frame area) {row : UInt16}
    (hrow : row.toNat < area.height.toNat) :
    (area.y + row).toNat = area.y.toNat + row.toNat := by
  have hrows := harea.rows
  have hheight := frame.height.toNat_lt
  rw [UInt16.toNat_add, Nat.mod_eq_of_lt (by omega)]

variable {rows : List PaneSurfacePatchRow}

theorem changedRow_eq_some (harea : AreaInside frame area)
    (hrow : row.1.toNat < area.height.toNat) : changedRow frame area row = some rows
      ↔ RowComplete frame area row ∧ rows = rowPatch frame area row := by
  have hcolumns := harea.columns
  have hrows := harea.rows
  have hwidth := frame.width.toNat_lt
  have hheight := frame.height.toNat_lt
  have hindex : (area.y.toNat + row.1.toNat) * frame.width.toNat < 2 ^ 16 * 2 ^ 16 :=
    Nat.mul_lt_mul'' (by omega) hwidth
  have hnot : ¬ row.1 ≥ area.height := fun hge => Nat.not_le_of_lt hrow hge
  unfold changedRow
  dsimp only
  rw [if_neg hnot, toNat_add_row harea hrow]
  by_cases hshort : row.2.length < area.width.toNat
  · rw [if_pos hshort]
    constructor
    · intro h
      cases h
    · rintro ⟨hcomplete, -⟩
      have hlong := (hcomplete hrow).1
      omega
  rw [if_neg hshort, add?_eq (by omega)]
  by_cases hend : (area.y.toNat + row.1.toNat) * frame.width.toNat + area.x.toNat
      + area.width.toNat ≤ frame.cells.length
  · rw [Option.bind_eq_bind, Option.bind_some, slice?_eq (Nat.le_add_right _ _) hend,
      Nat.add_sub_cancel_left]
    have hruns : (rowRuns frame area row).mapM (fun run => do
        let x ← add? 16 area.x.toNat run.1
        return ({ x := UInt16.ofNat x, y := area.y + row.1, cells := run.2 } : PaneSurfacePatchRow))
        = some (rowPatch frame area row) := by
      refine mapM_eq_some fun run hrun => ?_
      have hinside := (widenedRuns_inside hrun).1
      rw [List.length_take] at hinside
      rw [add?_eq (by omega)]
      rfl
    have hcomplete : RowComplete frame area row := fun _ => ⟨by omega, hend⟩
    show (rowRuns frame area row).mapM _ = some rows ↔ _
    rw [hruns, Option.some.injEq]
    exact ⟨fun heq => ⟨hcomplete, heq.symm⟩, fun h => h.2.symm⟩
  · have hslice : slice? frame.cells
      ((area.y.toNat + row.1.toNat) * frame.width.toNat + area.x.toNat)
        ((area.y.toNat + row.1.toNat) * frame.width.toNat + area.x.toNat + area.width.toNat)
        = none := if_neg fun h => hend h.2
    rw [Option.bind_eq_bind, Option.bind_some, hslice]
    constructor
    · intro h
      cases h
    · rintro ⟨hcomplete, -⟩
      exact absurd (hcomplete hrow).2 hend

/-- The patch of a dirty row: inside the pane's row, runs apart from each other that hold the new
cells and reach every cell that differs. -/
structure RowPatch (frame : FrameData) (area : SurfaceRect) (row : UInt16 × List CellData)
    (rows : List PaneSurfacePatchRow) : Prop where
  inside : ∀ span ∈ rows, span.y.toNat = area.y.toNat + row.1.toNat
    ∧ area.x.toNat ≤ span.x.toNat
    ∧ span.x.toNat + span.cells.length ≤ area.x.toNat + area.width.toNat ∧ span.cells ≠ []
  disjoint : rows.Pairwise fun a b => a.span.Disjoint b.span
  agrees : ∀ span ∈ rows, ∀ x, span.span.Covers (area.x.toNat + x) (area.y.toNat + row.1.toNat) →
    span.span.at (area.x.toNat + x) (area.y.toNat + row.1.toNat) = row.2[x]?
  reaches : ∀ x, x < area.width.toNat →
    cellAt frame.width.toNat frame.cells (area.x.toNat + x) (area.y.toNat + row.1.toNat)
      ≠ row.2[x]? →
    ∃ span ∈ rows, span.span.Covers (area.x.toNat + x) (area.y.toNat + row.1.toNat)

/-- A row of the patch as a span. -/
theorem span_of_run (harea : AreaInside frame area) (hrow : row.1.toNat < area.height.toNat)
    {run : Nat × List CellData} (hrun : run ∈ rowRuns frame area row) :
    run.1 + run.2.length ≤ area.width.toNat ∧ run.2 ≠ []
      ∧ ({ x := UInt16.ofNat (area.x.toNat + run.1), y := area.y + row.1, cells := run.2 } :
        PaneSurfacePatchRow).span = ⟨area.x.toNat + run.1, area.y.toNat + row.1.toNat, run.2⟩ := by
  obtain ⟨hinside, hne⟩ := widenedRuns_inside hrun
  rw [List.length_take] at hinside
  have hpos := List.length_pos_iff.mpr hne
  have hcolumns := harea.columns
  have hwidth := frame.width.toNat_lt
  refine ⟨by omega, hne, ?_⟩
  unfold PaneSurfacePatchRow.span
  dsimp only
  rw [toNat_add_row harea hrow, UInt16.toNat_ofNat', Nat.mod_eq_of_lt (by omega)]

theorem rowPatch_spec (harea : AreaInside frame area) (hrow : row.1.toNat < area.height.toNat)
    (hcomplete : RowComplete frame area row) :
    RowPatch frame area row (rowPatch frame area row) := by
  obtain ⟨hlong, hend⟩ := hcomplete hrow
  have hlen : (paneRow frame area row.1.toNat).length = (row.2.take area.width.toNat).length := by
    unfold paneRow
    rw [List.length_take, List.length_take, List.length_drop]
    omega
  have hdesired : ∀ x, x < area.width.toNat → (row.2.take area.width.toNat)[x]? = row.2[x]? :=
    fun x hx => by rw [List.getElem?_take, if_pos hx]
  constructor
  · intro span hmem
    obtain ⟨run, hrun, rfl⟩ := List.mem_map.mp hmem
    obtain ⟨hinside, hne, hspan⟩ := span_of_run harea hrow hrun
    have hx := congrArg Span.x hspan
    have hy := congrArg Span.y hspan
    dsimp only [PaneSurfacePatchRow.span] at hx hy ⊢
    exact ⟨hy, by omega, by omega, hne⟩
  · refine List.pairwise_map.mpr ((widenedRuns_pairwise _ _).imp_of_mem fun {a b} ha hb hab => ?_)
    rw [(span_of_run harea hrow ha).2.2, (span_of_run harea hrow hb).2.2]
    rintro x y ⟨-, hlow, hhigh⟩ ⟨-, hlow', hhigh'⟩
    dsimp only at hlow hhigh hlow' hhigh'
    omega
  · intro span hmem x hcovers
    obtain ⟨run, hrun, rfl⟩ := List.mem_map.mp hmem
    obtain ⟨hinside, -, hspan⟩ := span_of_run harea hrow hrun
    rw [hspan] at hcovers ⊢
    rw [Span.at_of_covers hcovers]
    obtain ⟨-, hlow, hhigh⟩ := hcovers
    dsimp only at hlow hhigh ⊢
    rw [widenedRuns_getElem? hrun (by omega), hdesired _ (by omega)]
    congr 1
    omega
  · intro x hx hdiffer
    rw [← getElem?_paneRow hx, ← hdesired x hx] at hdiffer
    obtain ⟨run, hrun, hlow, hhigh⟩ := exists_mem_widenedRuns hlen hdiffer
    refine ⟨_, List.mem_map_of_mem hrun, ?_⟩
    rw [(span_of_run harea hrow hrun).2.2]
    exact ⟨rfl, Nat.add_le_add_left hlow _, by dsimp only; omega⟩

/-! ### All dirty rows -/

variable {patch : TerminalDirtyPatch}

/-- The part of a dirty row in the whole patch: nothing when the row is below the pane. -/
def patchOf (frame : FrameData) (area : SurfaceRect) (row : UInt16 × List CellData) :
    List PaneSurfacePatchRow :=
  if row.1.toNat < area.height.toNat then rowPatch frame area row else []

theorem changedRows_eq_some (harea : AreaInside frame area) :
    changedRows frame area patch = some rows
      ↔ (∀ row ∈ patch.rows, RowComplete frame area row)
        ∧ rows = patch.rows.flatMap (patchOf frame area) := by
  have hrow : ∀ row result, changedRow frame area row = some result
      ↔ RowComplete frame area row ∧ result = patchOf frame area row := by
    intro row result
    unfold patchOf
    by_cases hinside : row.1.toNat < area.height.toNat
    · rw [if_pos hinside]
      exact changedRow_eq_some harea hinside
    · rw [if_neg hinside, changedRow_outside (by omega), Option.some.injEq]
      exact ⟨fun heq => ⟨fun hlt => absurd hlt hinside, heq.symm⟩, fun h => h.2.symm⟩
  unfold changedRows
  rw [rectFitsFrame_of_inside harea]
  show Option.map _ _ = _ ↔ _
  rw [Option.map_eq_some_iff]
  constructor
  · rintro ⟨results, hresults, rfl⟩
    obtain ⟨hcomplete, rfl⟩ := (mapM_eq_some_iff hrow).mp hresults
    exact ⟨hcomplete, (List.flatMap_def ..).symm⟩
  · rintro ⟨hcomplete, rfl⟩
    exact ⟨_, (mapM_eq_some_iff hrow).mpr ⟨hcomplete, rfl⟩, (List.flatMap_def ..).symm⟩

theorem mem_flatMap_patchOf {span : PaneSurfacePatchRow} :
    span ∈ patch.rows.flatMap (patchOf frame area) ↔ ∃ row ∈ patch.rows,
      row.1.toNat < area.height.toNat ∧ span ∈ rowPatch frame area row := by
  simp only [List.mem_flatMap, patchOf]
  constructor
  · rintro ⟨row, hrow, hspan⟩
    split at hspan
    next hinside => exact ⟨row, hrow, hinside, hspan⟩
    next => cases hspan
  · rintro ⟨row, hrow, hinside, hspan⟩
    exact ⟨row, hrow, by rwa [if_pos hinside]⟩

/-- The position is in the pane, in one of its dirty rows. -/
def Dirty (area : SurfaceRect) (patch : TerminalDirtyPatch) (x y : Nat) : Prop :=
  area.x.toNat ≤ x ∧ x < area.x.toNat + area.width.toNat
    ∧ ∃ row ∈ patch.rows, row.1.toNat < area.height.toNat ∧ y = area.y.toNat + row.1.toNat

/-- The rows that the server sends for the dirty rows of a pane inside its frame. There are some
exactly when every dirty row of the pane has as many cells as the pane and lies in the frame.
They lie in the frame and in the dirty rows of the pane, and share no position. Written over the
frame they give the dirty rows their new cells, and every other cell is as it was. -/
theorem changedRows_confined (harea : AreaInside frame area)
    (hdistinct : (patch.rows.map Prod.fst).Nodup) :
    ((changedRows frame area patch).isSome = true
        ↔ ∀ row ∈ patch.rows, RowComplete frame area row)
      ∧ ∀ rows, changedRows frame area patch = some rows →
        (∀ span ∈ rows, span.span.Fits frame.width.toNat frame.height.toNat
          ∧ span.span.Inside frame.width.toNat frame.cells.length
          ∧ ∀ x y, span.span.Covers x y → Dirty area patch x y)
        ∧ rows.Pairwise (fun a b => a.span.Disjoint b.span)
        ∧ ∃ after, applyRows frame.cells frame.width rows = some after
          ∧ after.length = frame.cells.length
          ∧ (∀ row ∈ patch.rows, row.1.toNat < area.height.toNat → ∀ x, x < area.width.toNat →
            ∃ cell, row.2[x]? = some cell
              ∧ cellAt frame.width.toNat after (area.x.toNat + x) (area.y.toNat + row.1.toNat)
                = some cell)
          ∧ ∀ x y, x < frame.width.toNat → ¬ Dirty area patch x y →
            cellAt frame.width.toNat after x y = cellAt frame.width.toNat frame.cells x y := by
  constructor
  · rw [Option.isSome_iff_exists]
    constructor
    · rintro ⟨rows, hrows⟩
      exact ((changedRows_eq_some harea).mp hrows).1
    · exact fun hcomplete => ⟨_, (changedRows_eq_some harea).mpr ⟨hcomplete, rfl⟩⟩
  intro rows hrows
  obtain ⟨hcomplete, rfl⟩ := (changedRows_eq_some harea).mp hrows
  have hspec : ∀ row ∈ patch.rows, row.1.toNat < area.height.toNat →
      RowPatch frame area row (rowPatch frame area row) :=
    fun row hmem hinside => rowPatch_spec harea hinside (hcomplete row hmem)
  have hspans : ∀ span ∈ patch.rows.flatMap (patchOf frame area),
      span.span.Fits frame.width.toNat frame.height.toNat
        ∧ span.span.Inside frame.width.toNat frame.cells.length
        ∧ ∀ x y, span.span.Covers x y → Dirty area patch x y := by
    intro span hmem
    obtain ⟨row, hrow, hinside, hspan⟩ := mem_flatMap_patchOf.mp hmem
    obtain ⟨hy, hlow, hhigh, -⟩ := (hspec row hrow hinside).inside span hspan
    have hend := (hcomplete row hrow hinside).2
    have hcolumns := harea.columns
    have hrows := harea.rows
    refine ⟨⟨by dsimp only [PaneSurfacePatchRow.span]; omega,
      by dsimp only [PaneSurfacePatchRow.span]; omega⟩,
      ⟨by dsimp only [PaneSurfacePatchRow.span]; omega, ?_⟩, ?_⟩
    · dsimp only [PaneSurfacePatchRow.span, Span.start]
      rw [hy]
      omega
    · rintro x y ⟨hcovers, hcoversLow, hcoversHigh⟩
      dsimp only [PaneSurfacePatchRow.span] at hcovers hcoversLow hcoversHigh
      exact ⟨by omega, by omega, row, hrow, hinside, by omega⟩
  have hinside : ∀ span ∈ (patch.rows.flatMap (patchOf frame area)).map PaneSurfacePatchRow.span,
      span.Inside frame.width.toNat frame.cells.length := by
    intro span hmem
    obtain ⟨row, hrow, rfl⟩ := List.mem_map.mp hmem
    exact (hspans row hrow).2.1
  refine ⟨hspans, ?_, _, writeSpans?_of_inside hinside, length_writeSpans_of_inside hinside, ?_, ?_⟩
  · -- Two dirty rows are two rows of the frame.
    refine List.pairwise_flatMap.mpr ⟨fun row hrow => ?_, ?_⟩
    · unfold patchOf
      split
      next hlt => exact (hspec row hrow hlt).disjoint
      next => exact .nil
    · refine (List.pairwise_map.mp hdistinct).imp_of_mem fun {first second} hfirst hsecond hne a ha
        b hb x y hcoversA hcoversB => ?_
      unfold patchOf at ha hb
      split at ha
      next hltA =>
        split at hb
        next hltB =>
          have hyA := ((hspec first hfirst hltA).inside a ha).1
          have hyB := ((hspec second hsecond hltB).inside b hb).1
          have hsame : a.y.toNat = b.y.toNat := hcoversA.1.trans hcoversB.1.symm
          exact hne (UInt16.toNat_inj.mp (by omega))
        next => cases hb
      next => cases ha
  · intro row hrow hlt x hx
    have hlong := (hcomplete row hrow hlt).1
    have hcolumns := harea.columns
    obtain ⟨cell, hcell⟩ : ∃ cell, row.2[x]? = some cell :=
      ⟨_, List.getElem?_eq_getElem (by omega)⟩
    refine ⟨cell, hcell, ?_⟩
    rw [← hcell, cellAt_writeSpans_of_inside hinside (by omega)]
    refine overlay_eq_target (fun span hmem hcovers => ?_) fun hnone => ?_
    · -- A span that covers a cell of this row comes from this row.
      obtain ⟨found, hfound, rfl⟩ := List.mem_map.mp hmem
      obtain ⟨other, hother, hotherLt, hspan⟩ := mem_flatMap_patchOf.mp hfound
      have hy := ((hspec other hother hotherLt).inside found hspan).1
      have hcoversY : found.y.toNat = area.y.toNat + row.1.toNat := hcovers.1
      have hfst : other.1 = row.1 := UInt16.toNat_inj.mp (by omega)
      obtain rfl := List.inj_on_of_nodup_map hdistinct hother hrow hfst
      exact (hspec other hother hotherLt).agrees found hspan x hcovers
    · by_contra hdiffer
      obtain ⟨span, hspan, hcovers⟩ := (hspec row hrow hlt).reaches x hx hdiffer
      exact hnone _ (List.mem_map_of_mem (mem_flatMap_patchOf.mpr ⟨row, hrow, hlt, hspan⟩)) hcovers
  · intro x y hx hclean
    rw [cellAt_writeSpans_of_inside hinside hx]
    refine overlay_of_not_covers (fun span hmem hcovers => hclean ?_) _
    obtain ⟨row, hrow, rfl⟩ := List.mem_map.mp hmem
    exact (hspans row hrow).2.2 x y hcovers

end

def blankCell (symbol : String) : CellData :=
  { symbol, fg := 0, bg := 0, modifier := 0, skip := false, hyperlink := none }

/-- A wide letter, and the row that replaces it by a narrow one. -/
def wideLetter : FrameData where
  cells := [blankCell "界", blankCell "z", blankCell "q"]
  width := 3
  height := 1
  cursor := none
  hyperlinks := []
  graphics := []

def narrowLetter : TerminalDirtyPatch := ⟨[(0, [blankCell "x", blankCell "z", blankCell "q"])]⟩

/-- The unchanged cell behind the letter is sent too, and the next one is not. -/
theorem changedRows_confined_narrowLetter :
    changedRows wideLetter ⟨0, 0, 3, 1⟩ narrowLetter
        = some [⟨0, 0, [blankCell "x", blankCell "z"]⟩]
      ∧ ∃ after, applyRows wideLetter.cells 3 [⟨0, 0, [blankCell "x", blankCell "z"]⟩] = some after
        ∧ after.length = wideLetter.cells.length := by
  have hrows : changedRows wideLetter ⟨0, 0, 3, 1⟩ narrowLetter
      = some [⟨0, 0, [blankCell "x", blankCell "z"]⟩] := by decide +kernel
  have harea : AreaInside wideLetter ⟨0, 0, 3, 1⟩ := ⟨by decide, by decide⟩
  have hdistinct : (narrowLetter.rows.map Prod.fst).Nodup := by decide
  obtain ⟨-, -, after, hafter, hlen, -⟩ :=
    (changedRows_confined harea hdistinct).2 _ hrows
  exact ⟨hrows, after, hafter, hlen⟩

end Herden.Proofs.Surface.Retained
