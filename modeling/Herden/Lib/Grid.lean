import Mathlib.Data.List.Basic
import Mathlib.Data.List.Pairwise
import Mathlib.Logic.Equiv.Basic
import Mathlib.Tactic.Common

/-!
# `Herden.Lib.Grid`: spans of cells in a row-major grid

A grid of a given width is the list of its cells, row after row. A span is a run of cells in
one row. Writing spans one after the other is described cell by cell: `overlay` is the cell
that the spans leave at a position, the last span that covers it deciding
(`cellAt_writeSpans`). Two grids of one size are equal when they agree at every position
(`eq_of_cellAt`).

`changedRuns` finds the maximal runs in which a row differs from its replacement. The runs lie
in order, apart from each other and inside the row (`changedRuns_inside`,
`changedRuns_pairwise`), hold the new cells (`changedRuns_getElem?`) and leave out no position
that changed (`exists_mem_changedRuns`). `gridRuns` collects them over the rows of a grid, and
writing them takes the old grid to the new one (`writeSpans_gridRuns`).

`swapAt` exchanges two cells, and `swapRows` two equally placed runs of cells in two rows.
-/

namespace Herden.Lib

variable {α : Type}

/-! ### Positions -/

/-- The cell at a column and row of a grid. -/
def cellAt (width : Nat) (cells : List α) (x y : Nat) : Option α := cells[y * width + x]?

variable {width x y height : Nat} {cells run original : List α}

/-- Rows do not overlap: a position behind the start of one row and before its end is in it. -/
theorem row_eq_of_index {x' y' : Nat} (hx : x < width) (hx' : x' < width)
    (h : y * width + x = y' * width + x') : y = y' ∧ x = x' := by
  have hy : y = y' := by
    rcases Nat.lt_trichotomy y y' with hlt | heq | hlt
    · have := Nat.mul_le_mul_right width (Nat.succ_le_of_lt hlt)
      rw [Nat.succ_mul] at this
      omega
    · exact heq
    · have := Nat.mul_le_mul_right width (Nat.succ_le_of_lt hlt)
      rw [Nat.succ_mul] at this
      omega
  subst hy
  exact ⟨rfl, by omega⟩

/-- The position lies inside the grid. -/
theorem index_lt (hx : x < width) (hy : y < height) : y * width + x < width * height := by
  have := Nat.mul_le_mul_right width (Nat.succ_le_of_lt hy)
  rw [Nat.succ_mul, Nat.mul_comm height] at this
  omega

/-- Grids of one size are equal when they agree at every position. -/
theorem eq_of_cellAt {others : List α} (hcells : cells.length = width * height)
    (hothers : others.length = width * height)
    (h : ∀ x y, x < width → y < height → cellAt width cells x y = cellAt width others x y) :
    cells = others := by
  apply List.ext_getElem?
  intro i
  by_cases hi : i < width * height
  · have hwidth : 0 < width := Nat.pos_of_ne_zero (by rintro rfl; simp at hi)
    have hmod := Nat.mod_lt i hwidth
    have hdiv : i / width < height := Nat.div_lt_of_lt_mul hi
    have hindex : i / width * width + i % width = i := by
      rw [Nat.mul_comm]
      exact Nat.div_add_mod i width
    have hagree := h (i % width) (i / width) hmod hdiv
    rwa [cellAt, cellAt, hindex] at hagree
  · rw [List.getElem?_eq_none (by omega), List.getElem?_eq_none (by omega)]

/-! ### Spans -/

/-- A run of cells in one row. -/
structure Span (α : Type) where
  x : Nat
  y : Nat
  cells : List α

def Span.Covers (span : Span α) (x y : Nat) : Prop :=
  span.y = y ∧ span.x ≤ x ∧ x < span.x + span.cells.length

instance (span : Span α) (x y : Nat) : Decidable (span.Covers x y) :=
  inferInstanceAs (Decidable (_ ∧ _ ∧ _))

/-- What the span says about a position. -/
def Span.at (span : Span α) (x y : Nat) : Option α :=
  if span.y = y ∧ span.x ≤ x then span.cells[x - span.x]? else none

def Span.Fits (span : Span α) (width height : Nat) : Prop :=
  span.y < height ∧ span.x + span.cells.length ≤ width

/-- The spans share no position. -/
def Span.Disjoint (a b : Span α) : Prop := ∀ x y, a.Covers x y → ¬ b.Covers x y

theorem Span.Disjoint.symm {a b : Span α} (h : a.Disjoint b) : b.Disjoint a :=
  fun x y hb ha => h x y ha hb

variable {span : Span α} {spans : List (Span α)}

theorem Span.isSome_at : (span.at x y).isSome = true ↔ span.Covers x y := by
  unfold Span.at Span.Covers
  by_cases h : span.y = y ∧ span.x ≤ x
  · rw [if_pos h, isSome_getElem?]
    omega
  · rw [if_neg h]
    simp only [Option.isSome_none, Bool.false_eq_true, false_iff]
    omega

theorem Span.at_eq_none (h : ¬ span.Covers x y) : span.at x y = none := by
  rw [← Option.not_isSome_iff_eq_none]
  exact fun hsome => h (Span.isSome_at.mp hsome)

theorem Span.at_of_covers (h : span.Covers x y) :
    span.at x y = span.cells[x - span.x]? := if_pos ⟨h.1, h.2.1⟩

/-! ### Writing spans -/

/-- The cell that the spans leave at a position where `old` stood. -/
def overlay (spans : List (Span α)) (x y : Nat) (old : Option α) : Option α :=
  spans.foldl (fun old span => (span.at x y).or old) old

@[simp] theorem overlay_nil (x y : Nat) (old : Option α) : overlay [] x y old = old := rfl

@[simp] theorem overlay_cons (span : Span α) (spans : List (Span α)) (x y : Nat)
    (old : Option α) : overlay (span :: spans) x y old = overlay spans x y ((span.at x y).or old) :=
  rfl

@[simp] theorem overlay_append (spans more : List (Span α)) (x y : Nat) (old : Option α) :
    overlay (spans ++ more) x y old = overlay more x y (overlay spans x y old) :=
  List.foldl_append ..

/-- Spans that do not cover a position leave it alone. -/
theorem overlay_of_not_covers (h : ∀ span ∈ spans, ¬ span.Covers x y) (old : Option α) :
    overlay spans x y old = old := by
  induction spans generalizing old with
  | nil => rfl
  | cons span rest ih =>
    rw [overlay_cons, Span.at_eq_none (h span (by simp)), Option.none_or]
    exact ih (fun other hmem => h other (by simp [hmem])) old

/-- Spans that do not cover a position can be left out. -/
theorem overlay_map_filter {β : Type} {span : β → Span α} {keep : β → Bool} {items : List β}
    (old : Option α) (h : ∀ item ∈ items, ¬ keep item = true → ¬ (span item).Covers x y) :
    overlay ((items.filter keep).map span) x y old = overlay (items.map span) x y old := by
  induction items generalizing old with
  | nil => rfl
  | cons item rest ih =>
    have hrest := fun old => ih old fun other hmem => h other (by simp [hmem])
    rw [List.map_cons, overlay_cons]
    by_cases hkeep : keep item = true
    · rw [List.filter_cons_of_pos hkeep, List.map_cons, overlay_cons, hrest]
    · rw [List.filter_cons_of_neg hkeep, hrest, Span.at_eq_none (h item (by simp) hkeep),
        Option.none_or]

/-- When every span that covers a position agrees on its cell, and one does, that is the cell. -/
theorem overlay_of_covers {cell : α} (h : ∀ span ∈ spans, span.Covers x y → span.at x y = some cell)
    (hsome : ∃ span ∈ spans, span.Covers x y) (old : Option α) :
    overlay spans x y old = some cell := by
  induction spans generalizing old with
  | nil => obtain ⟨span, hmem, -⟩ := hsome; cases hmem
  | cons first rest ih =>
    have hrest : ∀ span ∈ rest, span.Covers x y → span.at x y = some cell :=
      fun span hmem => h span (by simp [hmem])
    rw [overlay_cons]
    by_cases hlater : ∃ span ∈ rest, span.Covers x y
    · exact ih hrest hlater _
    · have hfirst : first.Covers x y := by
        obtain ⟨span, hmem, hcovers⟩ := hsome
        rcases List.mem_cons.mp hmem with rfl | hmem
        · exact hcovers
        · exact absurd ⟨span, hmem, hcovers⟩ hlater
      rw [h first (by simp) hfirst, Option.some_or]
      exact overlay_of_not_covers (fun span hmem hcovers => hlater ⟨span, hmem, hcovers⟩) _

/-- When every span that covers a position says `target`, and `target` was there where none
does, the spans leave `target`. -/
theorem overlay_eq_target {old target : Option α}
    (h : ∀ span ∈ spans, span.Covers x y → span.at x y = target)
    (hnone : (∀ span ∈ spans, ¬ span.Covers x y) → old = target) :
    overlay spans x y old = target := by
  by_cases hsome : ∃ span ∈ spans, span.Covers x y
  · obtain ⟨span, hmem, hcovers⟩ := hsome
    obtain ⟨cell, hcell⟩ := Option.isSome_iff_exists.mp (Span.isSome_at.mpr hcovers)
    have htarget : target = some cell := (h span hmem hcovers).symm.trans hcell
    rw [htarget] at h ⊢
    exact overlay_of_covers h ⟨span, hmem, hcovers⟩ old
  · have hclear : ∀ span ∈ spans, ¬ span.Covers x y :=
      fun span hmem hcovers => hsome ⟨span, hmem, hcovers⟩
    rw [overlay_of_not_covers hclear, hnone hclear]

/-- Of spans that share no position, one that covers a position says what all of them leave
there. -/
theorem at_eq_overlay (hdisjoint : spans.Pairwise Span.Disjoint) (hmem : span ∈ spans)
    (hcovers : span.Covers x y) (old : Option α) : span.at x y = overlay spans x y old := by
  have : Std.Symm (@Span.Disjoint α) := ⟨fun _ _ => Span.Disjoint.symm⟩
  symm
  apply overlay_eq_target
  · intro other hother hcovers'
    -- Another span that covers the position is the same one.
    by_cases heq : span = other
    · rw [heq]
    · exact absurd hcovers' (hdisjoint.forall hmem hother heq x y hcovers)
  · intro hclear
    exact absurd hcovers (hclear span hmem)

/-- Overwrite the cells from `start` on. -/
def setSlice (cells : List α) (start : Nat) (new : List α) : List α :=
  cells.take start ++ new ++ cells.drop (start + new.length)

theorem length_setSlice {start : Nat} {new : List α} (h : start + new.length ≤ cells.length) :
    (setSlice cells start new).length = cells.length := by
  simp only [setSlice, List.length_append, List.length_take, List.length_drop]
  omega

theorem getElem?_setSlice {start : Nat} {new : List α} (h : start + new.length ≤ cells.length)
    (i : Nat) : (setSlice cells start new)[i]?
      = if start ≤ i ∧ i < start + new.length then new[i - start]? else cells[i]? := by
  have htake : (cells.take start).length = start := by
    rw [List.length_take]
    omega
  unfold setSlice
  by_cases hlow : i < start
  · rw [if_neg (by omega), List.append_assoc, List.getElem?_append_left (by omega),
      List.getElem?_take_of_lt hlow]
  by_cases hhigh : i < start + new.length
  · rw [if_pos (by omega), List.getElem?_append_left (by rw [List.length_append]; omega),
      List.getElem?_append_right (by omega), htake]
  · rw [if_neg (by omega), List.getElem?_append_right (by rw [List.length_append]; omega),
      List.getElem?_drop, List.length_append, htake]
    congr 1
    omega

def Span.start (span : Span α) (width : Nat) : Nat := span.y * width + span.x

def writeSpans (width : Nat) (cells : List α) (spans : List (Span α)) : List α :=
  spans.foldl (fun cells span => setSlice cells (span.start width) span.cells) cells

theorem Span.Fits.end_le (h : span.Fits width height) :
    span.start width + span.cells.length ≤ width * height := by
  obtain ⟨hy, hend⟩ := h
  have := Nat.mul_le_mul_right width (Nat.succ_le_of_lt hy)
  rw [Nat.succ_mul, Nat.mul_comm height] at this
  unfold Span.start
  omega

/-- The span lies in one row, and its cells are there. -/
def Span.Inside (span : Span α) (width length : Nat) : Prop :=
  span.x + span.cells.length ≤ width ∧ span.start width + span.cells.length ≤ length

theorem Span.Fits.inside (h : span.Fits width height) :
    span.Inside width (width * height) := ⟨h.2, h.end_le⟩

theorem length_writeSpans_of_inside (hinside : ∀ span ∈ spans, span.Inside width cells.length) :
    (writeSpans width cells spans).length = cells.length := by
  induction spans generalizing cells with
  | nil => rfl
  | cons span rest ih =>
    have hlen := length_setSlice (hinside span (by simp)).2
    have hrest := ih fun other hmem => by
      rw [hlen]
      exact hinside other (by simp [hmem])
    exact hrest.trans hlen

theorem length_writeSpans (hcells : cells.length = width * height)
    (hfits : ∀ span ∈ spans, span.Fits width height) :
    (writeSpans width cells spans).length = width * height := by
  rw [length_writeSpans_of_inside fun span hmem => hcells ▸ (hfits span hmem).inside, hcells]

/-- A span inside the grid changes the cells it covers and no other. -/
theorem cellAt_setSlice (hinside : span.Inside width cells.length) (hx : x < width) :
    cellAt width (setSlice cells (span.start width) span.cells) x y
      = (span.at x y).or (cellAt width cells x y) := by
  obtain ⟨hrow, hend⟩ := hinside
  unfold cellAt
  rw [getElem?_setSlice hend]
  by_cases hcovers : span.Covers x y
  · obtain ⟨rfl, hlow, hhigh⟩ := hcovers
    have hindex : span.y * width + x - span.start width = x - span.x := by
      unfold Span.start
      omega
    rw [if_pos (by unfold Span.start; omega), hindex, Span.at_of_covers ⟨rfl, hlow, hhigh⟩,
      List.getElem?_eq_getElem (by omega), Option.some_or]
  · rw [Span.at_eq_none hcovers, Option.none_or, if_neg]
    -- Inside the written cells the row is the span's, as the span ends with its row.
    rintro ⟨hlow, hhigh⟩
    unfold Span.start at hlow hhigh
    have hindex : y * width + x = span.y * width + (y * width + x - span.y * width) := by omega
    obtain ⟨hy, hx⟩ := row_eq_of_index hx (by omega) hindex
    exact hcovers ⟨hy.symm, by omega, by omega⟩

/-- The grid after writing spans, cell by cell. -/
theorem cellAt_writeSpans_of_inside (hinside : ∀ span ∈ spans, span.Inside width cells.length)
    (hx : x < width) : cellAt width (writeSpans width cells spans) x y
      = overlay spans x y (cellAt width cells x y) := by
  induction spans generalizing cells with
  | nil => rfl
  | cons span rest ih =>
    have hspan := hinside span (by simp)
    rw [overlay_cons, ← cellAt_setSlice hspan hx]
    exact ih fun other hmem => by
      rw [length_setSlice hspan.2]
      exact hinside other (by simp [hmem])

theorem cellAt_writeSpans (hcells : cells.length = width * height)
    (hfits : ∀ span ∈ spans, span.Fits width height) (hx : x < width) :
    cellAt width (writeSpans width cells spans) x y
      = overlay spans x y (cellAt width cells x y) :=
  cellAt_writeSpans_of_inside (fun span hmem => hcells ▸ (hfits span hmem).inside) hx

/-! ### Changed runs -/

/-- The run that ends before column `x`, unless it is empty. -/
def endRun (x : Nat) (run : List α) : List (Nat × List α) :=
  if run.isEmpty then [] else [(x - run.length, run)]

/-- The maximal runs in which `new` differs from `old`, with the columns they start at. `x` is
the column of the first cells and `run` the run that reaches up to it. -/
def changedRunsFrom [DecidableEq α] (x : Nat) (run : List α) :
    List α → List α → List (Nat × List α)
  | o :: old, n :: new =>
      if o = n then endRun x run ++ changedRunsFrom (x + 1) [] old new
      else changedRunsFrom (x + 1) (run ++ [n]) old new
  | _, _ => endRun x run

def changedRuns [DecidableEq α] (old new : List α) : List (Nat × List α) :=
  changedRunsFrom 0 [] old new

variable {found : Nat × List α} {i a b : Nat} {order : List Nat}

theorem mem_endRun : found ∈ endRun x run ↔ found = (x - run.length, run) ∧ run ≠ [] := by
  unfold endRun
  cases run with
  | nil => simp
  | cons first rest => simp

theorem endRun_pairwise (x : Nat) (run : List α) :
    (endRun x run).Pairwise fun a b => a.1 + a.2.length < b.1 := by
  unfold endRun
  split
  · exact .nil
  · exact List.pairwise_singleton _ _

theorem endRun_getElem? (h : found ∈ endRun x run) (hi : i < found.2.length) (more : List α) :
    found.2[i]? = (run ++ more)[found.1 + i - (x - run.length)]? := by
  obtain ⟨rfl, -⟩ := mem_endRun.mp h
  dsimp only at hi ⊢
  rw [Nat.add_sub_cancel_left, List.getElem?_append_left hi]

theorem exists_mem_endRun (hrun : run.length ≤ x) {column : Nat} (hlow : x - run.length ≤ column)
    (hhigh : column < x) :
    ∃ found ∈ endRun x run, found.1 ≤ column ∧ column < found.1 + found.2.length := by
  have hne : run ≠ [] := by
    rintro rfl
    rw [List.length_nil] at hlow
    omega
  refine ⟨(x - run.length, run), mem_endRun.mpr ⟨rfl, hne⟩, hlow, ?_⟩
  dsimp only
  omega

section

variable [DecidableEq α]

variable {new old run : List α} {x column : Nat}

variable {found : Nat × List α}

/-- The runs lie inside the row and are not empty. -/
theorem changedRunsFrom_inside (hrun : run.length ≤ x) (h : found ∈ changedRunsFrom x run old new) :
    x - run.length ≤ found.1 ∧ found.1 + found.2.length ≤ x + new.length ∧ found.2 ≠ [] := by
  have hend : ∀ count, found ∈ endRun x run → x - run.length ≤ found.1
      ∧ found.1 + found.2.length ≤ x + count ∧ found.2 ≠ [] := by
    intro count hmem
    obtain ⟨rfl, hne⟩ := mem_endRun.mp hmem
    refine ⟨Nat.le_refl _, ?_, hne⟩
    dsimp only
    omega
  induction old generalizing x run new with
  | nil => exact hend _ h
  | cons o old ih =>
    cases new with
    | nil => exact hend _ h
    | cons n new =>
      unfold changedRunsFrom at h
      rw [List.length_cons]
      split at h
      · rcases List.mem_append.mp h with h | h
        · exact hend _ h
        · obtain ⟨hlow, hhigh, hne⟩ := ih (by simp) h fun count hmem => by simp [endRun] at hmem
          rw [List.length_nil] at hlow
          exact ⟨by omega, by omega, hne⟩
      · have hlen : (run ++ [n]).length = run.length + 1 := by simp
        obtain ⟨hlow, hhigh, hne⟩ := ih (by omega) h fun count hmem => by
          obtain ⟨rfl, hne⟩ := mem_endRun.mp hmem
          refine ⟨Nat.le_refl _, ?_, hne⟩
          dsimp only
          omega
        exact ⟨by omega, by omega, hne⟩

/-- The runs come in order and do not touch. -/
theorem changedRunsFrom_pairwise (hrun : run.length ≤ x) :
    (changedRunsFrom x run old new).Pairwise fun a b => a.1 + a.2.length < b.1 := by
  induction old generalizing x run new with
  | nil => exact endRun_pairwise x run
  | cons o old ih =>
    cases new with
    | nil => exact endRun_pairwise x run
    | cons n new =>
      unfold changedRunsFrom
      split
      · refine List.pairwise_append.mpr ⟨endRun_pairwise x run, ih (by simp), ?_⟩
        intro a ha b hb
        obtain ⟨rfl, -⟩ := mem_endRun.mp ha
        have hlow := (changedRunsFrom_inside (by simp) hb).1
        rw [List.length_nil] at hlow
        dsimp only
        omega
      · exact ih (by simp; omega)

/-- A run holds the new cells. -/
theorem changedRunsFrom_getElem? (hrun : run.length ≤ x) (h : found ∈ changedRunsFrom x run old new)
    {i : Nat} (hi : i < found.2.length) :
    found.2[i]? = (run ++ new)[found.1 + i - (x - run.length)]? := by
  induction old generalizing x run new with
  | nil => exact endRun_getElem? h hi new
  | cons o old ih =>
    cases new with
    | nil => exact endRun_getElem? h hi []
    | cons n new =>
      unfold changedRunsFrom at h
      split at h
      · rcases List.mem_append.mp h with h | h
        · exact endRun_getElem? h hi (n :: new)
        · have hlow := (changedRunsFrom_inside (by simp) h).1
          rw [List.length_nil] at hlow
          have hfound := ih (by simp) h
          rw [List.nil_append, List.length_nil] at hfound
          have hindex : found.1 + i - (x - run.length) - run.length
              = (found.1 + i - (x + 1 - 0)) + 1 := by omega
          rw [hfound, List.getElem?_append_right (by omega), hindex, List.getElem?_cons_succ]
      · have hlen : (run ++ [n]).length = run.length + 1 := by simp
        have hfound := ih (by omega) h
        have hindex : x + 1 - (run ++ [n]).length = x - run.length := by omega
        rw [hfound, List.append_assoc, List.singleton_append, hindex]

/-- Every position of the open run, and every later one at which the rows differ, is in a run. -/
theorem exists_mem_changedRunsFrom (hrun : run.length ≤ x) (hlen : old.length = new.length)
    (hlow : x - run.length ≤ column) (h : x ≤ column → old[column - x]? ≠ new[column - x]?) :
    ∃ found ∈ changedRunsFrom x run old new,
      found.1 ≤ column ∧ column < found.1 + found.2.length := by
  induction old generalizing x run new with
  | nil =>
    obtain rfl : new = [] := List.length_eq_zero_iff.mp hlen.symm
    rcases Nat.lt_or_ge column x with hlt | hge
    · exact exists_mem_endRun hrun hlow hlt
    · exact absurd rfl (h hge)
  | cons o old ih =>
    cases new with
    | nil => simp at hlen
    | cons n new =>
      rw [List.length_cons, List.length_cons] at hlen
      -- Behind the first column the rows differ where their tails do.
      have htail : x + 1 ≤ column → old[column - (x + 1)]? ≠ new[column - (x + 1)]? := by
        intro hbehind
        have hdiffer := h (by omega)
        rw [show column - x = column - (x + 1) + 1 by omega] at hdiffer
        rwa [List.getElem?_cons_succ, List.getElem?_cons_succ] at hdiffer
      unfold changedRunsFrom
      split
      next heq =>
        rcases Nat.lt_or_ge column x with hlt | hge
        · obtain ⟨found, hmem, hfound⟩ := exists_mem_endRun hrun hlow hlt
          exact ⟨found, List.mem_append_left _ hmem, hfound⟩
        · have hnext : x + 1 ≤ column := by
            rcases Nat.lt_or_ge x column with hlt | hle
            · exact hlt
            · have hdiffer := h hge
              rw [show column - x = 0 by omega, heq] at hdiffer
              simp at hdiffer
          have hrun' : ([] : List α).length ≤ x + 1 := by simp
          obtain ⟨found, hmem, hfound⟩ := ih hrun' (Nat.succ.inj hlen) (by simpa using hnext) htail
          exact ⟨found, List.mem_append_right _ hmem, hfound⟩
      next hne =>
        have hlen' : (run ++ [n]).length = run.length + 1 := by simp
        exact ih (by omega) (Nat.succ.inj hlen) (by omega) htail

/-- A run as a span of row `y`, with the row's cells starting at column `left`. -/
def runSpan (left y : Nat) (run : Nat × List α) : Span α := ⟨left + run.1, y, run.2⟩

theorem runSpan_at {run : Nat × List α} (h : run ∈ changedRuns old new) {left y : Nat}
    (hcovers : (runSpan left y run).Covers (left + column) y) :
    (runSpan left y run).at (left + column) y = new[column]? := by
  have hcell := Span.at_of_covers hcovers
  obtain ⟨-, hlow, hhigh⟩ := hcovers
  dsimp only [runSpan] at hlow hhigh
  have hrun : ([] : List α).length ≤ 0 := Nat.le_refl 0
  have hi : left + column - (left + run.1) < run.2.length := by omega
  rw [hcell]
  show run.2[left + column - (left + run.1)]? = _
  rw [changedRunsFrom_getElem? hrun h hi, List.nil_append]
  congr 1
  rw [List.length_nil]
  omega

/-- Writing the changed runs over the old row gives the new one. -/
theorem overlay_changedRuns (hlen : old.length = new.length) (left y : Nat)
    (hcolumn : column < new.length) :
    overlay ((changedRuns old new).map (runSpan left y)) (left + column) y old[column]?
      = new[column]? := by
  by_cases hsome : ∃ span ∈ (changedRuns old new).map (runSpan left y),
      span.Covers (left + column) y
  · rw [List.getElem?_eq_getElem hcolumn]
    refine overlay_of_covers (fun span hmem hcovers => ?_) hsome _
    obtain ⟨run, hrun, rfl⟩ := List.mem_map.mp hmem
    rw [runSpan_at hrun hcovers, List.getElem?_eq_getElem hcolumn]
  · rw [overlay_of_not_covers fun span hmem hcovers => hsome ⟨span, hmem, hcovers⟩]
    by_contra hdiffer
    have hrun : ([] : List α).length ≤ 0 := Nat.le_refl 0
    obtain ⟨run, hmem, hlow, hhigh⟩ := exists_mem_changedRunsFrom hrun hlen
      (show 0 - ([] : List α).length ≤ column by simp) fun _ => hdiffer
    refine hsome ⟨runSpan left y run, List.mem_map_of_mem hmem, rfl, ?_, ?_⟩
    · exact Nat.add_le_add_left hlow left
    · dsimp only [runSpan]
      omega

end

/-! ### Changed runs with the cell behind them -/

section

variable [DecidableEq α] {old new : List α}

/-- The changed runs, each with the cell that follows it in the row. -/
def widenedRuns (old new : List α) : List (Nat × List α) :=
  (changedRuns old new).map fun run => (run.1, (new.drop run.1).take (run.2.length + 1))

variable {found : Nat × List α}

theorem mem_widenedRuns : found ∈ widenedRuns old new ↔ ∃ run ∈ changedRuns old new,
      found = (run.1, (new.drop run.1).take (run.2.length + 1)) := by
  simp only [widenedRuns, List.mem_map, eq_comm]

/-- The runs lie inside the row and are not empty. -/
theorem widenedRuns_inside (h : found ∈ widenedRuns old new) :
    found.1 + found.2.length ≤ new.length ∧ found.2 ≠ [] := by
  obtain ⟨run, hrun, rfl⟩ := mem_widenedRuns.mp h
  have hrow : ([] : List α).length ≤ 0 := Nat.le_refl 0
  obtain ⟨-, hhigh, hne⟩ := changedRunsFrom_inside hrow hrun
  have hpos := List.length_pos_iff.mpr hne
  have hlen : ((new.drop run.1).take (run.2.length + 1)).length
      = min (run.2.length + 1) (new.length - run.1) := by
    rw [List.length_take, List.length_drop]
  refine ⟨?_, List.length_pos_iff.mp ?_⟩
  · dsimp only
    omega
  · dsimp only
    omega

/-- The runs come in order: a changed run leaves room for the cell behind the one before it. -/
theorem widenedRuns_pairwise (old new : List α) :
    (widenedRuns old new).Pairwise fun a b => a.1 + a.2.length ≤ b.1 := by
  have hrow : ([] : List α).length ≤ 0 := Nat.le_refl 0
  refine List.pairwise_map.mpr ((changedRunsFrom_pairwise hrow).imp fun hab => ?_)
  rw [List.length_take]
  omega

/-- A run holds the new cells. -/
theorem widenedRuns_getElem? (h : found ∈ widenedRuns old new) {i : Nat} (hi : i < found.2.length) :
    found.2[i]? = new[found.1 + i]? := by
  obtain ⟨run, -, rfl⟩ := mem_widenedRuns.mp h
  dsimp only at hi ⊢
  rw [List.length_take] at hi
  rw [List.getElem?_take, if_pos (by omega), List.getElem?_drop]

/-- Every position at which the rows differ is in a run. -/
theorem exists_mem_widenedRuns (hlen : old.length = new.length) {column : Nat}
    (h : old[column]? ≠ new[column]?) :
    ∃ found ∈ widenedRuns old new, found.1 ≤ column ∧ column < found.1 + found.2.length := by
  have hrow : ([] : List α).length ≤ 0 := Nat.le_refl 0
  obtain ⟨run, hrun, hlow, hhigh⟩ := exists_mem_changedRunsFrom hrow hlen
    (show 0 - ([] : List α).length ≤ column by simp) fun _ => h
  have hend := (changedRunsFrom_inside hrow hrun).2.1
  refine ⟨_, mem_widenedRuns.mpr ⟨run, hrun, rfl⟩, hlow, ?_⟩
  dsimp only
  rw [List.length_take, List.length_drop]
  omega

end

/-! ### Changed runs of a whole grid -/

/-- The chunks of a list, so many items each; the last one may be shorter. -/
def chunks (width : Nat) (cells : List α) : List (List α) :=
  (List.range ((cells.length + width - 1) / width)).map fun y => (cells.drop (y * width)).take width

/-- One row of a grid. -/
def gridRow (width : Nat) (cells : List α) (y : Nat) : List α :=
  (cells.drop (y * width)).take width

theorem chunks_eq (hwidth : 0 < width) (hcells : cells.length = width * height) :
    chunks width cells = (List.range height).map (gridRow width cells) := by
  have hcount : (cells.length + width - 1) / width = height := by
    rw [hcells, show width * height + width - 1 = (width - 1) + width * height by omega,
      Nat.add_mul_div_left _ _ hwidth, Nat.div_eq_of_lt (by omega), Nat.zero_add]
  unfold chunks
  rw [hcount]
  rfl

theorem getElem?_gridRow (cells : List α) (hx : x < width) (y : Nat) :
    (gridRow width cells y)[x]? = cellAt width cells x y := by
  unfold gridRow cellAt
  rw [List.getElem?_take, if_pos hx, List.getElem?_drop]

theorem length_gridRow (hcells : cells.length = width * height) (hy : y < height) :
    (gridRow width cells y).length = width := by
  have hend := Nat.mul_le_mul_right width (show y + 1 ≤ height by omega)
  rw [Nat.succ_mul, Nat.mul_comm height] at hend
  unfold gridRow
  rw [List.length_take, List.length_drop]
  omega

section

variable [DecidableEq α] {width height : Nat} {old new : List α}

/-- The changed runs of every row, as spans of the grid. -/
def gridRuns (width height : Nat) (old new : List α) : List (Span α) :=
  (List.range height).flatMap fun y =>
    (changedRuns (gridRow width old y) (gridRow width new y)).map (runSpan 0 y)

variable {span : Span α}

theorem mem_gridRuns : span ∈ gridRuns width height old new ↔ ∃ y < height,
      ∃ run ∈ changedRuns (gridRow width old y) (gridRow width new y), runSpan 0 y run = span := by
  simp [gridRuns]

/-- The spans lie inside the grid and are not empty. -/
theorem gridRuns_inside (hnew : new.length = width * height)
    (h : span ∈ gridRuns width height old new) : span.Fits width height ∧ span.cells ≠ [] := by
  obtain ⟨y, hy, run, hrun, rfl⟩ := mem_gridRuns.mp h
  obtain ⟨-, hhigh, hne⟩ := changedRunsFrom_inside (Nat.zero_le _) hrun
  rw [length_gridRow hnew hy] at hhigh
  refine ⟨⟨hy, ?_⟩, hne⟩
  dsimp only [runSpan]
  omega

/-- Each span ends before the next one starts. -/
theorem gridRuns_pairwise (hnew : new.length = width * height) :
    (gridRuns width height old new).Pairwise fun a b =>
      a.start width + a.cells.length ≤ b.start width := by
  refine List.pairwise_flatMap.mpr ⟨fun y _ => ?_, ?_⟩
  · -- Runs of one row are apart from each other.
    refine List.pairwise_map.mpr ((changedRunsFrom_pairwise (Nat.zero_le _)).imp fun hab => ?_)
    dsimp only [Span.start, runSpan]
    omega
  · refine List.pairwise_lt_range.imp_of_mem fun {y y'} hy _ hlt a ha b hb => ?_
    -- A run of an earlier row ends with its row at the latest.
    have hmem : a ∈ gridRuns width height old new := List.mem_flatMap.mpr ⟨y, hy, ha⟩
    have hend := (gridRuns_inside hnew hmem).1.2
    obtain ⟨run, -, rfl⟩ := List.mem_map.mp ha
    obtain ⟨other, -, rfl⟩ := List.mem_map.mp hb
    have hrows := Nat.mul_le_mul_right width (show y + 1 ≤ y' by omega)
    rw [Nat.succ_mul] at hrows
    dsimp only [Span.start, runSpan] at hend ⊢
    omega

variable {x y : Nat}

/-- A span says what the new grid has. -/
theorem gridRuns_at (h : span ∈ gridRuns width height old new) (hx : x < width)
    (hcovers : span.Covers x y) : span.at x y = cellAt width new x y := by
  obtain ⟨row, -, run, hrun, rfl⟩ := mem_gridRuns.mp h
  obtain rfl : row = y := hcovers.1
  rw [← Nat.zero_add x] at hcovers
  rw [← getElem?_gridRow new hx, ← runSpan_at hrun hcovers, Nat.zero_add]

/-- Every position at which the grids differ is in a span. -/
theorem exists_mem_gridRuns (hold : old.length = width * height)
    (hnew : new.length = width * height) (hx : x < width) (hy : y < height)
    (h : cellAt width old x y ≠ cellAt width new x y) :
    ∃ span ∈ gridRuns width height old new, span.Covers x y := by
  have hlen : (gridRow width old y).length = (gridRow width new y).length := by
    rw [length_gridRow hold hy, length_gridRow hnew hy]
  rw [← getElem?_gridRow old hx, ← getElem?_gridRow new hx] at h
  have hstart : ([] : List α).length ≤ 0 := Nat.le_refl 0
  obtain ⟨run, hrun, hlow, hhigh⟩ := exists_mem_changedRunsFrom hstart hlen
    (show 0 - ([] : List α).length ≤ x by simp) fun _ => h
  refine ⟨runSpan 0 y run, mem_gridRuns.mpr ⟨y, hy, run, hrun, rfl⟩, rfl, ?_, ?_⟩
  · dsimp only [runSpan]
    omega
  · dsimp only [runSpan]
    omega

/-- Writing the changed runs of every row over the old grid gives the new one. -/
theorem writeSpans_gridRuns (hold : old.length = width * height)
    (hnew : new.length = width * height) :
    writeSpans width old (gridRuns width height old new) = new := by
  have hfits : ∀ span ∈ gridRuns width height old new, span.Fits width height :=
    fun span hmem => (gridRuns_inside hnew hmem).1
  refine eq_of_cellAt (length_writeSpans hold hfits) hnew fun x y hx hy => ?_
  rw [cellAt_writeSpans hold hfits hx]
  refine overlay_eq_target (fun span hmem hcovers => gridRuns_at hmem hx hcovers) fun hnone => ?_
  by_contra hdiffer
  obtain ⟨span, hmem, hcovers⟩ := exists_mem_gridRuns hold hnew hx hy hdiffer
  exact hnone span hmem hcovers

end

/-! ### Checked writes and exchanges -/

/-- Overwrite the cells from `start` on, unless they end before the new ones. -/
def setSlice? (cells : List α) (start : Nat) (new : List α) : Option (List α) :=
  if start + new.length ≤ cells.length then some (setSlice cells start new) else none

def writeSpans? (width : Nat) (cells : List α) (spans : List (Span α)) : Option (List α) :=
  spans.foldlM (fun cells span => setSlice? cells (span.start width) span.cells) cells

theorem writeSpans?_of_inside (hinside : ∀ span ∈ spans, span.Inside width cells.length) :
    writeSpans? width cells spans = some (writeSpans width cells spans) := by
  induction spans generalizing cells with
  | nil => rfl
  | cons span rest ih =>
    have hend := (hinside span (by simp)).2
    have hset : setSlice? cells (span.start width) span.cells
        = some (setSlice cells (span.start width) span.cells) := if_pos hend
    unfold writeSpans?
    rw [List.foldlM_cons, hset]
    show writeSpans? width (setSlice cells (span.start width) span.cells) rest = _
    rw [ih fun other hmem => by
      rw [length_setSlice hend]
      exact hinside other (by simp [hmem])]
    rfl

theorem writeSpans?_eq (hcells : cells.length = width * height)
    (hfits : ∀ span ∈ spans, span.Fits width height) :
    writeSpans? width cells spans = some (writeSpans width cells spans) :=
  writeSpans?_of_inside fun span hmem => hcells ▸ (hfits span hmem).inside

/-- Exchange two cells, if both are there. -/
def swapAt? (cells : List α) (i j : Nat) : Option (List α) := do
  let a ← cells[i]?
  let b ← cells[j]?
  some ((cells.set i b).set j a)

theorem swapAt?_spec {j : Nat} (hi : i < cells.length) (hj : j < cells.length) :
    ∃ after, swapAt? cells i j = some after ∧ after.length = cells.length
      ∧ ∀ k, after[k]? = cells[Equiv.swap i j k]? := by
  refine ⟨(cells.set i cells[j]).set j cells[i], ?_, by simp, fun k => ?_⟩
  · simp [swapAt?, List.getElem?_eq_getElem hi, List.getElem?_eq_getElem hj]
  · rw [List.getElem?_set, List.getElem?_set, List.length_set]
    by_cases hkj : j = k
    · subst hkj
      rw [if_pos rfl, if_pos hj, Equiv.swap_apply_right, List.getElem?_eq_getElem hi]
    · by_cases hki : i = k
      · subst hki
        rw [if_neg hkj, if_pos rfl, if_pos hi, Equiv.swap_apply_left,
          List.getElem?_eq_getElem hj]
      · rw [if_neg hkj, if_neg hki, Equiv.swap_apply_of_ne_of_ne (Ne.symm hki) (Ne.symm hkj)]

/-- Exchange two runs of so many cells, cell by cell. -/
def swapRuns? (cells : List α) (a b count : Nat) : Option (List α) :=
  (List.range count).foldlM (fun cells x => swapAt? cells (a + x) (b + x)) cells

theorem swapRuns?_spec (count : Nat) (happart : a + count ≤ b ∨ b + count ≤ a)
    (ha : a + count ≤ cells.length) (hb : b + count ≤ cells.length) :
    ∃ after, swapRuns? cells a b count = some after ∧ after.length = cells.length
      ∧ ∀ k, after[k]? = if a ≤ k ∧ k < a + count then cells[k - a + b]?
        else if b ≤ k ∧ k < b + count then cells[k - b + a]? else cells[k]? := by
  unfold swapRuns?
  induction count with
  | zero =>
    refine ⟨cells, rfl, rfl, fun k => ?_⟩
    rw [if_neg (by omega), if_neg (by omega)]
  | succ count ih =>
    obtain ⟨before, hrun, hlen, hbefore⟩ := ih (by omega) (by omega) (by omega)
    have hi : a + count < before.length := by omega
    have hj : b + count < before.length := by omega
    obtain ⟨after, hswap, hafter, hget⟩ := swapAt?_spec hi hj
    refine ⟨after, ?_, by omega, fun k => ?_⟩
    · rw [List.range_succ, List.foldlM_append, hrun, Option.bind_eq_bind, Option.bind_some,
        List.foldlM_cons, hswap]
      rfl
    -- The exchange that comes last moves the two cells at offset `count`.
    rw [hget]
    by_cases hka : k = a + count
    · subst hka
      rw [Equiv.swap_apply_left, hbefore, if_neg (by omega), if_neg (by omega), if_pos (by omega)]
      congr 1
      omega
    · by_cases hkb : k = b + count
      · subst hkb
        rw [Equiv.swap_apply_right, hbefore, if_neg (by omega), if_neg (by omega),
          if_neg (by omega), if_pos (by omega)]
        congr 1
        omega
      · rw [Equiv.swap_apply_of_ne_of_ne hka hkb, hbefore]
        by_cases hina : a ≤ k ∧ k < a + count
        · rw [if_pos hina, if_pos (by omega)]
        · rw [if_neg hina, if_neg (show ¬ (a ≤ k ∧ k < a + (count + 1)) by omega)]
          by_cases hinb : b ≤ k ∧ k < b + count
          · rw [if_pos hinb, if_pos (by omega)]
          · rw [if_neg hinb, if_neg (show ¬ (b ≤ k ∧ k < b + (count + 1)) by omega)]

/-! ### Rows of a rectangle in another order -/

/-- A rectangle of cells. -/
structure Region where
  left : Nat
  top : Nat
  width : Nat
  height : Nat

def Region.Contains (region : Region) (x y : Nat) : Prop :=
  region.left ≤ x ∧ x < region.left + region.width
    ∧ region.top ≤ y ∧ y < region.top + region.height

instance (region : Region) (x y : Nat) : Decidable (region.Contains x y) :=
  inferInstanceAs (Decidable (_ ∧ _ ∧ _ ∧ _))

def Region.Fits (region : Region) (width height : Nat) : Prop :=
  region.left + region.width ≤ width ∧ region.top + region.height ≤ height

/-- Exchange two rows of a rectangle, given by their distance from its top. -/
def Region.swapRows? (region : Region) (width : Nat) (cells : List α) (a b : Nat) :
    Option (List α) :=
  swapRuns? cells ((region.top + a) * width + region.left) ((region.top + b) * width + region.left)
    region.width

/-- The rectangle holds its original rows in the given order, and the rest of the grid is as it
was. -/
structure Reordered (region : Region) (width height : Nat) (original cells : List α)
    (order : List Nat) : Prop where
  length : cells.length = width * height
  order_length : order.length = region.height
  order_lt : ∀ source ∈ order, source < region.height
  inside : ∀ x y source, region.left ≤ x → x < region.left + region.width →
    order[y]? = some source →
    cellAt width cells x (region.top + y) = cellAt width original x (region.top + source)
  outside : ∀ x y, x < width → ¬ region.Contains x y →
    cellAt width cells x y = cellAt width original x y

variable {region : Region}

theorem Reordered.refl (h : original.length = width * height) :
    Reordered region width height original original (List.range region.height) := by
  refine ⟨h, List.length_range, fun source hmem => List.mem_range.mp hmem, ?_, fun _ _ _ _ => rfl⟩
  intro x y source _ _ hsource
  obtain ⟨hy, heq⟩ := List.getElem?_eq_some_iff.mp hsource
  rw [List.getElem_range] at heq
  rw [heq]

/-- One exchange of rows, in the rectangle and in the order. -/
theorem Reordered.swap (h : Reordered region width height original cells order)
    (hfits : region.Fits width height) (ha : a < region.height) (hb : b < region.height)
    (hne : a ≠ b) :
    ∃ after next, region.swapRows? width cells a b = some after ∧ swapAt? order a b = some next
      ∧ Reordered region width height original after next := by
  obtain ⟨hwidth, hheight⟩ := hfits
  have hrow : ∀ row, row < region.height →
      (region.top + row) * width + region.left + region.width ≤ cells.length := by
    intro row hlt
    have := Nat.mul_le_mul_right width (show region.top + row + 1 ≤ height by omega)
    rw [Nat.succ_mul, Nat.mul_comm height] at this
    rw [h.length]
    omega
  have happart : ∀ row other, row < other →
      (region.top + row) * width + region.left + region.width
        ≤ (region.top + other) * width + region.left := by
    intro row other hlt
    have := Nat.mul_le_mul_right width (show region.top + row + 1 ≤ region.top + other by omega)
    rw [Nat.succ_mul] at this
    omega
  obtain ⟨after, hswap, hlen, hget⟩ := swapRuns?_spec region.width
    ((Nat.lt_or_gt_of_ne hne).imp (happart a b) (happart b a)) (hrow a ha) (hrow b hb)
  obtain ⟨next, hnext, hnextLen, hnextGet⟩ :=
    swapAt?_spec (h.order_length ▸ ha) (h.order_length ▸ hb)
  -- Cell by cell, the exchange of two runs is an exchange of rows.
  have hcell : ∀ x y, x < width → cellAt width after x y
      = if region.left ≤ x ∧ x < region.left + region.width then
          cellAt width cells x (Equiv.swap (region.top + a) (region.top + b) y)
        else cellAt width cells x y := by
    intro x y hx
    have hin : ∀ row, ((region.top + row) * width + region.left ≤ y * width + x
        ∧ y * width + x < (region.top + row) * width + region.left + region.width)
        ↔ y = region.top + row ∧ region.left ≤ x ∧ x < region.left + region.width := by
      intro row
      constructor
      · rintro ⟨hlow, hhigh⟩
        have hindex : y * width + x = (region.top + row) * width
            + (y * width + x - (region.top + row) * width) := by omega
        obtain ⟨hy, hx'⟩ := row_eq_of_index hx (by omega) hindex
        exact ⟨hy, by omega, by omega⟩
      · rintro ⟨rfl, hlow, hhigh⟩
        exact ⟨by omega, by omega⟩
    unfold cellAt
    rw [hget]
    by_cases hcolumns : region.left ≤ x ∧ x < region.left + region.width
    · rw [if_pos hcolumns]
      by_cases hya : y = region.top + a
      · rw [if_pos ((hin a).mpr ⟨hya, hcolumns⟩), hya, Equiv.swap_apply_left]
        congr 1
        omega
      · rw [if_neg fun hmem => hya ((hin a).mp hmem).1]
        by_cases hyb : y = region.top + b
        · rw [if_pos ((hin b).mpr ⟨hyb, hcolumns⟩), hyb, Equiv.swap_apply_right]
          congr 1
          omega
        · rw [if_neg fun hmem => hyb ((hin b).mp hmem).1, Equiv.swap_apply_of_ne_of_ne hya hyb]
    · rw [if_neg hcolumns, if_neg fun hmem => hcolumns ((hin a).mp hmem).2,
        if_neg fun hmem => hcolumns ((hin b).mp hmem).2]
  refine ⟨after, next, hswap, hnext, by rw [hlen, h.length], by rw [hnextLen, h.order_length],
    ?_, ?_, ?_⟩
  · intro source hmem
    obtain ⟨y, hy⟩ := List.mem_iff_getElem?.mp hmem
    rw [hnextGet] at hy
    exact h.order_lt source (List.mem_of_getElem? hy)
  · intro x y source hlow hhigh hsource
    rw [hnextGet] at hsource
    rw [hcell x _ (by omega), if_pos ⟨hlow, hhigh⟩, ← h.inside x _ source hlow hhigh hsource]
    congr 1
    by_cases hya : y = a
    · rw [hya, Equiv.swap_apply_left, Equiv.swap_apply_left]
    · by_cases hyb : y = b
      · rw [hyb, Equiv.swap_apply_right, Equiv.swap_apply_right]
      · rw [Equiv.swap_apply_of_ne_of_ne hya hyb,
          Equiv.swap_apply_of_ne_of_ne (by omega) (by omega)]
  · intro x y hx houtside
    rw [hcell x y hx]
    by_cases hcolumns : region.left ≤ x ∧ x < region.left + region.width
    · have hrows : ¬ (region.top ≤ y ∧ y < region.top + region.height) := fun hrows =>
        houtside ⟨hcolumns.1, hcolumns.2, hrows.1, hrows.2⟩
      rw [if_pos hcolumns, Equiv.swap_apply_of_ne_of_ne (by omega) (by omega)]
      exact h.outside x y hx houtside
    · rw [if_neg hcolumns]
      exact h.outside x y hx houtside

/-- A whole sequence of exchanges leads to the same order in the rectangle as it does in a list
of row numbers. -/
theorem Reordered.foldlM (h : Reordered region width height original cells order)
    (hfits : region.Fits width height) (swaps : List (Nat × Nat))
    (hswaps : ∀ swap ∈ swaps, swap.1 < region.height ∧ swap.2 < region.height ∧ swap.1 ≠ swap.2) :
    ∃ after next,
      swaps.foldlM (fun cells swap => region.swapRows? width cells swap.1 swap.2) cells = some after
        ∧ swaps.foldlM (fun order swap => swapAt? order swap.1 swap.2) order = some next
        ∧ Reordered region width height original after next := by
  induction swaps generalizing cells order with
  | nil => exact ⟨cells, order, rfl, rfl, h⟩
  | cons swap rest ih =>
    obtain ⟨ha, hb, hne⟩ := hswaps swap (by simp)
    obtain ⟨middle, order', hmiddle, horder', hreordered⟩ := h.swap hfits ha hb hne
    obtain ⟨after, next, hafter, hnext, hdone⟩ :=
      ih hreordered fun other hmem => hswaps other (by simp [hmem])
    refine ⟨after, next, ?_, ?_, hdone⟩
    · rw [List.foldlM_cons, hmiddle]
      exact hafter
    · rw [List.foldlM_cons, horder']
      exact hnext

end Herden.Lib
