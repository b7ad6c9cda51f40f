import Herden.Proofs.Surface.Delta
import Herden.Runtime.Surface.Reuse

/-!
# `Herden.Proofs.Surface.Reuse`: what a refused message leaves behind

Reuse, scroll and delta messages are checked in full before the baseline is touched, so a
message that is refused leaves it alone (`decodeScroll_error`, `decodeDelta_error`,
`acceptReuse_error`). A plain patch is checked row by row while it is written: when a row lies
outside the grid, the rows before it have been written (`getElem?_writeRows`). The baseline
survives such a patch exactly when those rows say nothing new
(`rejection_keeps_baseline_iff`).
-/

namespace Herden.Proofs.Surface.Reuse

open Herden.Lib
open Herden.Runtime.Wire
open Herden.Runtime.Surface
open Herden.Runtime.Surface.Reuse

/-! ### Messages that are checked first -/

variable {base : CellBaseline} {error : Rejection} {after decoder : Decoder}

theorem decodeScroll_error {after : CellBaseline} {data : String}
    (h : decodeScroll base data = some (after, .error error)) : after = base := by
  unfold decodeScroll at h
  split at h
  next => exact (Prod.mk.inj (Option.some.inj h)).1.symm
  next =>
    split at h
    · exact (Prod.mk.inj (Option.some.inj h)).1.symm
    · obtain ⟨result, -, h⟩ := Option.bind_eq_some_iff.mp h
      cases result with
      | error error => exact (Prod.mk.inj (Option.some.inj h)).1.symm
      | ok result => cases h

theorem decodeDelta_error {after : CellBaseline} {data : String}
    (h : decodeDelta base data = some (after, .error error)) : after = base := by
  unfold decodeDelta at h
  split at h
  next => exact (Prod.mk.inj (Option.some.inj h)).1.symm
  next =>
    dsimp only at h
    split at h
    · exact (Prod.mk.inj (Option.some.inj h)).1.symm
    · obtain ⟨cells, -, h⟩ := Option.bind_eq_some_iff.mp h
      obtain ⟨popup, -, h⟩ := Option.bind_eq_some_iff.mp h
      cases popup with
      | error error => exact (Prod.mk.inj (Option.some.inj h)).1.symm
      | ok popup =>
        dsimp only at h
        split at h
        · exact (Prod.mk.inj (Option.some.inj h)).1.symm
        · obtain ⟨cells, -, h⟩ := Option.bind_eq_some_iff.mp h
          cases h

theorem acceptReuse_error {reuse : SurfaceReuse}
    (h : acceptReuse decoder reuse = (after, .error error)) : after = decoder := by
  unfold acceptReuse at h
  split at h
  · exact (Prod.mk.inj h).1.symm
  · dsimp only at h
    split at h
    · exact (Prod.mk.inj h).1.symm
    · cases (Prod.mk.inj h).2

/-! ### Rows that are written as they are checked -/

/-- What a row says about a cell of the grid. -/
def rowAt (width : UInt16) (row : PaneSurfacePatchRow) (index : Nat) : Option CellData :=
  let start := row.y.toNat * width.toNat + row.x.toNat
  if start ≤ index then row.cells[index - start]? else none

/-- The cell that rows leave at a place: the last one to reach it decides. -/
def lastWritten (width : UInt16) (rows : List PaneSurfacePatchRow) (index : Nat) :
    Option CellData :=
  rows.foldl (fun cell row => (rowAt width row index).or cell) none

theorem foldl_rowAt (width : UInt16) (rows : List PaneSurfacePatchRow) (index : Nat)
    (cell : Option CellData) :
    rows.foldl (fun cell row => (rowAt width row index).or cell) cell
      = (lastWritten width rows index).or cell := by
  induction rows using List.reverseRecOn with
  | nil => rfl
  | append_singleton rows row ih =>
    unfold lastWritten at ih ⊢
    rw [List.foldl_append, List.foldl_append, List.foldl_cons, List.foldl_cons, List.foldl_nil,
      List.foldl_nil, ih, Option.or_assoc]

theorem lastWritten_cons (width : UInt16) (row : PaneSurfacePatchRow)
    (rows : List PaneSurfacePatchRow) (index : Nat) :
    lastWritten width (row :: rows) index
      = (lastWritten width rows index).or (rowAt width row index) := by
  rw [← foldl_rowAt]
  unfold lastWritten
  rw [List.foldl_cons, Option.or_none]

/-- Whether a row fits depends on the size of the baseline, not on its cells. -/
theorem rowFits_of_length {cells : List CellData} (h : cells.length = base.cells.length) :
    ({ base with cells := cells } : CellBaseline).rowFits = base.rowFits := by
  funext row
  unfold CellBaseline.rowFits
  dsimp only
  rw [h]

variable {row : PaneSurfacePatchRow} {patch : PaneSurfacePatch}

theorem end_le_of_rowFits (h : base.rowFits row = true) :
    row.y.toNat * base.width.toNat + row.x.toNat + row.cells.length ≤ base.cells.length := by
  unfold CellBaseline.rowFits at h
  simp only [Bool.and_eq_true, decide_eq_true_eq] at h
  exact h.2

/-- Writing a row into a list of cells, cell by cell. -/
theorem getElem?_setSlice_row {cells : List CellData} {width : UInt16}
    (h : row.y.toNat * width.toNat + row.x.toNat + row.cells.length ≤ cells.length) (index : Nat) :
    (setSlice cells (row.y.toNat * width.toNat + row.x.toNat) row.cells)[index]?
      = (rowAt width row index).or cells[index]? := by
  rw [getElem?_setSlice h]
  unfold rowAt
  dsimp only
  by_cases hlow : row.y.toNat * width.toNat + row.x.toNat ≤ index
  · rw [if_pos hlow]
    by_cases hhigh : index < row.y.toNat * width.toNat + row.x.toNat + row.cells.length
    · rw [if_pos ⟨hlow, hhigh⟩, List.getElem?_eq_getElem (by omega), Option.some_or]
    · have hbehind : row.cells[index - (row.y.toNat * width.toNat + row.x.toNat)]? = none :=
        List.getElem?_eq_none (by omega)
      rw [if_neg (fun hin => hhigh hin.2), hbehind, Option.none_or]
  · rw [if_neg (fun hin => hlow hin.1), if_neg hlow, Option.none_or]

/-- Writing rows: the ones before the first that does not fit are written, and nothing but the
cells changes. -/
theorem writeRows_spec (base : CellBaseline) (rows : List PaneSurfacePatchRow) :
    ∃ cells, writeRows base rows = ({ base with cells }, rows.all base.rowFits)
      ∧ cells.length = base.cells.length
      ∧ ∀ index, cells[index]?
        = (lastWritten base.width (rows.takeWhile base.rowFits) index).or base.cells[index]? := by
  induction rows generalizing base with
  | nil => exact ⟨base.cells, rfl, rfl, fun index => rfl⟩
  | cons row rest ih =>
    cases hrow : base.rowFits row with
    | false =>
      refine ⟨base.cells, ?_, rfl, fun index => ?_⟩
      · unfold writeRows
        rw [hrow, List.all_cons, hrow]
        rfl
      · rw [List.takeWhile_cons, hrow]
        rfl
    | true =>
      have hend := end_le_of_rowFits hrow
      have hlen := length_setSlice hend
      obtain ⟨cells, hwrite, hcells, hget⟩ := ih { base with
        cells := setSlice base.cells (row.y.toNat * base.width.toNat + row.x.toNat) row.cells }
      rw [rowFits_of_length hlen] at hwrite hget
      refine ⟨cells, ?_, hcells.trans hlen, fun index => ?_⟩
      · unfold writeRows
        rw [hrow, List.all_cons, hrow]
        exact hwrite
      · rw [hget, List.takeWhile_cons, hrow]
        dsimp only
        rw [if_pos rfl, lastWritten_cons, Option.or_assoc, getElem?_setSlice_row hend]

/-- Rows that say nothing new: the last one to reach a cell has what is there. -/
def SaysNothingNew (base : CellBaseline) (rows : List PaneSurfacePatchRow) : Prop :=
  ∀ index cell, lastWritten base.width rows index = some cell → base.cells[index]? = some cell

theorem writeRows_eq_iff {rows : List PaneSurfacePatchRow} :
    (writeRows base rows).1 = base ↔ SaysNothingNew base (rows.takeWhile base.rowFits) := by
  obtain ⟨cells, hwrite, -, hget⟩ := writeRows_spec base rows
  rw [hwrite]
  constructor
  · intro heq index cell hcell
    have hsame : cells = base.cells := congrArg CellBaseline.cells heq
    rw [← hsame, hget, hcell, Option.some_or]
  · intro hnothing
    have hsame : cells = base.cells := by
      apply List.ext_getElem?
      intro index
      rw [hget]
      cases hcell : lastWritten base.width (rows.takeWhile base.rowFits) index with
      | none => rw [Option.none_or]
      | some cell => rw [Option.some_or, hnothing index cell hcell]
    show ({ base with cells := cells } : CellBaseline) = base
    rw [hsame]

/-! ### Refused messages -/

/-- A patch that continues the baseline and has a row outside of it is refused, with its rows up
to that one written. -/
theorem acceptPatch_outside (hbase : decoder.baseline = some base)
    (hmatches : base.matchesPatch patch = true) (hall : patch.rows.all base.rowFits = false) :
    acceptPatch decoder patch
      = ({ decoder with baseline := some (writeRows base patch.rows).1 },
        .error .patchExceedsBaseline) := by
  obtain ⟨cells, hwrite, -, -⟩ := writeRows_spec base patch.rows
  rw [hall] at hwrite
  unfold acceptPatch
  rw [hbase]
  dsimp only
  rw [hmatches, hwrite]
  rfl

/-- No other patch is refused. -/
theorem acceptPatch_error (h : acceptPatch decoder patch = (after, .error error)) :
    ∃ base, decoder.baseline = some base ∧ base.matchesPatch patch = true
      ∧ patch.rows.all base.rowFits = false := by
  unfold acceptPatch at h
  split at h
  next => cases (Prod.mk.inj h).2
  next base hbase =>
    refine ⟨base, hbase, ?_⟩
    cases hmatches : base.matchesPatch patch with
    | false =>
      rw [hmatches] at h
      cases (Prod.mk.inj h).2
    | true =>
      refine ⟨rfl, ?_⟩
      obtain ⟨cells, hwrite, -, -⟩ := writeRows_spec base patch.rows
      cases hall : patch.rows.all base.rowFits with
      | false => rfl
      | true =>
        rw [hmatches, hwrite, hall] at h
        cases (Prod.mk.inj h).2

theorem map_eq_error {ε α β : Type} {f : α → β} {result : Except ε α} {error : ε}
    (h : result.map f = .error error) : result = .error error := by
  cases result with
  | error refusal => exact congrArg Except.error (Except.error.inj h)
  | ok value => cases h

/-- A step on the baseline that leaves it alone when it fails, as a step of the decoder. -/
theorem eq_of_map_error {α β : Type} {step : Option (CellBaseline × Except Rejection α)} {f : α → β}
    (hbase : decoder.baseline = some base)
    (hstep : ∀ next, step = some (next, .error error) → next = base)
    (h : step.map (fun stepped => ({ decoder with baseline := some stepped.1 }, stepped.2.map f))
      = some (after, .error error)) : after = decoder := by
  obtain ⟨stepped, hstepped, h⟩ := Option.map_eq_some_iff.mp h
  obtain ⟨rfl, hresult⟩ := Prod.mk.inj h
  have hsame : stepped.1 = base :=
    hstep stepped.1 (by rw [hstepped, ← map_eq_error hresult])
  rw [hsame, ← hbase]

section

variable {Other : Type} (parseReuse : String → Option SurfaceReuse)

theorem decode_patch (decoder : Decoder) (patch : PaneSurfacePatch) :
    decoder.decode parseReuse (.known (.paneSurfacePatch patch) : Incoming Other)
      = some ((acceptPatch decoder patch).1,
        (acceptPatch decoder patch).2.map fun patch => .known (.paneSurfacePatch patch)) := rfl

variable {decoder : Decoder} {error : Rejection}

/-- A refused control message changes nothing. -/
theorem decode_control_error {after : Decoder} {kind data : String}
    (h : decoder.decode parseReuse (.known (.endpointControl kind data) : Incoming Other)
      = some (after, .error error)) : after = decoder := by
  dsimp only [Decoder.decode] at h
  split at h
  · -- A delta.
    split at h
    · exact (Prod.mk.inj (Option.some.inj h)).1.symm
    · cases hbase : decoder.baseline with
      | none =>
        rw [hbase] at h
        exact (Prod.mk.inj (Option.some.inj h)).1.symm
      | some base =>
        rw [hbase] at h
        exact eq_of_map_error hbase (fun next => decodeDelta_error) h
  · split at h
    · -- A scroll message.
      split at h
      · exact (Prod.mk.inj (Option.some.inj h)).1.symm
      · cases hbase : decoder.baseline with
        | none =>
          rw [hbase] at h
          exact (Prod.mk.inj (Option.some.inj h)).1.symm
        | some base =>
          rw [hbase] at h
          exact eq_of_map_error hbase (fun next => decodeScroll_error) h
    · split at h
      · -- A reuse message.
        split at h
        · exact (Prod.mk.inj (Option.some.inj h)).1.symm
        next reuse _ =>
          obtain ⟨rfl, hresult⟩ := Prod.mk.inj (Option.some.inj h)
          exact acceptReuse_error (Prod.ext rfl (map_eq_error hresult))
      · cases h

/-- A refused message other than a plain patch changes nothing. -/
theorem decode_error {after : Decoder} {message : Incoming Other}
    (h : decoder.decode parseReuse message = some (after, .error error)) :
    after = decoder ∨ ∃ patch, message = .known (.paneSurfacePatch patch)
      ∧ acceptPatch decoder patch = (after, .error error) := by
  cases message with
  | other message => cases h
  | known message =>
    cases message with
    | paneSurface surface => cases h
    | paneSurfacePatch patch =>
      rw [decode_patch] at h
      obtain ⟨hafter, hresult⟩ := Prod.mk.inj (Option.some.inj h)
      exact .inr ⟨patch, rfl, Prod.ext hafter (map_eq_error hresult)⟩
    | endpointControl kind data => exact .inl (decode_control_error parseReuse h)

/-- The baseline survives every refusal but one: that of a plain patch that continues it, with
rows before the first one outside the grid that say something new. -/
theorem rejection_keeps_baseline_iff (decoder : Decoder) (message : Incoming Other) :
    (∀ after error, decoder.decode parseReuse message = some (after, .error error) →
        after.baseline = decoder.baseline)
      ↔ ∀ base patch, decoder.baseline = some base → message = .known (.paneSurfacePatch patch) →
        base.matchesPatch patch = true → patch.rows.all base.rowFits = false →
        SaysNothingNew base (patch.rows.takeWhile base.rowFits) := by
  constructor
  · intro hkeeps base patch hbase hmessage hmatches hall
    subst hmessage
    have hpatch := acceptPatch_outside hbase hmatches hall
    have hdecode : decoder.decode parseReuse (.known (.paneSurfacePatch patch) : Incoming Other)
        = some ({ decoder with baseline := some (writeRows base patch.rows).1 },
          .error .patchExceedsBaseline) := by
      rw [decode_patch, hpatch]
      rfl
    have hbaseline := (hkeeps _ _ hdecode).trans hbase
    exact writeRows_eq_iff.mp (Option.some.inj hbaseline)
  · intro hnothing after error h
    rcases decode_error parseReuse h with rfl | ⟨patch, hmessage, hpatch⟩
    · rfl
    · obtain ⟨base, hbase, hmatches, hall⟩ := acceptPatch_error hpatch
      rw [acceptPatch_outside hbase hmatches hall] at hpatch
      obtain ⟨rfl, -⟩ := Prod.mk.inj hpatch
      rw [hbase]
      exact congrArg some (writeRows_eq_iff.mpr (hnothing base patch hbase hmessage hmatches hall))

end

/-- One line of two cells. -/
def shownLine : PaneSurfaceFrame where
  bootId := "boot"
  projectionRevision := 1
  surfaceRevision := 1
  frame := {
    cells := [Delta.letter "a", Delta.letter "b"], width := 2, height := 1, cursor := none
    hyperlinks := [], graphics := [] }
  panes := []
  splits := []
  popup := none
  graphics := { assets := [], placements := [], retainedAssets := [] }

/-- The next patch, whose second row is below the line. -/
def patchBelow : PaneSurfacePatch where
  bootId := "boot"
  projectionRevision := 1
  baseSurfaceRevision := 1
  surfaceRevision := 2
  rows := [⟨0, 0, [Delta.letter "x"]⟩, ⟨0, 1, [Delta.letter "y"]⟩]
  panes := []
  cursor := none

/-- From a fresh decoder: after one surface, the patch is refused and its first row has been
written. -/
theorem refused_patch_changes_cells :
    let decoder := acceptSurface (Decoder.new false false) shownLine
    let parse (_ : String) : Option SurfaceReuse := none
    (Decoder.new false false).decode parse (.known (.paneSurface shownLine) : Incoming Unit)
        = some (decoder, .ok (.known (.paneSurface shownLine)))
      ∧ ∃ after, decoder.decode parse (.known (.paneSurfacePatch patchBelow) : Incoming Unit)
          = some (after, .error .patchExceedsBaseline)
        ∧ after.baseline.map CellBaseline.cells = some [Delta.letter "x", Delta.letter "b"]
        ∧ decoder.baseline.map CellBaseline.cells = some [Delta.letter "a", Delta.letter "b"]
        ∧ after.baseline ≠ decoder.baseline := by
  refine ⟨rfl, _, rfl, rfl, rfl, ?_⟩
  decide

end Herden.Proofs.Surface.Reuse
