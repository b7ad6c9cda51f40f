import Herden.Proofs.Surface.Wire
import Herden.Runtime.Surface.Delta

/-!
# `Herden.Proofs.Surface.Delta`: the spans of a delta

The spans that the sender finds are the changed runs of the two grids (`Lib.gridRuns`), with
coordinates that the machine's 16-bit numbers hold as long as the grid's size does
(`differingSpans_span`). What the library says about runs then says that they are in order, apart
from each other and inside the grid, and that writing them gives the new grid.

The decoder checks the spans again, one at a time, against where the last one ended and how many
cells there were (`checkSpan`). Spans that end before the next one starts never have more cells
than the place where the last one ended, which is all that its budget asks
(`reads_decodeSpans`).
-/

namespace Herden.Proofs.Surface.Delta

open Herden.Lib
open Herden.Lib.Bincode
open Herden.Runtime.Wire
open Herden.Runtime.Surface.Delta

/-! ### The spans as runs of the grid -/

section

variable {last next : List CellData} {width height : UInt16}

/-- Pairs of rows with their numbers, in order. -/
theorem zip_range_flatMap {α β : Type} (f g : Nat → α) (k : (α × α) × Nat → List β) (count : Nat) :
    (((List.range count).map f).zip ((List.range count).map g)).zipIdx.flatMap k
      = (List.range count).flatMap fun y => k ((f y, g y), y) := by
  have hpairs : (((List.range count).map f).zip ((List.range count).map g)).zipIdx
      = (List.range count).map fun y => ((f y, g y), y) := by
    apply List.ext_getElem?
    intro y
    simp only [List.getElem?_zipIdx, List.zip_map', List.getElem?_map,
      Option.map_map, Nat.zero_add]
    rcases Nat.lt_or_ge y count with hy | hy
    · rw [List.getElem?_range hy]
      rfl
    · rw [List.getElem?_eq_none (by simpa using hy)]
      rfl
  rw [hpairs, List.flatMap_map]

theorem differingSpans_eq (hwidth : 0 < width.toNat)
    (hlast : last.length = width.toNat * height.toNat)
    (hnext : next.length = width.toNat * height.toNat) :
    differingSpans last next width.toNat = (List.range height.toNat).flatMap fun y =>
      (changedRuns (gridRow width.toNat last y) (gridRow width.toNat next y)).map (cellSpan y) := by
  unfold differingSpans
  rw [chunks_eq hwidth hlast, chunks_eq hwidth hnext, zip_range_flatMap]

/-- Coordinates inside the grid fit the fields of a span. -/
theorem cellSpan_span {y : Nat} (hy : y < height.toNat) {run : Nat × List CellData}
    (hrun : run.1 ≤ width.toNat) : (cellSpan y run).span = runSpan 0 y run := by
  have hwidth := width.toNat_lt
  have hheight := height.toNat_lt
  unfold PaneSurfacePatchRow.span cellSpan runSpan
  dsimp only
  rw [UInt16.toNat_ofNat', UInt16.toNat_ofNat', Nat.mod_eq_of_lt (by omega),
    Nat.mod_eq_of_lt (by omega), Nat.zero_add]

/-- Without columns there are no rows to compare. -/
theorem differingSpans_zero (last next : List CellData) : differingSpans last next 0 = [] := by
  unfold differingSpans chunks
  rw [Nat.div_zero, Nat.div_zero]
  rfl

theorem differingSpans_span (hlast : last.length = width.toNat * height.toNat)
    (hnext : next.length = width.toNat * height.toNat) :
    (differingSpans last next width.toNat).map PaneSurfacePatchRow.span
      = gridRuns width.toNat height.toNat last next := by
  rcases Nat.eq_zero_or_pos width.toNat with hwidth | hwidth
  · rw [hwidth, differingSpans_zero]
    refine (List.eq_nil_iff_forall_not_mem.mpr fun span hmem => ?_).symm
    rw [hwidth, Nat.zero_mul] at hnext
    have hnext' : next.length = 0 * height.toNat := by rw [hnext, Nat.zero_mul]
    obtain ⟨⟨-, hend⟩, hne⟩ := gridRuns_inside hnext' hmem
    have hpos := List.length_pos_iff.mpr hne
    omega
  · rw [differingSpans_eq hwidth hlast hnext, List.map_flatMap]
    unfold gridRuns
    refine List.flatMap_congr fun y hy => ?_
    rw [List.map_map]
    refine List.map_congr_left fun run hrun => ?_
    have hy := List.mem_range.mp hy
    have hhigh := (changedRunsFrom_inside (Nat.zero_le _) hrun).2.1
    rw [length_gridRow hnext hy] at hhigh
    have hcolumn : run.1 ≤ width.toNat := by omega
    exact cellSpan_span hy hcolumn

end

/-! ### Collecting them -/

/-- The bytes of some spans. -/
def spansSize (spans : List PaneSurfacePatchRow) : Nat :=
  (encode (spans.flatMap PaneSurfacePatchRow.tokens)).length

/-- Spans worth sending: there are not too many, and their bytes are fewer than those of the full
surface. -/
def Affordable (fullSize : Nat) (spans : List PaneSurfacePatchRow) : Prop :=
  spans.length ≤ maxSpans
    ∧ (spans ≠ [] → ∃ len, Base64.encodedLen (spansSize spans) = some len ∧ len < fullSize)

theorem spansSize_append (spans : List PaneSurfacePatchRow) (span : PaneSurfacePatchRow) :
    spansSize (spans ++ [span]) = spansSize spans + encodedSize span.tokens := by
  unfold spansSize encodedSize
  rw [List.flatMap_append, List.flatMap_singleton, encode_append, List.length_append]

theorem spansSize_le_append (spans more : List PaneSurfacePatchRow) :
    spansSize spans ≤ spansSize (spans ++ more) := by
  unfold spansSize
  rw [List.flatMap_append, encode_append, List.length_append]
  exact Nat.le_add_right _ _

variable {fullSize : Nat} {spans : List PaneSurfacePatchRow} {width height : UInt16}

theorem Affordable.of_append {more : List PaneSurfacePatchRow}
    (h : Affordable fullSize (spans ++ more)) : Affordable fullSize spans := by
  obtain ⟨hcount, hsize⟩ := h
  rw [List.length_append] at hcount
  refine ⟨by omega, fun hne => ?_⟩
  obtain ⟨len, hlen, hlt⟩ := hsize (by simp [hne])
  obtain ⟨shorter, hshorter, hle⟩ := Base64.encodedLen_mono (spansSize_le_append spans more) hlen
  exact ⟨shorter, hshorter, by omega⟩

variable {after : Nat × List PaneSurfacePatchRow} {span : PaneSurfacePatchRow}
  {previousEnd totalCells start : Nat}

/-- One span is kept when all of them together are affordable. -/
theorem addSpan_eq_some (h : Affordable fullSize spans) :
    addSpan fullSize (spansSize spans, spans) span = some after
      ↔ Affordable fullSize (spans ++ [span])
        ∧ after = (spansSize (spans ++ [span]), spans ++ [span]) := by
  have hcount := h.1
  unfold addSpan Affordable
  dsimp only
  rw [← spansSize_append, List.length_append, List.length_singleton]
  cases hlen : Base64.encodedLen (spansSize (spans ++ [span])) with
  | none => simp
  | some len =>
    by_cases hfull : spans.length = maxSpans
    · simp [hfull]
    · by_cases hsize : fullSize ≤ len
      · simp [hsize]
      · simp only [hfull, hsize, Option.all_some, decide_false, Bool.or_self, Bool.false_eq_true,
          if_false, Option.some.injEq, ne_eq, exists_eq_left', ge_iff_le]
        constructor
        · rintro rfl
          exact ⟨⟨by omega, fun _ => by omega⟩, rfl⟩
        · rintro ⟨-, rfl⟩
          rfl

/-- So are all of them. -/
theorem foldlM_addSpan {before : List PaneSurfacePatchRow} (h : Affordable fullSize before)
    (spans : List PaneSurfacePatchRow) :
    spans.foldlM (addSpan fullSize) (spansSize before, before) = some after
      ↔ Affordable fullSize (before ++ spans)
        ∧ after = (spansSize (before ++ spans), before ++ spans) := by
  induction spans generalizing before with
  | nil =>
    rw [List.append_nil]
    exact ⟨fun heq => ⟨h, (Option.some.inj heq).symm⟩, fun heq => congrArg some heq.2.symm⟩
  | cons span rest ih =>
    rw [List.foldlM_cons, Option.bind_eq_bind, Option.bind_eq_some_iff, List.append_cons]
    constructor
    · rintro ⟨middle, hmiddle, hrest⟩
      obtain ⟨hspan, rfl⟩ := (addSpan_eq_some h).mp hmiddle
      exact (ih hspan).mp hrest
    · rintro ⟨hall, rfl⟩
      exact ⟨_, (addSpan_eq_some h).mpr ⟨hall.of_append, rfl⟩, (ih hall.of_append).mpr ⟨hall, rfl⟩⟩

theorem changedRows_eq_some {last next : List CellData} :
    changedRows last next width fullSize = some spans
      ↔ spans = differingSpans last next width.toNat ∧ Affordable fullSize spans := by
  have hempty : Affordable fullSize [] := ⟨Nat.zero_le _, fun hne => absurd rfl hne⟩
  unfold changedRows
  split
  next hwidth =>
    subst hwidth
    show some [] = some spans ↔ spans = differingSpans last next 0 ∧ _
    rw [differingSpans_zero]
    constructor
    · intro h
      obtain rfl := Option.some.inj h
      exact ⟨rfl, hempty⟩
    · rintro ⟨rfl, -⟩
      rfl
  next hwidth =>
    rw [Option.map_eq_some_iff]
    constructor
    · rintro ⟨after, hafter, rfl⟩
      obtain ⟨hall, rfl⟩ := (foldlM_addSpan hempty _).mp hafter
      exact ⟨rfl, hall⟩
    · rintro ⟨rfl, hall⟩
      exact ⟨_, (foldlM_addSpan hempty _).mpr ⟨hall, rfl⟩, rfl⟩

/-! ### Reading them back -/

/-- What the decoder asks of one span: cells in one row of the grid, behind the span before it
and within the budget. -/
theorem checkSpan_eq_ok {cellBudget : Nat} {x y : UInt16} {cellsLen : Nat} {after : Nat × Nat} :
    checkSpan width height cellBudget totalCells previousEnd x y cellsLen = .ok after
      ↔ (0 < cellsLen ∧ y.toNat < height.toNat ∧ x.toNat + cellsLen ≤ width.toNat
          ∧ previousEnd ≤ y.toNat * width.toNat + x.toNat ∧ totalCells + cellsLen ≤ cellBudget)
        ∧ after = (totalCells + cellsLen, y.toNat * width.toNat + x.toNat + cellsLen) := by
  unfold checkSpan
  dsimp only
  split
  next hrow =>
    simp only [Bool.or_eq_true, decide_eq_true_eq, ge_iff_le, UInt16.le_iff_toNat_le] at hrow
    constructor
    · intro h
      cases h
    · rintro ⟨⟨hpos, hy, hx, -⟩, -⟩
      omega
  next hrow =>
    simp only [Bool.or_eq_true, decide_eq_true_eq, ge_iff_le, UInt16.le_iff_toNat_le] at hrow
    split
    next hsorted =>
      constructor
      · intro h
        cases h
      · rintro ⟨⟨-, -, -, hstart, -⟩, -⟩
        omega
    next hsorted =>
      split
      next hbudget =>
        constructor
        · intro h
          cases h
        · rintro ⟨⟨-, -, -, -, htotal⟩, -⟩
          omega
      next hbudget =>
        constructor
        · intro h
          exact ⟨⟨by omega, by omega, by omega, by omega, by omega⟩, (Except.ok.inj h).symm⟩
        · rintro ⟨-, rfl⟩
          rfl

/-- Spans that lie inside the grid, are not empty and come in order, from a position on. -/
structure Ordered (width height : UInt16) (start : Nat) (spans : List PaneSurfacePatchRow) :
    Prop where
  inside : ∀ span ∈ spans, span.span.Fits width.toNat height.toNat ∧ span.cells ≠ []
  behind : ∀ span ∈ spans, start ≤ span.span.start width.toNat
  sorted : spans.Pairwise fun a b =>
    a.span.start width.toNat + a.cells.length ≤ b.span.start width.toNat

theorem Ordered.tail {rest : List PaneSurfacePatchRow}
    (h : Ordered width height start (span :: rest)) :
    Ordered width height (span.span.start width.toNat + span.cells.length) rest where
  inside := fun other hmem => h.inside other (by simp [hmem])
  behind := fun other hmem => (List.pairwise_cons.mp h.sorted).1 other hmem
  sorted := (List.pairwise_cons.mp h.sorted).2

/-- The spans have no more cells than there are behind the position they start from. -/
theorem Ordered.length_le (h : Ordered width height start spans)
    (hstart : start ≤ width.toNat * height.toNat) :
    start + spans.length ≤ width.toNat * height.toNat := by
  induction spans generalizing start with
  | nil => exact hstart
  | cons span rest ih =>
    obtain ⟨hfits, hne⟩ := h.inside span (by simp)
    have hbehind := h.behind span (by simp)
    have hpos := List.length_pos_iff.mpr hne
    have hend : span.span.start width.toNat + span.cells.length ≤ width.toNat * height.toNat :=
      hfits.end_le
    have hrest := ih h.tail hend
    rw [List.length_cons]
    omega

/-- The decoder reads back spans in order. The cells so far never outnumber the positions so
far. -/
theorem reads_decodeSpans (h : Ordered width height previousEnd spans)
    (htotal : totalCells ≤ previousEnd) :
    Reads (decodeSpans width height (width.toNat * height.toNat) spans.length totalCells
      previousEnd) (spans.flatMap PaneSurfacePatchRow.tokens) spans := by
  induction spans generalizing totalCells previousEnd with
  | nil => exact .pure []
  | cons span rest ih =>
    obtain ⟨hfits, hne⟩ := h.inside span (by simp)
    have hbehind := h.behind span (by simp)
    have hend : span.span.start width.toNat + span.cells.length ≤ width.toNat * height.toNat :=
      hfits.end_le
    have hcheck : checkSpan width height (width.toNat * height.toNat) totalCells previousEnd span.x
        span.y span.cells.length
        = .ok (totalCells + span.cells.length,
          span.span.start width.toNat + span.cells.length) :=
      checkSpan_eq_ok.mpr ⟨⟨List.length_pos_iff.mpr hne, hfits.1, hfits.2, hbehind, by omega⟩, rfl⟩
    have hwords : span.cells.length < 2 ^ 64 := by
      have hx := hfits.2
      have hwidth := width.toNat_lt
      dsimp only [PaneSurfacePatchRow.span] at hx
      omega
    refine .of_eq (.bind (reads_u16 span.x) <| .bind (reads_u16 span.y) <|
      .bind (reads_len hwords) <| .bind (reads_ok hcheck) <|
      .bind (reads_many span.cells fun cell _ => reads_cellData cell) <|
      (ih h.tail (show totalCells + span.cells.length ≤ _ by omega)).map (span :: ·)) ?_
    simp [PaneSurfacePatchRow.tokens, seqTokens]

theorem reads_decodeCount {max count : Nat} {message : String} (hmax : count ≤ max)
    (hwords : count < 2 ^ 64) : Reads (decodeCount max message) [.len count] count := by
  show Reads (decodeLen >>= _) ([.len count] ++ []) count
  refine (reads_len hwords).bind ?_
  rw [if_neg (by omega)]
  exact .pure count

/-- Spans in order that are not too many are accepted, whatever else the message holds. -/
theorem reads_decodeRows {cells : Nat} (hgrid : checkedGridSize width height = .ok cells)
    (h : Ordered width height 0 spans) (hcount : spans.length ≤ maxSpans) :
    Reads (decodeRows width height) (seqTokens PaneSurfacePatchRow.tokens spans) spans := by
  have hcells : cells = width.toNat * height.toNat := by
    unfold checkedGridSize at hgrid
    dsimp only at hgrid
    split at hgrid
    · cases hgrid
    · split at hgrid
      · cases hgrid
      · exact (Except.ok.inj hgrid).symm
  subst hcells
  have hlen := h.length_le (Nat.zero_le _)
  have hmax : spans.length ≤ min maxSpans (width.toNat * height.toNat) := by
    rw [Nat.zero_add] at hlen
    exact Nat.le_min.mpr ⟨hcount, hlen⟩
  have hwords : spans.length < 2 ^ 64 := Nat.lt_of_le_of_lt hcount (by decide)
  refine .of_eq (.bind (reads_ok hgrid) <| .bind (reads_decodeCount hmax hwords)
    (reads_decodeSpans h (Nat.le_refl 0))) ?_
  rfl

/-! ### What the spans say -/

section

variable {last next : List CellData} {width height : UInt16}

/-- The spans of a difference lie in the grid and in order. -/
theorem ordered_differingSpans (hlast : last.length = width.toNat * height.toNat)
    (hnext : next.length = width.toNat * height.toNat) :
    Ordered width height 0 (differingSpans last next width.toNat) := by
  have hspans := differingSpans_span hlast hnext
  have hmem : ∀ span ∈ differingSpans last next width.toNat,
      span.span ∈ gridRuns width.toNat height.toNat last next := by
    intro span hmem
    rw [← hspans]
    exact List.mem_map_of_mem hmem
  refine ⟨fun span h => gridRuns_inside hnext (hmem span h), fun _ _ => Nat.zero_le _, ?_⟩
  have hpairwise : (gridRuns width.toNat height.toNat last next).Pairwise _ :=
    gridRuns_pairwise hnext
  rw [← hspans] at hpairwise
  exact List.pairwise_map.mp hpairwise

theorem applyRows_differingSpans (hlast : last.length = width.toNat * height.toNat)
    (hnext : next.length = width.toNat * height.toNat) :
    applyRows last width (differingSpans last next width.toNat) = some next := by
  unfold applyRows
  rw [differingSpans_span hlast hnext,
    writeSpans?_eq hlast fun span hmem => (gridRuns_inside hnext hmem).1,
    writeSpans_gridRuns hlast hnext]

variable {spans : List PaneSurfacePatchRow}

/-- Spans in order share no position. -/
theorem Ordered.disjoint {start : Nat} (h : Ordered width height start spans) :
    spans.Pairwise fun a b => a.span.Disjoint b.span := by
  refine h.sorted.imp_of_mem fun {a b} ha hb hab x y hax hbx => ?_
  obtain ⟨hya, -, hxa⟩ := hax
  obtain ⟨hyb, hxb, -⟩ := hbx
  unfold Span.start at hab
  rw [hya, hyb] at hab
  have hlen : a.span.cells.length = a.cells.length := rfl
  omega

/-- Spans worth sending are short enough to be read back. -/
theorem Affordable.length_encode_lt {fullSize : Nat} (h : Affordable fullSize spans) :
    (encode (seqTokens PaneSurfacePatchRow.tokens spans)).length < 2 ^ 64 := by
  have hcount := length_varint_le spans.length
  have hsize : spansSize spans < 3 * 2 ^ 62 := by
    by_cases hne : spans = []
    · subst hne
      decide
    · obtain ⟨len, hlen, -⟩ := h.2 hne
      exact Base64.lt_of_encodedLen hlen
  unfold spansSize at hsize
  show (varint spans.length ++ encode (spans.flatMap PaneSurfacePatchRow.tokens)).length < _
  rw [List.length_append]
  omega

/-- The spans between two grids of one size. There are some exactly when they are worth sending.
They are not empty, lie inside the grid, come in order and share no position; every cell that
differs is in one of them; written over the last grid they give the next one; and the decoder
takes them from any input that starts with them, as far as its limit of bytes allows. -/
theorem changedRows_exact (hlast : last.length = width.toNat * height.toNat)
    (hnext : next.length = width.toNat * height.toNat) (fullSize : Nat) :
    ((changedRows last next width fullSize).isSome = true
        ↔ Affordable fullSize (differingSpans last next width.toNat))
      ∧ ∀ spans, changedRows last next width fullSize = some spans →
        Ordered width height 0 spans
          ∧ spans.Pairwise (fun a b => a.span.Disjoint b.span)
          ∧ (∀ x y, x < width.toNat → y < height.toNat →
            cellAt width.toNat last x y ≠ cellAt width.toNat next x y →
              ∃ span ∈ spans, span.span.Covers x y)
          ∧ applyRows last width spans = some next
          ∧ ∀ cells, checkedGridSize width height = .ok cells → ∀ rest limit,
            decodeRows width height
                ⟨encode (seqTokens PaneSurfacePatchRow.tokens spans) ++ rest, limit⟩
              = (spend limit (claims (seqTokens PaneSurfacePatchRow.tokens spans))).map
                fun limit => (spans, ⟨rest, limit⟩) := by
  refine ⟨?_, fun spans hspans => ?_⟩
  · rw [Option.isSome_iff_exists]
    constructor
    · rintro ⟨spans, hspans⟩
      obtain ⟨rfl, haffordable⟩ := changedRows_eq_some.mp hspans
      exact haffordable
    · exact fun haffordable => ⟨_, changedRows_eq_some.mpr ⟨rfl, haffordable⟩⟩
  · obtain ⟨rfl, haffordable⟩ := changedRows_eq_some.mp hspans
    have hordered := ordered_differingSpans hlast hnext
    refine ⟨hordered, hordered.disjoint, fun x y hx hy hdiffer => ?_,
      applyRows_differingSpans hlast hnext, fun cells hgrid rest limit => ?_⟩
    · obtain ⟨span, hmem, hcovers⟩ := exists_mem_gridRuns hlast hnext hx hy hdiffer
      rw [← differingSpans_span hlast hnext] at hmem
      obtain ⟨row, hrow, rfl⟩ := List.mem_map.mp hmem
      exact ⟨row, hrow, hcovers⟩
    · exact reads_decodeRows hgrid hordered haffordable.1 haffordable.length_encode_lt rest limit

end

/-- A cell that shows one letter. -/
def letter (symbol : String) : CellData :=
  { symbol, fg := 7, bg := 0, modifier := 0, skip := false, hyperlink := none }

def twoLines : List CellData := ["a", "b", "c", "d", "e", "f"].map letter

/-- Both ends of the first line and all of the second one. -/
def twoLinesLater : List CellData := ["x", "b", "y", "z", "u", "v"].map letter

theorem changedRows_exact_twoLines :
    ∃ spans, changedRows twoLines twoLinesLater 3 1000 = some spans
      ∧ applyRows twoLines 3 spans = some twoLinesLater := by
  have hsome : (changedRows twoLines twoLinesLater 3 1000).isSome = true := by decide +kernel
  obtain ⟨spans, hspans⟩ := Option.isSome_iff_exists.mp hsome
  have hexact := (changedRows_exact (show twoLines.length = (3 : UInt16).toNat * (2 : UInt16).toNat
    from rfl) (show twoLinesLater.length = _ from rfl) 1000).2 spans hspans
  exact ⟨spans, hspans, hexact.2.2.2.1⟩

end Herden.Proofs.Surface.Delta
