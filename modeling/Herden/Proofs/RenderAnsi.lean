import Herden.Runtime.RenderAnsi

/-!
# `Herden.Proofs.RenderAnsi`: drawing the changed cells draws the frame

Both ways to draw a frame go through its columns from left to right and write some of the cells. The
first half of this module follows the cursor, the style and the link, and finds that what a row shows
in the end depends only on which of its cells were written (`paint`).

`writeChangedCells` writes fewer cells. Each one it leaves out shows its glyph already, with one
exception: behind a wide cell that is skipped `writeAllCells` writes the next cell, and
`writeChangedCells` does not.
-/

namespace Herden.Proofs.RenderAnsi

open Herden.Runtime.Wire
open Herden.Runtime.RenderAnsi
open Herden.Lib.Screen

variable {unicodeWidth : String → Nat} {erase : Glyph → Glyph} {start : HostTerminal}

/-! ### Running commands -/

theorem run_append (left right : List Command) :
    start.run unicodeWidth erase (left ++ right)
      = (start.run unicodeWidth erase left).run unicodeWidth erase right := by
  unfold HostTerminal.run
  rw [List.foldl_append]

/-- The terminal behind a writer. -/
def terminalOf (unicodeWidth : String → Nat) (erase : Glyph → Glyph) (start : HostTerminal)
    (writer : Writer) : HostTerminal :=
  start.run unicodeWidth erase writer.out

@[simp] theorem terminalOf_write (writer : Writer) (command : Command) :
    terminalOf unicodeWidth erase start (writer.write command)
      = (terminalOf unicodeWidth erase start writer).exec unicodeWidth erase command := by
  show start.run unicodeWidth erase (writer.out ++ [command]) = _
  rw [run_append]
  rfl

/-- The terminal has the style and the link the writer believes it to have. -/
structure Tracks (terminal : HostTerminal) (writer : Writer) : Prop where
  hyperlink : terminal.hyperlink = writer.activeHyperlink
  style : writer.lastSgr ≠ "" → terminal.style = writer.lastSgr
  lastStyle : ∀ fg bg modifier, writer.lastStyle = some (fg, bg, modifier) →
    writer.lastSgr = buildSgr fg bg modifier

/-- Two terminals that show the same and have the cursor at the same place. -/
structure SameScreen (terminal other : HostTerminal) : Prop where
  columns : terminal.columns = other.columns
  cursor : terminal.cursor = other.cursor
  lines : terminal.lines = other.lines

theorem SameScreen.refl (terminal : HostTerminal) : SameScreen terminal terminal := ⟨rfl, rfl, rfl⟩

theorem SameScreen.trans {first second third : HostTerminal} (h : SameScreen first second)
    (h' : SameScreen second third) : SameScreen first third :=
  ⟨h.columns.trans h'.columns, h.cursor.trans h'.cursor, h.lines.trans h'.lines⟩

theorem buildSgr_ne_empty (fg bg : UInt32) (modifier : UInt16) : buildSgr fg bg modifier ≠ "" := by
  intro h
  have hlist := congrArg String.toList h
  simp [buildSgr] at hlist

variable {writer : Writer}

theorem writeStyleIfChanged_spec (cell : CellData)
    (h : Tracks (terminalOf unicodeWidth erase start writer) writer) :
    let styled := writeStyleIfChanged writer cell
    let terminal := terminalOf unicodeWidth erase start styled
    Tracks terminal styled ∧ terminal.style = buildSgr cell.fg cell.bg cell.modifier
      ∧ SameScreen terminal (terminalOf unicodeWidth erase start writer) := by
  have hne := buildSgr_ne_empty cell.fg cell.bg cell.modifier
  unfold writeStyleIfChanged
  dsimp only
  by_cases hstyle : writer.lastStyle = some (cell.fg, cell.bg, cell.modifier)
  · have hlast := h.lastStyle _ _ _ hstyle
    rw [if_neg (by simpa using hstyle)]
    refine ⟨h, ?_, .refl _⟩
    rw [h.style (by rw [hlast]; exact hne), hlast]
  · rw [if_pos hstyle]
    by_cases hsgr : buildSgr cell.fg cell.bg cell.modifier = writer.lastSgr
    · rw [if_neg (by simpa using hsgr)]
      refine ⟨⟨h.hyperlink, h.style, ?_⟩, ?_, .refl _⟩
      · intro fg bg modifier hsome
        cases hsome
        exact hsgr.symm
      · rw [hsgr]
        exact h.style (hsgr ▸ hne)
    · rw [if_pos hsgr]
      have hterm : terminalOf unicodeWidth erase start
          { writer.write (.sgr (buildSgr cell.fg cell.bg cell.modifier)) with
            lastSgr := buildSgr cell.fg cell.bg cell.modifier
            lastStyle := some (cell.fg, cell.bg, cell.modifier) }
          = { terminalOf unicodeWidth erase start writer with
              style := buildSgr cell.fg cell.bg cell.modifier } :=
        terminalOf_write writer (.sgr (buildSgr cell.fg cell.bg cell.modifier))
      rw [hterm]
      refine ⟨⟨h.hyperlink, fun _ => rfl, ?_⟩, rfl, ⟨rfl, rfl, rfl⟩⟩
      intro fg bg modifier hsome
      cases hsome
      rfl

/-- A writer that ends its link, if it has one. -/
def endHyperlink (writer : Writer) : Writer :=
  if writer.activeHyperlink.isSome then writer.write .endHyperlink else writer

theorem terminalOf_endHyperlink (h : Tracks (terminalOf unicodeWidth erase start writer) writer) :
    terminalOf unicodeWidth erase start (endHyperlink writer)
      = { terminalOf unicodeWidth erase start writer with hyperlink := none } := by
  unfold endHyperlink
  split
  · exact terminalOf_write writer .endHyperlink
  · rename_i hnone
    have hlink : (terminalOf unicodeWidth erase start writer).hyperlink = none := by
      rw [h.hyperlink]
      simpa using hnone
    rw [← hlink]

theorem endHyperlink_lastSgr (writer : Writer) :
    (endHyperlink writer).lastSgr = writer.lastSgr := by
  unfold endHyperlink
  split <;> rfl

theorem endHyperlink_lastStyle (writer : Writer) :
    (endHyperlink writer).lastStyle = writer.lastStyle := by
  unfold endHyperlink
  split <;> rfl

/-- A writer that only gives the terminal another link. -/
theorem Tracks.relink {hyperlink : Option String}
    (h : Tracks (terminalOf unicodeWidth erase start writer) writer) (linked : Writer)
    (hterminal : terminalOf unicodeWidth erase start linked
      = { terminalOf unicodeWidth erase start writer with hyperlink := hyperlink })
    (hactive : linked.activeHyperlink = hyperlink) (hsgr : linked.lastSgr = writer.lastSgr)
    (hstyle : linked.lastStyle = writer.lastStyle) :
    let terminal := terminalOf unicodeWidth erase start linked
    Tracks terminal linked ∧ terminal.hyperlink = hyperlink
      ∧ terminal.style = (terminalOf unicodeWidth erase start writer).style
      ∧ SameScreen terminal (terminalOf unicodeWidth erase start writer) := by
  dsimp only
  rw [hterminal]
  refine ⟨⟨hactive.symm, ?_, ?_⟩, rfl, rfl, ⟨rfl, rfl, rfl⟩⟩
  · rw [hsgr]
    exact h.style
  · rw [hsgr, hstyle]
    exact h.lastStyle

theorem writeHyperlinkIfChanged_spec (requested : Option String)
    (h : Tracks (terminalOf unicodeWidth erase start writer) writer) :
    let linked := writeHyperlinkIfChanged writer requested
    let terminal := terminalOf unicodeWidth erase start linked
    Tracks terminal linked ∧ terminal.hyperlink = requested.bind sanitizedHyperlinkUri
      ∧ terminal.style = (terminalOf unicodeWidth erase start writer).style
      ∧ SameScreen terminal (terminalOf unicodeWidth erase start writer) := by
  unfold writeHyperlinkIfChanged
  dsimp only
  by_cases hsame : writer.activeHyperlink = requested.bind sanitizedHyperlinkUri
  · rw [if_pos hsame]
    exact ⟨h, h.hyperlink.trans hsame, rfl, .refl _⟩
  · rw [if_neg hsame]
    have hclosed := terminalOf_endHyperlink h
    cases requested.bind sanitizedHyperlinkUri with
    | none =>
      exact h.relink { endHyperlink writer with activeHyperlink := none } hclosed rfl
        (endHyperlink_lastSgr writer) (endHyperlink_lastStyle writer)
    | some uri =>
      refine h.relink ({ endHyperlink writer with activeHyperlink := some uri }.write
        (.hyperlink uri)) ?_ rfl (endHyperlink_lastSgr writer) (endHyperlink_lastStyle writer)
      rw [terminalOf_write]
      show { terminalOf unicodeWidth erase start (endHyperlink writer) with
        hyperlink := some uri } = _
      rw [hclosed]
      rfl

/-! ### Writing a cell -/

/-- What a cell looks like. -/
def glyphOf (frame : FrameData) (cell : CellData) : Glyph :=
  ⟨cell.symbol, buildSgr cell.fg cell.bg cell.modifier,
    (cellHyperlinkUri frame cell).bind sanitizedHyperlinkUri⟩

/-- A writer that moves the cursor, if it is told where to. -/
def moveCursor (writer : Writer) : Option (Nat × Nat) → Writer
  | some (col, row) => writer.write (.cursorPosition col row)
  | none => writer

variable {col row : Nat} {cursorPosition : Option (Nat × Nat)}

theorem moveCursor_spec (hplace : cursorPosition = some (col, row) ∨ cursorPosition = none ∧
      (terminalOf unicodeWidth erase start writer).cursor = (col, row))
    (h : Tracks (terminalOf unicodeWidth erase start writer) writer) :
    let before := terminalOf unicodeWidth erase start writer
    let moved := moveCursor writer cursorPosition
    let terminal := terminalOf unicodeWidth erase start moved
    Tracks terminal moved ∧ SameScreen terminal { before with cursor := (col, row) } := by
  dsimp only
  rcases hplace with rfl | ⟨rfl, hcursor⟩
  · show Tracks (terminalOf unicodeWidth erase start (writer.write (.cursorPosition col row)))
      (writer.write (.cursorPosition col row)) ∧ SameScreen (terminalOf unicodeWidth erase start
        (writer.write (.cursorPosition col row))) _
    rw [terminalOf_write]
    exact ⟨⟨h.hyperlink, h.style, h.lastStyle⟩, ⟨rfl, rfl, rfl⟩⟩
  · exact ⟨h, ⟨rfl, hcursor, rfl⟩⟩

/-- A cell that is not skipped is written at its place. -/
theorem writeCell_spec {frame : FrameData} {cell : CellData} (hskip : cell.skip = false)
    (hplace : cursorPosition = some (col, row) ∨ cursorPosition = none ∧
      (terminalOf unicodeWidth erase start writer).cursor = (col, row))
    (h : Tracks (terminalOf unicodeWidth erase start writer) writer) :
    let before := terminalOf unicodeWidth erase start writer
    let written := writeCell frame writer cursorPosition cell
    let terminal := terminalOf unicodeWidth erase start written
    Tracks terminal written ∧ terminal.columns = before.columns
      ∧ terminal.cursor = (min (col + cellWidth unicodeWidth cell) (before.columns - 1), row)
      ∧ terminal.lines = Function.update before.lines row ((before.lines row).put erase
          before.columns col (cellWidth unicodeWidth cell) (glyphOf frame cell)) := by
  obtain ⟨hmoved, hplaced⟩ := moveCursor_spec hplace h
  obtain ⟨hstyled, hstyle, hscreen⟩ := writeStyleIfChanged_spec cell hmoved
  obtain ⟨hlinked, hlink, hkept, hscreen'⟩ :=
    writeHyperlinkIfChanged_spec (cellHyperlinkUri frame cell) hstyled
  obtain ⟨hcolumns, hcursor, hlines⟩ := (hscreen'.trans hscreen).trans hplaced
  have hwritten : writeCell frame writer cursorPosition cell
      = (writeHyperlinkIfChanged (writeStyleIfChanged (moveCursor writer cursorPosition) cell)
          (cellHyperlinkUri frame cell)).write (.print cell.symbol) := by
    unfold writeCell
    rw [if_neg (by rw [hskip]; simp)]
    cases cursorPosition <;> rfl
  dsimp only
  rw [hwritten, terminalOf_write]
  generalize writeHyperlinkIfChanged (writeStyleIfChanged (moveCursor writer cursorPosition) cell)
    (cellHyperlinkUri frame cell) = linked at *
  have hplace' : (terminalOf unicodeWidth erase start linked).cursor = (col, row) := hcursor
  refine ⟨⟨hlinked.hyperlink, hlinked.style, hlinked.lastStyle⟩, hcolumns, ?_, ?_⟩
  · show (min ((terminalOf unicodeWidth erase start linked).cursor.1 + _)
      ((terminalOf unicodeWidth erase start linked).columns - 1),
        (terminalOf unicodeWidth erase start linked).cursor.2) = _
    rw [hplace', hcolumns]
    rfl
  · show Function.update (terminalOf unicodeWidth erase start linked).lines
      (terminalOf unicodeWidth erase start linked).cursor.2
      (((terminalOf unicodeWidth erase start linked).lines
        (terminalOf unicodeWidth erase start linked).cursor.2).put erase _
        (terminalOf unicodeWidth erase start linked).cursor.1 _
        ⟨cell.symbol, (terminalOf unicodeWidth erase start linked).style,
          (terminalOf unicodeWidth erase start linked).hyperlink⟩) = _
    rw [hplace', hcolumns, hlines, hlink, hkept, hstyle]
    rfl

/-! ### Painting rows -/

section

variable {frame : FrameData} {draws : Nat → Nat → Bool}

/-- The row a terminal shows after the first columns of a row of the frame were drawn. -/
def painted (unicodeWidth : String → Nat) (erase : Glyph → Glyph) (frame : FrameData)
    (draws : Nat → Nat → Bool) (start : HostTerminal) (row : Nat) : Nat → Row Glyph :=
  paint erase frame.width.toNat (draws row)
    (fun col => cellWidth unicodeWidth (cellAt frame row col))
    (fun col => glyphOf frame (cellAt frame row col)) (start.lines row).row

/-- The rows before `row` are drawn, and `n` columns of it. -/
structure Painted (unicodeWidth : String → Nat) (erase : Glyph → Glyph) (frame : FrameData)
    (draws : Nat → Nat → Bool) (start : HostTerminal) (row n : Nat) (writer : Writer) : Prop where
  tracks : Tracks (terminalOf unicodeWidth erase start writer) writer
  columns : (terminalOf unicodeWidth erase start writer).columns = frame.width.toNat
  above : ∀ r, r < row → ((terminalOf unicodeWidth erase start writer).lines r).row
    = painted unicodeWidth erase frame draws start r frame.width.toNat
  here : ((terminalOf unicodeWidth erase start writer).lines row).row
    = painted unicodeWidth erase frame draws start row n
  below : ∀ r, row < r → (terminalOf unicodeWidth erase start writer).lines r = start.lines r

/-- The cursor is where a cell can be written without moving it. -/
def CursorAt (unicodeWidth : String → Nat) (erase : Glyph → Glyph) (frame : FrameData)
    (start : HostTerminal) (row : Nat) (writer : Writer) (nextInlineCol : Option Nat) : Prop :=
  ∀ col, nextInlineCol = some col → col < frame.width.toNat →
    (terminalOf unicodeWidth erase start writer).cursor = (col, row)

variable {row : Nat} {writer : Writer}

variable {n : Nat}

/-- Nothing is drawn at the next column. -/
theorem Painted.keep (hdraws : draws row n = false)
    (h : Painted unicodeWidth erase frame draws start row n writer) :
    Painted unicodeWidth erase frame draws start row (n + 1) writer := by
  refine ⟨h.tracks, h.columns, h.above, ?_, h.below⟩
  rw [h.here]
  unfold painted
  rw [paint_succ, hdraws]
  rfl

/-- The next cell is drawn. -/
theorem Painted.draw {nextInlineCol : Option Nat} {cursorPosition : Option (Nat × Nat)}
    (hdraws : draws row n = true) (hskip : (cellAt frame row n).skip = false)
    (hn : n < frame.width.toNat)
    (hplace : cursorPosition = some (n, row) ∨ cursorPosition = none ∧ nextInlineCol = some n)
    (h : Painted unicodeWidth erase frame draws start row n writer)
    (hcursor : CursorAt unicodeWidth erase frame start row writer nextInlineCol) :
    let written := writeCell frame writer cursorPosition (cellAt frame row n)
    Painted unicodeWidth erase frame draws start row (n + 1) written
      ∧ CursorAt unicodeWidth erase frame start row written
          (inlineCol unicodeWidth (cellAt frame row n) n) := by
  have hplace' : cursorPosition = some (n, row) ∨ cursorPosition = none ∧
      (terminalOf unicodeWidth erase start writer).cursor = (n, row) := by
    rcases hplace with hplace | ⟨hnone, hinline⟩
    · exact .inl hplace
    · exact .inr ⟨hnone, hcursor n hinline hn⟩
  obtain ⟨htracks, hcolumns, hcursor', hlines⟩ := writeCell_spec hskip hplace' h.tracks
  refine ⟨⟨htracks, hcolumns.trans h.columns, ?_, ?_, ?_⟩, ?_⟩
  · intro r hr
    rw [hlines, Function.update_of_ne (by omega)]
    exact h.above r hr
  · rw [hlines, Function.update_self, h.columns]
    unfold painted
    rw [paint_succ, hdraws]
    show put erase _ ((terminalOf unicodeWidth erase start writer).lines row).row _ _ _ = _
    rw [h.here]
    rfl
  · intro r hr
    rw [hlines, Function.update_of_ne (by omega)]
    exact h.below r hr
  · intro col hcol hlt
    unfold inlineCol at hcol
    split at hcol
    · rename_i hinline
      have hwidth : cellWidth unicodeWidth (cellAt frame row n) = 1 := by
        simp only [Bool.and_eq_true, beq_iff_eq] at hinline
        exact hinline.2
      cases hcol
      rw [hcursor', hwidth, h.columns, Nat.min_eq_left (by omega)]
    · cases hcol

/-- Nothing of a row is drawn yet when the rows before it are. -/
theorem Painted.nextRow
    (h : Painted unicodeWidth erase frame draws start row frame.width.toNat writer) :
    Painted unicodeWidth erase frame draws start (row + 1) 0 writer := by
  refine ⟨h.tracks, h.columns, ?_, ?_, ?_⟩
  · intro r hr
    rcases Nat.lt_succ_iff_lt_or_eq.mp hr with hlt | heq
    · exact h.above r hlt
    · rw [heq]
      exact h.here
  · rw [h.below (row + 1) (by omega)]
    rfl
  · intro r hr
    exact h.below r (by omega)

theorem Painted.init (hcolumns : start.columns = frame.width.toNat)
    (hlink : start.hyperlink = none) :
    Painted unicodeWidth erase frame draws start 0 0 Writer.new := by
  refine ⟨⟨hlink, fun h => absurd rfl h, fun fg bg modifier h => by cases h⟩, hcolumns, ?_, rfl, ?_⟩
  · intro r hr
    omega
  · intro r hr
    rfl

/-- Ending the link and the style changes nothing that is shown. -/
theorem Painted.lines_eq (h : Painted unicodeWidth erase frame draws start row 0 writer)
    (suffix : List Command) (hsuffix : suffix = [] ∨ suffix = [resetStyle]) (r : Nat) :
    ((start.run unicodeWidth erase ((closeHyperlink writer).out ++ suffix)).lines r).row
      = if r < row then painted unicodeWidth erase frame draws start r frame.width.toNat
        else (start.lines r).row := by
  have hclosed : (terminalOf unicodeWidth erase start (closeHyperlink writer)).lines
      = (terminalOf unicodeWidth erase start writer).lines := by
    have hout : (closeHyperlink writer).out = (endHyperlink writer).out := by
      unfold closeHyperlink endHyperlink
      split <;> rfl
    have hend := terminalOf_endHyperlink h.tracks
    unfold terminalOf at hend ⊢
    rw [hout, hend]
  have hsame : (start.run unicodeWidth erase ((closeHyperlink writer).out ++ suffix)).lines
      = (terminalOf unicodeWidth erase start writer).lines := by
    rw [← hclosed, run_append]
    rcases hsuffix with rfl | rfl
    · rfl
    · rfl
  rw [hsame]
  split
  · rename_i hr
    exact h.above r hr
  · rename_i hr
    rcases Nat.lt_or_eq_of_le (Nat.le_of_not_lt hr) with hlt | heq
    · rw [h.below r hlt]
    · rw [← heq, h.here]
      rfl

end

/-! ### Which cells are drawn -/

/-- A frame with a cell for every place. No cell takes more than two columns, and behind each wide
cell comes its continuation. -/
structure Framed (unicodeWidth : String → Nat) (frame : FrameData) : Prop where
  length : frame.cells.length = frame.width.toNat * frame.height.toNat
  width_le : ∀ cell ∈ frame.cells, cellWidth unicodeWidth cell ≤ 2
  continuation : ∀ row col, row < frame.height.toNat → col < frame.width.toNat →
    cellWidth unicodeWidth (cellAt frame row col) = 2 →
      col + 1 < frame.width.toNat ∧ cellWidth unicodeWidth (cellAt frame row (col + 1)) ≤ 1

/-- The cell before is wide. -/
def continues (unicodeWidth : String → Nat) (frame : FrameData) (row : Nat) : Nat → Bool
  | 0 => false
  | col + 1 => cellWidth unicodeWidth (cellAt frame row col) == 2

/-- The cell before is wide and not skipped. -/
def covered (unicodeWidth : String → Nat) (frame : FrameData) (row : Nat) : Nat → Bool
  | 0 => false
  | col + 1 => !(cellAt frame row col).skip && cellWidth unicodeWidth (cellAt frame row col) == 2

/-- The cells `writeAllCells` writes. -/
def drawsAll (unicodeWidth : String → Nat) (frame : FrameData) (row col : Nat) : Bool :=
  !(cellAt frame row col).skip && !covered unicodeWidth frame row col

def looksEqual (frame prev : FrameData) (row col : Nat) : Bool :=
  cellsVisuallyEqual (sanitizedFrameHyperlinks frame) (cellAt frame row col)
    (sanitizedFrameHyperlinks prev) (cellAt prev row col)

/-- The cells `writeChangedCells` writes. -/
def drawsChanged (unicodeWidth : String → Nat) (frame prev : FrameData) (row col : Nat) : Bool :=
  !(cellAt frame row col).skip && !continues unicodeWidth frame row col
    && (!looksEqual frame prev row col || continues unicodeWidth prev row col)

section

variable {frame prev : FrameData}

variable {col row : Nat} {column : Column Glyph}

theorem Framed.cellAt_mem (h : Framed unicodeWidth frame) (hrow : row < frame.height.toNat)
    (hcol : col < frame.width.toNat) : cellAt frame row col ∈ frame.cells := by
  have hindex : row * frame.width.toNat + col < frame.cells.length := by
    rw [h.length]
    calc row * frame.width.toNat + col
        < row * frame.width.toNat + frame.width.toNat := by omega
      _ = frame.width.toNat * (row + 1) := by rw [Nat.mul_add, Nat.mul_comm, Nat.mul_one]
      _ ≤ frame.width.toNat * frame.height.toNat := Nat.mul_le_mul_left _ hrow
  unfold cellAt
  rw [List.getD_eq_getElem?_getD, List.getElem?_eq_getElem hindex, Option.getD_some]
  exact List.getElem_mem hindex

theorem Framed.cellWidth_le (h : Framed unicodeWidth frame) (hrow : row < frame.height.toNat)
    (hcol : col < frame.width.toNat) : cellWidth unicodeWidth (cellAt frame row col) ≤ 2 :=
  h.width_le _ (h.cellAt_mem hrow hcol)

theorem Framed.width_of_continues (h : Framed unicodeWidth frame) (hrow : row < frame.height.toNat)
    (hcol : col < frame.width.toNat) (hwide : continues unicodeWidth frame row col = true) :
    cellWidth unicodeWidth (cellAt frame row col) ≤ 1 := by
  cases col with
  | zero => cases hwide
  | succ col => exact (h.continuation row col hrow (by omega) (by simpa [continues] using hwide)).2

theorem continues_succ (row col : Nat) : continues unicodeWidth frame row (col + 1)
    = (cellWidth unicodeWidth (cellAt frame row col) == 2) := rfl

theorem covered_succ (row col : Nat) : covered unicodeWidth frame row (col + 1)
    = (!(cellAt frame row col).skip && cellWidth unicodeWidth (cellAt frame row col) == 2) := rfl

variable {width n : Nat} {writer : Writer} {shown : Row Glyph}

/-- A width as the number of columns it takes from the next cell. -/
theorem pred_eq_toNat (h : width ≤ 2) : width - 1 = (width == 2).toNat := by
  by_cases hwide : width = 2
  · rw [hwide]
    rfl
  · rw [beq_eq_false_iff_ne.mpr hwide, Bool.toNat_false]
    omega

theorem continues_of_covered (h : covered unicodeWidth frame row col = true) :
    continues unicodeWidth frame row col = true := by
  cases col with
  | zero => cases h
  | succ col =>
    rw [covered_succ, Bool.and_eq_true] at h
    exact h.2

/-! ### The rows of a full redraw -/

/-- A row of `writeAllCells` after `n` columns. -/
structure AllRowAt (unicodeWidth : String → Nat) (erase : Glyph → Glyph) (frame : FrameData)
    (start : HostTerminal) (row n : Nat) (state : AllRow) : Prop where
  painted : Painted unicodeWidth erase frame (drawsAll unicodeWidth frame) start row n state.writer
  cursor : CursorAt unicodeWidth erase frame start row state.writer state.nextInlineCol
  toSkip : state.toSkip = (covered unicodeWidth frame row n).toNat

theorem AllRowAt.step (hframe : Framed unicodeWidth frame) {row n : Nat}
    (hrow : row < frame.height.toNat) (hn : n < frame.width.toNat) {state : AllRow}
    (h : AllRowAt unicodeWidth erase frame start row n state) :
    AllRowAt unicodeWidth erase frame start row (n + 1)
      (writeAllCell unicodeWidth frame row state n) := by
  unfold writeAllCell
  have htoSkip := h.toSkip
  cases hcovered : covered unicodeWidth frame row n with
  | true =>
    rw [hcovered, Bool.toNat_true] at htoSkip
    have hwidth := hframe.width_of_continues hrow hn (continues_of_covered hcovered)
    rw [if_pos (by omega)]
    refine ⟨h.painted.keep (by simp [drawsAll, hcovered]), h.cursor, ?_⟩
    have hne : cellWidth unicodeWidth (cellAt frame row n) ≠ 2 := by omega
    rw [covered_succ, beq_eq_false_iff_ne.mpr hne, Bool.and_false]
    show state.toSkip - 1 = 0
    omega
  | false =>
    rw [hcovered, Bool.toNat_false] at htoSkip
    rw [if_neg (by omega)]
    dsimp only
    cases hskip : (cellAt frame row n).skip with
    | true =>
      rw [if_pos rfl]
      refine ⟨h.painted.keep (by simp [drawsAll, hskip]), fun col hcol => (by cases hcol), ?_⟩
      rw [covered_succ, hskip]
      exact htoSkip
    | false =>
      rw [if_neg (by simp)]
      have hplace : (if state.nextInlineCol ≠ some n then some (n, row) else none) = some (n, row)
          ∨ (if state.nextInlineCol ≠ some n then some (n, row) else none) = none
            ∧ state.nextInlineCol = some n := by
        by_cases hinline : state.nextInlineCol = some n
        · exact .inr ⟨if_neg (by simpa using hinline), hinline⟩
        · exact .inl (if_pos hinline)
      obtain ⟨hpainted, hcursor⟩ :=
        h.painted.draw (by simp [drawsAll, hskip, hcovered]) hskip hn hplace h.cursor
      refine ⟨hpainted, hcursor, ?_⟩
      rw [covered_succ, hskip]
      exact pred_eq_toNat (hframe.cellWidth_le hrow hn)

theorem AllRowAt.run (hframe : Framed unicodeWidth frame) (hrow : row < frame.height.toNat)
    (hn : n ≤ frame.width.toNat)
    (h : Painted unicodeWidth erase frame (drawsAll unicodeWidth frame) start row 0 writer) :
    AllRowAt unicodeWidth erase frame start row n
      ((List.range n).foldl (writeAllCell unicodeWidth frame row) ⟨writer, 0, none⟩) := by
  induction n with
  | zero => exact ⟨h, fun col hcol => (by cases hcol), rfl⟩
  | succ n ih =>
    rw [List.range_succ, List.foldl_append]
    exact (ih (by omega)).step hframe hrow (by omega)

/-- The rows of a terminal after a full redraw. -/
theorem lines_writeAllCells (hframe : Framed unicodeWidth frame)
    (hcolumns : start.columns = frame.width.toNat) (hlink : start.hyperlink = none) (r : Nat) :
    ((start.run unicodeWidth erase (writeAllCells unicodeWidth frame)).lines r).row
      = if r < frame.height.toNat then
          painted unicodeWidth erase frame (drawsAll unicodeWidth frame) start r frame.width.toNat
        else (start.lines r).row := by
  have hrows : ∀ m, m ≤ frame.height.toNat →
      Painted unicodeWidth erase frame (drawsAll unicodeWidth frame) start m 0
        ((List.range m).foldl (writeAllRow unicodeWidth frame) Writer.new) := by
    intro m hm
    induction m with
    | zero => exact .init hcolumns hlink
    | succ m ih =>
      rw [List.range_succ, List.foldl_append]
      exact (AllRowAt.run hframe hm (Nat.le_refl _) (ih (by omega))).painted.nextRow
  exact (hrows _ (Nat.le_refl _)).lines_eq [resetStyle] (.inr rfl) r

-- Equal styles are sent once, and links end before the next cell.
example :
    String.join ((writeAllCells String.length
      ⟨[⟨"a", 0, 0, 0, false, none⟩, ⟨"b", 0, 0, 0, false, some 0⟩,
        ⟨"c", 0xff000000, 0, 0, false, none⟩, ⟨"d", 2, 0, 0, false, none⟩], 4, 1, none, ["u"],
            []⟩).map
        Command.text)
      = "\x1b[1;1H\x1b[0;39;49ma\x1b]8;;u\x1b\\b\x1b]8;;\x1b\\c\x1b[0;31;49md\x1b[0m" := by
  decide +kernel

/-! ### The rows of an update -/

/-- A row of `writeChangedCells` after `n` columns. -/
structure ChangedRowAt (unicodeWidth : String → Nat) (erase : Glyph → Glyph)
    (frame prev : FrameData) (start : HostTerminal) (row n : Nat) (state : ChangedRow) : Prop where
  painted : Painted unicodeWidth erase frame (drawsChanged unicodeWidth frame prev) start row n
    state.writer
  cursor : CursorAt unicodeWidth erase frame start row state.writer state.nextInlineCol
  toSkip : state.toSkip = (continues unicodeWidth frame row n).toNat
  invalidated : state.invalidated
    = (continues unicodeWidth frame row n || continues unicodeWidth prev row n).toNat

theorem ChangedRowAt.step (hframe : Framed unicodeWidth frame) (hprev : Framed unicodeWidth prev)
    (hwidth : prev.width = frame.width) (hheight : prev.height = frame.height) {row n : Nat}
    (hrow : row < frame.height.toNat) (hn : n < frame.width.toNat) {state : ChangedRow}
    (h : ChangedRowAt unicodeWidth erase frame prev start row n state) :
    ChangedRowAt unicodeWidth erase frame prev start row (n + 1)
      (writeChangedCell unicodeWidth frame prev row state n) := by
  have hle := hframe.cellWidth_le hrow hn
  have hle' : cellWidth unicodeWidth (cellAt prev row n) ≤ 2 :=
    hprev.cellWidth_le (by rw [hheight]; exact hrow) (by rw [hwidth]; exact hn)
  have hinvalidated : max (max (cellWidth unicodeWidth (cellAt frame row n))
        (cellWidth unicodeWidth (cellAt prev row n))) state.invalidated - 1
      = (continues unicodeWidth frame row (n + 1) || continues unicodeWidth prev row (n + 1)).toNat
      := by
    have hone : state.invalidated ≤ 1 := by
      rw [h.invalidated]
      exact Bool.toNat_le _
    rw [continues_succ, continues_succ]
    by_cases hwide : cellWidth unicodeWidth (cellAt frame row n) = 2
        ∨ cellWidth unicodeWidth (cellAt prev row n) = 2
    · have htrue : (cellWidth unicodeWidth (cellAt frame row n) == 2
          || cellWidth unicodeWidth (cellAt prev row n) == 2) = true := by simpa using hwide
      rw [htrue, Bool.toNat_true]
      omega
    · have hfalse : (cellWidth unicodeWidth (cellAt frame row n) == 2
          || cellWidth unicodeWidth (cellAt prev row n) == 2) = false := by simpa using hwide
      rw [hfalse, Bool.toNat_false]
      omega
  have hcondition : (!(cellAt frame row n).skip
        && (!looksEqual frame prev row n || decide (0 < state.invalidated)) && state.toSkip == 0)
      = drawsChanged unicodeWidth frame prev row n := by
    unfold drawsChanged
    rw [h.toSkip, h.invalidated]
    cases continues unicodeWidth frame row n <;> cases continues unicodeWidth prev row n
      <;> cases (cellAt frame row n).skip <;> cases looksEqual frame prev row n <;> rfl
  unfold writeChangedCell
  dsimp only
  unfold looksEqual at hcondition
  rw [hcondition]
  cases hdraws : drawsChanged unicodeWidth frame prev row n with
  | false =>
    rw [if_neg (by simp)]
    exact ⟨h.painted.keep hdraws, h.cursor, pred_eq_toNat hle, hinvalidated⟩
  | true =>
    rw [if_pos rfl]
    have hskip : (cellAt frame row n).skip = false := by
      unfold drawsChanged at hdraws
      simp only [Bool.and_eq_true, Bool.not_eq_true'] at hdraws
      exact hdraws.1.1
    have hplace : (if state.nextInlineCol ≠ some n ∨ 0 < state.invalidated then some (n, row)
            else none) = some (n, row)
        ∨ (if state.nextInlineCol ≠ some n ∨ 0 < state.invalidated then some (n, row)
            else none) = none ∧ state.nextInlineCol = some n := by
      split
      · exact .inl rfl
      · rename_i hinline
        exact .inr ⟨rfl, by simpa using fun hne => hinline (.inl hne)⟩
    obtain ⟨hpainted, hcursor⟩ := h.painted.draw hdraws hskip hn hplace h.cursor
    exact ⟨hpainted, hcursor, pred_eq_toNat hle, hinvalidated⟩

theorem ChangedRowAt.run (hframe : Framed unicodeWidth frame) (hprev : Framed unicodeWidth prev)
    (hwidth : prev.width = frame.width) (hheight : prev.height = frame.height)
    (hrow : row < frame.height.toNat) (hn : n ≤ frame.width.toNat)
    (h : Painted unicodeWidth erase frame (drawsChanged unicodeWidth frame prev) start row 0
      writer) : ChangedRowAt unicodeWidth erase frame prev start row n
      ((List.range n).foldl (writeChangedCell unicodeWidth frame prev row)
        ⟨writer, 0, 0, none⟩) := by
  induction n with
  | zero => exact ⟨h, fun col hcol => (by cases hcol), rfl, rfl⟩
  | succ n ih =>
    rw [List.range_succ, List.foldl_append]
    exact (ih (by omega)).step hframe hprev hwidth hheight hrow (by omega)

/-- The rows of a terminal after an update. -/
theorem lines_writeChangedCells (hframe : Framed unicodeWidth frame)
    (hprev : Framed unicodeWidth prev) (hwidth : prev.width = frame.width)
    (hheight : prev.height = frame.height) (hcolumns : start.columns = frame.width.toNat)
    (hlink : start.hyperlink = none) (r : Nat) :
    ((start.run unicodeWidth erase (writeChangedCells unicodeWidth frame prev)).lines r).row
      = if r < frame.height.toNat then
          painted unicodeWidth erase frame (drawsChanged unicodeWidth frame prev) start r
            frame.width.toNat
        else (start.lines r).row := by
  have hrows : ∀ m, m ≤ frame.height.toNat →
      Painted unicodeWidth erase frame (drawsChanged unicodeWidth frame prev) start m 0
        ((List.range m).foldl (writeChangedRow unicodeWidth frame prev) Writer.new) := by
    intro m hm
    induction m with
    | zero => exact .init hcolumns hlink
    | succ m ih =>
      rw [List.range_succ, List.foldl_append]
      exact (ChangedRowAt.run hframe hprev hwidth hheight hm (Nat.le_refl _)
        (ih (by omega))).painted.nextRow
  have hdrawn := hrows _ (Nat.le_refl _)
  unfold writeChangedCells
  dsimp only
  split
  · rw [← hdrawn.lines_eq [] (.inl rfl) r, List.append_nil]
  · exact hdrawn.lines_eq [resetStyle] (.inr rfl) r

/-! ### A screen that shows the frame before -/

/-- A column shows its place of a frame: the end of the wide cell before it, or its own cell. A cell
without width leaves its column to what was there. -/
def ShowsCell (unicodeWidth : String → Nat) (frame : FrameData) (row col : Nat)
    (column : Column Glyph) : Prop :=
  if continues unicodeWidth frame row col then
    column = .trail (glyphOf frame (cellAt frame row (col - 1)))
  else
    match cellWidth unicodeWidth (cellAt frame row col) with
    | 0 => ∃ glyph, column = .narrow glyph
    | 1 => column = .narrow (glyphOf frame (cellAt frame row col))
    | _ => column = .lead (glyphOf frame (cellAt frame row col))

/-- A terminal shows a frame, whether its cells are to be skipped or not. -/
structure Shows (unicodeWidth : String → Nat) (frame : FrameData) (terminal : HostTerminal) :
    Prop where
  columns : terminal.columns = frame.width.toNat
  cell : ∀ row col, row < frame.height.toNat → col < frame.width.toNat →
    ShowsCell unicodeWidth frame row col ((terminal.lines row).row col)

/-- Behind each wide cell of `frame` that is skipped, the cell that comes next shows already. -/
def ContinuationsShown (unicodeWidth : String → Nat) (frame prev : FrameData) : Prop :=
  ∀ row col, row < frame.height.toNat → col + 1 < frame.width.toNat →
    (cellAt frame row col).skip = true → cellWidth unicodeWidth (cellAt frame row col) = 2 →
    (cellAt frame row (col + 1)).skip = false →
    cellWidth unicodeWidth (cellAt frame row (col + 1)) = 1 →
      cellWidth unicodeWidth (cellAt prev row col) ≠ 2
        ∧ cellWidth unicodeWidth (cellAt prev row (col + 1)) = 1
        ∧ glyphOf prev (cellAt prev row (col + 1)) = glyphOf frame (cellAt frame row (col + 1))

theorem ShowsCell.narrow (h : ShowsCell unicodeWidth frame row col column)
    (hcontinues : continues unicodeWidth frame row col = false)
    (hwidth : cellWidth unicodeWidth (cellAt frame row col) = 1) :
    column = .narrow (glyphOf frame (cellAt frame row col)) := by
  unfold ShowsCell at h
  rw [hcontinues, hwidth] at h
  exact h

theorem ShowsCell.lead (h : ShowsCell unicodeWidth frame row col column)
    (hcontinues : continues unicodeWidth frame row col = false)
    (hwidth : cellWidth unicodeWidth (cellAt frame row col) = 2) :
    column = .lead (glyphOf frame (cellAt frame row col)) := by
  unfold ShowsCell at h
  rw [hcontinues, hwidth] at h
  exact h

theorem ShowsCell.trail (h : ShowsCell unicodeWidth frame row (col + 1) column)
    (hwidth : cellWidth unicodeWidth (cellAt frame row col) = 2) :
    column = .trail (glyphOf frame (cellAt frame row col)) := by
  unfold ShowsCell at h
  rw [continues_succ, hwidth] at h
  exact h

theorem ShowsCell.isLead (hframe : Framed unicodeWidth frame) (hrow : row < frame.height.toNat)
    (hcol : col < frame.width.toNat) (h : ShowsCell unicodeWidth frame row col column) :
    column.isLead = (cellWidth unicodeWidth (cellAt frame row col) == 2) := by
  cases hcontinues : continues unicodeWidth frame row col with
  | true =>
    have hwidth := hframe.width_of_continues hrow hcol hcontinues
    unfold ShowsCell at h
    rw [hcontinues, if_pos rfl] at h
    rw [h, beq_eq_false_iff_ne.mpr (by omega)]
    rfl
  | false =>
    have hwidth := hframe.cellWidth_le hrow hcol
    unfold ShowsCell at h
    rw [hcontinues, if_neg (by simp)] at h
    obtain hzero | hone | htwo : cellWidth unicodeWidth (cellAt frame row col) = 0
        ∨ cellWidth unicodeWidth (cellAt frame row col) = 1
        ∨ cellWidth unicodeWidth (cellAt frame row col) = 2 := by omega
    · rw [hzero] at h ⊢
      obtain ⟨glyph, rfl⟩ := h
      rfl
    · rw [hone] at h ⊢
      rw [h]
      rfl
    · rw [htwo] at h ⊢
      rw [h]
      rfl

theorem sanitizedCellHyperlinkUri_eq (cell : CellData) :
    sanitizedCellHyperlinkUri (sanitizedFrameHyperlinks frame) cell
      = (cellHyperlinkUri frame cell).bind sanitizedHyperlinkUri := by
  unfold sanitizedCellHyperlinkUri sanitizedFrameHyperlinks cellHyperlinkUri
  cases cell.hyperlink with
  | none => rfl
  | some index =>
    simp only [Option.bind_some, List.getElem?_map]
    cases frame.hyperlinks[index.toNat]? <;> rfl

/-- Cells that look equal are drawn alike. -/
theorem looksEqual_spec (h : looksEqual frame prev row col = true) :
    (cellAt frame row col).symbol = (cellAt prev row col).symbol
      ∧ glyphOf frame (cellAt frame row col) = glyphOf prev (cellAt prev row col) := by
  unfold looksEqual cellsVisuallyEqual at h
  simp only [Bool.and_eq_true, beq_iff_eq, sanitizedCellHyperlinkUri_eq] at h
  obtain ⟨⟨⟨⟨hsymbol, hfg⟩, hbg⟩, hmodifier⟩, hlink⟩ := h
  refine ⟨hsymbol, ?_⟩
  unfold glyphOf
  rw [hsymbol, hfg, hbg, hmodifier, hlink]

/-! ### The cells that are left out -/

theorem drawsAll_of_drawsChanged (h : drawsChanged unicodeWidth frame prev row col = true) :
    drawsAll unicodeWidth frame row col = true := by
  unfold drawsChanged at h
  simp only [Bool.and_eq_true, Bool.not_eq_true'] at h
  cases hcovered : covered unicodeWidth frame row col with
  | true =>
    rw [continues_of_covered hcovered] at h
    cases h.1.2
  | false => simp [drawsAll, h.1.1, hcovered]

/-- Writing what a column of the frame before shows changes nothing. -/
theorem put_eq_self_of_shows (hprev : Framed unicodeWidth prev) {line : Row Glyph} {glyph : Glyph}
    (hrow : row < prev.height.toNat) (hcol : col < prev.width.toNat)
    (hshows : ∀ c, c < prev.width.toNat → ShowsCell unicodeWidth prev row c (shown c))
    (hhere : line col = shown col) (hnext : line (col + 1) = shown (col + 1))
    (hcontinues : continues unicodeWidth prev row col = false)
    (hwidth : width = cellWidth unicodeWidth (cellAt prev row col))
    (hglyph : glyph = glyphOf prev (cellAt prev row col)) :
    put erase prev.width.toNat line col width glyph = line := by
  have hle := hprev.cellWidth_le hrow hcol
  rw [hwidth]
  unfold put
  split
  · rfl
  · split
    · rename_i hone
      refine putNarrow_eq_self ?_
      rw [hhere, hglyph]
      exact (hshows col hcol).narrow hcontinues hone
    · have htwo : cellWidth unicodeWidth (cellAt prev row col) = 2 := by omega
      have hlt := (hprev.continuation row col hrow hcol htwo).1
      rw [if_pos hlt]
      refine putWide_eq_self ?_ ?_
      · rw [hhere, hglyph]
        exact (hshows col hcol).lead hcontinues htwo
      · rw [hnext, hglyph]
        exact (hshows (col + 1) hlt).trail htwo

/-- The column before the next one neither had nor got a wide glyph. -/
theorem fresh_drawsAll (hframe : Framed unicodeWidth frame) (hprev : Framed unicodeWidth prev)
    (hwidth : prev.width = frame.width) (hheight : prev.height = frame.height)
    (hrow : row < frame.height.toNat) (hcol : col < frame.width.toNat)
    (hshows : ∀ c, c < prev.width.toNat → ShowsCell unicodeWidth prev row c (shown c))
    (hcovered : covered unicodeWidth frame row col = false)
    (hcontinues : continues unicodeWidth prev row col = false) :
    Fresh shown (drawsAll unicodeWidth frame row)
      (fun c => cellWidth unicodeWidth (cellAt frame row c)) col := by
  rintro before rfl
  constructor
  · rw [(hshows before (by rw [hwidth]; omega)).isLead hprev (by rw [hheight]; exact hrow)
      (by rw [hwidth]; omega)]
    exact hcontinues
  · intro hdraws
    have hle := hframe.cellWidth_le hrow (Nat.lt_of_succ_lt hcol)
    have hskip : (cellAt frame row before).skip = false := by
      simp only [drawsAll, Bool.and_eq_true, Bool.not_eq_true'] at hdraws
      exact hdraws.1
    rw [covered_succ, hskip] at hcovered
    have hne : cellWidth unicodeWidth (cellAt frame row before) ≠ 2 := by simpa using hcovered
    show cellWidth unicodeWidth (cellAt frame row before) ≤ 1
    omega

/-- A cell that only `writeAllCells` writes shows already. -/
theorem put_eq_self_of_leftOut (hframe : Framed unicodeWidth frame)
    (hprev : Framed unicodeWidth prev) (hwidth : prev.width = frame.width)
    (hheight : prev.height = frame.height) (hstart : Shows unicodeWidth prev start)
    (hshown : ContinuationsShown unicodeWidth frame prev) (hrow : row < frame.height.toNat)
    (hcol : col < frame.width.toNat) (hall : drawsAll unicodeWidth frame row col = true)
    (hchanged : drawsChanged unicodeWidth frame prev row col = false) :
    let line := painted unicodeWidth erase frame (drawsAll unicodeWidth frame) start row col
    put erase frame.width.toNat line col (cellWidth unicodeWidth (cellAt frame row col))
      (glyphOf frame (cellAt frame row col)) = line := by
  intro line
  have hrow' : row < prev.height.toNat := by rw [hheight]; exact hrow
  have hcol' : col < prev.width.toNat := by rw [hwidth]; exact hcol
  have hshows : ∀ c, c < prev.width.toNat →
      ShowsCell unicodeWidth prev row c ((start.lines row).row c) :=
    fun c hc => hstart.cell row c hrow' hc
  simp only [drawsAll, Bool.and_eq_true, Bool.not_eq_true'] at hall
  obtain ⟨hskip, hcovered⟩ := hall
  -- Where nothing reached the column yet, it suffices that the cell is the one it shows.
  have hkept : continues unicodeWidth prev row col = false →
      cellWidth unicodeWidth (cellAt frame row col) = cellWidth unicodeWidth (cellAt prev row col) →
      glyphOf frame (cellAt frame row col) = glyphOf prev (cellAt prev row col) →
      put erase frame.width.toNat line col (cellWidth unicodeWidth (cellAt frame row col))
        (glyphOf frame (cellAt frame row col)) = line := by
    intro hcontinues hsame hglyph
    have hfresh := fresh_drawsAll hframe hprev hwidth hheight hrow hcol hshows hcovered hcontinues
    rw [← hwidth]
    refine put_eq_self_of_shows hprev hrow' hcol' hshows ?_ ?_ hcontinues hsame hglyph
    · exact paint_right (start.lines row).wellFormed (Nat.le_refl _) (fun _ => hfresh)
        (fun hne => by omega)
    · exact paint_right (start.lines row).wellFormed (by omega) (fun hne => by omega)
        (fun _ => .inl hfresh)
  cases hwide : continues unicodeWidth frame row col with
  | true =>
    have hle := hframe.width_of_continues hrow hcol hwide
    cases col with
    | zero => cases hwide
    | succ before =>
      obtain hzero | hone : cellWidth unicodeWidth (cellAt frame row (before + 1)) = 0
          ∨ cellWidth unicodeWidth (cellAt frame row (before + 1)) = 1 := by omega
      · rw [hzero]
        rfl
      · have htwo : cellWidth unicodeWidth (cellAt frame row before) = 2 := by
          simpa [continues_succ] using hwide
        have hbefore : (cellAt frame row before).skip = true := by
          rw [covered_succ, htwo] at hcovered
          simpa using hcovered
        obtain ⟨hne, hprevOne, hglyph⟩ := hshown row before hrow hcol hbefore htwo hskip hone
        exact hkept (by simpa [continues_succ] using hne) (by rw [hone, hprevOne]) hglyph.symm
  | false =>
    simp only [drawsChanged, hskip, hwide, Bool.not_false, Bool.true_and, Bool.or_eq_false_iff,
      Bool.not_eq_false'] at hchanged
    obtain ⟨hequal, hcontinues⟩ := hchanged
    obtain ⟨hsymbol, hglyph⟩ := looksEqual_spec hequal
    refine hkept hcontinues ?_ hglyph
    unfold cellWidth
    rw [hsymbol]

/-- Both ways to draw a row end alike. -/
theorem painted_drawsAll_eq (hframe : Framed unicodeWidth frame) (hprev : Framed unicodeWidth prev)
    (hwidth : prev.width = frame.width) (hheight : prev.height = frame.height)
    (hstart : Shows unicodeWidth prev start) (hshown : ContinuationsShown unicodeWidth frame prev)
    (hrow : row < frame.height.toNat) :
    painted unicodeWidth erase frame (drawsAll unicodeWidth frame) start row frame.width.toNat
      = painted unicodeWidth erase frame (drawsChanged unicodeWidth frame prev) start row
          frame.width.toNat := by
  refine paint_congr ?_
  intro col hcol hne
  have hchanged : drawsChanged unicodeWidth frame prev row col = false := by
    cases hchanged : drawsChanged unicodeWidth frame prev row col with
    | true => exact absurd (by rw [hchanged, drawsAll_of_drawsChanged hchanged]) hne
    | false => rfl
  have hall : drawsAll unicodeWidth frame row col = true := by
    rw [hchanged] at hne
    simpa using hne
  exact put_eq_self_of_leftOut hframe hprev hwidth hheight hstart hshown hrow hcol hall hchanged

/-! ### The cells behind skipped wide ones -/

/-- A column that shows its place of a frame, with `other` where the frame shows nothing. -/
def shownColumn (unicodeWidth : String → Nat) (frame : FrameData) (other : Glyph) (row col : Nat) :
    Column Glyph :=
  if continues unicodeWidth frame row col then
    .trail (glyphOf frame (cellAt frame row (col - 1)))
  else
    match cellWidth unicodeWidth (cellAt frame row col) with
    | 0 => .narrow other
    | 1 => .narrow (glyphOf frame (cellAt frame row col))
    | _ => .lead (glyphOf frame (cellAt frame row col))

def shownRow (unicodeWidth : String → Nat) (frame : FrameData) (other : Glyph) (row : Nat) :
    Row Glyph := fun col =>
  if row < frame.height.toNat ∧ col < frame.width.toNat then
    shownColumn unicodeWidth frame other row col
  else .narrow other

theorem showsCell_shownColumn (other : Glyph) (row col : Nat) :
    ShowsCell unicodeWidth frame row col (shownColumn unicodeWidth frame other row col) := by
  unfold ShowsCell shownColumn
  cases continues unicodeWidth frame row col with
  | true => rfl
  | false =>
    rw [if_neg (by simp), if_neg (by simp)]
    cases cellWidth unicodeWidth (cellAt frame row col) with
    | zero => exact ⟨other, rfl⟩
    | succ width =>
      cases width with
      | zero => rfl
      | succ width => rfl

theorem isTrail_shownColumn (other : Glyph) (row col : Nat) :
    (shownColumn unicodeWidth frame other row col).isTrail
      = continues unicodeWidth frame row col := by
  unfold shownColumn
  cases continues unicodeWidth frame row col with
  | true => rfl
  | false =>
    rw [if_neg (by simp)]
    cases cellWidth unicodeWidth (cellAt frame row col) with
    | zero => rfl
    | succ width =>
      cases width with
      | zero => rfl
      | succ width => rfl

theorem wellFormed_shownRow (hframe : Framed unicodeWidth frame) (other : Glyph) (row : Nat) :
    WellFormed (shownRow unicodeWidth frame other row) := by
  have hinside : ∀ col, row < frame.height.toNat ∧ col < frame.width.toNat →
      shownRow unicodeWidth frame other row col = shownColumn unicodeWidth frame other row col :=
    fun col h => if_pos h
  have houtside : ∀ col, ¬ (row < frame.height.toNat ∧ col < frame.width.toNat) →
      shownRow unicodeWidth frame other row col = .narrow other := fun col h => if_neg h
  constructor
  · intro col
    by_cases hin : row < frame.height.toNat ∧ col < frame.width.toNat
    · rw [hinside col hin, (showsCell_shownColumn other row col).isLead hframe hin.1 hin.2]
      by_cases hnext : col + 1 < frame.width.toNat
      · rw [hinside (col + 1) ⟨hin.1, hnext⟩, isTrail_shownColumn, continues_succ]
      · rw [houtside (col + 1) (by omega)]
        refine beq_eq_false_iff_ne.mpr fun hwide => hnext ?_
        exact (hframe.continuation row col hin.1 hin.2 hwide).1
    · rw [houtside col hin, houtside (col + 1) (by omega)]
      rfl
  · by_cases hin : row < frame.height.toNat ∧ 0 < frame.width.toNat
    · rw [hinside 0 hin, isTrail_shownColumn]
      rfl
    · rw [houtside 0 hin]
      rfl

/-- A terminal that shows a frame. -/
def showing (hframe : Framed unicodeWidth frame) (other : Glyph) : HostTerminal :=
  { columns := frame.width.toNat
    cursor := (0, 0)
    style := ""
    hyperlink := none
    lines := fun row => ⟨shownRow unicodeWidth frame other row,
      wellFormed_shownRow hframe other row⟩ }

theorem shows_showing (hframe : Framed unicodeWidth frame) (other : Glyph) :
    Shows unicodeWidth frame (showing hframe other) := by
  refine ⟨rfl, ?_⟩
  intro row col hrow hcol
  show ShowsCell unicodeWidth frame row col (shownRow unicodeWidth frame other row col)
  unfold shownRow
  rw [if_pos ⟨hrow, hcol⟩]
  exact showsCell_shownColumn other row col

instance : Nontrivial Glyph := ⟨⟨"", "", none⟩, ⟨" ", "", none⟩, by decide⟩

/-- `writeAllCells` writes the cell behind a skipped wide one. -/
theorem painted_drawsAll_behind (hcol : col + 1 < frame.width.toNat)
    (hskip : (cellAt frame row col).skip = true) (hnext : (cellAt frame row (col + 1)).skip = false)
    (hone : cellWidth unicodeWidth (cellAt frame row (col + 1)) = 1) :
    painted unicodeWidth erase frame (drawsAll unicodeWidth frame) start row frame.width.toNat
      (col + 1) = .narrow (glyphOf frame (cellAt frame row (col + 1))) := by
  have hdraws : drawsAll unicodeWidth frame row (col + 1) = true := by
    unfold drawsAll
    rw [hnext, covered_succ, hskip]
    rfl
  have hwritten : painted unicodeWidth erase frame (drawsAll unicodeWidth frame) start row (col + 2)
      (col + 1) = .narrow (glyphOf frame (cellAt frame row (col + 1))) := by
    unfold painted
    rw [paint_succ, hdraws, if_pos rfl, hone]
    unfold put
    rw [if_neg (by omega), if_pos rfl, if_pos hcol]
    exact if_pos rfl
  rw [← hwritten]
  refine paint_left (start.lines row).wellFormed (by omega) (by omega) ?_
  show Column.isLead (painted unicodeWidth erase frame (drawsAll unicodeWidth frame) start row
    (col + 2) (col + 1)) = false
  rw [hwritten]
  rfl

/-- `writeChangedCells` never writes the cell behind a skipped wide one. -/
theorem painted_drawsChanged_behind (hskip : (cellAt frame row col).skip = true)
    (hwide : cellWidth unicodeWidth (cellAt frame row col) = 2) (n : Nat) :
    painted unicodeWidth erase frame (drawsChanged unicodeWidth frame prev) start row n (col + 1)
        = (start.lines row).row (col + 1)
      ∨ painted unicodeWidth erase frame (drawsChanged unicodeWidth frame prev) start row n
          (col + 1)
        = ((start.lines row).row (col + 1)).orphan erase := by
  refine paint_eq_or_orphan n ?_ ?_
  · intro hdraws
    unfold drawsChanged at hdraws
    rw [continues_succ, hwide] at hdraws
    simp at hdraws
  · intro before hbefore hdraws
    cases hbefore
    unfold drawsChanged at hdraws
    rw [hskip] at hdraws
    cases hdraws

/-- The two drawings leave the same behind a skipped wide cell only if it is there before: what one
of them writes, the other does not touch. -/
theorem continuationsShown_of_lines_eq (hframe : Framed unicodeWidth frame)
    (hprev : Framed unicodeWidth prev) (hwidth : prev.width = frame.width)
    (hheight : prev.height = frame.height)
    (heq : ∀ (erase : Glyph → Glyph) (terminal : HostTerminal), terminal.hyperlink = none →
      Shows unicodeWidth prev terminal →
        (terminal.run unicodeWidth erase (writeChangedCells unicodeWidth frame prev)).lines
          = (terminal.run unicodeWidth erase (writeAllCells unicodeWidth frame)).lines) :
    ContinuationsShown unicodeWidth frame prev := by
  intro row col hrow hcol hskip hwide hnext hone
  obtain ⟨other, hother⟩ : ∃ other, other ≠ glyphOf frame (cellAt frame row (col + 1)) :=
    exists_ne _
  have hlines := heq (fun _ => other) (showing hprev other) rfl (shows_showing hprev other)
  have hcolumns : (showing hprev other).columns = frame.width.toNat := by
    show prev.width.toNat = _
    rw [hwidth]
  have hrows := congrArg (fun lines => (lines row).row) hlines
  rw [lines_writeChangedCells hframe hprev hwidth hheight hcolumns rfl row,
    lines_writeAllCells hframe hcolumns rfl row, if_pos hrow, if_pos hrow] at hrows
  have hcell := congrFun hrows (col + 1)
  rw [painted_drawsAll_behind hcol hskip hnext hone] at hcell
  have hshown : ((showing hprev other).lines row).row (col + 1)
      = shownColumn unicodeWidth prev other row (col + 1) :=
    if_pos ⟨by rw [hheight]; exact hrow, by rw [hwidth]; exact hcol⟩
  have hkept : Column.narrow (glyphOf frame (cellAt frame row (col + 1)))
        = shownColumn unicodeWidth prev other row (col + 1)
      ∨ Column.narrow (glyphOf frame (cellAt frame row (col + 1)))
        = (shownColumn unicodeWidth prev other row (col + 1)).orphan (fun _ => other) := by
    rw [← hcell, ← hshown]
    exact painted_drawsChanged_behind hskip hwide frame.width.toNat
  have hnarrow : Column.narrow (glyphOf frame (cellAt frame row (col + 1))) ≠ .narrow other := by
    intro h
    cases h
    exact hother rfl
  unfold shownColumn at hkept
  cases hcontinues : continues unicodeWidth prev row (col + 1) with
  | true =>
    rw [hcontinues] at hkept
    rcases hkept with h | h
    · cases h
    · exact absurd h hnarrow
  | false =>
    rw [hcontinues, if_neg (by simp)] at hkept
    refine ⟨by simpa [continues_succ] using hcontinues, ?_⟩
    cases hprevWidth : cellWidth unicodeWidth (cellAt prev row (col + 1)) with
    | zero =>
      rw [hprevWidth] at hkept
      rcases hkept with h | h
      · exact absurd h hnarrow
      · exact absurd h hnarrow
    | succ width =>
      rw [hprevWidth] at hkept
      cases width with
      | zero =>
        refine ⟨rfl, ?_⟩
        rcases hkept with h | h
        · exact (Column.narrow.inj h).symm
        · exact (Column.narrow.inj h).symm
      | succ width =>
        rcases hkept with h | h
        · cases h
        · exact absurd h hnarrow

/-- Drawing the changed cells leaves the screen as a full redraw does, exactly if the cells behind
skipped wide ones show already. -/
theorem writeChangedCells_eq_writeAllCells_iff (hframe : Framed unicodeWidth frame)
    (hprev : Framed unicodeWidth prev) (hwidth : prev.width = frame.width)
    (hheight : prev.height = frame.height) :
    (∀ (erase : Glyph → Glyph) (terminal : HostTerminal), terminal.hyperlink = none →
      Shows unicodeWidth prev terminal →
        (terminal.run unicodeWidth erase (writeChangedCells unicodeWidth frame prev)).lines
          = (terminal.run unicodeWidth erase (writeAllCells unicodeWidth frame)).lines)
      ↔ ContinuationsShown unicodeWidth frame prev := by
  constructor
  · exact continuationsShown_of_lines_eq hframe hprev hwidth hheight
  · intro hshown erase terminal hlink hshows
    have hcolumns : terminal.columns = frame.width.toNat := by rw [hshows.columns, hwidth]
    funext row
    apply Line.ext
    rw [lines_writeChangedCells hframe hprev hwidth hheight hcolumns hlink row,
      lines_writeAllCells hframe hcolumns hlink row]
    split
    · rename_i hrow
      exact (painted_drawsAll_eq hframe hprev hwidth hheight hshows hshown hrow).symm
    · rfl

end

/-! ### Two frames -/

/-- `unicode-width` on letters, blanks and a light bulb. -/
def bulbWidth (symbol : String) : Nat := if symbol = "💡" then 2 else symbol.length

def plainCell (symbol : String) (skip : Bool) : CellData := ⟨symbol, 0, 0, 0, skip, none⟩

/-- A frame of one row with two cells. -/
def twoCells (first second : CellData) : FrameData := ⟨[first, second], 2, 1, none, [], []⟩

theorem framed_twoCells {first second : CellData} (hfirst : cellWidth bulbWidth first ≤ 2)
    (hsecond : cellWidth bulbWidth second ≤ 1) : Framed bulbWidth (twoCells first second) := by
  refine ⟨rfl, ?_, ?_⟩
  · intro cell hcell
    simp only [twoCells, List.mem_cons, List.not_mem_nil, or_false] at hcell
    rcases hcell with rfl | rfl <;> omega
  · intro row col hrow hcol hwide
    have hrow' : row < 1 := hrow
    have hcol' : col < 2 := hcol
    obtain rfl : row = 0 := by omega
    obtain rfl | rfl : col = 0 ∨ col = 1 := by omega
    · exact ⟨by show 0 + 1 < 2; omega, hsecond⟩
    · have htwo : cellWidth bulbWidth second = 2 := hwide
      omega

/-- An update writes a light bulb over two letters. -/
theorem writeChangedCells_bulb :
    Framed bulbWidth (twoCells (plainCell "💡" false) (plainCell " " false))
      ∧ Framed bulbWidth (twoCells (plainCell "a" false) (plainCell "b" false))
      ∧ ∀ (erase : Glyph → Glyph) (terminal : HostTerminal), terminal.hyperlink = none →
        Shows bulbWidth (twoCells (plainCell "a" false) (plainCell "b" false)) terminal →
          (terminal.run bulbWidth erase (writeChangedCells bulbWidth
            (twoCells (plainCell "💡" false) (plainCell " " false))
            (twoCells (plainCell "a" false) (plainCell "b" false)))).lines
            = (terminal.run bulbWidth erase (writeAllCells bulbWidth
                (twoCells (plainCell "💡" false) (plainCell " " false)))).lines := by
  have hframe : Framed bulbWidth (twoCells (plainCell "💡" false) (plainCell " " false)) :=
    framed_twoCells (by decide) (by decide)
  have hprev : Framed bulbWidth (twoCells (plainCell "a" false) (plainCell "b" false)) :=
    framed_twoCells (by decide) (by decide)
  refine ⟨hframe, hprev, (writeChangedCells_eq_writeAllCells_iff hframe hprev rfl rfl).mpr ?_⟩
  intro row col hrow hcol hskip
  have hrow' : row < 1 := hrow
  have hcol' : col + 1 < 2 := hcol
  obtain rfl : row = 0 := by omega
  obtain rfl : col = 0 := by omega
  cases hskip

/-- An update keeps the letter behind a skipped light bulb, a full redraw writes a blank there. -/
theorem writeChangedCells_skipped_bulb :
    Framed bulbWidth (twoCells (plainCell "💡" true) (plainCell " " false))
      ∧ Framed bulbWidth (twoCells (plainCell "a" false) (plainCell "b" false))
      ∧ ¬ ∀ (erase : Glyph → Glyph) (terminal : HostTerminal), terminal.hyperlink = none →
        Shows bulbWidth (twoCells (plainCell "a" false) (plainCell "b" false)) terminal →
          (terminal.run bulbWidth erase (writeChangedCells bulbWidth
            (twoCells (plainCell "💡" true) (plainCell " " false))
            (twoCells (plainCell "a" false) (plainCell "b" false)))).lines
            = (terminal.run bulbWidth erase (writeAllCells bulbWidth
                (twoCells (plainCell "💡" true) (plainCell " " false)))).lines := by
  have hframe : Framed bulbWidth (twoCells (plainCell "💡" true) (plainCell " " false)) :=
    framed_twoCells (by decide) (by decide)
  have hprev : Framed bulbWidth (twoCells (plainCell "a" false) (plainCell "b" false)) :=
    framed_twoCells (by decide) (by decide)
  refine ⟨hframe, hprev, fun h => ?_⟩
  have hshown := continuationsShown_of_lines_eq hframe hprev rfl rfl h
  have hglyph := (hshown 0 0 (by decide) (by decide) rfl (by decide) rfl (by decide)).2.2
  exact absurd (congrArg Glyph.symbol hglyph) (by decide)

end Herden.Proofs.RenderAnsi
