import Herden.Lib.HashMap
import Herden.Lib.Text

/-!
# `Herden.Runtime.Terminal.HistoryRead`: history read from scrolled viewports

Embedding of the merge of `runtime/src/terminal/history_read.rs`. An application on the alternate
screen keeps its own history, so the runtime scrolls it up and merges each viewport with the rows it
has. Numbers of rows are natural numbers, with the saturation of a 64-bit `usize` where the source
multiplies.
-/

namespace Herden.Runtime.Terminal

open Herden.Lib (Text HashMap)

inductive CellWide where
  | narrow
  | wide
  | spacerTail
  | spacerHead
deriving DecidableEq

structure ScreenTextCell where
  wide : CellWide
  graphemes : List UInt32
deriving DecidableEq

structure ScreenTextRow where
  cells : List ScreenTextCell
  softWrapped : Bool
  wrapContinuation : Bool
deriving DecidableEq

structure ScreenSnapshot where
  cols : UInt16
  rows : List ScreenTextRow

inductive UpwardMerge where
  | advanced (rows : Nat)
  | unchanged
  | unaligned

def minAlignmentRatioPercent : Nat := 30

def kittyUnicodePlaceholder : UInt32 := 0x10eeee

/-- `char::from_u32`, or the replacement character. -/
def charOfCodepoint (codepoint : UInt32) : Char :=
  if h : codepoint.toNat.isValidChar then ⟨codepoint, h⟩ else '\ufffd'

def cellText (cell : ScreenTextCell) : Text :=
  if cell.wide = .spacerTail then []
  else if cell.graphemes = [] || cell.graphemes.head? = some kittyUnicodePlaceholder then [' ']
  else cell.graphemes.map charOfCodepoint

def rowText (row : ScreenTextRow) : Text := row.cells.flatMap cellText

def trimEnd (text : Text) : Text := text.rdropWhile Text.isWhitespace

/-! ### Rows without their scrollbar -/

/-- What the last cell of a row may be of a scrollbar. -/
inductive Edge where
  | track
  | thumb
deriving DecidableEq

def edge (row : ScreenTextRow) : Option Edge :=
  match row.cells.getLast?.map (·.graphemes) with
  | some [codepoint] =>
      if codepoint = 0x2502 then some .track
      else if codepoint = 0x2503 || codepoint = 0x2588 then some .thumb
      else none
  | _ => none

/-- The loop over runs of rows that end in a scrollbar, with enough fuel for the rows. -/
def normalizeRuns : Nat → List (ScreenTextRow × Text) → List Text
  | 0, rows => rows.map Prod.snd
  | _, [] => []
  | fuel + 1, first :: rest =>
      let run := (first :: rest).takeWhile fun row =>
        row.1.cells.length = first.1.cells.length && (edge row.1).isSome
      let identities :=
        if 3 ≤ run.length && run.any (edge ·.1 = some .track)
            && run.any (edge ·.1 = some .thumb) then
          run.map fun row => trimEnd row.2.dropLast
        else run.map Prod.snd
      if run.isEmpty then first.2 :: normalizeRuns fuel rest
      else identities ++ normalizeRuns fuel ((first :: rest).drop run.length)

def rowIdentities (rows : List ScreenTextRow) : List Text :=
  normalizeRuns rows.length (rows.map fun row => (row, trimEnd (rowText row)))

/-! ### Alignment -/

/-- How often each text occurs. -/
def textCounts (texts : List Text) : HashMap Text Nat :=
  texts.foldl (fun counts text => counts.insert text ((counts.get text).getD 0 + 1)) ∅

def usizeMax : Nat := 2 ^ 64 - 1

def saturatingMul (n m : Nat) : Nat := min (n * m) usizeMax

/-- The variables of the loop over the overlap. -/
structure Votes where
  comparable : Nat
  matched : Nat
  firstAnchor : Option Nat

/-- One row of the overlap, at its index in the previous viewport. -/
def Votes.compare (previousCounts nextCounts : HashMap Text Nat) (self : Votes)
    (entry : (Text × Text) × Nat) : Votes :=
  let ((before, after), index) := entry
  if before.isEmpty || after.isEmpty then self
  else
    let self := { self with comparable := self.comparable + 1 }
    if before = after then
      let self := { self with matched := self.matched + 1 }
      if previousCounts.get before = some 1 && nextCounts.get after = some 1 then
        { self with firstAnchor := self.firstAnchor.or (some index) }
      else self
    else self

/-- The rows of the overlap, `previous[index]` with `next[index + shift]`. -/
def overlapVotes (previous next : List Text) (shift : Nat) : Votes :=
  (previous.zip (next.drop shift)).zipIdx.foldl
    (Votes.compare (textCounts previous) (textCounts next)) ⟨0, 0, none⟩

/-- The anchor of a plausible shift. -/
def plausibleAnchor (previous next : List Text) (shift : Nat) : Option Nat :=
  let found := overlapVotes previous next shift
  match found.firstAnchor with
  | none => none
  | some anchor =>
      if saturatingMul found.matched 100
          < saturatingMul found.comparable minAlignmentRatioPercent then none
      else some anchor

/-- One turn of the loop over the shifts: competing shifts are ambiguous. -/
def tryShift (previous next : List Text) (alignment : Option (Nat × Nat)) (shift : Nat) :
    Option (Option (Nat × Nat)) :=
  match plausibleAnchor previous next shift with
  | none => some alignment
  | some anchor => if alignment.isSome then none else some (some (shift, anchor))

/-- The one plausible shift with its anchor. -/
def upwardAlignment (previous next : List Text) : Option (Nat × Nat) :=
  ((List.range' 1 (previous.length - 1)).foldlM (tryShift previous next) none).join

/-! ### The merge -/

/-- The outcome and the history afterwards. -/
def mergeScrolledUp (history : List ScreenTextRow) (previous next : ScreenSnapshot) :
    UpwardMerge × List ScreenTextRow :=
  if previous.cols ≠ next.cols || previous.rows.length ≠ next.rows.length then (.unaligned, history)
  else
    let previousText := rowIdentities previous.rows
    let nextText := rowIdentities next.rows
    if previousText = nextText then (.unchanged, history)
    else
      match upwardAlignment previousText nextText with
      | none => (.unaligned, history)
      | some (shift, anchor) =>
          let anchorText := (previous.rows[anchor]?).map fun row => trimEnd (rowText row)
          match ((rowIdentities history).take previous.rows.length).findIdx? fun text =>
              some text = previousText[anchor]? || some text = anchorText with
          | none => (.unaligned, history)
          | some historyAnchor =>
              let boundary := anchor + shift
              (.advanced (boundary - historyAnchor),
                next.rows.take boundary ++ history.drop historyAnchor)

end Herden.Runtime.Terminal
