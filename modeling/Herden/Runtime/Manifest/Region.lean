import Herden.Lib.Str

/-!
# `Herden.Runtime.Manifest.Region`: the parts of a screen that detection rules look at

Embedding of the regions of `detect/manifest.rs`. A region is a slice of the screen, or a line of
it, or one of the texts that come with it. The offsets of slices are counted from the lengths of
lines, as in the source; `none` is the panic of a slice at a wrong byte.
-/

namespace Herden.Runtime.Manifest.Region

open Herden.Lib
open Herden.Lib.Text (trim isWhitespace afterPrefix beforeSuffix parseBelow)

structure DetectionInput where
  screen : Text
  oscTitle : Text
  oscProgress : Text

/-- The literal `""`. -/
def empty : Str := ⟨0, []⟩

/-! ### Lines -/

def isNonEmpty (line : Str) : Bool := !(trim line.text).isEmpty

def codexPromptLine (line : Str) : Bool := line.text = ['›'] || ['›', ' '].isPrefixOf line.text

def codexBlockMarkerLine (line : Str) : Bool :=
  ['•'].isPrefixOf line.text || ['■'].isPrefixOf line.text || ['✗'].isPrefixOf line.text ||
    ['✓'].isPrefixOf line.text

def isHorizontalRule (line : Str) : Bool :=
  let trimmed := trim line.text
  if trimmed.isEmpty then false
  else
    let ruleChars := (trimmed.takeWhile (· = '─')).length
    if ruleChars = 0 then false
    else
      let suffix := (trimmed.drop ruleChars).dropWhile isWhitespace
      suffix.isEmpty || 3 ≤ ruleChars

/-- The last index of a line that passes a test. -/
def rposition (test : Str → Bool) (lines : List Str) : Option Nat :=
  (lines.zipIdx.reverse.find? fun (line, _) => test line).map (·.2)

def lineStartOffset (content : Str) (lines : List Str) (index : Nat) : Nat :=
  min ((lines.take (min index lines.length)).map fun line => byteLen line.text + 1).sum
    (byteLen content.text)

def sliceFromLineIndex (content : Str) (lines : List Str) (index : Nat) : Option Str :=
  let byteOffset := lineStartOffset content lines index
  content.slice? (min byteOffset (byteLen content.text)) (byteLen content.text)

/-! ### Regions -/

def bottomLines (content : Str) (count : Nat) : Option Str :=
  let lines := content.lines
  sliceFromLineIndex content lines (lines.length - count)

def bottomNonEmptyLines (content : Str) (count : Nat) : Option Str :=
  let lines := content.lines
  match ((lines.zipIdx.reverse.filter fun (line, _) => isNonEmpty line).take count).getLast? with
  | none => some empty
  | some (_, startIndex) => sliceFromLineIndex content lines startIndex

def topNonEmptyLines (content : Str) (count : Nat) : Option Str :=
  let lines := content.lines
  match ((lines.zipIdx.filter fun (line, _) => isNonEmpty line).take count).getLast? with
  | none => some empty
  | some (_, endIndex) => content.slice? 0 (lineStartOffset content lines (endIndex + 1))

def afterLastPromptMarker (content : Str) : Option Str :=
  let lines := content.lines
  match rposition codexPromptLine lines with
  | none => some content
  | some index => sliceFromLineIndex content lines (index + 1)

def currentCodexPromptIndex (lines : List Str) : Option Nat := do
  let promptIndex ← rposition codexPromptLine lines
  if (lines.drop (promptIndex + 1)).any codexBlockMarkerLine then none else some promptIndex

def beforeCurrentPromptMarker (content : Str) : Option Str :=
  let lines := content.lines
  match currentCodexPromptIndex lines with
  | none => some content
  | some index =>
      let byteOffset := ((lines.take index).map fun line => byteLen line.text + 1).sum
      content.slice? 0 (min byteOffset (byteLen content.text))

def wholeRecentWithoutCurrentPromptMarker (content : Str) : Str :=
  if (currentCodexPromptIndex content.lines).isSome then empty else content

def currentPromptBlockMarker (content : Str) : Option Str := do
  let lines := content.lines
  let promptIndex ← currentCodexPromptIndex lines
  (lines.take promptIndex).reverse.find? codexBlockMarkerLine

/-- The inner `none` is that of the source. -/
def afterCurrentPromptBlockMarker (content : Str) : Option (Option Str) :=
  let lines := content.lines
  match currentCodexPromptIndex lines with
  | none => some none
  | some promptIndex =>
      match rposition codexBlockMarkerLine (lines.take promptIndex) with
      | none => some none
      | some blockIndex => (sliceFromLineIndex content lines blockIndex).map some

/-- The loop of `prompt_box_top_border_index`, over the lines from the last one on. -/
def borderLoop : Nat → List (Str × Nat) → Option Nat
  | _, [] => none
  | borderCount, (line, index) :: rest =>
      if isHorizontalRule line then
        if borderCount + 1 = 2 then some index else borderLoop (borderCount + 1) rest
      else borderLoop borderCount rest

def promptBoxTopBorderIndex (lines : List Str) : Option Nat := borderLoop 0 lines.zipIdx.reverse

/-- The inner `none` is that of the source. -/
def promptBoxBody (content : Str) : Option (Option Str) :=
  let lines := content.lines
  match promptBoxTopBorderIndex lines with
  | none => some none
  | some top =>
      let start := lineStartOffset content lines (top + 1)
      let endIndex :=
        (((lines.drop (top + 1)).findIdx? isHorizontalRule).map (top + 1 + ·)).getD lines.length
      let stop := lineStartOffset content lines endIndex
      (content.slice? (min start (byteLen content.text)) (min stop (byteLen content.text))).map some

def abovePromptBox (content : Str) : Option Str :=
  let lines := content.lines
  match promptBoxTopBorderIndex lines with
  | none => some content
  | some top =>
      content.slice? 0 (min (lineStartOffset content lines top) (byteLen content.text))

def afterLastHorizontalRule (content : Str) : Option Str :=
  let (lastRuleEnd, _) := content.lines.foldl
    (fun (lastRuleEnd, offset) line =>
      let nextOffset := offset + byteLen line.text + 1
      (if isHorizontalRule line then min nextOffset (byteLen content.text) else lastRuleEnd,
        nextOffset))
    (0, 0)
  content.slice? lastRuleEnd (byteLen content.text)

def lastNonEmptyLine (content : Str) : Str := (content.lines.reverse.find? isNonEmpty).getD empty

/-! ### Names -/

def regionCount (spec name : Text) : Option Nat := do
  let rest ← afterPrefix name spec
  let rest ← afterPrefix ['('] rest
  let count ← beforeSuffix [')'] rest
  parseBelow (2 ^ 64) count

def maxTopRegionLineCount : Nat := 65535

def topRegionCount (spec : Text) : Option Nat := do
  let rest ← afterPrefix "top_non_empty_lines".toList spec
  let rest ← afterPrefix ['('] rest
  let count ← beforeSuffix [')'] rest
  if ['0'].isPrefixOf count || !count.all Char.isDigit then none
  else (parseBelow (2 ^ 64) count).filter (· ≤ maxTopRegionLineCount)

def validateRegionName (spec : Text) : Except Text Unit :=
  let trimmed := trim spec
  if trimmed ∈ ["whole_recent".toList, "after_last_prompt_marker".toList,
      "before_current_prompt_marker".toList, "whole_recent_without_current_prompt_marker".toList,
      "current_prompt_block_marker".toList, "after_current_prompt_block_marker".toList,
      "prompt_box_body".toList, "above_prompt_box".toList,
      "last_non_empty_above_prompt_box".toList, "after_last_horizontal_rule".toList,
      "osc_title".toList, "osc_progress".toList] then .ok ()
  else if (regionCount trimmed "bottom_lines".toList).isSome
      || (regionCount trimmed "bottom_non_empty_lines".toList).isSome
      || (topRegionCount trimmed).isSome then .ok ()
  else .error trimmed

def region (input : DetectionInput) (spec : Text) : Option Str :=
  let trimmed := trim spec
  if trimmed = "osc_title".toList then some ⟨0, input.oscTitle⟩
  else if trimmed = "osc_progress".toList then some ⟨0, input.oscProgress⟩
  else
    let content : Str := ⟨0, input.screen⟩
    if trimmed = "whole_recent".toList then some content
    else if trimmed = "after_last_prompt_marker".toList then afterLastPromptMarker content
    else if trimmed = "before_current_prompt_marker".toList then beforeCurrentPromptMarker content
    else if trimmed = "whole_recent_without_current_prompt_marker".toList then
      some (wholeRecentWithoutCurrentPromptMarker content)
    else if trimmed = "current_prompt_block_marker".toList then
      some ((currentPromptBlockMarker content).getD empty)
    else if trimmed = "after_current_prompt_block_marker".toList then
      (afterCurrentPromptBlockMarker content).map (·.getD empty)
    else if trimmed = "prompt_box_body".toList then (promptBoxBody content).map (·.getD empty)
    else if trimmed = "above_prompt_box".toList then abovePromptBox content
    else if trimmed = "last_non_empty_above_prompt_box".toList then
      (abovePromptBox content).map lastNonEmptyLine
    else if trimmed = "after_last_horizontal_rule".toList then afterLastHorizontalRule content
    else
      match regionCount trimmed "bottom_lines".toList with
      | some count => bottomLines content count
      | none =>
          match regionCount trimmed "bottom_non_empty_lines".toList with
          | some count => bottomNonEmptyLines content count
          | none =>
              match topRegionCount trimmed with
              | some count => topNonEmptyLines content count
              | none => some empty

end Herden.Runtime.Manifest.Region
