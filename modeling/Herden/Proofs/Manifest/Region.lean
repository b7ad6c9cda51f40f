import Herden.Runtime.Manifest.Region

/-!
# `Herden.Proofs.Manifest.Region`: regions are blocks of whole lines

A name denotes a block of whole lines of the screen, or one line (`Name.block`), said by the places
of the lines that are prompts, rules, block markers or not empty (`indices`). The source counts
offsets with one byte for each line end, so its slice is this block where the cuts of the name are
straight, and otherwise begins or ends elsewhere, or panics inside a character (`region_exact_iff`).
A screen whose lines end in line feeds alone is straight everywhere (`aligned_of_feeds`).

The last line above the prompt box needs less. The text above the box is some whole lines and a part
of the next one (`Front`), and the line is found when it is one of the whole ones or when the part
is all of it (`lastNonEmpty_front_iff`).
-/

namespace Herden.Proofs.Manifest.Region

open Herden.Lib
open Herden.Lib.Text (trim)
open Herden.Runtime.Manifest.Region

/-! ### Places of lines -/

/-- The indices of the lines that pass a test. -/
def indices (test : Str → Bool) (lines : List Str) : List Nat :=
  (lines.zipIdx.filter fun (line, _) => test line).map (·.2)

theorem indices_nil (test : Str → Bool) : indices test [] = [] := rfl

theorem indices_append (test : Str → Bool) (lines more : List Str) :
    indices test (lines ++ more)
      = indices test lines ++ (indices test more).map (lines.length + ·) := by
  unfold indices
  rw [List.zipIdx_append, List.filter_append, List.map_append, Nat.zero_add,
    List.zipIdx_eq_map_add (l := more), List.filter_map, List.map_map, List.map_map]
  congr 2

theorem rposition_eq (test : Str → Bool) (lines : List Str) :
    rposition test lines = (indices test lines).getLast? := by
  unfold rposition indices
  rw [← List.head?_filter, List.filter_reverse, List.head?_reverse, List.getLast?_map]

theorem indices_concat (test : Str → Bool) (lines : List Str) (line : Str) :
    indices test (lines ++ [line])
      = indices test lines ++ if test line then [lines.length] else [] := by
  rw [indices_append]
  congr 1
  unfold indices
  cases htest : test line <;> simp [htest]

variable {index : Nat} {lines : List Str} {line : Str} {text : Text}

theorem lt_of_mem_indices {test : Str → Bool} (h : index ∈ indices test lines) :
    index < lines.length := by
  obtain ⟨⟨line, i⟩, hmem, rfl⟩ := List.mem_map.mp h
  have hin := List.mem_zipIdx (List.mem_filter.mp hmem).1
  omega

/-- The last of so many lines from the end is the first of the last so many. -/
theorem getLast?_take_reverse (test : Str → Bool) (lines : List Str) (count : Nat) :
    (((lines.zipIdx.reverse.filter fun (line, _) => test line).take count).getLast?).map (·.2)
      = ((indices test lines).drop ((indices test lines).length - count)).head? := by
  unfold indices
  rw [List.filter_reverse, List.take_reverse, List.getLast?_reverse, List.length_map,
    ← List.map_drop, List.head?_map]

theorem getLast?_take (test : Str → Bool) (lines : List Str) (count : Nat) :
    (((lines.zipIdx.filter fun (line, _) => test line).take count).getLast?).map (·.2)
      = ((indices test lines).take count).getLast? := by
  unfold indices
  rw [← List.map_take, List.getLast?_map]

/-- The top of the box is at the last rule but one. -/
theorem promptBoxTopBorderIndex_eq (lines : List Str) :
    promptBoxTopBorderIndex lines = (indices isHorizontalRule lines).dropLast.getLast? := by
  have hone : ∀ items : List (Str × Nat), borderLoop 1 items
      = (items.filter fun (line, _) => isHorizontalRule line).head?.map (·.2) := by
    intro items
    induction items with
    | nil => rfl
    | cons item items ih =>
      obtain ⟨line, index⟩ := item
      unfold borderLoop
      cases hrule : isHorizontalRule line with
      | true => simp [hrule]
      | false => simp [hrule, ih]
  have hzero : ∀ items : List (Str × Nat), borderLoop 0 items
      = (items.filter fun (line, _) => isHorizontalRule line).tail.head?.map (·.2) := by
    intro items
    induction items with
    | nil => rfl
    | cons item items ih =>
      obtain ⟨line, index⟩ := item
      unfold borderLoop
      cases hrule : isHorizontalRule line with
      | true => simp [hrule, hone]
      | false => simp [hrule, ih]
  unfold promptBoxTopBorderIndex indices
  rw [hzero, List.filter_reverse, List.tail_reverse, List.head?_reverse, ← List.map_dropLast,
    List.getLast?_map]

/-! ### Offsets -/

theorem lineStartOffset_eq (content : Str) (index : Nat) :
    lineStartOffset content content.lines index
      = min ((((rawLines content.text).map lineText).take index).map (byteLen · + 1)).sum
          (byteLen content.text) := by
  have htake : (content.lines.take (min index content.lines.length)).map
        (fun line => byteLen line.text + 1)
      = (((rawLines content.text).map lineText).take index).map (byteLen · + 1) := by
    rw [← Str.map_text_linesFrom content.offset, ← List.map_take, List.map_map,
      List.take_eq_take_min (i := index)]
    rfl
  unfold lineStartOffset
  rw [htake]

theorem lineStartOffset_eq_iff (content : Str) (index : Nat) :
    lineStartOffset content content.lines index = lineStart content.text index
      ↔ Straight content.text index := by
  rw [lineStartOffset_eq, counted_eq_lineStart_iff]

theorem min_lineStartOffset (content : Str) (index : Nat) :
    min (lineStartOffset content content.lines index) (byteLen content.text)
      = lineStartOffset content content.lines index := by
  unfold lineStartOffset
  omega

theorem lineStart_lines (content : Str) :
    lineStart content.text content.lines.length = byteLen content.text :=
  lineStart_of_length_le (Nat.le_of_eq content.length_lines.symm)

/-- A slice from the start of a line to the end. -/
theorem sliceFromLineIndex_iff (content : Str) (h : index ≤ content.lines.length) :
    sliceFromLineIndex content content.lines index
        = some (content.block index content.lines.length)
      ↔ Straight content.text index := by
  unfold sliceFromLineIndex
  dsimp only
  rw [min_lineStartOffset, content.slice?_eq_block_iff h, lineStartOffset_eq_iff, lineStart_lines]
  exact and_iff_left rfl

/-- A slice from the beginning to the start of a line. -/
theorem sliceTo_iff (content : Str) (index : Nat) :
    content.slice? 0 (lineStartOffset content content.lines index) = some (content.block 0 index)
      ↔ Straight content.text index := by
  rw [content.slice?_eq_block_iff (Nat.zero_le _), lineStartOffset_eq_iff]
  exact and_iff_right rfl

/-! ### What the names mean -/

/-- A name of a region. -/
inductive Name where
  | oscTitle
  | oscProgress
  | wholeRecent
  | afterLastPromptMarker
  | beforeCurrentPromptMarker
  | wholeRecentWithoutCurrentPromptMarker
  | currentPromptBlockMarker
  | afterCurrentPromptBlockMarker
  | promptBoxBody
  | abovePromptBox
  | lastNonEmptyAbovePromptBox
  | afterLastHorizontalRule
  | bottomLines (count : Nat)
  | bottomNonEmptyLines (count : Nat)
  | topNonEmptyLines (count : Nat)
deriving DecidableEq

/-- The last prompt line, unless a block begins behind it. -/
def currentPrompt (lines : List Str) : Option Nat :=
  (indices codexPromptLine lines).getLast?.filter fun prompt =>
    (indices codexBlockMarkerLine lines).all (· ≤ prompt)

/-- The line that begins the last block before the current prompt. -/
def currentBlock (lines : List Str) : Option Nat := do
  let prompt ← currentPrompt lines
  (indices codexBlockMarkerLine (lines.take prompt)).getLast?

/-- The rules around the last box. -/
def boxRules (lines : List Str) : Option (Nat × Nat) := do
  let rules := indices isHorizontalRule lines
  return (← rules.dropLast.getLast?, ← rules.getLast?)

def lastNonEmpty (lines : List Str) : Str := ((lines.filter isNonEmpty).getLast?).getD empty

/-- The block of lines, or the line, that a name denotes. -/
def Name.block (input : DetectionInput) : Name → Str
  | .oscTitle => ⟨0, input.oscTitle⟩
  | .oscProgress => ⟨0, input.oscProgress⟩
  | .wholeRecent => ⟨0, input.screen⟩
  | .afterLastPromptMarker =>
      let content : Str := ⟨0, input.screen⟩
      match (indices codexPromptLine content.lines).getLast? with
      | none => content
      | some prompt => content.block (prompt + 1) content.lines.length
  | .beforeCurrentPromptMarker =>
      let content : Str := ⟨0, input.screen⟩
      match currentPrompt content.lines with
      | none => content
      | some prompt => content.block 0 prompt
  | .wholeRecentWithoutCurrentPromptMarker =>
      let content : Str := ⟨0, input.screen⟩
      match currentPrompt content.lines with
      | none => content
      | some _ => empty
  | .currentPromptBlockMarker =>
      let content : Str := ⟨0, input.screen⟩
      ((currentBlock content.lines).bind (content.lines[·]?)).getD empty
  | .afterCurrentPromptBlockMarker =>
      let content : Str := ⟨0, input.screen⟩
      match currentBlock content.lines with
      | none => empty
      | some block => content.block block content.lines.length
  | .promptBoxBody =>
      let content : Str := ⟨0, input.screen⟩
      match boxRules content.lines with
      | none => empty
      | some (top, bottom) => content.block (top + 1) bottom
  | .abovePromptBox =>
      let content : Str := ⟨0, input.screen⟩
      match boxRules content.lines with
      | none => content
      | some (top, _) => content.block 0 top
  | .lastNonEmptyAbovePromptBox =>
      let content : Str := ⟨0, input.screen⟩
      match boxRules content.lines with
      | none => lastNonEmpty content.lines
      | some (top, _) => lastNonEmpty (content.lines.take top)
  | .afterLastHorizontalRule =>
      let content : Str := ⟨0, input.screen⟩
      match (indices isHorizontalRule content.lines).getLast? with
      | none => content
      | some rule => content.block (rule + 1) content.lines.length
  | .bottomLines count =>
      let content : Str := ⟨0, input.screen⟩
      content.block (content.lines.length - count) content.lines.length
  | .bottomNonEmptyLines count =>
      let content : Str := ⟨0, input.screen⟩
      let places := indices isNonEmpty content.lines
      match (places.drop (places.length - count)).head? with
      | none => empty
      | some place => content.block place content.lines.length
  | .topNonEmptyLines count =>
      let content : Str := ⟨0, input.screen⟩
      match ((indices isNonEmpty content.lines).take count).getLast? with
      | none => empty
      | some place => content.block 0 (place + 1)

/-! ### The functions of the source -/

theorem any_eq_all_indices (test : Str → Bool) (lines : List Str) (h : index < lines.length) :
    (lines.drop (index + 1)).any test = !(indices test lines).all (· ≤ index) := by
  have hsplit : indices test lines = indices test (lines.take (index + 1))
      ++ (indices test (lines.drop (index + 1))).map (index + 1 + ·) := by
    conv_lhs => rw [← List.take_append_drop (index + 1) lines]
    rw [indices_append, List.length_take, Nat.min_eq_left h]
  have hfront : (indices test (lines.take (index + 1))).all (· ≤ index) = true := by
    rw [List.all_eq_true]
    intro place hplace
    have hlt := lt_of_mem_indices hplace
    rw [List.length_take] at hlt
    rw [decide_eq_true_eq]
    omega
  have hback : ((indices test (lines.drop (index + 1))).map (index + 1 + ·)).all (· ≤ index)
      = (indices test (lines.drop (index + 1))).isEmpty := by
    cases indices test (lines.drop (index + 1)) with
    | nil => rfl
    | cons place places =>
      rw [List.map_cons, List.all_cons, decide_eq_false (by omega)]
      rfl
  rw [hsplit, List.all_append, hfront, hback, Bool.true_and]
  have hempty : ∀ items : List Str, items.any test = !(indices test items).isEmpty := by
    intro items
    induction items using List.reverseRecOn with
    | nil => rfl
    | append_singleton items item ih =>
      rw [List.any_append, ih, indices_concat]
      cases htest : test item <;> cases indices test items <;> simp [htest]
  exact hempty _

theorem currentCodexPromptIndex_eq (lines : List Str) :
    currentCodexPromptIndex lines = currentPrompt lines := by
  unfold currentCodexPromptIndex currentPrompt
  rw [rposition_eq]
  cases hlast : (indices codexPromptLine lines).getLast? with
  | none => rfl
  | some prompt =>
    have hlt := lt_of_mem_indices (List.mem_of_getLast? hlast)
    rw [Option.filter_some, Option.bind_eq_bind, Option.bind_some,
      any_eq_all_indices codexBlockMarkerLine lines hlt]
    cases (indices codexBlockMarkerLine lines).all (· ≤ prompt) <;> rfl

/-- The last line that passes a test stands at the last place of one. -/
theorem find?_reverse_eq (test : Str → Bool) (lines : List Str) :
    lines.reverse.find? test = (indices test lines).getLast?.bind (lines[·]?) := by
  induction lines using List.reverseRecOn with
  | nil => rfl
  | append_singleton lines line ih =>
    rw [List.reverse_concat, List.find?_cons, indices_concat]
    cases htest : test line with
    | true => simp
    | false =>
      rw [if_neg Bool.false_ne_true, List.append_nil, ih]
      cases hlast : (indices test lines).getLast? with
      | none => rfl
      | some place =>
        have hlt := lt_of_mem_indices (List.mem_of_getLast? hlast)
        simp [List.getElem?_append_left hlt]

theorem currentPromptBlockMarker_eq (content : Str) :
    currentPromptBlockMarker content = (currentBlock content.lines).bind (content.lines[·]?) := by
  unfold currentPromptBlockMarker currentBlock
  dsimp only
  rw [currentCodexPromptIndex_eq]
  cases currentPrompt content.lines with
  | none => rfl
  | some prompt =>
    rw [Option.bind_eq_bind, Option.bind_some, Option.bind_eq_bind, Option.bind_some,
      find?_reverse_eq]
    cases hlast : (indices codexBlockMarkerLine (content.lines.take prompt)).getLast? with
    | none => rfl
    | some place =>
      have hlt := lt_of_mem_indices (List.mem_of_getLast? hlast)
      rw [List.length_take] at hlt
      rw [Option.bind_some, Option.bind_some, List.getElem?_take_of_lt (by omega)]

/-- The loop of `after_last_horizontal_rule` remembers where the line behind the last rule is. -/
theorem ruleLoop_eq (content : Str) (lines : List Str) :
    lines.foldl
        (fun (lastRuleEnd, offset) line =>
          let nextOffset := offset + byteLen line.text + 1
          (if isHorizontalRule line then min nextOffset (byteLen content.text) else lastRuleEnd,
            nextOffset))
        (0, 0)
      = (match (indices isHorizontalRule lines).getLast? with
          | none => 0
          | some rule => lineStartOffset content lines (rule + 1),
        (lines.map fun line => byteLen line.text + 1).sum) := by
  induction lines using List.reverseRecOn with
  | nil => rfl
  | append_singleton lines line ih =>
    rw [List.foldl_concat, ih, indices_concat]
    dsimp only
    rw [List.map_append, List.sum_append, List.map_singleton, List.sum_singleton, Nat.add_assoc]
    congr 1
    unfold lineStartOffset
    cases hrule : isHorizontalRule line with
    | true =>
      rw [if_pos rfl, if_pos rfl, List.getLast?_concat]
      dsimp only
      rw [List.length_append, List.length_singleton, Nat.min_self, List.take_of_length_le,
        List.map_append, List.sum_append, List.map_singleton, List.sum_singleton]
      rw [List.length_append, List.length_singleton]
    | false =>
      rw [if_neg Bool.false_ne_true, if_neg Bool.false_ne_true, List.append_nil]
      cases hlast : (indices isHorizontalRule lines).getLast? with
      | none => rfl
      | some rule =>
        have hlt := lt_of_mem_indices (List.mem_of_getLast? hlast)
        have hold : min (rule + 1) lines.length = rule + 1 := Nat.min_eq_left hlt
        have hnew : min (rule + 1) (lines ++ [line]).length = rule + 1 := by
          rw [List.length_append]
          omega
        dsimp only
        rw [hold, hnew, List.take_append_of_le_length hlt]

theorem indices_pairwise (test : Str → Bool) (lines : List Str) :
    (indices test lines).Pairwise (· < ·) := by
  induction lines using List.reverseRecOn with
  | nil => exact List.Pairwise.nil
  | append_singleton lines line ih =>
    rw [indices_concat, List.pairwise_append]
    refine ⟨ih, ?_, ?_⟩
    · split
      next => exact List.pairwise_singleton _ _
      next => exact List.Pairwise.nil
    · intro place hplace last hlast
      split at hlast
      next =>
        rw [List.mem_singleton.mp hlast]
        exact lt_of_mem_indices hplace
      next => cases hlast

theorem findIdx?_eq (test : Str → Bool) (lines : List Str) :
    lines.findIdx? test = (indices test lines).head? := by
  induction lines with
  | nil => rfl
  | cons line lines ih =>
    have hcons : indices test (line :: lines)
        = indices test [line] ++ (indices test lines).map (1 + ·) :=
      indices_append test [line] lines
    have hone : indices test [line] = if test line then [0] else [] := by
      have hconcat := indices_concat test [] line
      rwa [List.nil_append, indices_nil, List.nil_append] at hconcat
    rw [List.findIdx?_cons, hcons, hone, ih]
    cases test line with
    | true => rfl
    | false =>
      rw [if_neg Bool.false_ne_true, if_neg Bool.false_ne_true, List.nil_append, List.head?_map]
      congr 1
      funext place
      exact Nat.add_comm _ _

/-- A box has its top rule before its bottom rule, and this is the next rule behind it. -/
theorem boxRules_spec {top bottom : Nat} (h : boxRules lines = some (top, bottom)) :
    top < bottom ∧ bottom < lines.length
      ∧ ((lines.drop (top + 1)).findIdx? isHorizontalRule).map (top + 1 + ·) = some bottom := by
  unfold boxRules at h
  simp only [Option.bind_eq_bind, Option.bind_eq_some_iff, Option.pure_def, Option.some_inj] at h
  obtain ⟨_, htop, _, hbottom, hpair⟩ := h
  cases hpair
  obtain ⟨init, hinit⟩ := List.getLast?_eq_some_iff.mp htop
  obtain ⟨front, hfront⟩ := List.getLast?_eq_some_iff.mp hbottom
  rw [hfront, List.dropLast_concat] at hinit
  subst hinit
  have hsorted := indices_pairwise isHorizontalRule lines
  have hmem : bottom ∈ indices isHorizontalRule lines := by simp [hfront]
  have hlt := lt_of_mem_indices hmem
  rw [hfront, List.pairwise_append, List.pairwise_append] at hsorted
  obtain ⟨⟨-, -, hbefore⟩, -, hlast⟩ := hsorted
  have htopBottom : top < bottom := hlast top (by simp) bottom (by simp)
  refine ⟨htopBottom, hlt, ?_⟩
  have hsplit : indices isHorizontalRule lines
      = indices isHorizontalRule (lines.take (top + 1))
        ++ (indices isHorizontalRule (lines.drop (top + 1))).map (top + 1 + ·) := by
    conv_lhs => rw [← List.take_append_drop (top + 1) lines]
    rw [indices_append, List.length_take, Nat.min_eq_left (by omega)]
  rw [findIdx?_eq, ← List.head?_map]
  cases hback : (indices isHorizontalRule (lines.drop (top + 1))).map (top + 1 + ·) with
  | nil =>
    -- The bottom rule is behind the top one, so there is a rule behind it.
    rw [hback, List.append_nil] at hsplit
    rw [hsplit] at hmem
    have hbound := lt_of_mem_indices hmem
    rw [List.length_take] at hbound
    omega
  | cons place places =>
    have hplace : place ∈ (indices isHorizontalRule (lines.drop (top + 1))).map (top + 1 + ·) := by
      rw [hback]
      exact List.mem_cons_self
    obtain ⟨relative, -, hrelative⟩ := List.mem_map.mp hplace
    have hin : place ∈ init ++ [top] ++ [bottom] := by
      rw [← hfront, hsplit, hback]
      simp
    rcases List.mem_append.mp hin with hold | hnew
    · rcases List.mem_append.mp hold with hinit | htop
      · have := hbefore place hinit top (by simp)
        omega
      · have := List.mem_singleton.mp htop
        omega
    · rw [List.mem_singleton.mp hnew]
      rfl

theorem boxRules_top (lines : List Str) :
    promptBoxTopBorderIndex lines = (boxRules lines).map (·.1) := by
  rw [promptBoxTopBorderIndex_eq]
  unfold boxRules
  dsimp only
  cases htop : (indices isHorizontalRule lines).dropLast.getLast? with
  | none => rfl
  | some top =>
    have hmem := List.dropLast_subset _ (List.mem_of_getLast? htop)
    cases hlast : (indices isHorizontalRule lines).getLast? with
    | none =>
      rw [List.getLast?_eq_none_iff.mp hlast] at hmem
      cases hmem
    | some bottom => rfl

/-! ### Where regions are exact -/

/-- So many line ends before an index have two bytes. -/
def crlfEnds (text : Text) (index : Nat) : Nat := ((rawLines text).take index).countP isCrlf

/-- Without one byte for each line end of two, the text before a line still has its last line that
is not empty, either with its line end or without. -/
def KeepsLast (content : Str) (index : Nat) : Prop :=
  let cut := lineStart content.text index - crlfEnds content.text index
  (splitAtByte content.text cut).isSome = true
    ∧ ∀ place ∈ (indices isNonEmpty (content.lines.take index)).getLast?,
      lineStart content.text (place + 1) ≤ cut
        ∨ ∀ line ∈ content.lines[place]?, cut = lineStart content.text place + byteLen line.text

/-- Where a region is cut, lines end as they are counted. -/
def Name.Aligned (screen : Text) : Name → Prop
  | .oscTitle => True
  | .oscProgress => True
  | .wholeRecent => True
  | .wholeRecentWithoutCurrentPromptMarker => True
  | .currentPromptBlockMarker => True
  | .afterLastPromptMarker =>
      ∀ prompt ∈ (indices codexPromptLine (Str.lines ⟨0, screen⟩)).getLast?,
        Straight screen (prompt + 1)
  | .beforeCurrentPromptMarker =>
      ∀ prompt ∈ currentPrompt (Str.lines ⟨0, screen⟩), Straight screen prompt
  | .afterCurrentPromptBlockMarker =>
      ∀ block ∈ currentBlock (Str.lines ⟨0, screen⟩), Straight screen block
  | .promptBoxBody =>
      ∀ box ∈ boxRules (Str.lines ⟨0, screen⟩),
        Straight screen (box.1 + 1) ∧ Straight screen box.2
  | .abovePromptBox => ∀ box ∈ boxRules (Str.lines ⟨0, screen⟩), Straight screen box.1
  | .lastNonEmptyAbovePromptBox =>
      ∀ box ∈ boxRules (Str.lines ⟨0, screen⟩), KeepsLast ⟨0, screen⟩ box.1
  | .afterLastHorizontalRule =>
      ∀ rule ∈ (indices isHorizontalRule (Str.lines ⟨0, screen⟩)).getLast?,
        Straight screen (rule + 1)
  | .bottomLines count => Straight screen ((Str.lines ⟨0, screen⟩).length - count)
  | .bottomNonEmptyLines count =>
      let places := indices isNonEmpty (Str.lines ⟨0, screen⟩)
      ∀ place ∈ (places.drop (places.length - count)).head?, Straight screen place
  | .topNonEmptyLines count =>
      ∀ place ∈ ((indices isNonEmpty (Str.lines ⟨0, screen⟩)).take count).getLast?,
        Straight screen (place + 1)

theorem mem_some_iff {α : Type} {P : α → Prop} {a : α} : (∀ b ∈ some a, P b) ↔ P a := by
  simp

theorem afterLastPromptMarker_iff (input : DetectionInput) :
    afterLastPromptMarker ⟨0, input.screen⟩ = some (Name.afterLastPromptMarker.block input)
      ↔ Name.afterLastPromptMarker.Aligned input.screen := by
  unfold afterLastPromptMarker Name.block Name.Aligned
  dsimp only
  rw [rposition_eq]
  cases hlast : (indices codexPromptLine (Str.lines ⟨0, input.screen⟩)).getLast? with
  | none => simp
  | some prompt =>
    have hlt := lt_of_mem_indices (List.mem_of_getLast? hlast)
    rw [mem_some_iff]
    exact sliceFromLineIndex_iff ⟨0, input.screen⟩ hlt

theorem currentPrompt_lt {prompt : Nat} (h : currentPrompt lines = some prompt) :
    prompt < lines.length := by
  obtain ⟨hlast, -⟩ := Option.filter_eq_some_iff.mp h
  exact lt_of_mem_indices (List.mem_of_getLast? hlast)

theorem beforeCurrentPromptMarker_iff (input : DetectionInput) :
    beforeCurrentPromptMarker ⟨0, input.screen⟩ = some (Name.beforeCurrentPromptMarker.block input)
      ↔ Name.beforeCurrentPromptMarker.Aligned input.screen := by
  unfold beforeCurrentPromptMarker Name.block Name.Aligned
  dsimp only
  rw [currentCodexPromptIndex_eq]
  cases hprompt : currentPrompt (Str.lines ⟨0, input.screen⟩) with
  | none => simp
  | some prompt =>
    have hlt := currentPrompt_lt hprompt
    have hslice := sliceTo_iff ⟨0, input.screen⟩ prompt
    unfold lineStartOffset at hslice
    rw [Nat.min_eq_left (Nat.le_of_lt hlt)] at hslice
    rw [mem_some_iff]
    exact hslice

theorem afterCurrentPromptBlockMarker_iff (input : DetectionInput) :
    (afterCurrentPromptBlockMarker ⟨0, input.screen⟩).map (·.getD empty)
        = some (Name.afterCurrentPromptBlockMarker.block input)
      ↔ Name.afterCurrentPromptBlockMarker.Aligned input.screen := by
  unfold afterCurrentPromptBlockMarker Name.block Name.Aligned currentBlock
  dsimp only
  rw [currentCodexPromptIndex_eq]
  cases hprompt : currentPrompt (Str.lines ⟨0, input.screen⟩) with
  | none => simp
  | some prompt =>
    simp only [Option.bind_eq_bind, Option.bind_some, rposition_eq]
    cases hlast : (indices codexBlockMarkerLine
        ((Str.lines ⟨0, input.screen⟩).take prompt)).getLast? with
    | none => simp
    | some block =>
      have hlt := lt_of_mem_indices (List.mem_of_getLast? hlast)
      rw [List.length_take] at hlt
      rw [mem_some_iff, ← sliceFromLineIndex_iff ⟨0, input.screen⟩ (by omega)]
      simp

theorem promptBoxBody_iff (input : DetectionInput) :
    (promptBoxBody ⟨0, input.screen⟩).map (·.getD empty) = some (Name.promptBoxBody.block input)
      ↔ Name.promptBoxBody.Aligned input.screen := by
  unfold promptBoxBody Name.block Name.Aligned
  dsimp only
  rw [boxRules_top]
  cases hbox : boxRules (Str.lines ⟨0, input.screen⟩) with
  | none => simp
  | some box =>
    obtain ⟨top, bottom⟩ := box
    obtain ⟨hbefore, -, hnext⟩ := boxRules_spec hbox
    have hblock := Str.slice?_eq_block_iff ⟨0, input.screen⟩ (Nat.succ_le_of_lt hbefore)
      (a := lineStartOffset ⟨0, input.screen⟩ (Str.lines ⟨0, input.screen⟩) (top + 1))
      (b := lineStartOffset ⟨0, input.screen⟩ (Str.lines ⟨0, input.screen⟩) bottom)
    rw [lineStartOffset_eq_iff, lineStartOffset_eq_iff] at hblock
    rw [mem_some_iff, ← hblock]
    dsimp only [Option.map_some]
    rw [hnext, Option.getD_some, min_lineStartOffset, min_lineStartOffset]
    simp

theorem abovePromptBox_iff (input : DetectionInput) :
    abovePromptBox ⟨0, input.screen⟩ = some (Name.abovePromptBox.block input)
      ↔ Name.abovePromptBox.Aligned input.screen := by
  unfold abovePromptBox Name.block Name.Aligned
  dsimp only
  rw [boxRules_top]
  cases hbox : boxRules (Str.lines ⟨0, input.screen⟩) with
  | none => simp
  | some box =>
    rw [mem_some_iff, ← sliceTo_iff ⟨0, input.screen⟩ box.1]
    dsimp only [Option.map_some]
    rw [min_lineStartOffset]

theorem afterLastHorizontalRule_iff (input : DetectionInput) :
    afterLastHorizontalRule ⟨0, input.screen⟩ = some (Name.afterLastHorizontalRule.block input)
      ↔ Name.afterLastHorizontalRule.Aligned input.screen := by
  unfold afterLastHorizontalRule Name.block Name.Aligned
  rw [ruleLoop_eq ⟨0, input.screen⟩]
  dsimp only
  cases hlast : (indices isHorizontalRule (Str.lines ⟨0, input.screen⟩)).getLast? with
  | none =>
    have hwhole : Str.slice? ⟨0, input.screen⟩ 0 (byteLen input.screen) = some ⟨0, input.screen⟩ :=
      Str.slice?_eq_some_iff.mpr ⟨[], [], by simp, rfl, Nat.zero_add _, rfl⟩
    rw [hwhole]
    simp
  | some rule =>
    have hlt := lt_of_mem_indices (List.mem_of_getLast? hlast)
    rw [mem_some_iff, ← sliceFromLineIndex_iff ⟨0, input.screen⟩ hlt]
    unfold sliceFromLineIndex
    dsimp only
    rw [min_lineStartOffset]

theorem bottomLines_iff (input : DetectionInput) (count : Nat) :
    bottomLines ⟨0, input.screen⟩ count = some ((Name.bottomLines count).block input)
      ↔ (Name.bottomLines count).Aligned input.screen :=
  sliceFromLineIndex_iff ⟨0, input.screen⟩ (Nat.sub_le _ _)

theorem bottomNonEmptyLines_iff (input : DetectionInput) (count : Nat) :
    bottomNonEmptyLines ⟨0, input.screen⟩ count
        = some ((Name.bottomNonEmptyLines count).block input)
      ↔ (Name.bottomNonEmptyLines count).Aligned input.screen := by
  unfold bottomNonEmptyLines Name.block Name.Aligned
  dsimp only
  rw [← getLast?_take_reverse]
  cases hlast : (((Str.lines ⟨0, input.screen⟩).zipIdx.reverse.filter
      fun (line, _) => isNonEmpty line).take count).getLast? with
  | none => simp
  | some found =>
    have hplace := getLast?_take_reverse isNonEmpty (Str.lines ⟨0, input.screen⟩) count
    rw [hlast, Option.map_some] at hplace
    have hlt := lt_of_mem_indices (List.mem_of_mem_drop (List.mem_of_head? hplace.symm))
    dsimp only [Option.map_some]
    rw [mem_some_iff]
    exact sliceFromLineIndex_iff ⟨0, input.screen⟩ (Nat.le_of_lt hlt)

theorem topNonEmptyLines_iff (input : DetectionInput) (count : Nat) :
    topNonEmptyLines ⟨0, input.screen⟩ count = some ((Name.topNonEmptyLines count).block input)
      ↔ (Name.topNonEmptyLines count).Aligned input.screen := by
  unfold topNonEmptyLines Name.block Name.Aligned
  dsimp only
  rw [← getLast?_take]
  cases hlast : (((Str.lines ⟨0, input.screen⟩).zipIdx.filter
      fun (line, _) => isNonEmpty line).take count).getLast? with
  | none => simp
  | some found =>
    dsimp only [Option.map_some]
    rw [mem_some_iff]
    exact sliceTo_iff ⟨0, input.screen⟩ (found.2 + 1)

/-! ### The last line above the box -/

theorem lastNonEmptyLine_eq (content : Str) :
    lastNonEmptyLine content = lastNonEmpty content.lines := by
  unfold lastNonEmptyLine lastNonEmpty
  rw [← List.head?_filter, List.filter_reverse, List.head?_reverse]

theorem lastNonEmpty_of_blank (h : ∀ line ∈ lines, isNonEmpty line = false) :
    lastNonEmpty lines = empty := by
  have hnone : lines.filter isNonEmpty = [] :=
    List.filter_eq_nil_iff.mpr fun line hline => by rw [h line hline]; exact Bool.false_ne_true
  unfold lastNonEmpty
  rw [hnone]
  rfl

theorem lastNonEmpty_concat (h : isNonEmpty line = true) :
    lastNonEmpty (lines ++ [line]) = line := by
  unfold lastNonEmpty
  simp [h]

/-- Blank lines at the end make no difference. -/
theorem lastNonEmpty_append_blank (lines : List Str) {more : List Str}
    (h : ∀ line ∈ more, isNonEmpty line = false) :
    lastNonEmpty (lines ++ more) = lastNonEmpty lines := by
  have hnone : more.filter isNonEmpty = [] :=
    List.filter_eq_nil_iff.mpr fun line hline => by rw [h line hline]; exact Bool.false_ne_true
  unfold lastNonEmpty
  rw [List.filter_append, hnone, List.append_nil]

theorem lastNonEmpty_mem (h : isNonEmpty (lastNonEmpty lines) = true) :
    lastNonEmpty lines ∈ lines := by
  unfold lastNonEmpty at h ⊢
  cases hlast : (lines.filter isNonEmpty).getLast? with
  | none =>
    rw [hlast] at h
    exact absurd h (by decide)
  | some line => exact (List.mem_filter.mp (List.mem_of_getLast? hlast)).1

/-- Lines up to the last one that is not empty, and blank lines behind it. -/
theorem indices_getLast?_cases (test : Str → Bool) (lines : List Str) :
    ((indices test lines).getLast? = none ∧ ∀ line ∈ lines, test line = false)
      ∨ ∃ before line after, lines = before ++ line :: after ∧ test line = true
        ∧ (indices test lines).getLast? = some before.length
        ∧ ∀ other ∈ after, test other = false := by
  induction lines using List.reverseRecOn with
  | nil => exact Or.inl ⟨rfl, fun _ hmem => nomatch hmem⟩
  | append_singleton lines last ih =>
    rw [indices_concat]
    cases htest : test last with
    | true =>
      refine Or.inr ⟨lines, last, [], rfl, htest, ?_, fun _ hmem => nomatch hmem⟩
      rw [if_pos rfl, List.getLast?_concat]
    | false =>
      rw [if_neg Bool.false_ne_true, List.append_nil]
      rcases ih with ⟨hnone, hblank⟩ | ⟨before, line, after, rfl, hline, hplace, hblank⟩
      · refine Or.inl ⟨hnone, fun other hother => ?_⟩
        rcases List.mem_append.mp hother with hold | hnew
        · exact hblank other hold
        · rw [List.mem_singleton.mp hnew]
          exact htest
      · refine Or.inr
          ⟨before, line, after ++ [last], by simp, hline, hplace, fun other hother => ?_⟩
        rcases List.mem_append.mp hother with hold | hnew
        · exact hblank other hold
        · rw [List.mem_singleton.mp hnew]
          exact htest

variable {rest : Text} {count : Nat} {after before : List Str}

/-- A part of a blank line is blank. -/
theorem isNonEmpty_of_prefix {line : Text} {offset offset' : Nat}
    (h : isNonEmpty ⟨offset, lineText (line ++ ['\n'])⟩ = false) (hinitial : rest <+: line) :
    isNonEmpty ⟨offset', rest⟩ = false := by
  unfold isNonEmpty at h ⊢
  rw [Bool.not_eq_false', List.isEmpty_iff, Text.trim_eq_nil_iff] at h ⊢
  rw [lineText_ended] at h
  intro c hc
  have hmem := hinitial.subset hc
  unfold Text.stripReturn at h
  split at h
  next hreturn =>
    obtain ⟨front, rfl⟩ := List.getLast?_eq_some_iff.mp hreturn
    rw [List.dropLast_concat] at h
    rcases List.mem_append.mp hmem with hfront | hlast
    · exact h c hfront
    · rw [List.mem_singleton.mp hlast]
      rfl
  next => exact h c hmem

/-- So many lines of the text, and a part of the next one, before a line. -/
structure Front (text : Text) (index count : Nat) (rest : Text) : Prop where
  inside : index < (rawLines text).length
  count_le : count ≤ index
  part : rest = [] ∨ count < index ∧ ∃ line, (rawLines text)[count]? = some (line ++ ['\n'])
    ∧ rest <+: line

/-- The part of a line, if there is one. -/
def partLines (text : Text) (count : Nat) (rest : Text) : List Str :=
  if rest.isEmpty then [] else [⟨lineStart text count, rest⟩]

/-- The front of a text is made of lines and a part of one. -/
theorem front_lines {front : Text} (hindex : index < (rawLines text).length)
    (hfront : front <+: text) (hle : byteLen front ≤ lineStart text index) :
    ∃ count rest, Front text index count rest ∧ byteLen front = lineStart text count + byteLen rest
      ∧ Str.lines ⟨0, front⟩
        = (Str.lines ⟨0, text⟩).take count ++ partLines text count rest := by
  obtain ⟨lines, last, hraws, hlines, -⟩ := rawLines_spec text
  have hshort : last.toList.length ≤ 1 := by cases last <;> simp
  have hlength : index ≤ lines.length := by
    rw [hraws, List.length_append, List.length_map] at hindex
    omega
  have htake : ∀ count ≤ index,
      (rawLines text).take count = (lines.take count).map (· ++ ['\n']) := by
    intro count hcount
    rw [hraws, List.take_append_of_le_length (by rw [List.length_map]; omega), List.map_take]
  have hinside : front <+: ((lines.take index).map (· ++ ['\n'])).flatten := by
    have hwhole : ((lines.take index).map (· ++ ['\n'])).flatten <+: text := by
      rw [← htake index (Nat.le_refl _)]
      conv_rhs => rw [← flatten_rawLines text, ← List.take_append_drop index (rawLines text),
        List.flatten_append]
      exact List.prefix_append _ _
    rcases List.prefix_or_prefix_of_prefix hfront hwhole with hshorter | ⟨more, hlonger⟩
    · exact hshorter
    · -- What is longer has more bytes.
      rw [← hlonger, byteLen_append, lineStart, htake index (Nat.le_refl _)] at hle
      rw [byteLen_eq_zero (by omega : byteLen more = 0), List.append_nil] at hlonger
      exact hlonger ▸ List.prefix_rfl
  obtain ⟨count, rest, hcount, rfl, hrest⟩ := prefix_of_lines hinside
  rw [List.length_take, Nat.min_eq_left hlength] at hcount
  have hthose : ((lines.take index).take count) = lines.take count := by
    rw [List.take_take, Nat.min_eq_left hcount]
  have hstart : byteLen ((lines.take count).map (· ++ ['\n'])).flatten = lineStart text count := by
    rw [lineStart, htake count hcount]
  rw [hthose]
  refine ⟨count, rest, ⟨hindex, hcount, ?_⟩, ?_, ?_⟩
  rotate_left
  · rw [byteLen_append, hstart]
  · have hfeed : '\n' ∉ rest := by
      rcases hrest with rfl | ⟨line, hline, hinitial⟩
      · exact List.not_mem_nil
      · intro hmem
        exact hlines line (List.mem_of_mem_take (List.mem_of_getElem? hline)) (hinitial.subset hmem)
    have hraw : rawLines rest = if rest.isEmpty then [] else [rest] := by
      cases rest with
      | nil => rfl
      | cons c rest => exact rawLines_open hfeed (List.cons_ne_nil _ _)
    unfold Str.lines
    dsimp only
    rw [rawLines_append (fun line hline => hlines line (List.mem_of_mem_take hline)),
      Str.linesFrom_append, hstart, Nat.zero_add, ← htake count hcount, Str.linesFrom_take, hraw]
    congr 1
    unfold partLines
    split
    next => rfl
    next => rw [Str.linesFrom, Str.linesFrom, lineText_open hfeed]
  · rcases hrest with hnil | ⟨line, hline, hinitial⟩
    · exact Or.inl hnil
    · have hlt : count < index := by
        have hin := (List.getElem?_eq_some_iff.mp hline).1
        rw [List.length_take] at hin
        omega
      refine Or.inr ⟨hlt, line, ?_, hinitial⟩
      rw [List.getElem?_take_of_lt hlt] at hline
      have hsome := congrArg (Option.map (· ++ ['\n'])) hline
      rw [← List.getElem?_map] at hsome
      rw [hraws, List.getElem?_append_left]
      · exact hsome
      · rw [List.length_map]
        omega

theorem lineStart_lt {i j : Nat} (h : i < j) (hj : j ≤ (rawLines text).length) :
    lineStart text i < lineStart text j := by
  have hi : i < (rawLines text).length := by omega
  have hraw := List.getElem?_eq_getElem hi
  have hne : (rawLines text)[i] ≠ [] := by
    obtain ⟨lines, last, hraws, -, hlast⟩ := rawLines_spec text
    have hmem := List.getElem_mem hi
    generalize (rawLines text)[i] = raw at hmem ⊢
    rw [hraws] at hmem
    rcases List.mem_append.mp hmem with hended | hopen
    · obtain ⟨line, -, rfl⟩ := List.mem_map.mp hended
      simp
    · exact (hlast raw (Option.mem_toList.mp hopen)).2
  have hpos : byteLen (rawLines text)[i] ≠ 0 := fun hzero => hne (byteLen_eq_zero hzero)
  have hsucc := lineStart_succ hraw
  have hmono : lineStart text (i + 1) ≤ lineStart text j := lineStart_mono h
  omega

/-- Lines that begin before a byte. -/
theorem offset_lt_of_mem_take (hle : count ≤ index) (hindex : index < (rawLines text).length)
    (h : line ∈ (Str.lines ⟨0, text⟩).take count) : line.offset < lineStart text index := by
  obtain ⟨place, hplace⟩ := List.mem_iff_getElem?.mp h
  have hlt := (List.getElem?_eq_some_iff.mp hplace).1
  rw [List.length_take] at hlt
  rw [List.getElem?_take_of_lt (by omega), Str.getElem?_lines] at hplace
  obtain ⟨raw, -, rfl⟩ := Option.map_eq_some_iff.mp hplace
  dsimp only
  rw [Nat.zero_add]
  exact lineStart_lt (by omega) (by omega)

namespace Front

variable {text rest : Text} {index count : Nat}

variable {place : Nat}

/-- What is left ends before every line behind it. -/
theorem size_lt (h : Front text index count rest) (hlt : count < place) (hle : place ≤ index) :
    lineStart text count + byteLen rest < lineStart text place := by
  rcases h.part with rfl | ⟨-, line, hraw, hinitial⟩
  · exact lineStart_lt hlt (Nat.le_trans hle (Nat.le_of_lt h.inside))
  · obtain ⟨more, rfl⟩ := hinitial
    have hsucc := lineStart_succ hraw
    have hmono : lineStart text (count + 1) ≤ lineStart text place := lineStart_mono hlt
    rw [byteLen_append, byteLen_append] at hsucc
    have hfeed : byteLen ['\n'] = 1 := rfl
    omega

theorem offset_lt (h : Front text index count rest) (hlt : count < place) (hle : place ≤ index)
    {line : Str} (hmem : line ∈ (Str.lines ⟨0, text⟩).take count ++ partLines text count rest) :
    line.offset < lineStart text place := by
  have hplace := Nat.lt_of_le_of_lt hle h.inside
  rcases List.mem_append.mp hmem with hwhole | hpart
  · exact offset_lt_of_mem_take (Nat.le_of_lt hlt) hplace hwhole
  · unfold partLines at hpart
    split at hpart
    next => cases hpart
    next =>
      rw [List.mem_singleton.mp hpart]
      exact lineStart_lt hlt (Nat.le_of_lt hplace)

/-- A part of a blank line is blank. -/
theorem part_blank (h : Front text index count rest)
    (hblank : ∀ line, count < index → (Str.lines ⟨0, text⟩)[count]? = some line →
      isNonEmpty line = false) :
    ∀ line ∈ partLines text count rest, isNonEmpty line = false := by
  intro line hmem
  unfold partLines at hmem
  split at hmem
  next => cases hmem
  next hne =>
    rw [List.mem_singleton.mp hmem]
    rcases h.part with rfl | ⟨hlt, whole, hraw, hinitial⟩
    · exact absurd rfl hne
    · have hline := hblank _ hlt (by rw [Str.getElem?_lines, hraw]; rfl)
      exact isNonEmpty_of_prefix hline hinitial

end Front

theorem getElem?_of_take (h : lines.take index = before ++ line :: after) :
    lines[before.length]? = some line := by
  have hsizes := congrArg List.length h
  rw [List.length_take, List.length_append, List.length_cons] at hsizes
  have hin : (lines.take index)[before.length]? = some line := by
    rw [h]
    simp
  rwa [List.getElem?_take_of_lt (by omega)] at hin

theorem eq_of_isPrefix {a b : Text} (h : a <+: b) (hlen : byteLen a = byteLen b) : a = b := by
  obtain ⟨more, rfl⟩ := h
  rw [byteLen_append] at hlen
  rw [byteLen_eq_zero (by omega : byteLen more = 0), List.append_nil]

theorem stripReturn_prefix (line : Text) : Text.stripReturn line <+: line := by
  unfold Text.stripReturn
  split
  next => exact List.dropLast_prefix line
  next => exact List.prefix_rfl

/-- The last line that is not empty is still there as it was, when all of it is there with its line
end, or without. -/
theorem lastNonEmpty_front_iff (h : Front text index count rest)
    (htake : (Str.lines ⟨0, text⟩).take index = before ++ line :: after)
    (hline : isNonEmpty line = true) (hblank : ∀ other ∈ after, isNonEmpty other = false) :
    lastNonEmpty ((Str.lines ⟨0, text⟩).take count ++ partLines text count rest) = line
      ↔ lineStart text (before.length + 1) ≤ lineStart text count + byteLen rest
        ∨ lineStart text count + byteLen rest
          = lineStart text before.length + byteLen line.text := by
  have hsizes := congrArg List.length htake
  rw [List.length_take, Str.length_lines, Nat.min_eq_left (Nat.le_of_lt h.inside),
    List.length_append, List.length_cons] at hsizes
  have hplace := getElem?_of_take htake
  rw [Str.getElem?_lines] at hplace
  obtain ⟨raw, hraw, hat⟩ := Option.map_eq_some_iff.mp hplace
  have hoffset : line.offset = lineStart text before.length := by
    rw [← hat]
    exact Nat.zero_add _
  have hnext : lineStart text before.length < lineStart text (before.length + 1) :=
    lineStart_lt (Nat.lt_succ_self _) (Nat.le_trans (by omega) (Nat.le_of_lt h.inside))
  have hfound : ∀ lines : List Str, lastNonEmpty lines = line → line ∈ lines := fun lines hlast =>
    hlast ▸ lastNonEmpty_mem (by rw [hlast]; exact hline)
  have hthose : (Str.lines ⟨0, text⟩).take count = (before ++ line :: after).take count := by
    rw [← htake, List.take_take, Nat.min_eq_left h.count_le]
  rcases Nat.lt_trichotomy before.length count with hbehind | rfl | hbefore
  · -- The line is one of the whole ones, and what is behind it is blank.
    have hmono : lineStart text (before.length + 1) ≤ lineStart text count :=
      lineStart_mono hbehind
    refine iff_of_true ?_ (Or.inl (by omega))
    have hwhole : (before ++ line :: after).take count
        = before ++ [line] ++ after.take (count - before.length - 1) := by
      rw [List.take_append, List.take_of_length_le (Nat.le_of_lt hbehind)]
      obtain ⟨more, hmore⟩ : ∃ more, count - before.length = more + 1 :=
        ⟨count - before.length - 1, by omega⟩
      rw [hmore, List.take_succ_cons, Nat.add_sub_cancel]
      simp
    have hpart : ∀ other ∈ partLines text count rest, isNonEmpty other = false := by
      refine h.part_blank fun other hlt hother => hblank other ?_
      have hin := (List.getElem?_take_of_lt hlt).trans hother
      rw [htake, List.getElem?_append_right (Nat.le_of_lt hbehind)] at hin
      obtain ⟨more, hmore⟩ : ∃ more, count - before.length = more + 1 :=
        ⟨count - before.length - 1, by omega⟩
      rw [hmore, List.getElem?_cons_succ] at hin
      exact List.mem_of_getElem? hin
    rw [hthose, hwhole, lastNonEmpty_append_blank _ hpart, lastNonEmpty_append_blank,
      lastNonEmpty_concat hline]
    exact fun other hother => hblank other (List.mem_of_mem_take hother)
  · -- The line is the one of which there is a part.
    have hwhole : (Str.lines ⟨0, text⟩).take before.length = before := by
      rw [hthose, List.take_left]
    have hearlier : line ∉ before := by
      intro hmem
      rw [← hwhole] at hmem
      have hlt := offset_lt_of_mem_take (Nat.le_refl _) (by have := h.inside; omega) hmem
      omega
    have hnot : ∀ lines : List Str, lines = before → lastNonEmpty lines ≠ line :=
      fun lines hsame hlast => hearlier (hsame ▸ hfound lines hlast)
    rw [hwhole]
    rcases h.part with rfl | ⟨-, whole, hwholeRaw, hinitial⟩
    · have hempty : byteLen line.text ≠ 0 := by
        intro hzero
        unfold isNonEmpty at hline
        rw [byteLen_eq_zero hzero] at hline
        cases hline
      refine iff_of_false (hnot _ (List.append_nil _)) ?_
      rw [byteLen_nil]
      omega
    · rw [hraw] at hwholeRaw
      cases hwholeRaw
      have htext : line.text <+: whole := by
        rw [← hat, lineText_ended]
        exact stripReturn_prefix whole
      have hsucc : lineStart text (before.length + 1)
          = lineStart text before.length + byteLen (whole ++ ['\n']) := lineStart_succ hraw
      have hlonger : byteLen rest ≤ byteLen whole := by
        obtain ⟨more, rfl⟩ := hinitial
        rw [byteLen_append]
        omega
      have hfeed : byteLen ['\n'] = 1 := rfl
      rw [byteLen_append] at hsucc
      constructor
      · intro hlast
        right
        unfold partLines at hlast
        split at hlast
        next => exact absurd hlast (hnot _ (List.append_nil _))
        next =>
          cases hpart : isNonEmpty ⟨lineStart text before.length, rest⟩ with
          | true =>
            rw [lastNonEmpty_concat hpart] at hlast
            rw [← hlast]
          | false =>
            rw [lastNonEmpty_append_blank] at hlast
            · exact absurd hlast (hnot _ rfl)
            · intro other hother
              rw [List.mem_singleton.mp hother]
              exact hpart
      · rintro (hle | heq)
        · omega
        · have hsame : rest = line.text := by
            rcases List.prefix_or_prefix_of_prefix hinitial htext with hshort | hshort
            · exact eq_of_isPrefix hshort (by omega)
            · exact (eq_of_isPrefix hshort (by omega)).symm
          have hthis : (⟨lineStart text before.length, rest⟩ : Str) = line := by
            rw [hsame, ← hoffset]
          unfold partLines
          split
          next hempty =>
            rw [List.isEmpty_iff.mp hempty] at hsame
            unfold isNonEmpty at hline
            rw [← hsame] at hline
            cases hline
          next => rw [hthis, lastNonEmpty_concat hline]
  · -- The line begins behind what is left.
    have hsize := h.size_lt hbefore (by omega)
    refine iff_of_false ?_ ?_
    · intro hlast
      have hlt := h.offset_lt hbefore (by omega) (hfound _ hlast)
      omega
    · rintro (hle | heq)
      · omega
      · omega

/-- What is cut off above a line leaves its last line that is not empty, or does not. -/
theorem keepsLast_iff (hindex : index < (rawLines text).length) :
    (Str.slice? ⟨0, text⟩ 0 (lineStartOffset ⟨0, text⟩ (Str.lines ⟨0, text⟩) index)).map
        lastNonEmptyLine = some (lastNonEmpty ((Str.lines ⟨0, text⟩).take index))
      ↔ KeepsLast ⟨0, text⟩ index := by
  rw [lineStartOffset_eq, counted_of_lt hindex, Str.slice?_zero]
  unfold KeepsLast crlfEnds
  dsimp only
  generalize hcut : lineStart text index - ((rawLines text).take index).countP isCrlf = cut
  cases hsplit : splitAtByte text cut with
  | none => simp
  | some parts =>
    obtain ⟨front, behind⟩ := parts
    obtain ⟨htext, hfront⟩ := splitAtByte_spec hsplit
    obtain ⟨count, rest, h, hsize, hlines⟩ := front_lines hindex
      (htext ▸ List.prefix_append front behind) (by omega)
    rw [Option.map_some, Option.map_some, Option.some_inj, lastNonEmptyLine_eq, hlines,
      Option.isSome_some, ← hfront, hsize]
    simp only [true_and]
    rcases indices_getLast?_cases isNonEmpty ((Str.lines ⟨0, text⟩).take index) with
      ⟨hnone, hblank⟩ | ⟨before, line, after, htake, hline, hplace, hblank⟩
    · rw [hnone, lastNonEmpty_of_blank hblank, lastNonEmpty_of_blank]
      · simp
      · intro other hother
        rcases List.mem_append.mp hother with hwhole | hpart
        · exact hblank other ((List.take_subset_take_left _ h.count_le) hwhole)
        · refine h.part_blank (fun next hlt hnext => hblank next ?_) other hpart
          exact List.mem_of_getElem? ((List.getElem?_take_of_lt hlt).trans hnext)
    · have hlast : lastNonEmpty (before ++ line :: after) = line := by
        rw [← List.singleton_append, ← List.append_assoc, lastNonEmpty_append_blank _ hblank,
          lastNonEmpty_concat hline]
      rw [hplace, mem_some_iff, getElem?_of_take htake, htake, hlast, mem_some_iff]
      exact lastNonEmpty_front_iff h htake hline hblank

theorem lastNonEmptyAbovePromptBox_iff (input : DetectionInput) :
    (abovePromptBox ⟨0, input.screen⟩).map lastNonEmptyLine
        = some (Name.lastNonEmptyAbovePromptBox.block input)
      ↔ Name.lastNonEmptyAbovePromptBox.Aligned input.screen := by
  unfold abovePromptBox Name.block Name.Aligned
  dsimp only
  rw [boxRules_top]
  cases hbox : boxRules (Str.lines ⟨0, input.screen⟩) with
  | none => simp [lastNonEmptyLine_eq]
  | some box =>
    obtain ⟨top, bottom⟩ := box
    obtain ⟨hbefore, hlast, -⟩ := boxRules_spec hbox
    rw [Str.length_lines] at hlast
    rw [mem_some_iff]
    dsimp only [Option.map_some]
    rw [min_lineStartOffset]
    exact keepsLast_iff (Nat.lt_trans hbefore hlast)

/-! ### Names of regions -/

/-- The region that a specification names. -/
def nameOf (trimmed : Text) : Option Name :=
  if trimmed = "osc_title".toList then some .oscTitle
  else if trimmed = "osc_progress".toList then some .oscProgress
  else if trimmed = "whole_recent".toList then some .wholeRecent
  else if trimmed = "after_last_prompt_marker".toList then some .afterLastPromptMarker
  else if trimmed = "before_current_prompt_marker".toList then some .beforeCurrentPromptMarker
  else if trimmed = "whole_recent_without_current_prompt_marker".toList then
    some .wholeRecentWithoutCurrentPromptMarker
  else if trimmed = "current_prompt_block_marker".toList then some .currentPromptBlockMarker
  else if trimmed = "after_current_prompt_block_marker".toList then
    some .afterCurrentPromptBlockMarker
  else if trimmed = "prompt_box_body".toList then some .promptBoxBody
  else if trimmed = "above_prompt_box".toList then some .abovePromptBox
  else if trimmed = "last_non_empty_above_prompt_box".toList then
    some .lastNonEmptyAbovePromptBox
  else if trimmed = "after_last_horizontal_rule".toList then some .afterLastHorizontalRule
  else
    ((regionCount trimmed "bottom_lines".toList).map .bottomLines).or
      (((regionCount trimmed "bottom_non_empty_lines".toList).map .bottomNonEmptyLines).or
        ((topRegionCount trimmed).map .topNonEmptyLines))

/-- What the source computes for a name. -/
def Name.run (input : DetectionInput) : Name → Option Str
  | .oscTitle => some ⟨0, input.oscTitle⟩
  | .oscProgress => some ⟨0, input.oscProgress⟩
  | .wholeRecent => some ⟨0, input.screen⟩
  | .afterLastPromptMarker => Runtime.Manifest.Region.afterLastPromptMarker ⟨0, input.screen⟩
  | .beforeCurrentPromptMarker =>
      Runtime.Manifest.Region.beforeCurrentPromptMarker ⟨0, input.screen⟩
  | .wholeRecentWithoutCurrentPromptMarker =>
      some (Runtime.Manifest.Region.wholeRecentWithoutCurrentPromptMarker ⟨0, input.screen⟩)
  | .currentPromptBlockMarker =>
      some ((Runtime.Manifest.Region.currentPromptBlockMarker ⟨0, input.screen⟩).getD empty)
  | .afterCurrentPromptBlockMarker =>
      (Runtime.Manifest.Region.afterCurrentPromptBlockMarker ⟨0, input.screen⟩).map (·.getD empty)
  | .promptBoxBody => (Runtime.Manifest.Region.promptBoxBody ⟨0, input.screen⟩).map (·.getD empty)
  | .abovePromptBox => Runtime.Manifest.Region.abovePromptBox ⟨0, input.screen⟩
  | .lastNonEmptyAbovePromptBox =>
      (Runtime.Manifest.Region.abovePromptBox ⟨0, input.screen⟩).map lastNonEmptyLine
  | .afterLastHorizontalRule => Runtime.Manifest.Region.afterLastHorizontalRule ⟨0, input.screen⟩
  | .bottomLines count => Runtime.Manifest.Region.bottomLines ⟨0, input.screen⟩ count
  | .bottomNonEmptyLines count =>
      Runtime.Manifest.Region.bottomNonEmptyLines ⟨0, input.screen⟩ count
  | .topNonEmptyLines count => Runtime.Manifest.Region.topNonEmptyLines ⟨0, input.screen⟩ count

theorem region_eq (input : DetectionInput) (spec : Text) :
    region input spec = ((nameOf (trim spec)).map (·.run input)).getD (some empty) := by
  unfold region nameOf
  dsimp only
  generalize trim spec = trimmed
  simp only [apply_ite fun name : Option Name => (name.map (·.run input)).getD (some empty)]
  cases regionCount trimmed "bottom_lines".toList with
  | some count => rfl
  | none =>
    cases regionCount trimmed "bottom_non_empty_lines".toList with
    | some count => rfl
    | none =>
      cases topRegionCount trimmed with
      | some count => rfl
      | none => rfl

/-- Every specification that passes names a region. -/
theorem exists_name {spec : Text} (h : validateRegionName spec = .ok ()) :
    ∃ name, nameOf (trim spec) = some name := by
  unfold validateRegionName at h
  dsimp only at h
  rw [← Option.isSome_iff_exists]
  generalize trim spec = trimmed at h ⊢
  split at h
  next hname =>
    simp only [List.mem_cons, List.not_mem_nil, or_false] at hname
    rcases hname with rfl | rfl | rfl | rfl | rfl | rfl | rfl | rfl | rfl | rfl | rfl | rfl <;>
      decide
  next =>
    split at h
    next hcount =>
      unfold nameOf
      simp only [apply_ite Option.isSome, Option.isSome_some, Option.isSome_or, Option.isSome_map]
      rw [← Bool.or_assoc, hcount]
      simp only [ite_self]
    next => cases h

theorem run_eq_block_iff (input : DetectionInput) (name : Name) :
    name.run input = some (name.block input) ↔ name.Aligned input.screen := by
  cases name with
  | oscTitle => exact iff_of_true rfl trivial
  | oscProgress => exact iff_of_true rfl trivial
  | wholeRecent => exact iff_of_true rfl trivial
  | afterLastPromptMarker => exact afterLastPromptMarker_iff input
  | beforeCurrentPromptMarker => exact beforeCurrentPromptMarker_iff input
  | wholeRecentWithoutCurrentPromptMarker =>
    refine iff_of_true ?_ trivial
    unfold Name.run wholeRecentWithoutCurrentPromptMarker Name.block
    dsimp only
    rw [currentCodexPromptIndex_eq]
    cases currentPrompt (Str.lines ⟨0, input.screen⟩) <;> rfl
  | currentPromptBlockMarker =>
    refine iff_of_true ?_ trivial
    unfold Name.run Name.block
    rw [currentPromptBlockMarker_eq]
  | afterCurrentPromptBlockMarker => exact afterCurrentPromptBlockMarker_iff input
  | promptBoxBody => exact promptBoxBody_iff input
  | abovePromptBox => exact abovePromptBox_iff input
  | lastNonEmptyAbovePromptBox => exact lastNonEmptyAbovePromptBox_iff input
  | afterLastHorizontalRule => exact afterLastHorizontalRule_iff input
  | bottomLines count => exact bottomLines_iff input count
  | bottomNonEmptyLines count => exact bottomNonEmptyLines_iff input count
  | topNonEmptyLines count => exact topNonEmptyLines_iff input count

/-- A region is the block of lines, or the line, that its name denotes, and no slice panics, exactly
when the screen has no line end of two bytes before its cuts that is not made up for. -/
theorem region_exact_iff (input : DetectionInput) {spec : Text}
    (h : validateRegionName spec = .ok ()) :
    ∃ name, nameOf (trim spec) = some name
      ∧ (region input spec = some (name.block input) ↔ name.Aligned input.screen) := by
  obtain ⟨name, hname⟩ := exists_name h
  refine ⟨name, hname, ?_⟩
  rw [region_eq, hname]
  exact run_eq_block_iff input name

theorem region_exact_last_line :
    region ⟨"a\nb\n".toList, [], []⟩ "bottom_lines(1)".toList = some ⟨2, "b\n".toList⟩ := by
  obtain ⟨name, hname, hiff⟩ := region_exact_iff ⟨"a\nb\n".toList, [], []⟩
    (show validateRegionName "bottom_lines(1)".toList = .ok () from rfl)
  have hbottom : nameOf (trim "bottom_lines(1)".toList) = some (.bottomLines 1) := by
    decide +kernel
  rw [hbottom] at hname
  cases hname
  have hblock : (Name.bottomLines 1).block ⟨"a\nb\n".toList, [], []⟩ = ⟨2, "b\n".toList⟩ := by
    decide +kernel
  rw [← hblock]
  refine hiff.mpr ?_
  show Straight "a\nb\n".toList 1
  decide +kernel

/-- With line ends of two bytes the last line begins too early, or inside a character. -/
theorem crlf_misaligns :
    (¬ ∀ (input : DetectionInput) (spec : Text) (name : Name),
        validateRegionName spec = .ok () → nameOf (trim spec) = some name →
        region input spec = some (name.block input))
      ∧ region ⟨"a\r\nb\r\n".toList, [], []⟩ "bottom_lines(1)".toList
        = some ⟨2, "\nb\r\n".toList⟩ := by
  refine ⟨fun hall => ?_, by decide +kernel⟩
  have hpanic : region ⟨"a\r\nb\r\né\r\nc\r\n".toList, [], []⟩ "bottom_lines(1)".toList = none := by
    decide +kernel
  have hexact := hall ⟨"a\r\nb\r\né\r\nc\r\n".toList, [], []⟩ "bottom_lines(1)".toList
    (.bottomLines 1) rfl (by decide +kernel)
  rw [hpanic] at hexact
  cases hexact

end Herden.Proofs.Manifest.Region
