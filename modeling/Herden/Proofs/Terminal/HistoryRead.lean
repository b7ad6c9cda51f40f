import Herden.Runtime.Terminal.HistoryRead
import Mathlib.Algebra.GroupWithZero.Nat

/-!
# `Herden.Proofs.Terminal.HistoryRead`: scrolled viewports give the transcript

The viewports are windows of one transcript, in which no two rows that are not blank have the same
text (`Distinct`). Only the distance that was scrolled matches any row of the overlap
(`upwardAlignment_windows`), so the anchor is found at its own place in the history, and the merge
puts the rows above it in front (`mergeScrolledUp_viewport`). Over a chain of scrolls the history is
the transcript from the top of the last viewport on.
-/

namespace Herden.Proofs.Terminal.HistoryRead

open Herden.Lib (Text HashMap)
open Herden.Runtime.Terminal

/-! ### Rows without a scrollbar -/

def identity (row : ScreenTextRow) : Text := trimEnd (rowText row)

theorem normalizeRuns_of_plain {rows : List (ScreenTextRow × Text)}
    (h : ∀ row ∈ rows, edge row.1 = none) (fuel : Nat) :
    normalizeRuns fuel rows = rows.map Prod.snd := by
  induction fuel generalizing rows with
  | zero => rfl
  | succ fuel ih =>
    cases rows with
    | nil => rfl
    | cons first rest =>
      obtain ⟨hfirst, hrest⟩ := List.forall_mem_cons.mp h
      unfold normalizeRuns
      dsimp only
      rw [List.takeWhile_cons_of_neg (by simp [hfirst])]
      exact congrArg (first.2 :: ·) (ih hrest)

variable {rows : List ScreenTextRow} {texts : List Text} {n top : Nat}

theorem rowIdentities_of_plain (h : ∀ row ∈ rows, edge row = none) :
    rowIdentities rows = rows.map identity := by
  unfold rowIdentities
  rw [normalizeRuns_of_plain (List.forall_mem_map.mpr h), List.map_map]
  rfl

/-! ### Counts -/

theorem get_textCounts (texts : List Text) (text : Text) :
    (textCounts texts).get text
      = if texts.count text = 0 then none else some (texts.count text) := by
  induction texts using List.reverseRecOn generalizing text with
  | nil => rfl
  | append_singleton front last ih =>
    have hcounts : textCounts (front ++ [last])
        = (textCounts front).insert last (((textCounts front).get last).getD 0 + 1) := by
      unfold textCounts
      rw [List.foldl_append]
      rfl
    rw [hcounts, HashMap.get_insert, ih, ih, List.count_append]
    by_cases htext : text = last
    · subst htext
      by_cases hnone : front.count text = 0
      · simp [hnone]
      · simp [hnone]
    · have hlast : [last].count text = 0 := List.count_eq_zero.mpr (by simpa using htext)
      rw [if_neg htext, hlast, Nat.add_zero]

/-! ### Distinct texts -/

/-- No two texts that are not blank are the same. -/
def Distinct (texts : List Text) : Prop := (texts.filter (!·.isEmpty)).Nodup

theorem Distinct.sublist {more : List Text} (h : Distinct more) (hsub : texts.Sublist more) :
    Distinct texts := List.Nodup.sublist (hsub.filter _) h

variable {i d bottom : Nat} {text : Text} {next previous : List Text}

/-- A text that is not blank has one place. -/
theorem Distinct.place (h : Distinct texts) {j : Nat} (hi : texts[i]? = some text)
    (hj : texts[j]? = some text) (hne : text ≠ []) : i = j := by
  have hpairwise := List.pairwise_filter.mp h
  rw [List.pairwise_iff_getElem] at hpairwise
  obtain ⟨hilt, hi⟩ := List.getElem?_eq_some_iff.mp hi
  obtain ⟨hjlt, hj⟩ := List.getElem?_eq_some_iff.mp hj
  have happly : ∀ {k l : Nat} (hk : k < texts.length) (hl : l < texts.length), k < l →
      texts[k] = text → texts[l] = text → False := by
    intro k l hk hl hlt hktext hltext
    have hdiffer := hpairwise k l hk hl hlt (by simp [hktext, hne]) (by simp [hltext, hne])
    exact hdiffer (hktext.trans hltext.symm)
  rcases Nat.lt_trichotomy i j with hlt | heq | hlt
  · exact (happly hilt hjlt hlt hi hj).elim
  · exact heq
  · exact (happly hjlt hilt hlt hj hi).elim

theorem Distinct.get_textCounts (h : Distinct texts) (hmem : text ∈ texts) (hne : text ≠ []) :
    (textCounts texts).get text = some 1 := by
  have hfilter : text ∈ texts.filter (!·.isEmpty) := List.mem_filter.mpr ⟨hmem, by simpa using hne⟩
  have hcount : texts.count text = 1 := by
    rw [← List.count_eq_one_of_mem h hfilter, List.count_filter (by simpa using hne)]
  rw [HistoryRead.get_textCounts, hcount]
  rfl

/-! ### The votes of a shift -/

/-- A row without a match leaves the anchor as it is. -/
theorem firstAnchor_of_differ {previousCounts nextCounts : HashMap Text Nat}
    {entries : List ((Text × Text) × Nat)}
    (h : ∀ entry ∈ entries, entry.1.1 = entry.1.2 → entry.1.1 = []) (votes : Votes) :
    (entries.foldl (Votes.compare previousCounts nextCounts) votes).firstAnchor
      = votes.firstAnchor := by
  induction entries generalizing votes with
  | nil => rfl
  | cons entry rest ih =>
    obtain ⟨hentry, hrest⟩ := List.forall_mem_cons.mp h
    obtain ⟨⟨before, after⟩, index⟩ := entry
    rw [List.foldl_cons, ih hrest]
    unfold Votes.compare
    dsimp only at hentry ⊢
    split
    next => rfl
    next hblank =>
      have hdiffer : before ≠ after := fun heq => hblank (by simp [hentry heq])
      rw [if_neg hdiffer]

/-- Where the rows are the same, each that is not blank is a match. -/
theorem votes_of_same {previousCounts nextCounts : HashMap Text Nat} {texts : List Text}
    (h : ∀ text ∈ texts, text ≠ [] →
      previousCounts.get text = some 1 ∧ nextCounts.get text = some 1)
    {votes : Votes} (hvotes : votes.matched = votes.comparable) (start : Nat) :
    let found := ((texts.zip texts).zipIdx start).foldl
      (Votes.compare previousCounts nextCounts) votes
    found.matched = found.comparable ∧ found.firstAnchor
      = votes.firstAnchor.or ((texts.findIdx? (!·.isEmpty)).map (· + start)) := by
  induction texts generalizing votes start with
  | nil => exact ⟨hvotes, by simp⟩
  | cons text rest ih =>
    obtain ⟨htext, hrest⟩ := List.forall_mem_cons.mp h
    rw [List.zip_cons_cons, List.zipIdx_cons, List.foldl_cons]
    by_cases hblank : text = []
    · have hstep : votes.compare previousCounts nextCounts ((text, text), start) = votes := by
        simp [Votes.compare, hblank]
      rw [hstep]
      obtain ⟨hmatched, hanchor⟩ := ih hrest hvotes (start + 1)
      refine ⟨hmatched, hanchor.trans ?_⟩
      rw [List.findIdx?_cons, hblank]
      simp only [List.isEmpty_nil, Bool.not_true, Bool.false_eq_true, if_false, Option.map_map]
      congr 2
      funext index
      exact (Nat.add_right_comm index 1 start).symm ▸ rfl
    · obtain ⟨hprevious, hnext⟩ := htext hblank
      have hstep : votes.compare previousCounts nextCounts ((text, text), start)
          = ⟨votes.comparable + 1, votes.matched + 1, votes.firstAnchor.or (some start)⟩ := by
        simp [Votes.compare, hblank, hprevious, hnext]
      rw [hstep]
      obtain ⟨hmatched, hanchor⟩ := @ih hrest
        ⟨votes.comparable + 1, votes.matched + 1, votes.firstAnchor.or (some start)⟩
        (congrArg (· + 1) hvotes) (start + 1)
      refine ⟨hmatched, hanchor.trans ?_⟩
      rw [List.findIdx?_cons]
      simp [hblank]

/-! ### Windows of a transcript -/

/-- A part of the transcript. -/
def window {α : Type} (items : List α) (top n : Nat) : List α := (items.drop top).take n

theorem getElem?_window {α : Type} {items : List α} (h : i < n) :
    (window items top n)[i]? = items[top + i]? := by
  rw [window, List.getElem?_take_of_lt h, List.getElem?_drop]

theorem window_sublist {α : Type} (items : List α) (top n : Nat) :
    (window items top n).Sublist items :=
  (List.take_sublist _ _).trans (List.drop_sublist _ _)

theorem drop_window {α : Type} (items : List α) (top n d : Nat) :
    (window items top n).drop d = window items (top + d) (n - d) := by
  unfold window
  rw [List.drop_take, List.drop_drop]

theorem take_window {α : Type} (items : List α) (top : Nat) {k : Nat} (h : k ≤ n) :
    (window items top n).take k = window items top k := by
  unfold window
  rw [List.take_take, Nat.min_eq_left h]

theorem window_append {α : Type} (items : List α) (top n m : Nat) :
    window items top n ++ window items (top + n) m = window items top (n + m) := by
  unfold window
  rw [← List.drop_drop, ← List.take_add]

theorem zip_take_self {α : Type} (items : List α) (k : Nat) :
    items.zip (items.take k) = (items.take k).zip (items.take k) := by
  induction items generalizing k with
  | nil => simp
  | cons item rest ih =>
    cases k with
    | zero => simp
    | succ k => exact congrArg ((item, item) :: ·) (ih k)

section

variable {texts : List Text} (hdistinct : Distinct texts) {top n d : Nat} (hd : d ≤ top)

include hdistinct hd in
/-- Another distance than the one scrolled has no match. -/
theorem plausibleAnchor_of_ne {shift : Nat} (h : shift ≠ d) :
    plausibleAnchor (window texts top n) (window texts (top - d) n) shift = none := by
  have hanchor : (overlapVotes (window texts top n) (window texts (top - d) n) shift).firstAnchor
      = none := by
    refine firstAnchor_of_differ (fun entry hentry heq => ?_) _
    by_contra hne
    obtain ⟨⟨before, after⟩, i⟩ := entry
    dsimp only at heq hne
    subst heq
    have hzip := List.mem_zipIdx_iff_getElem?.mp hentry
    rw [List.getElem?_zip_eq_some, List.getElem?_drop] at hzip
    obtain ⟨hbefore, hafter⟩ := hzip
    have hi : i < n := by
      have hlt := (List.getElem?_eq_some_iff.mp hbefore).1
      exact Nat.lt_of_lt_of_le hlt (List.length_take_le _ _)
    have hj : shift + i < n := by
      have hlt := (List.getElem?_eq_some_iff.mp hafter).1
      exact Nat.lt_of_lt_of_le hlt (List.length_take_le _ _)
    rw [getElem?_window hi] at hbefore
    rw [getElem?_window hj] at hafter
    have hplace := hdistinct.place hbefore hafter hne
    omega
  unfold plausibleAnchor
  dsimp only
  rw [hanchor]

include hdistinct hd in
/-- The anchor of the distance scrolled is the first row of the overlap that is not blank. -/
theorem plausibleAnchor_scrolled {anchor : Nat}
    (hanchor : (window texts top (n - d)).findIdx? (!·.isEmpty) = some anchor) :
    plausibleAnchor (window texts top n) (window texts (top - d) n) d = some anchor := by
  have hover : (window texts (top - d) n).drop d = (window texts top n).take (n - d) := by
    rw [drop_window, Nat.sub_add_cancel hd, take_window _ _ (Nat.sub_le _ _)]
  have hone : ∀ text ∈ (window texts top n).take (n - d), text ≠ [] →
      (textCounts (window texts top n)).get text = some 1
        ∧ (textCounts (window texts (top - d) n)).get text = some 1 := by
    intro text hmem hne
    have hwindow : ∀ start, Distinct (window texts start n) := fun start =>
      hdistinct.sublist (window_sublist _ _ _)
    refine ⟨(hwindow top).get_textCounts (List.mem_of_mem_take hmem) hne, ?_⟩
    rw [← hover] at hmem
    exact (hwindow (top - d)).get_textCounts (List.mem_of_mem_drop hmem) hne
  obtain ⟨hmatched, hfirst⟩ := @votes_of_same _ _ _ hone ⟨0, 0, none⟩ rfl 0
  have hvotes : overlapVotes (window texts top n) (window texts (top - d) n) d
      = (((window texts top n).take (n - d)).zip ((window texts top n).take (n - d))).zipIdx.foldl
        (Votes.compare (textCounts (window texts top n)) (textCounts (window texts (top - d) n)))
        ⟨0, 0, none⟩ := by
    unfold overlapVotes
    rw [hover, zip_take_self]
  rw [← hvotes] at hmatched hfirst
  rw [take_window _ _ (Nat.sub_le _ _), hanchor] at hfirst
  unfold plausibleAnchor
  dsimp only
  rw [hfirst, hmatched]
  refine if_neg ?_
  unfold saturatingMul minAlignmentRatioPercent
  omega

end

/-! ### The only plausible shift -/

theorem foldlM_of_none {shifts : List Nat}
    (h : ∀ shift ∈ shifts, plausibleAnchor previous next shift = none)
    (alignment : Option (Nat × Nat)) :
    shifts.foldlM (tryShift previous next) alignment = some alignment := by
  induction shifts with
  | nil => rfl
  | cons shift rest ih =>
    obtain ⟨hshift, hrest⟩ := List.forall_mem_cons.mp h
    have hstep : tryShift previous next alignment shift = some alignment := by
      unfold tryShift
      rw [hshift]
    rw [List.foldlM_cons, hstep]
    exact ih hrest

/-- One plausible shift is the alignment. -/
theorem upwardAlignment_of_only {anchor : Nat} (hd : 1 ≤ d) (hlength : d < previous.length)
    (hanchor : plausibleAnchor previous next d = some anchor)
    (honly : ∀ shift, shift ≠ d → plausibleAnchor previous next shift = none) :
    upwardAlignment previous next = some (d, anchor) := by
  have hsplit : List.range' 1 (previous.length - 1)
      = List.range' 1 (d - 1) ++ d :: List.range' (d + 1) (previous.length - 1 - d) := by
    have hfront := @List.range'_append_1 1 (d - 1) (previous.length - 1 - d + 1)
    rw [show 1 + (d - 1) = d by omega, List.range'_succ] at hfront
    rw [hfront]
    congr 1
    omega
  have hfront : ∀ shift ∈ List.range' 1 (d - 1), plausibleAnchor previous next shift = none := by
    intro shift hshift
    have hlt := List.mem_range'_1.mp hshift
    exact honly shift (by omega)
  have hbehind : ∀ shift ∈ List.range' (d + 1) (previous.length - 1 - d),
      plausibleAnchor previous next shift = none := by
    intro shift hshift
    have hlt := List.mem_range'_1.mp hshift
    exact honly shift (by omega)
  have hstep : tryShift previous next none d = some (some (d, anchor)) := by
    unfold tryShift
    rw [hanchor]
    rfl
  unfold upwardAlignment
  rw [hsplit, List.foldlM_append, foldlM_of_none hfront]
  show ((d :: List.range' (d + 1) _).foldlM (tryShift previous next) none).join = _
  rw [List.foldlM_cons, hstep]
  show ((List.range' (d + 1) _).foldlM (tryShift previous next) _).join = _
  rw [foldlM_of_none hbehind]
  rfl

/-! ### Scrolled viewports -/

/-- A transcript without scrollbars, of rows that can be told apart if they are not blank. -/
structure Transcript (rows : List ScreenTextRow) : Prop where
  plain : ∀ row ∈ rows, edge row = none
  distinct : Distinct (rows.map identity)

def viewport (cols : UInt16) (rows : List ScreenTextRow) (n top : Nat) : ScreenSnapshot :=
  ⟨cols, window rows top n⟩

theorem rowIdentities_window (h : Transcript rows) (top n : Nat) :
    rowIdentities (window rows top n) = window (rows.map identity) top n := by
  rw [rowIdentities_of_plain fun row hrow => h.plain row ((window_sublist _ _ _).subset hrow)]
  unfold window
  rw [List.map_take, List.map_drop]

/-- The first row that is not blank. -/
theorem exists_anchor (h : ∃ row ∈ window rows top n, identity row ≠ []) : ∃ anchor,
      (window (rows.map identity) top n).findIdx? (!·.isEmpty) = some anchor ∧ anchor < n
        ∧ ∃ text, (rows.map identity)[top + anchor]? = some text ∧ text ≠ [] := by
  have hmap : window (rows.map identity) top n = (window rows top n).map identity := by
    unfold window
    rw [List.map_take, List.map_drop]
  obtain ⟨row, hrow, hne⟩ := h
  have hsome := @List.findIdx?_eq_some_of_exists _ ((window rows top n).map identity)
    (!·.isEmpty) ⟨_, List.mem_map_of_mem hrow, by simpa using hne⟩
  rw [← hmap] at hsome
  obtain ⟨hlt, hblank, -⟩ := List.findIdx?_eq_some_iff_getElem.mp hsome
  have hn : List.findIdx (!·.isEmpty) (window (rows.map identity) top n) < n :=
    Nat.lt_of_lt_of_le hlt (List.length_take_le _ _)
  refine ⟨_, hsome, hn, _, ?_, by simpa using hblank⟩
  rw [← getElem?_window hn, List.getElem?_eq_getElem hlt]

/-- One merge gives the transcript from the new top on. -/
theorem mergeScrolledUp_viewport (h : Transcript rows) (cols : UInt16) (hd : 1 ≤ d) (hn : d < n)
    (htop : d ≤ top) (hbottom : top + n ≤ bottom) (hlength : bottom ≤ rows.length)
    (hoverlap : ∃ row ∈ window rows top (n - d), identity row ≠ []) :
    mergeScrolledUp (window rows top (bottom - top)) (viewport cols rows n top)
        (viewport cols rows n (top - d))
      = (.advanced d, window rows (top - d) (bottom - (top - d))) := by
  have hlengths : ∀ start, start ≤ top → (window rows start n).length = n := by
    intro start hstart
    unfold window
    rw [List.length_take, List.length_drop]
    omega
  -- The anchor is the first row of the overlap that is not blank.
  obtain ⟨anchor, hanchor, hlt, text, htext, hne⟩ := exists_anchor hoverlap
  have hprevious : (window (rows.map identity) top n)[anchor]? = some text := by
    rw [getElem?_window (by omega), htext]
  have hrow : ((window rows top n)[anchor]?).map identity = some text := by
    rw [getElem?_window (by omega), ← List.getElem?_map, htext]
  have hchanged : window (rows.map identity) top n ≠ window (rows.map identity) (top - d) n := by
    intro heq
    rw [heq, getElem?_window (by omega)] at hprevious
    have hplace := h.distinct.place htext hprevious hne
    omega
  have halignment : upwardAlignment (window (rows.map identity) top n)
      (window (rows.map identity) (top - d) n) = some (d, anchor) := by
    refine upwardAlignment_of_only hd ?_ (plausibleAnchor_scrolled h.distinct htop hanchor)
      fun shift hshift => plausibleAnchor_of_ne h.distinct htop hshift
    have htexts := hlengths top (Nat.le_refl _)
    unfold window at htexts ⊢
    rw [← List.map_drop, ← List.map_take, List.length_map, htexts]
    exact hn
  have hfound : (window (rows.map identity) top n).findIdx? (fun other =>
      some other = some text || some other = some text) = some anchor := by
    rw [List.findIdx?_eq_some_iff_getElem]
    obtain ⟨hanchorlt, hget⟩ := List.getElem?_eq_some_iff.mp hprevious
    refine ⟨hanchorlt, by simp [hget], fun j hj hsame => ?_⟩
    have hjtext : (window (rows.map identity) top n)[j]? = some text := by
      rw [List.getElem?_eq_getElem (Nat.lt_trans hj hanchorlt)]
      simpa using hsame
    rw [getElem?_window (by omega)] at hjtext
    have hplace := h.distinct.place htext hjtext hne
    omega
  unfold mergeScrolledUp viewport
  dsimp only
  rw [hlengths top (Nat.le_refl _), hlengths (top - d) (Nat.sub_le _ _), rowIdentities_window h,
    rowIdentities_window h, rowIdentities_window h, if_neg (by simp), if_neg hchanged, halignment]
  dsimp only
  rw [take_window _ _ (by omega), hprevious]
  have hanchorText : ((window rows top n)[anchor]?).map (fun row => trimEnd (rowText row))
      = some text := hrow
  rw [hanchorText, hfound]
  dsimp only
  have hboundary : anchor + d - anchor = d := by omega
  have hhistory : (window rows (top - d) n).take (anchor + d)
      ++ (window rows top (bottom - top)).drop anchor
        = window rows (top - d) (bottom - (top - d)) := by
    rw [take_window _ _ (by omega), drop_window,
      show top + anchor = top - d + (anchor + d) by omega, window_append]
    congr 1
    omega
  rw [hboundary, hhistory]

/-! ### Chains of scrolls -/

/-- The distances of scrolls up from `top`, each over an overlap that is not all blank. -/
inductive Scrolls (rows : List ScreenTextRow) (n : Nat) : Nat → List Nat → Prop where
  | nil (top : Nat) : Scrolls rows n top []
  | cons {top d : Nat} {rest : List Nat} (hd : 1 ≤ d) (hn : d < n) (htop : d ≤ top)
      (hoverlap : ∃ row ∈ window rows top (n - d), identity row ≠ [])
      (hrest : Scrolls rows n (top - d) rest) : Scrolls rows n top (d :: rest)

/-- The tops of the viewports after the scrolls. -/
def tops (top : Nat) : List Nat → List Nat
  | [] => []
  | d :: rest => (top - d) :: tops (top - d) rest

/-- The merges of the viewports that follow one another. -/
def mergeAll (history : List ScreenTextRow) (previous : ScreenSnapshot) :
    List ScreenSnapshot → List UpwardMerge × List ScreenTextRow
  | [] => ([], history)
  | next :: rest =>
      let (outcome, history) := mergeScrolledUp history previous next
      let (outcomes, history) := mergeAll history next rest
      (outcome :: outcomes, history)

theorem mergeAll_viewports (h : Transcript rows) (cols : UInt16) {distances : List Nat}
    (hscrolls : Scrolls rows n top distances) (hbottom : top + n ≤ bottom)
    (hlength : bottom ≤ rows.length) :
    mergeAll (window rows top (bottom - top)) (viewport cols rows n top)
        ((tops top distances).map (viewport cols rows n))
      = (distances.map .advanced,
        window rows (top - distances.sum) (bottom - (top - distances.sum))) := by
  induction hscrolls with
  | nil top => rfl
  | cons hd hn htop hoverlap hrest ih =>
    rw [tops, List.map_cons, mergeAll,
      mergeScrolledUp_viewport h cols hd hn htop hbottom hlength hoverlap]
    dsimp only
    rw [ih (by omega), List.map_cons, List.sum_cons, Nat.sub_sub]

/-! ### Any history -/

theorem length_normalizeRuns (fuel : Nat) (rows : List (ScreenTextRow × Text)) :
    (normalizeRuns fuel rows).length = rows.length := by
  induction fuel generalizing rows with
  | zero => simp [normalizeRuns]
  | succ fuel ih =>
    cases rows with
    | nil => rfl
    | cons first rest =>
      have hrun := (List.takeWhile_sublist (fun row : ScreenTextRow × Text =>
        row.1.cells.length = first.1.cells.length && (edge row.1).isSome)
        (l := first :: rest)).length_le
      unfold normalizeRuns
      dsimp only
      split
      next => simp [ih]
      next =>
        rw [List.length_append, ih, List.length_drop, apply_ite List.length, List.length_map,
          List.length_map, ite_self]
        omega

theorem length_rowIdentities (rows : List ScreenTextRow) :
    (rowIdentities rows).length = rows.length := by
  unfold rowIdentities
  rw [length_normalizeRuns, List.length_map]

/-- Only a merge that advances changes a history, and it keeps the rows from the anchor's place on:
the place has the text of the anchor, a row of the previous viewport. -/
def KeepsHistory (history : List ScreenTextRow) (previous next : ScreenSnapshot) : Prop :=
  let merged := mergeScrolledUp history previous next
  (merged.1 = .unchanged ∨ merged.1 = .unaligned → merged.2 = history)
    ∧ ∀ count, merged.1 = .advanced count → ∃ shift anchor place text,
      upwardAlignment (rowIdentities previous.rows) (rowIdentities next.rows)
          = some (shift, anchor)
        ∧ place < history.length ∧ (rowIdentities history)[place]? = some text
        ∧ (some text = (rowIdentities previous.rows)[anchor]?
          ∨ some text = (previous.rows[anchor]?).map identity)
        ∧ merged.2 = next.rows.take (anchor + shift) ++ history.drop place

theorem mergeScrolledUp_keeps (history : List ScreenTextRow) (previous next : ScreenSnapshot) :
    KeepsHistory history previous next := by
  unfold KeepsHistory mergeScrolledUp
  dsimp only
  split
  next => exact ⟨fun _ => rfl, fun _ h => nomatch h⟩
  next =>
    split
    next => exact ⟨fun _ => rfl, fun _ h => nomatch h⟩
    next =>
      cases halignment : upwardAlignment (rowIdentities previous.rows)
          (rowIdentities next.rows) with
      | none => exact ⟨fun _ => rfl, fun _ h => nomatch h⟩
      | some found =>
        obtain ⟨shift, anchor⟩ := found
        dsimp only
        split
        next => exact ⟨fun _ => rfl, fun _ h => nomatch h⟩
        next place hplace =>
          refine ⟨fun h => ?_, fun _ _ => ?_⟩
          · rcases h with h | h
            · cases h
            · cases h
          · obtain ⟨hlt, hsame, -⟩ := List.findIdx?_eq_some_iff_getElem.mp hplace
            have hhistory : place < (rowIdentities history).length :=
              Nat.lt_of_lt_of_le hlt (List.length_take_le' _ _)
            refine ⟨shift, anchor, place, (rowIdentities history)[place], rfl,
              length_rowIdentities history ▸ hhistory, List.getElem?_eq_getElem hhistory, ?_, rfl⟩
            rw [List.getElem_take, Bool.or_eq_true, decide_eq_true_eq, decide_eq_true_eq] at hsame
            exact hsame

/-- Merging the viewports of a chain of scrolls gives the transcript from the top of the last one to
the bottom of the first one, each merge advances by the distance of its scroll, and no merge of any
history loses a row from the anchor on. -/
theorem scrolled_history :
    (∀ rows, Transcript rows → ∀ cols n top distances, Scrolls rows n top distances →
      top + n ≤ rows.length →
      mergeAll (viewport cols rows n top).rows (viewport cols rows n top)
          ((tops top distances).map (viewport cols rows n))
        = (distances.map .advanced,
          window rows (top - distances.sum) (top + n - (top - distances.sum))))
      ∧ ∀ history previous next, KeepsHistory history previous next := by
  refine ⟨fun rows h cols n top distances hscrolls hlength => ?_, mergeScrolledUp_keeps⟩
  have hmerged := mergeAll_viewports h cols hscrolls (Nat.le_refl _) hlength
  rw [Nat.add_sub_cancel_left] at hmerged
  exact hmerged

/-- Rows of a few letters, one of them blank. -/
def letterRows : List ScreenTextRow :=
  ["a", "b", " ", "c", "d"].map fun text =>
    ⟨text.toList.map fun c => ⟨.narrow, [c.val]⟩, false, false⟩

/-- Two scrolls by one row each, up to the first one. -/
theorem scrolled_history_letters :
    mergeAll (viewport 1 letterRows 3 2).rows (viewport 1 letterRows 3 2)
        [viewport 1 letterRows 3 1, viewport 1 letterRows 3 0]
      = ([.advanced 1, .advanced 1], letterRows) := by
  have hplain : letterRows.all (fun row => edge row = none) = true := by decide +kernel
  have htranscript : Transcript letterRows :=
    ⟨fun row hrow => of_decide_eq_true (List.all_eq_true.mp hplain row hrow), by
      unfold Distinct
      decide +kernel⟩
  have hscrolls : Scrolls letterRows 3 2 [1, 1] :=
    .cons (by omega) (by omega) (by omega)
      ⟨letterRows.get ⟨3, by decide⟩, by decide +kernel, by decide +kernel⟩
      (.cons (by omega) (by omega) (by omega)
        ⟨letterRows.get ⟨1, by decide⟩, by decide +kernel, by decide +kernel⟩ (.nil _))
  exact scrolled_history.1 letterRows htranscript 1 3 2 [1, 1] hscrolls (by decide)

end Herden.Proofs.Terminal.HistoryRead
