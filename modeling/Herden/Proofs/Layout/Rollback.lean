import Herden.Proofs.Layout

/-!
# `Herden.Proofs.Layout.Rollback`: closing a new pane undoes its split

A split whose terminal fails to spawn is rolled back by closing the new pane. The test
`failed_split_rollback_preserves_focus_history` runs that pair once; here it is done for
every coherent layout, every target and every new pane.

The tree always comes back: `removePane_place` says that removing the new leaf collapses
exactly the split that was written over the target. Focus and its history come back as
well after `splitPane` and after an insertion that leaves focus alone. An insertion that
takes the focus spends the one history slot on the pane it left. Closing reads that slot
to give the focus back, and then empties it.
-/

namespace Herden.Proofs.Layout

open Herden.Lib (F32)
open Herden.Runtime.Layout

/-! ### The tree -/

variable {root : Node}

/-- Removing a pane that is not there keeps the tree. -/
theorem removePane_of_notMem {id : PaneId} (h : id ∉ collectIds root) :
    removePane id root = some root := by
  induction root with
  | pane other =>
    have hne : other ≠ id := by
      intro heq
      exact h (by simp [collectIds, heq])
    simp [removePane, hne]
  | split direction ratio first second ihFirst ihSecond =>
    simp only [collectIds, List.mem_append, not_or] at h
    simp only [removePane, ihFirst h.1, ihSecond h.2]

/-- Removing a new leaf from the split written over the target gives the old tree back. -/
theorem removePane_place {target newId : PaneId} {place : Node → Node}
    (h : findPaneMut target root = some place) (hfresh : newId ∉ collectIds root)
    (direction : Direction) (ratio : F32) :
    removePane newId (place (splitNode target direction newId ratio)) = some root := by
  induction root generalizing place with
  | pane id =>
    simp only [findPaneMut] at h
    split at h
    · rename_i hid
      cases h
      subst hid
      have hne : id ≠ newId := by
        intro heq
        exact hfresh (by simp [collectIds, heq])
      simp [splitNode, removePane, hne]
    · cases h
  | split outer kept first second ihFirst ihSecond =>
    simp only [collectIds, List.mem_append, not_or] at hfresh
    simp only [findPaneMut] at h
    -- the leaf is in the first child as soon as it is found there
    split at h
    · rename_i inner hinner
      cases h
      simp only [removePane, ihFirst hinner hfresh.1, removePane_of_notMem hfresh.2]
    · obtain ⟨inner, hinner, rfl⟩ := Option.map_eq_some_iff.mp h
      simp only [removePane, ihSecond hinner hfresh.2, removePane_of_notMem hfresh.1]

/-! ### Closing the new pane -/

/-- The layout after a split of `target`, before any focus change. -/
def withSplit (layout : TileLayout) (place : Node → Node) (target newId : PaneId)
    (direction : Direction) (ratio : F32) : TileLayout :=
  { layout with root := place (splitNode target direction newId (validSplitRatio ratio)) }

section NewPane

variable {layout : TileLayout} {target newId : PaneId} {place : Node → Node}

theorem coherent_withSplit (h : Coherent layout) (hfresh : newId ∉ layout.paneIds)
    (hplace : findPaneMut target layout.root = some place) (direction : Direction)
    (ratio : F32) :
    Coherent (withSplit layout place target newId direction ratio) ∧
      newId ∈ (withSplit layout place target newId direction ratio).paneIds ∧
      1 < (withSplit layout place target newId direction ratio).paneCount := by
  obtain ⟨hcoherent, hperm⟩ := h.splitLeaf hplace hfresh direction ratio
  have hpos : 0 < layout.paneIds.length := List.length_pos_of_mem h.focus_mem
  have hlen := hperm.length_eq
  refine ⟨hcoherent, hperm.mem_iff.mpr List.mem_cons_self, ?_⟩
  rw [TileLayout.paneCount, countPanes_eq_length]
  rw [List.length_cons] at hlen
  show 1 < (collectIds (place _)).length
  omega

/-- The new pane does not have the focus: only its leaf goes, and the history slot cannot
name it. -/
theorem closePane_withSplit (h : Coherent layout) (hfresh : newId ∉ layout.paneIds)
    (hplace : findPaneMut target layout.root = some place) (direction : Direction)
    (ratio : F32) :
    (withSplit layout place target newId direction ratio).closePane newId
      = some (layout, true) := by
  obtain ⟨-, hmem, hcount⟩ := coherent_withSplit h hfresh hplace direction ratio
  have hfocus : (withSplit layout place target newId direction ratio).focus ≠ newId :=
    fun heq => hfresh (heq ▸ h.focus_mem)
  have hopen : ¬ ((withSplit layout place target newId direction ratio).paneCount ≤ 1 ∨
      newId ∉ (withSplit layout place target newId direction ratio).paneIds) := by
    rintro (hle | hnot)
    · omega
    · exact hnot hmem
  have hremove := removePane_place hplace hfresh direction (validSplitRatio ratio)
  have hprev : (withSplit layout place target newId direction ratio).prevFocus ≠ some newId :=
    fun heq => hfresh (h.prevFocus_mem newId heq).1
  rw [TileLayout.closePane, if_neg hfocus, if_neg hopen, if_neg hprev]
  simp only [withSplit, hremove]

/-- The new pane has the focus: closing it takes the focus back to the pane named in the
history slot, which is the pane focused before. -/
theorem closePane_setFocus_withSplit (h : Coherent layout) (hfresh : newId ∉ layout.paneIds)
    (hplace : findPaneMut target layout.root = some place) (direction : Direction)
    (ratio : F32) :
    ((withSplit layout place target newId direction ratio).setFocus newId).closePane newId
      = some ({ layout with prevFocus := none }, true) := by
  obtain ⟨hcoherent, hmem, hcount⟩ := coherent_withSplit h hfresh hplace direction ratio
  have hfocus : layout.focus ≠ newId := fun heq => hfresh (heq ▸ h.focus_mem)
  have hset : (withSplit layout place target newId direction ratio).setFocus newId
      = { root := place (splitNode target direction newId (validSplitRatio ratio))
          focus := newId
          prevFocus := some layout.focus } := by
    simp [TileLayout.setFocus, withSplit, hfocus.symm]
  have hfocused := hcoherent.setFocus hmem
  rw [hset] at hfocused ⊢
  obtain ⟨root, focus, hclose, -, -, -, -, hremove, hprev⟩ := closeFocused_eq hfocused hcount
  have hroot : root = layout.root := by
    have hrollback := removePane_place hplace hfresh direction (validSplitRatio ratio)
    exact Option.some.inj (hremove.symm.trans hrollback)
  rw [TileLayout.closePane, if_pos rfl, hclose, hprev layout.focus rfl, hroot]

end NewPane

/-! ### The round trip -/

/-- Closing the pane that a split or an insertion has just added gives the old layout back:
the tree with every ratio and the leaf order, and the focus. The focus history comes back
too, unless the insertion took the focus; then it is empty. -/
theorem closePane_after_split {layout : TileLayout} (h : Coherent layout)
    (target : PaneId) {newId : PaneId} (hfresh : newId ∉ layout.paneIds)
    (direction : Direction) (ratio : F32) :
    (∀ after id, layout.splitPane target direction ratio newId = (after, some id) →
      after.closePane id = some (layout, true)) ∧
    ∀ focus after, layout.insertPaneNear target newId direction ratio focus = (after, true) →
      after.closePane newId = some ({ layout with
        prevFocus := if focus then none else layout.prevFocus }, true) := by
  constructor
  · intro after id hsplit
    unfold TileLayout.splitPane at hsplit
    split at hsplit
    · cases hsplit
    · rename_i place hplace
      cases hsplit
      exact closePane_withSplit h hfresh hplace direction ratio
  · intro focus after hinsert
    have hne : target ≠ newId := by
      rintro rfl
      simp [TileLayout.insertPaneNear] at hinsert
    rw [TileLayout.insertPaneNear, if_neg hne, if_neg hfresh] at hinsert
    cases hplace : findPaneMut target layout.root with
    | none =>
      rw [hplace] at hinsert
      cases hinsert
    | some place =>
      rw [hplace] at hinsert
      cases focus with
      | false =>
        cases hinsert
        exact closePane_withSplit h hfresh hplace direction ratio
      | true =>
        cases hinsert
        exact closePane_setFocus_withSplit h hfresh hplace direction ratio

/-- Two panes side by side, the left one focused after the right one. -/
def twoPanes : TileLayout where
  root := .split .horizontal halfRatio (.pane ⟨1⟩) (.pane ⟨2⟩)
  focus := ⟨1⟩
  prevFocus := some ⟨2⟩

theorem coherent_twoPanes : Coherent twoPanes where
  nodup := by decide
  focus_mem := by decide
  prevFocus_mem := by
    intro prev hprev
    cases hprev
    decide
  ratios := ⟨inRange_halfRatio, trivial, trivial⟩

theorem closePane_after_split_twoPanes :
    ((twoPanes.insertPaneNear ⟨2⟩ ⟨3⟩ .vertical halfRatio false).1).closePane ⟨3⟩
      = some (twoPanes, true) :=
  (closePane_after_split coherent_twoPanes ⟨2⟩ (show ⟨3⟩ ∉ twoPanes.paneIds by decide)
    .vertical halfRatio).2 false _ (by decide +kernel)

/-- An insertion that takes the focus forgets where the focus was before. -/
theorem closePane_forgets_prevFocus :
    ¬ ∀ (layout : TileLayout), Coherent layout → ∀ (target newId : PaneId),
      newId ∉ layout.paneIds → ∀ (direction : Direction) (ratio : F32),
      (∀ after id, layout.splitPane target direction ratio newId = (after, some id) →
        after.closePane id = some (layout, true)) ∧
      ∀ focus after, layout.insertPaneNear target newId direction ratio focus = (after, true) →
        after.closePane newId = some (layout, true) := by
  intro hclaim
  have hrun := (hclaim twoPanes coherent_twoPanes ⟨2⟩ ⟨3⟩ (by decide) .vertical halfRatio).2
    true (twoPanes.insertPaneNear ⟨2⟩ ⟨3⟩ .vertical halfRatio true).1 (by decide +kernel)
  revert hrun
  decide +kernel

end Herden.Proofs.Layout
