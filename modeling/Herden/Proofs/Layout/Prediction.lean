import Mathlib.Data.List.Basic
import Herden.Proofs.Layout

/-!
# `Herden.Proofs.Layout.Prediction`: the panes before a split, and after it

`panes_after_split` edits the list of panes, `split_pane` edits the tree. Both meet in
`collectPanes_findPaneMut`: the walk puts the panes of whatever takes the place of a leaf where the
leaf's own pane was, inside the leaf's rectangle. `panesAfterSplit_predicts` is for every tree,
also one with several leaves of the same id: both sides take the first of them.
-/

namespace Herden.Proofs.Layout

open Herden.Lib (F32)
open Herden.Runtime.Layout

/-- The pane of a leaf. -/
def leafInfo (area : Rect) (focus : PaneId) (id : PaneId) : PaneInfo where
  id := id
  rect := area
  innerRect := area
  isFocused := id = focus

theorem map_id_collectPanes (area : Rect) (focus : PaneId) (root : Node) :
    (collectPanes area focus root).map (·.id) = collectIds root := by
  induction root generalizing area with
  | pane id => rfl
  | split direction ratio first second ihFirst ihSecond =>
    simp only [collectPanes, collectIds, List.map_append, ihFirst, ihSecond]

variable {target : PaneId}

variable {root : Node}

theorem findPaneMut_eq_none_iff : findPaneMut target root = none ↔ target ∉ collectIds root := by
  induction root with
  | pane id =>
    simp only [findPaneMut, collectIds, List.mem_singleton]
    split
    next h => simp [h]
    next h => simp [Ne.symm h]
  | split direction ratio first second ihFirst ihSecond =>
    simp only [findPaneMut, collectIds, List.mem_append, not_or, ← ihFirst, ← ihSecond]
    cases hfirst : findPaneMut target first with
    | some place => simp
    | none => simp

/-- The walk over a tree with another node in the place of `target`: the panes of that node, cut
out of the leaf's rectangle, instead of the leaf's pane. -/
theorem collectPanes_findPaneMut {focus : PaneId} {place : Node → Node}
    (h : findPaneMut target root = some place) (area : Rect) : ∃ before after rect,
      collectPanes area focus root = before ++ leafInfo rect focus target :: after ∧
      (∀ info ∈ before, info.id ≠ target) ∧
      ∀ node, collectPanes area focus (place node) =
        before ++ collectPanes rect focus node ++ after := by
  induction root generalizing area place with
  | pane id =>
    unfold findPaneMut at h
    split at h
    next hid =>
      cases h
      subst hid
      exact ⟨[], [], area, rfl, fun _ hmem => absurd hmem List.not_mem_nil, fun node => by simp⟩
    · cases h
  | split direction ratio first second ihFirst ihSecond =>
    let rects := splitRect area direction ratio
    unfold findPaneMut at h
    cases hfirst : findPaneMut target first with
    | some placeFirst =>
      rw [hfirst] at h
      cases h
      obtain ⟨before, after, rect, hpanes, hbefore, hplace⟩ := ihFirst hfirst rects.1
      refine ⟨before, after ++ collectPanes rects.2 focus second, rect, ?_, hbefore, ?_⟩
      · show collectPanes rects.1 focus first ++ collectPanes rects.2 focus second = _
        rw [hpanes, List.append_assoc, List.cons_append]
      · intro node
        show collectPanes rects.1 focus (placeFirst node) ++ collectPanes rects.2 focus second = _
        rw [hplace node, List.append_assoc]
    | none =>
      rw [hfirst] at h
      obtain ⟨placeSecond, hsecond, rfl⟩ := Option.map_eq_some_iff.mp h
      obtain ⟨before, after, rect, hpanes, hbefore, hplace⟩ := ihSecond hsecond rects.2
      refine ⟨collectPanes rects.1 focus first ++ before, after, rect, ?_, ?_, ?_⟩
      · show collectPanes rects.1 focus first ++ collectPanes rects.2 focus second = _
        rw [hpanes, List.append_assoc]
      · intro info hinfo
        rcases List.mem_append.mp hinfo with hmem | hmem
        · intro hid
          refine findPaneMut_eq_none_iff.mp hfirst ?_
          rw [← map_id_collectPanes rects.1 focus first, ← hid]
          exact List.mem_map_of_mem hmem
        · exact hbefore info hmem
      · intro node
        show collectPanes rects.1 focus first ++ collectPanes rects.2 focus (placeSecond node) = _
        rw [hplace node, List.append_assoc, List.append_assoc, List.append_assoc]

/-- The position of the first entry with a property, behind entries without it. -/
theorem findIdx?_append_cons {α : Type} {p : α → Bool} {before after : List α} {x : α}
    (hbefore : ∀ y ∈ before, p y = false) (hx : p x = true) :
    (before ++ x :: after).findIdx? p = some before.length := by
  induction before with
  | nil => simp [List.findIdx?_cons, hx]
  | cons y before ih =>
    have hy := hbefore y List.mem_cons_self
    have hrest := ih fun z hz => hbefore z (List.mem_cons_of_mem y hz)
    rw [List.cons_append, List.findIdx?_cons, hy, hrest]
    rfl

theorem insertIdx_append_length {α : Type} (before after : List α) (x : α) :
    (before ++ after).insertIdx before.length x = before ++ x :: after := by
  induction before with
  | nil => rfl
  | cons y before ih =>
    show y :: (before ++ after).insertIdx before.length x = _
    rw [ih, List.cons_append]

/-- The edit of the list of panes, where the pane of `target` is. -/
theorem panesAfterSplit_eq {layout : TileLayout} {area rect : Rect} {before after : List PaneInfo}
    (hpanes : layout.panes area = before ++ leafInfo rect layout.focus target :: after)
    (hbefore : ∀ info ∈ before, info.id ≠ target) (direction : Direction) (ratio : F32) :
    layout.panesAfterSplit area target direction ratio =
      let rects := splitRect rect direction (validSplitRatio ratio)
      some (before ++ leafInfo rects.1 layout.focus target ::
        { leafInfo rects.2 layout.focus target with isFocused := false } :: after,
        before.length + 1) := by
  have hindex : (layout.panes area).findIdx? (·.id = target) = some before.length := by
    rw [hpanes]
    exact findIdx?_append_cons (fun info hinfo => by simpa using hbefore info hinfo)
      (by simp [leafInfo])
  have hinfo : (layout.panes area)[before.length]? =
      some (leafInfo rect layout.focus target) := by
    rw [hpanes, List.getElem?_append_right le_rfl, Nat.sub_self]
    rfl
  dsimp only [TileLayout.panesAfterSplit]
  rw [hindex]
  show ((layout.panes area)[before.length]?.bind _) = _
  rw [hinfo, Option.bind_some, hpanes]
  have hset : (before ++ leafInfo rect layout.focus target :: after).set before.length
      (leafInfo (splitRect rect direction (validSplitRatio ratio)).1 layout.focus target) =
      before ++ leafInfo (splitRect rect direction (validSplitRatio ratio)).1 layout.focus target ::
        after := by
    rw [List.set_append_right _ _ le_rfl, Nat.sub_self]
    rfl
  have hinsert : ∀ (x y : PaneInfo),
      (before ++ x :: after).insertIdx (before.length + 1) y = before ++ x :: y :: after := by
    intro x y
    have hlength : before.length + 1 = (before ++ [x]).length := by simp
    rw [hlength, List.append_cons, insertIdx_append_length, ← List.append_cons]
  simp only [leafInfo] at hset hinsert ⊢
  rw [hset, hinsert]

/-- `panes_after_split` predicts `split_pane`: it answers when the split succeeds, with the
rectangles of the panes after it and the position of the new pane. -/
theorem panesAfterSplit_predicts (layout : TileLayout) (area : Rect) (target : PaneId)
    (direction : Direction) (ratio : F32) (newId : PaneId) :
    (layout.panesAfterSplit area target direction ratio).isSome =
      (layout.splitPane target direction ratio newId).2.isSome ∧
    ∀ predicted index,
      layout.panesAfterSplit area target direction ratio = some (predicted, index) →
      let split := (layout.splitPane target direction ratio newId).1
      predicted.map (·.rect) = (split.panes area).map (·.rect) ∧
        predicted.map (·.innerRect) = (split.panes area).map (·.innerRect) ∧
        split.paneIds[index]? = some newId ∧
        (newId ∉ layout.paneIds → split.paneIds.findIdx? (· = newId) = some index) := by
  cases hfind : findPaneMut target layout.root with
  | none =>
    have hnone : layout.panesAfterSplit area target direction ratio = none := by
      have hindex : (layout.panes area).findIdx? (·.id = target) = none := by
        rw [List.findIdx?_eq_none_iff]
        intro info hinfo
        refine decide_eq_false fun hid => findPaneMut_eq_none_iff.mp hfind ?_
        rw [← map_id_collectPanes area layout.focus layout.root, ← hid]
        exact List.mem_map_of_mem hinfo
      dsimp only [TileLayout.panesAfterSplit]
      rw [hindex]
      rfl
    rw [hnone]
    exact ⟨by simp [TileLayout.splitPane, hfind], nofun⟩
  | some place =>
    obtain ⟨before, after, rect, hpanes, hbefore, hplace⟩ :=
      @collectPanes_findPaneMut _ _ layout.focus _ hfind area
    have hpredicted := panesAfterSplit_eq hpanes hbefore direction ratio
    rw [hpredicted]
    refine ⟨by simp [TileLayout.splitPane, hfind], ?_⟩
    intro predicted index heq
    cases heq
    let rects := splitRect rect direction (validSplitRatio ratio)
    have hsplit : (layout.splitPane target direction ratio newId).1 =
        { layout with
          root := place (splitNode target direction newId (validSplitRatio ratio)) } := by
      simp [TileLayout.splitPane, hfind]
    have hactual : ((layout.splitPane target direction ratio newId).1.panes area) =
        before ++ leafInfo rects.1 layout.focus target ::
          leafInfo rects.2 layout.focus newId :: after := by
      rw [hsplit, TileLayout.panes, hplace]
      simp only [splitNode, collectPanes, leafInfo, List.append_assoc, List.cons_append,
        List.nil_append, rects]
    have hids : (layout.splitPane target direction ratio newId).1.paneIds =
        before.map (·.id) ++ target :: newId :: after.map (·.id) := by
      rw [TileLayout.paneIds, ← map_id_collectPanes area layout.focus]
      have hfocus : (layout.splitPane target direction ratio newId).1.focus = layout.focus := by
        rw [hsplit]
      rw [TileLayout.panes, hfocus] at hactual
      rw [hactual]
      simp [leafInfo]
    dsimp only
    rw [hactual, hids]
    refine ⟨by simp [leafInfo, rects], by simp [leafInfo, rects], ?_, ?_⟩
    · rw [List.append_cons, List.getElem?_append_right (by simp)]
      simp
    · intro hfresh
      have hold : layout.paneIds = before.map (·.id) ++ target :: after.map (·.id) := by
        rw [TileLayout.paneIds, ← map_id_collectPanes area layout.focus, hpanes]
        simp [leafInfo]
      rw [hold] at hfresh
      have hlength : before.length + 1 = (before.map (·.id) ++ [target]).length := by simp
      rw [hlength, List.append_cons]
      refine findIdx?_append_cons (fun id hid => decide_eq_false fun heq => hfresh ?_)
        (decide_eq_true rfl)
      rw [heq] at hid
      rw [List.append_cons]
      exact List.mem_append_left _ hid

end Herden.Proofs.Layout
