import Mathlib.Data.List.Nodup
import Mathlib.Logic.Equiv.Basic
import Herden.Lib.Run
import Herden.Runtime.Layout

/-!
# `Herden.Proofs.Layout`: every reachable layout is coherent

`TileLayout.Coherent` is the invariant of the tiling layout: the leaf ids are pairwise
distinct, the focus is one of them, the focus history names another one, and every split
ratio lies in the clamped range. `reachable_coherent` proves it for every layout that the
nine operations reach from `new` or from a coherent `fromSaved`, together with what each
call does to the leaves and to a layout it refuses to change.

The tree lemmas come first, one group for each tree function: where `findPaneMut` points,
what `removePane` keeps, what `swapPaneIds` permutes, what `setRatioAtNode` writes. Each
operation then has one lemma, and the run is `Lib.Reachable.invariant`.

`setRatioAt` and the two resize operations clamp without looking for a NaN, and clamping
keeps a NaN. Their callers check `is_finite` first (`app/api/layouts.rs`,
`app/api/panes.rs`), so `Admissible` asks for it. `not_coherent_of_nan_ratio` is the run
that breaks the ratio range without it.
-/

namespace Herden.Proofs.Layout

open Herden.Lib (F32 Reachable)
open Herden.Runtime.Layout
open Herden.Runtime.Layout.TileLayout (Op Answer)

/-! ### The clamped range -/

/-- The value of the `f32` literal `0.1`. -/
def minRatioValue : ℚ := 13421773 / 2 ^ 27

/-- The value of the `f32` literal `0.9`. -/
def maxRatioValue : ℚ := 15099494 / 2 ^ 24

theorem minRatio_eq : minRatio = .num minRatioValue := by decide +kernel

theorem maxRatio_eq : maxRatio = .num maxRatioValue := by decide +kernel

/-- A split ratio in the clamped range. -/
def InRange (ratio : F32) : Prop := F32.Between minRatioValue maxRatioValue ratio

instance (ratio : F32) : Decidable (InRange ratio) :=
  inferInstanceAs (Decidable (F32.Between _ _ ratio))

variable {ratio delta : F32} {place : Node → Node} {root : Node} {target : PaneId}
  {path : List Bool} {layout : TileLayout}

theorem inRange_clamp (h : ratio.isNan = false) : InRange (ratio.clamp minRatio maxRatio) := by
  rw [minRatio_eq, maxRatio_eq]
  exact F32.clamp_between (by norm_num [minRatioValue, maxRatioValue]) h

theorem inRange_halfRatio : InRange halfRatio := by decide +kernel

/-- A new split's ratio is in range whatever the caller asked for. -/
theorem inRange_validSplitRatio (ratio : F32) : InRange (validSplitRatio ratio) := by
  unfold validSplitRatio
  split
  · rename_i h
    apply inRange_clamp
    cases ratio with
    | nan => simp [F32.isFinite] at h
    | inf _ => rfl
    | num _ => rfl
  · exact inRange_halfRatio

/-- Every split of the tree has its ratio in range. -/
def RatiosInRange : Node → Prop
  | .pane _ => True
  | .split _ ratio first second => InRange ratio ∧ RatiosInRange first ∧ RatiosInRange second

/-! ### `findPaneMut` -/

/-- The place `findPaneMut` finds: the leaf order splits around the target, and a node
written there puts its own leaves between the two halves. -/
theorem collectIds_findPaneMut (h : findPaneMut target root = some place) :
    ∃ before after, collectIds root = before ++ target :: after ∧
      ∀ node, collectIds (place node) = before ++ collectIds node ++ after := by
  induction root generalizing place with
  | pane id =>
    simp only [findPaneMut] at h
    split at h
    · rename_i hid
      cases h
      exact ⟨[], [], by simp [collectIds, hid], by simp⟩
    · cases h
  | split direction ratio first second ihFirst ihSecond =>
    simp only [findPaneMut] at h
    split at h
    · rename_i inner hinner
      cases h
      obtain ⟨before, after, hids, hplace⟩ := ihFirst hinner
      refine ⟨before, after ++ collectIds second, by simp [collectIds, hids], fun node => ?_⟩
      simp [collectIds, hplace]
    · obtain ⟨inner, hinner, rfl⟩ := Option.map_eq_some_iff.mp h
      obtain ⟨before, after, hids, hplace⟩ := ihSecond hinner
      refine ⟨collectIds first ++ before, after, by simp [collectIds, hids], fun node => ?_⟩
      simp [collectIds, hplace]

/-- Writing an in-range node into an in-range tree keeps the ratios in range. -/
theorem ratiosInRange_findPaneMut (h : findPaneMut target root = some place)
    (hroot : RatiosInRange root) {node : Node} (hnode : RatiosInRange node) :
    RatiosInRange (place node) := by
  induction root generalizing place with
  | pane id =>
    simp only [findPaneMut] at h
    split at h
    · cases h; exact hnode
    · cases h
  | split direction ratio first second ihFirst ihSecond =>
    obtain ⟨hratio, hfirst, hsecond⟩ := hroot
    simp only [findPaneMut] at h
    split at h
    · rename_i inner hinner
      cases h
      exact ⟨hratio, ihFirst hinner hfirst, hsecond⟩
    · obtain ⟨inner, hinner, rfl⟩ := Option.map_eq_some_iff.mp h
      exact ⟨hratio, hfirst, ihSecond hinner hsecond⟩

/-- Splitting the found leaf adds the new id to the leaves, once. -/
theorem perm_collectIds_splitNode (h : findPaneMut target root = some place) (direction : Direction)
    (newId : PaneId) (ratio : F32) :
    (collectIds (place (splitNode target direction newId ratio))).Perm
      (newId :: collectIds root) := by
  obtain ⟨before, after, hids, hplace⟩ := collectIds_findPaneMut h
  rw [hplace, hids]
  have : before ++ collectIds (splitNode target direction newId ratio) ++ after
      = (before ++ [target]) ++ newId :: after := by simp [splitNode, collectIds]
  rw [this]
  refine List.perm_middle.trans (List.Perm.cons newId ?_)
  simp

/-! ### `removePane` -/

/-- Removing a pane from the tree: the other leaves stay, in order, and the ratios of the
splits that remain are the old ones. Nothing remains when every leaf is the target. -/
theorem removePane_spec (target : PaneId) (root : Node) :
    (∀ rest, removePane target root = some rest →
      collectIds rest = (collectIds root).filter (· ≠ target) ∧
        (RatiosInRange root → RatiosInRange rest)) ∧
      (removePane target root = none → (collectIds root).filter (· ≠ target) = []) := by
  induction root with
  | pane id =>
    by_cases hid : id = target <;> simp [removePane, collectIds, hid, RatiosInRange]
  | split direction ratio first second ihFirst ihSecond =>
    obtain ⟨hsomeFirst, hnoneFirst⟩ := ihFirst
    obtain ⟨hsomeSecond, hnoneSecond⟩ := ihSecond
    simp only [removePane, collectIds, List.filter_append, RatiosInRange]
    cases hf : removePane target first with
    | none =>
      cases hs : removePane target second with
      | none =>
        refine ⟨fun rest hrest => (by cases hrest), fun _ => ?_⟩
        rw [hnoneFirst hf, hnoneSecond hs, List.nil_append]
      | some s =>
        obtain ⟨hids, hratios⟩ := hsomeSecond s hs
        refine ⟨fun rest hrest => ?_, fun h => by cases h⟩
        cases hrest
        exact ⟨by rw [hnoneFirst hf, hids, List.nil_append], fun h => hratios h.2.2⟩
    | some f =>
      obtain ⟨hidsFirst, hratiosFirst⟩ := hsomeFirst f hf
      cases hs : removePane target second with
      | none =>
        refine ⟨fun rest hrest => ?_, fun h => by cases h⟩
        cases hrest
        exact ⟨by rw [hnoneSecond hs, hidsFirst, List.append_nil], fun h => hratiosFirst h.2.1⟩
      | some s =>
        obtain ⟨hidsSecond, hratiosSecond⟩ := hsomeSecond s hs
        refine ⟨fun rest hrest => ?_, fun h => by cases h⟩
        cases hrest
        exact ⟨by simp [collectIds, hidsFirst, hidsSecond],
          fun h => ⟨h.1, hratiosFirst h.2.1, hratiosSecond h.2.2⟩⟩

theorem countPanes_eq_length (root : Node) : countPanes root = (collectIds root).length := by
  induction root with
  | pane _ => rfl
  | split _ _ first second ihFirst ihSecond =>
    simp [countPanes, collectIds, ihFirst, ihSecond]

/-- A pane of a tree with distinct leaves and more than one of them can be removed, and
exactly its leaf goes. -/
theorem removePane_of_mem (hnodup : (collectIds root).Nodup) (hcount : 1 < countPanes root)
    (hmem : target ∈ collectIds root) : ∃ rest, removePane target root = some rest ∧
      collectIds rest = (collectIds root).erase target ∧
      (RatiosInRange root → RatiosInRange rest) := by
  obtain ⟨hsome, hnone⟩ := removePane_spec target root
  have herase : (collectIds root).filter (· ≠ target) = (collectIds root).erase target := by
    rw [hnodup.erase_eq_filter target]
    exact List.filter_congr (fun id _ => by simp [bne, beq_eq_decide])
  cases h : removePane target root with
  | none =>
    have hlen := List.length_erase_of_mem hmem
    rw [← herase, hnone h, List.length_nil] at hlen
    rw [countPanes_eq_length] at hcount
    omega
  | some rest =>
    obtain ⟨hids, hratios⟩ := hsome rest h
    exact ⟨rest, rfl, hids.trans herase, hratios⟩

/-! ### `swapPaneIds` -/

/-- Swapping two ids renames the leaves by the transposition of the two. -/
theorem collectIds_swapPaneIds (a b : PaneId) (root : Node) :
    collectIds (swapPaneIds a b root) = (collectIds root).map (Equiv.swap a b) := by
  induction root with
  | pane id =>
    simp only [swapPaneIds, collectIds, List.map_cons, List.map_nil, Equiv.swap_apply_def]
    split
    · rfl
    · split <;> rfl
  | split _ _ first second ihFirst ihSecond =>
    simp [swapPaneIds, collectIds, ihFirst, ihSecond]

theorem ratiosInRange_swapPaneIds (a b : PaneId) (root : Node) :
    RatiosInRange (swapPaneIds a b root) ↔ RatiosInRange root := by
  induction root with
  | pane id =>
    simp only [swapPaneIds]
    split
    · simp [RatiosInRange]
    · split <;> simp [RatiosInRange]
  | split _ _ first second ihFirst ihSecond =>
    simp [swapPaneIds, RatiosInRange, ihFirst, ihSecond]

variable {ids : List PaneId} {pos : List Bool} {id newId : PaneId}

/-- Both ids are leaves, so the swap keeps the set of leaves. -/
theorem mem_map_swap {a b : PaneId} (ha : a ∈ ids) (hb : b ∈ ids) (id : PaneId) :
    id ∈ ids.map (Equiv.swap a b) ↔ id ∈ ids := by
  have himage : ∀ x, x ∈ ids → Equiv.swap a b x ∈ ids := by
    intro x hx
    rw [Equiv.swap_apply_def]
    split
    · exact hb
    · split
      · exact ha
      · exact hx
  constructor
  · intro h
    obtain ⟨x, hx, rfl⟩ := List.mem_map.mp h
    exact himage x hx
  · intro h
    exact List.mem_map.mpr ⟨Equiv.swap a b id, himage id h, Equiv.swap_apply_self a b id⟩

/-! ### `setRatioAtNode` -/

theorem collectIds_setRatioAtNode (ratio : F32) (root : Node) (path : List Bool) :
    collectIds (setRatioAtNode ratio root path).1 = collectIds root := by
  induction root generalizing path with
  | pane _ => rfl
  | split _ _ first second ihFirst ihSecond =>
    match path with
    | [] => rfl
    | true :: rest => simp [setRatioAtNode, collectIds, ihSecond rest]
    | false :: rest => simp [setRatioAtNode, collectIds, ihFirst rest]

theorem ratiosInRange_setRatioAtNode (hratio : InRange ratio) (path : List Bool)
    (hroot : RatiosInRange root) : RatiosInRange (setRatioAtNode ratio root path).1 := by
  induction root generalizing path with
  | pane _ => trivial
  | split _ _ first second ihFirst ihSecond =>
    obtain ⟨hnode, hfirst, hsecond⟩ := hroot
    match path with
    | [] => exact ⟨hratio, hfirst, hsecond⟩
    | true :: rest => exact ⟨hnode, hfirst, ihSecond rest hsecond⟩
    | false :: rest => exact ⟨hnode, ihFirst rest hfirst, hsecond⟩

/-- A path that names no split changes nothing. -/
theorem setRatioAtNode_of_false (h : (setRatioAtNode ratio root path).2 = false) :
    (setRatioAtNode ratio root path).1 = root := by
  induction root generalizing path with
  | pane _ => rfl
  | split direction old first second ihFirst ihSecond =>
    match path with
    | [] => cases h
    | true :: rest =>
      show Node.split direction old first (setRatioAtNode ratio second rest).1 = _
      rw [ihSecond h]
    | false :: rest =>
      show Node.split direction old (setRatioAtNode ratio first rest).1 second = _
      rw [ihFirst h]

theorem inRange_getRatioAt (hroot : RatiosInRange root) (h : getRatioAt root path = some ratio) :
    InRange ratio := by
  induction root generalizing path with
  | pane _ => cases h
  | split _ _ first second ihFirst ihSecond =>
    obtain ⟨hnode, hfirst, hsecond⟩ := hroot
    match path with
    | [] =>
      cases h
      exact hnode
    | true :: rest => exact ihSecond hsecond h
    | false :: rest => exact ihFirst hfirst h

/-! ### `splitRatios` -/

/-- A write that leaves the list of ratios as it was leaves the tree as it was. -/
theorem setRatioAtNode_of_splitRatios
    (h : splitRatios pos (setRatioAtNode ratio root path).1 = splitRatios pos root) :
    (setRatioAtNode ratio root path).1 = root := by
  induction root generalizing path pos with
  | pane _ => rfl
  | split direction old first second ihFirst ihSecond =>
    match path with
    | [] =>
      simp only [setRatioAtNode, splitRatios, List.cons.injEq, Prod.mk.injEq, true_and] at h
      show Node.split direction ratio first second = _
      rw [h.1]
    | true :: rest =>
      have htail := (List.cons.inj h).2
      have hsecond := List.append_cancel_left htail
      show Node.split direction old first (setRatioAtNode ratio second rest).1 = _
      rw [ihSecond hsecond]
    | false :: rest =>
      have htail := (List.cons.inj h).2
      have hfirst := List.append_cancel_right htail
      show Node.split direction old (setRatioAtNode ratio first rest).1 second = _
      rw [ihFirst hfirst]

/-- The ratios of an in-range tree are the ones a comparison as numbers can tell apart. -/
theorem inRange_of_mem_splitRatios (hroot : RatiosInRange root) {entry : List Bool × F32}
    (h : entry ∈ splitRatios pos root) : InRange entry.2 := by
  induction root generalizing pos with
  | pane _ => cases h
  | split _ _ first second ihFirst ihSecond =>
    obtain ⟨hnode, hfirst, hsecond⟩ := hroot
    simp only [splitRatios, List.mem_cons, List.mem_append] at h
    obtain rfl | h | h := h
    · exact hnode
    · exact ihFirst hfirst h
    · exact ihSecond hsecond h

theorem eq_of_ratiosDiffer_false {after before : List (List Bool × F32)}
    (hbefore : ∀ entry ∈ before, InRange entry.2)
    (h : TileLayout.ratiosDiffer after before = false) : after = before := by
  simp only [TileLayout.ratiosDiffer, Bool.not_eq_false', Bool.and_eq_true, beq_iff_eq,
    List.all_eq_true] at h
  obtain ⟨hlen, hall⟩ := h
  apply List.ext_getElem hlen
  intro i hi hi'
  have hpair := hall (after[i], before[i])
    (List.mem_iff_getElem.mpr ⟨i, by simp [hlen, hi'], by simp⟩)
  obtain ⟨hpath, hratio⟩ := hpair
  exact Prod.ext hpath
    (F32.eq_of_between_right (hbefore _ (List.getElem_mem hi')) hratio)

/-! ### The invariant and what a call may do -/

/-- The invariant of a layout. -/
structure Coherent (layout : TileLayout) : Prop where
  nodup : layout.paneIds.Nodup
  focus_mem : layout.focus ∈ layout.paneIds
  prevFocus_mem : ∀ prev, layout.prevFocus = some prev →
    prev ∈ layout.paneIds ∧ prev ≠ layout.focus
  ratios : RatiosInRange layout.root

/-- A layout a run starts from: one pane, or a saved tree with distinct ids, a focus among
them and ratios in the clamped range. -/
def Start (layout : TileLayout) : Prop :=
  (∃ id, layout = .new id) ∨
    ∃ root focus, layout = .fromSaved root focus ∧ (collectIds root).Nodup ∧
      focus ∈ collectIds root ∧ RatiosInRange root

/-- Any call, as long as a new pane's id is fresh. -/
def FreshIds (layout : TileLayout) : Op → Prop
  | .splitPane _ _ _ newId => newId ∉ layout.paneIds
  | _ => True

/-- The calls the callers make: a new pane's id is fresh, and the ratio or the resize step
is no NaN. Every other argument is free. -/
def Admissible (layout : TileLayout) : Op → Prop
  | .splitPane _ _ _ newId => newId ∉ layout.paneIds
  | .setRatioAt _ ratio => ratio.isNan = false
  | .resizeFocused _ delta _ => delta.isNan = false
  | .resizePane _ _ delta _ => delta.isNan = false
  | _ => True

/-- What a call does to the leaves: a successful split or insertion adds exactly the new
leaf, a successful close removes exactly the closed one, and every other call keeps the
leaves up to their order. -/
def LeafChange (before after : TileLayout) : Op → Answer → Prop
  | .splitPane _ _ _ newId, .pane (some id) =>
      id = newId ∧ after.paneIds.Perm (newId :: before.paneIds)
  | .insertPaneNear _ moved _ _ _, .flag true => after.paneIds.Perm (moved :: before.paneIds)
  | .closePane id, .flag true =>
      id ∈ before.paneIds ∧ after.paneIds = before.paneIds.erase id
  | .closeFocused, .flag true => after.paneIds = before.paneIds.erase before.focus
  | _, _ => after.paneIds.Perm before.paneIds

/-- Everything the run theorem says about one call. -/
structure StepSpec (before : TileLayout) (op : Op) (after : TileLayout) (answer : Answer) :
    Prop where
  coherent : Coherent after
  unchanged : answer.failed = true → after = before
  leaves : LeafChange before after op answer

theorem Coherent.new (id : PaneId) : Coherent (.new id) where
  nodup := by simp [TileLayout.new, TileLayout.paneIds, collectIds]
  focus_mem := by simp [TileLayout.new, TileLayout.paneIds, collectIds]
  prevFocus_mem := by intro prev h; cases h
  ratios := trivial

theorem Start.coherent (h : Start layout) : Coherent layout := by
  obtain ⟨id, rfl⟩ | ⟨root, focus, rfl, hnodup, hfocus, hratios⟩ := h
  · exact .new id
  · exact ⟨hnodup, hfocus, fun prev h => (by cases h), hratios⟩

/-- The tree may be replaced by one with the same leaves and ratios in range. -/
theorem Coherent.withRoot (h : Coherent layout) (hnodup : (collectIds root).Nodup)
    (hsub : ∀ id ∈ layout.paneIds, id ∈ collectIds root) (hratios : RatiosInRange root) :
    Coherent { layout with root := root } where
  nodup := hnodup
  focus_mem := hsub _ h.focus_mem
  prevFocus_mem := fun prev hprev =>
    ⟨hsub _ (h.prevFocus_mem prev hprev).1, (h.prevFocus_mem prev hprev).2⟩
  ratios := hratios

theorem Coherent.setFocus (h : Coherent layout) (hid : id ∈ layout.paneIds) :
    Coherent (layout.setFocus id) := by
  unfold TileLayout.setFocus
  split
  · rename_i hne
    refine ⟨h.nodup, hid, fun prev hprev => ?_, h.ratios⟩
    cases hprev
    exact ⟨h.focus_mem, fun heq => hne heq.symm⟩
  · exact h

theorem paneIds_setFocus (layout : TileLayout) (id : PaneId) :
    (layout.setFocus id).paneIds = layout.paneIds := by
  unfold TileLayout.setFocus
  split <;> rfl

/-! ### One lemma for each operation -/

/-- Splitting a leaf with a fresh id keeps the layout coherent and adds that id. -/
theorem Coherent.splitLeaf (h : Coherent layout)
    (hplace : findPaneMut target layout.root = some place) (hfresh : newId ∉ layout.paneIds)
    (direction : Direction) (ratio : F32) :
    let root := place (splitNode target direction newId (validSplitRatio ratio))
    Coherent { layout with root := root } ∧ (collectIds root).Perm (newId :: layout.paneIds) := by
  intro root
  have hperm := perm_collectIds_splitNode hplace direction newId (validSplitRatio ratio)
  refine ⟨h.withRoot ?_ ?_ ?_, hperm⟩
  · exact hperm.nodup_iff.mpr (List.nodup_cons.mpr ⟨hfresh, h.nodup⟩)
  · exact fun id hid => hperm.mem_iff.mpr (List.mem_cons_of_mem _ hid)
  · exact ratiosInRange_findPaneMut hplace h.ratios
      ⟨inRange_validSplitRatio ratio, trivial, trivial⟩

theorem splitPane_spec (h : Coherent layout) (target : PaneId) (direction : Direction) (ratio : F32)
    (hfresh : newId ∉ layout.paneIds) : StepSpec layout (.splitPane target direction ratio newId)
      (layout.splitPane target direction ratio newId).1
      (.pane (layout.splitPane target direction ratio newId).2) := by
  unfold TileLayout.splitPane
  split
  · exact ⟨h, fun _ => rfl, .refl _⟩
  · rename_i place hplace
    obtain ⟨hcoherent, hperm⟩ := h.splitLeaf hplace hfresh direction ratio
    exact ⟨hcoherent, fun hfail => (by cases hfail), rfl, hperm⟩

theorem insertPaneNear_spec (h : Coherent layout) (target moved : PaneId) (direction : Direction)
    (ratio : F32) (focus : Bool) :
    StepSpec layout (.insertPaneNear target moved direction ratio focus)
      (layout.insertPaneNear target moved direction ratio focus).1
      (.flag (layout.insertPaneNear target moved direction ratio focus).2) := by
  have hrefused : StepSpec layout (.insertPaneNear target moved direction ratio focus) layout
      (.flag false) := ⟨h, fun _ => rfl, .refl _⟩
  unfold TileLayout.insertPaneNear
  split
  · exact hrefused
  split
  · exact hrefused
  rename_i hfresh
  split
  · exact hrefused
  rename_i place hplace
  obtain ⟨hcoherent, hperm⟩ := h.splitLeaf hplace hfresh direction ratio
  refine ⟨?_, fun hfail => (by cases hfail), ?_⟩
  · dsimp only
    split
    · exact hcoherent.setFocus (hperm.mem_iff.mpr List.mem_cons_self)
    · exact hcoherent
  · show List.Perm (TileLayout.paneIds (if focus then _ else _)) _
    split
    · rw [paneIds_setFocus]
      exact hperm
    · exact hperm

/-- A leaf next to position `pos` in an order of at least two leaves is another leaf. -/
theorem orderedNeighbour_spec (hnodup : ids.Nodup) {pos : Nat} (hpos : pos < ids.length)
    (hlen : 1 < ids.length) :
    ∃ id, TileLayout.orderedNeighbour ids pos = some id ∧ id ∈ ids ∧ id ≠ ids[pos] := by
  unfold TileLayout.orderedNeighbour
  split
  · rename_i hnext
    refine ⟨ids[pos + 1], List.getElem?_eq_getElem hnext, List.getElem_mem hnext, fun heq => ?_⟩
    have := (List.Nodup.getElem_inj_iff hnodup).mp heq
    omega
  · have hprev : pos - 1 < ids.length := by omega
    refine ⟨ids[pos - 1], List.getElem?_eq_getElem hprev, List.getElem_mem hprev,
      fun heq => ?_⟩
    have := (List.Nodup.getElem_inj_iff hnodup).mp heq
    omega

/-- `closeFocused` on a coherent layout with more than one pane: the focused leaf goes and
the focus moves to another leaf, the one in the history slot if there is one. -/
theorem closeFocused_eq (h : Coherent layout) (hcount : 1 < layout.paneCount) :
    ∃ root focus, layout.closeFocused
        = some ({ layout with root := root, focus := focus, prevFocus := none }, true) ∧
      collectIds root = layout.paneIds.erase layout.focus ∧ RatiosInRange root ∧
      focus ∈ layout.paneIds ∧ focus ≠ layout.focus ∧
      removePane layout.focus layout.root = some root ∧
      ∀ prev, layout.prevFocus = some prev → focus = prev := by
  obtain ⟨root, hremove, hids, hratios⟩ := removePane_of_mem h.nodup hcount h.focus_mem
  obtain ⟨pos, hpos⟩ : ∃ pos, layout.paneIds.findIdx? (· = layout.focus) = some pos := by
    rw [← Option.isSome_iff_exists, List.findIdx?_isSome, List.any_eq_true]
    exact ⟨layout.focus, h.focus_mem, by simp⟩
  obtain ⟨hlt, hat, -⟩ := List.findIdx?_eq_some_iff_getElem.mp hpos
  have hfocus : layout.paneIds[pos] = layout.focus := by simpa using hat
  have hlen : 1 < layout.paneIds.length := by
    rwa [TileLayout.paneCount, countPanes_eq_length] at hcount
  obtain ⟨ordered, hordered, hmem, hne⟩ := orderedNeighbour_spec h.nodup hlt hlen
  rw [hfocus] at hne
  have hcount' : ¬ layout.paneCount ≤ 1 := by omega
  simp only [TileLayout.closeFocused, if_neg hcount', hpos, hordered, hremove,
    Option.bind_eq_bind, Option.bind_some]
  refine ⟨root, _, rfl, hids, hratios h.ratios, ?_⟩
  cases hprev : layout.prevFocus with
  | none => exact ⟨hmem, hne, rfl, fun prev heq => by cases heq⟩
  | some prev =>
    obtain ⟨hprevMem, hprevNe⟩ := h.prevFocus_mem prev hprev
    simp only [hprevNe, hprevMem, ne_eq, not_false_eq_true, and_self, if_true]
    exact ⟨trivial, trivial, trivial, fun other heq => Option.some.inj heq⟩

theorem closeFocused_spec (h : Coherent layout) :
    ∃ after ok, layout.closeFocused = some (after, ok) ∧
      StepSpec layout .closeFocused after (.flag ok) := by
  by_cases hcount : layout.paneCount ≤ 1
  · exact ⟨layout, false, by simp [TileLayout.closeFocused, hcount], h, fun _ => rfl, .refl _⟩
  · obtain ⟨root, focus, heq, hids, hratios, hmem, hne, -, -⟩ := closeFocused_eq h (by omega)
    refine ⟨_, _, heq, ⟨?_, ?_, fun prev hprev => (by cases hprev), hratios⟩,
      fun hfail => (by cases hfail), hids⟩
    · show (collectIds root).Nodup
      rw [hids]
      exact h.nodup.erase _
    · show focus ∈ collectIds root
      rw [hids]
      exact (List.mem_erase_of_ne hne).mpr hmem

theorem closePane_spec (h : Coherent layout) (id : PaneId) :
    ∃ after ok, layout.closePane id = some (after, ok) ∧
      StepSpec layout (.closePane id) after (.flag ok) := by
  by_cases hfocus : layout.focus = id
  · obtain ⟨after, ok, heq, hspec⟩ := closeFocused_spec h
    refine ⟨after, ok, by rw [TileLayout.closePane, if_pos hfocus, heq], hspec.coherent,
      hspec.unchanged, ?_⟩
    have hleaves := hspec.leaves
    cases ok with
    | false => exact hleaves
    | true => exact ⟨hfocus ▸ h.focus_mem, by rw [← hfocus]; exact hleaves⟩
  · by_cases hskip : layout.paneCount ≤ 1 ∨ id ∉ layout.paneIds
    · exact ⟨layout, false, by simp [TileLayout.closePane, hfocus, hskip], h, fun _ => rfl,
        .refl _⟩
    · obtain ⟨hcount, hmem⟩ : ¬ layout.paneCount ≤ 1 ∧ id ∈ layout.paneIds := by
        simpa using hskip
      obtain ⟨root, hremove, hids, hratios⟩ :=
        removePane_of_mem h.nodup (not_le.mp hcount) hmem
      have heq : layout.closePane id = some (⟨root, layout.focus,
          if layout.prevFocus = some id then none else layout.prevFocus⟩, true) := by
        simp only [TileLayout.closePane, hfocus, if_false, hskip, hremove]
      refine ⟨_, true, heq, ⟨?_, ?_, ?_, hratios h.ratios⟩, fun hfail => (by cases hfail),
        hmem, hids⟩
      · show (collectIds root).Nodup
        rw [hids]
        exact h.nodup.erase _
      · show layout.focus ∈ collectIds root
        rw [hids]
        exact (List.mem_erase_of_ne hfocus).mpr h.focus_mem
      · -- the history survives unless it names the closed pane
        intro prev hprev
        dsimp only at hprev
        split at hprev
        · cases hprev
        · rename_i hother
          obtain ⟨hprevMem, hprevNe⟩ := h.prevFocus_mem prev hprev
          have hne : prev ≠ id := fun heq => hother (heq ▸ hprev)
          refine ⟨?_, hprevNe⟩
          show prev ∈ collectIds root
          rw [hids]
          exact (List.mem_erase_of_ne hne).mpr hprevMem

/-- A pane of a coherent layout with others can be closed. -/
theorem closePane_of_mem (h : Coherent layout) (hmem : id ∈ layout.paneIds)
    (hcount : 1 < layout.paneCount) :
    ∃ after, layout.closePane id = some (after, true) ∧ Coherent after ∧
      after.paneIds = layout.paneIds.erase id := by
  obtain ⟨after, ok, heq, hspec⟩ := closePane_spec h id
  cases ok with
  | true => exact ⟨after, heq, hspec.coherent, hspec.leaves.2⟩
  | false =>
    exfalso
    by_cases hfocus : layout.focus = id
    · obtain ⟨root, focus, hclose, -⟩ := closeFocused_eq h hcount
      rw [TileLayout.closePane, if_pos hfocus, hclose] at heq
      cases heq
    · obtain ⟨root, hremove, -⟩ := removePane_of_mem h.nodup hcount hmem
      have hclose : ¬ (layout.paneCount ≤ 1 ∨ id ∉ layout.paneIds) := by
        rintro (hle | hnot)
        · omega
        · exact hnot hmem
      rw [TileLayout.closePane, if_neg hfocus, if_neg hclose, hremove] at heq
      cases heq

theorem focusPane_spec (h : Coherent layout) (id : PaneId) :
    StepSpec layout (.focusPane id) (layout.focusPane id) .unit := by
  unfold TileLayout.focusPane
  split
  · rename_i hmem
    refine ⟨h.setFocus hmem, fun hfail => (by cases hfail), ?_⟩
    show (layout.setFocus id).paneIds.Perm _
    rw [paneIds_setFocus]
  · exact ⟨h, fun _ => rfl, .refl _⟩

theorem swapPanes_spec (h : Coherent layout) (first second : PaneId) :
    StepSpec layout (.swapPanes first second) (layout.swapPanes first second).1
      (.flag (layout.swapPanes first second).2) := by
  have hrefused : StepSpec layout (.swapPanes first second) layout (.flag false) :=
    ⟨h, fun _ => rfl, .refl _⟩
  unfold TileLayout.swapPanes
  split
  · exact hrefused
  split
  · exact hrefused
  rename_i hmem
  obtain ⟨hfirst, hsecond⟩ : first ∈ layout.paneIds ∧ second ∈ layout.paneIds := by
    simpa using hmem
  have hids := collectIds_swapPaneIds first second layout.root
  have hnodup : ((collectIds layout.root).map (Equiv.swap first second)).Nodup :=
    List.Nodup.map (Equiv.injective _) h.nodup
  refine ⟨h.withRoot (hids ▸ hnodup) ?_ ?_, fun hfail => (by cases hfail), ?_⟩
  · intro id hid
    rw [hids]
    exact (mem_map_swap hfirst hsecond id).mpr hid
  · exact (ratiosInRange_swapPaneIds first second layout.root).mpr h.ratios
  · show (collectIds (swapPaneIds first second layout.root)).Perm layout.paneIds
    rw [hids]
    exact (List.perm_ext_iff_of_nodup hnodup h.nodup).mpr (mem_map_swap hfirst hsecond)

theorem paneIds_setRatioAt (layout : TileLayout) (path : List Bool) (ratio : F32) :
    (layout.setRatioAt path ratio).1.paneIds = layout.paneIds :=
  collectIds_setRatioAtNode _ _ _

theorem Coherent.setRatioAt (h : Coherent layout) (path : List Bool)
    (hratio : ratio.isNan = false) :
    Coherent (layout.setRatioAt path ratio).1 := by
  have hids := collectIds_setRatioAtNode (ratio.clamp minRatio maxRatio) layout.root path
  refine h.withRoot (hids ▸ h.nodup) (fun id hid => hids ▸ hid) ?_
  exact ratiosInRange_setRatioAtNode (inRange_clamp hratio) path h.ratios

theorem setRatioAt_spec (h : Coherent layout) (path : List Bool) (hratio : ratio.isNan = false) :
    StepSpec layout (.setRatioAt path ratio) (layout.setRatioAt path ratio).1
      (.flag (layout.setRatioAt path ratio).2) := by
  refine ⟨h.setRatioAt path hratio, fun hfail => ?_, ?_⟩
  · have hok : (layout.setRatioAt path ratio).2 = false := by simpa [Answer.failed] using hfail
    have hnode := setRatioAtNode_of_false hok
    show { layout with root := _ } = layout
    rw [hnode]
  · show (layout.setRatioAt path ratio).1.paneIds.Perm layout.paneIds
    rw [paneIds_setRatioAt]

/-- `resizeFocused` writes one ratio, the old one moved by the step, or nothing. -/
theorem resizeFocused_eq (hroot : RatiosInRange layout.root) (nav : NavDirection)
    (hdelta : delta.isNan = false) (area : Rect) : layout.resizeFocused nav delta area = layout ∨
      ∃ path ratio, ratio.isNan = false ∧
        layout.resizeFocused nav delta area = (layout.setRatioAt path ratio).1 := by
  unfold TileLayout.resizeFocused
  split
  · exact .inl rfl
  dsimp only
  split
  · exact .inl rfl
  rename_i split _
  refine .inr ⟨_, _, ?_, rfl⟩
  have hcurrent : InRange ((getRatioAt layout.root split.path).getD halfRatio) := by
    cases hget : getRatioAt layout.root split.path with
    | none => exact inRange_halfRatio
    | some ratio => exact inRange_getRatioAt hroot hget
  apply F32.isNan_add_of_between hcurrent
  rw [apply_ite F32.isNan, F32.isNan_neg, hdelta, ite_self]

theorem resizeFocused_spec (h : Coherent layout) (nav : NavDirection) (hdelta : delta.isNan = false)
    (area : Rect) :
    StepSpec layout (.resizeFocused nav delta area) (layout.resizeFocused nav delta area)
      .unit := by
  obtain heq | ⟨path, ratio, hratio, heq⟩ := resizeFocused_eq h.ratios nav hdelta area
  · rw [heq]
    exact ⟨h, fun _ => rfl, .refl _⟩
  · rw [heq]
    refine ⟨h.setRatioAt path hratio, fun hfail => (by cases hfail), ?_⟩
    show (layout.setRatioAt path ratio).1.paneIds.Perm layout.paneIds
    rw [paneIds_setRatioAt]

/-- `resizePane` borrows the focus for the resize and gives it back, so it changes one
ratio of the tree and nothing else. -/
theorem resizePane_spec (h : Coherent layout) (paneId : PaneId) (nav : NavDirection)
    (hdelta : delta.isNan = false) (area : Rect) :
    StepSpec layout (.resizePane paneId nav delta area)
      (layout.resizePane paneId nav delta area).1
      (.flag (layout.resizePane paneId nav delta area).2) := by
  unfold TileLayout.resizePane
  split
  · exact ⟨h, fun _ => rfl, .refl _⟩
  dsimp only
  have hroot : RatiosInRange ({ layout with focus := paneId } : TileLayout).root := h.ratios
  have hborrowed := resizeFocused_eq hroot nav hdelta area
  obtain heq | ⟨path, ratio, hratio, heq⟩ := hborrowed
  · rw [heq]
    exact ⟨h, fun _ => rfl, .refl _⟩
  · rw [heq]
    refine ⟨h.setRatioAt path hratio, fun hfail => ?_, ?_⟩
    · have hsame := eq_of_ratiosDiffer_false
        (fun entry => inRange_of_mem_splitRatios h.ratios) (by simpa [Answer.failed] using hfail)
      have hnode : (setRatioAtNode _ layout.root path).1 = layout.root :=
        setRatioAtNode_of_splitRatios hsame
      show { layout with root := (setRatioAtNode _ layout.root path).1 } = layout
      rw [hnode]
    · show (layout.setRatioAt path ratio).1.paneIds.Perm layout.paneIds
      rw [paneIds_setRatioAt]

/-! ### The run -/

/-- One call on a coherent layout: it does not panic and meets its specification. -/
theorem step_spec (h : Coherent layout) {op : Op} (hop : Admissible layout op) :
    ∃ after answer, layout.step op = some (after, answer) ∧
      StepSpec layout op after answer := by
  cases op with
  | splitPane target direction ratio newId =>
    exact ⟨_, _, rfl, splitPane_spec h target direction ratio hop⟩
  | insertPaneNear target moved direction ratio focus =>
    exact ⟨_, _, rfl, insertPaneNear_spec h target moved direction ratio focus⟩
  | closePane id =>
    obtain ⟨after, ok, heq, hspec⟩ := closePane_spec h id
    exact ⟨after, .flag ok, by simp [TileLayout.step, heq], hspec⟩
  | closeFocused =>
    obtain ⟨after, ok, heq, hspec⟩ := closeFocused_spec h
    exact ⟨after, .flag ok, by simp [TileLayout.step, heq], hspec⟩
  | focusPane id => exact ⟨_, _, rfl, focusPane_spec h id⟩
  | swapPanes first second => exact ⟨_, _, rfl, swapPanes_spec h first second⟩
  | setRatioAt path ratio => exact ⟨_, _, rfl, setRatioAt_spec h path hop⟩
  | resizeFocused nav delta area => exact ⟨_, _, rfl, resizeFocused_spec h nav hop area⟩
  | resizePane paneId nav delta area =>
    exact ⟨_, _, rfl, resizePane_spec h paneId nav hop area⟩

/-- Every reachable layout is coherent, and in it every admissible call meets its
specification: the next layout is coherent, a refused call changes nothing, a successful
split or insertion adds one leaf and a successful close removes one. -/
theorem reachable_coherent {layout : TileLayout}
    (h : Reachable Start Admissible TileLayout.step layout) :
    Coherent layout ∧ ∀ op, Admissible layout op →
      ∃ after answer, layout.step op = some (after, answer) ∧
        StepSpec layout op after answer := by
  have hcoherent : Coherent layout := by
    refine h.invariant _ (fun _ => Start.coherent) (fun s op t answer hop hstep hs => ?_)
    obtain ⟨after, answer', heq, hspec⟩ := step_spec hs hop
    rw [hstep] at heq
    cases heq
    exact hspec.coherent
  exact ⟨hcoherent, fun op => step_spec hcoherent⟩

/-- A layout with two panes, after a split of the first. -/
theorem reachable_coherent_split :
    Coherent ((TileLayout.new ⟨1⟩).splitPane ⟨1⟩ .horizontal halfRatio ⟨2⟩).1 := by
  refine (reachable_coherent (.next (.splitPane ⟨1⟩ .horizontal halfRatio ⟨2⟩)
    (.start (.inl ⟨⟨1⟩, rfl⟩)) ?_ rfl)).1
  show (⟨2⟩ : PaneId) ∉ [⟨1⟩]
  decide

/-- A NaN is neither below nor above the bounds, so the clamp of `setRatioAt` writes it to
the tree: a split ratio outside the range, two calls after `new`. -/
theorem not_coherent_of_nan_ratio :
    ∃ layout, Reachable Start FreshIds TileLayout.step layout ∧ ¬ RatiosInRange layout.root := by
  refine ⟨_, .next (.setRatioAt [] .nan)
    (.next (.splitPane ⟨1⟩ .horizontal halfRatio ⟨2⟩) (.start (.inl ⟨⟨1⟩, rfl⟩)) ?_ rfl)
    trivial rfl, ?_⟩
  · show (⟨2⟩ : PaneId) ∉ [⟨1⟩]
    decide
  · intro h
    have hratio : InRange (F32.nan.clamp minRatio maxRatio) := h.1
    rw [F32.clamp_nan] at hratio
    exact hratio

end Herden.Proofs.Layout
