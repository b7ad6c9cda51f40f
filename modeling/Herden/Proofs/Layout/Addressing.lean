import Mathlib.Data.List.Forall2
import Herden.Proofs.Layout.Tiling
import Herden.Proofs.Layout.Prediction

/-!
# `Herden.Proofs.Layout.Addressing`: a path names one split, and moves what is under it

`leaves` is the walk of `collect_panes` with the path of each leaf, so that panes and splits have
addresses in one tree: a split is an ancestor of the leaves whose path extends its own. Then
`set_ratio_at` writes one entry of `split_ratios` (`splitRatios_setRatioAtNode`) and moves only
leaves under the split (`leaves_setRatioAtNode`). Where no first child is cut longer than the
length it is cut from (`NeverOverlong`), these leaves lie inside the split's area.
-/

namespace Herden.Proofs.Layout

open Herden.Lib (F32)
open Herden.Runtime.Layout

/-! ### Paths -/

variable {path pos : List Bool} {branch : Bool} {root : Node} {area : Rect} {split : SplitBorder}
  {ratio : F32}

/-- Two paths that part at the same place have no common extension. -/
theorem not_both_isPrefix (hfirst : pos ++ [false] <+: path) (hsecond : pos ++ [true] <+: path) :
    False := by
  obtain ⟨rest, hrest⟩ := hfirst
  obtain ⟨rest', hrest'⟩ := hsecond
  rw [← hrest', List.append_assoc, List.append_assoc, List.append_cancel_left_eq] at hrest
  cases hrest

theorem not_prefix_of_append_singleton (h : pos ++ [branch] <+: path) : path ≠ pos := by
  intro heq
  have hlength := h.length_le
  rw [heq, List.length_append] at hlength
  simp at hlength

theorem prefix_of_append_singleton (h : pos ++ [branch] <+: path) : pos <+: path :=
  (List.prefix_append pos [branch]).trans h

/-- The paths of the splits do not depend on the area. -/
theorem map_path_collectSplits (area : Rect) (pos : List Bool) (root : Node) :
    (collectSplits area pos root).map (·.path) = (splitRatios pos root).map (·.1) := by
  induction root generalizing area pos with
  | pane id => rfl
  | split direction ratio first second ihFirst ihSecond =>
    simp only [collectSplits, splitRatios, List.map_cons, List.map_append, ihFirst, ihSecond]

theorem prefix_of_mem_splitRatios {entry : List Bool × F32} (h : entry ∈ splitRatios pos root) :
    pos <+: entry.1 := by
  induction root generalizing pos with
  | pane id => cases h
  | split direction ratio first second ihFirst ihSecond =>
    simp only [splitRatios, List.mem_cons, List.mem_append] at h
    obtain rfl | h | h := h
    · exact List.prefix_rfl
    · exact prefix_of_append_singleton (ihFirst h)
    · exact prefix_of_append_singleton (ihSecond h)

theorem prefix_of_mem_collectSplits (h : split ∈ collectSplits area pos root) :
    pos <+: split.path := by
  have hmem : split.path ∈ (splitRatios pos root).map (·.1) := by
    rw [← map_path_collectSplits area]
    exact List.mem_map_of_mem h
  obtain ⟨entry, hentry, hpath⟩ := List.mem_map.mp hmem
  rw [← hpath]
  exact prefix_of_mem_splitRatios hentry

/-- Preorder: no split comes behind one that it is an ancestor of, and no two have one path. -/
theorem pairwise_splitRatios (pos : List Bool) (root : Node) :
    ((splitRatios pos root).map (·.1)).Pairwise (fun a b => ¬ b <+: a) := by
  induction root generalizing pos with
  | pane id => exact List.Pairwise.nil
  | split direction ratio first second ihFirst ihSecond =>
    rw [splitRatios, List.map_cons, List.map_append, List.pairwise_cons, List.pairwise_append]
    refine ⟨?_, ihFirst _, ihSecond _, ?_⟩
    · intro path hpath
      have hbelow : ∃ branch, pos ++ [branch] <+: path := by
        rcases List.mem_append.mp hpath with hmem | hmem
        · obtain ⟨entry, hentry, rfl⟩ := List.mem_map.mp hmem
          exact ⟨false, prefix_of_mem_splitRatios hentry⟩
        · obtain ⟨entry, hentry, rfl⟩ := List.mem_map.mp hmem
          exact ⟨true, prefix_of_mem_splitRatios hentry⟩
      obtain ⟨branch, hbranch⟩ := hbelow
      intro hfront
      exact not_prefix_of_append_singleton (hbranch.trans hfront) rfl
    · intro path hpath path' hpath' hfront
      obtain ⟨entry, hentry, rfl⟩ := List.mem_map.mp hpath
      obtain ⟨entry', hentry', rfl⟩ := List.mem_map.mp hpath'
      exact not_both_isPrefix (prefix_of_mem_splitRatios hentry)
        ((prefix_of_mem_splitRatios hentry').trans hfront)

theorem nodup_path_splits (layout : TileLayout) (area : Rect) :
    ((layout.splits area).map (·.path)).Nodup := by
  rw [TileLayout.splits, map_path_collectSplits]
  refine (pairwise_splitRatios [] layout.root).imp fun {a b} hfront heq => hfront ?_
  rw [heq]

/-! ### Writing a ratio -/

/-- The list of ratios with another one at `path`. -/
def withRatio (path : List Bool) (ratio : F32) (ratios : List (List Bool × F32)) :
    List (List Bool × F32) :=
  ratios.map fun entry => if entry.1 = path then (path, ratio) else entry

theorem withRatio_of_notMem {ratios : List (List Bool × F32)}
    (h : ∀ entry ∈ ratios, entry.1 ≠ path) : withRatio path ratio ratios = ratios := by
  rw [withRatio]
  exact (List.map_congr_left fun entry hentry => if_neg (h entry hentry)).trans
    (List.map_id ratios)

/-- A write at a path under one child leaves the ratios of the other child. -/
theorem withRatio_other (ratio : F32) (node : Node) (h : pos ++ [branch] <+: path) :
    withRatio path ratio (splitRatios (pos ++ [!branch]) node) =
      splitRatios (pos ++ [!branch]) node := by
  refine withRatio_of_notMem fun entry hentry heq => ?_
  have hentryPrefix := prefix_of_mem_splitRatios hentry
  rw [heq] at hentryPrefix
  cases branch with
  | false => exact not_both_isPrefix h hentryPrefix
  | true => exact not_both_isPrefix hentryPrefix h

theorem append_cons_eq (pos rest : List Bool) (branch : Bool) :
    pos ++ branch :: rest = pos ++ [branch] ++ rest := by
  rw [List.append_assoc, List.singleton_append]

/-- Writing a ratio in the tree is writing the entry of its path. -/
theorem splitRatios_setRatioAtNode (ratio : F32) (root : Node) (pos path : List Bool) :
    splitRatios pos (setRatioAtNode ratio root path).1 =
      withRatio (pos ++ path) ratio (splitRatios pos root) := by
  induction root generalizing pos path with
  | pane id => rfl
  | split direction old first second ihFirst ihSecond =>
    match path with
    | [] =>
      have hbelow : ∀ branch node, withRatio pos ratio (splitRatios (pos ++ [branch]) node) =
          splitRatios (pos ++ [branch]) node := fun branch node =>
        withRatio_of_notMem fun entry hentry =>
          not_prefix_of_append_singleton (prefix_of_mem_splitRatios hentry)
      rw [List.append_nil]
      simp only [setRatioAtNode, splitRatios, withRatio, List.map_cons, List.map_append,
        if_true]
      have hfirst := hbelow false first
      have hsecond := hbelow true second
      rw [withRatio] at hfirst hsecond
      rw [hfirst, hsecond]
    | true :: rest =>
      have hne : ¬ pos = pos ++ true :: rest := by simp
      have hother := withRatio_other ratio first
        (List.prefix_append (pos ++ [true]) rest)
      have hwrite := ihSecond (pos ++ [true]) rest
      rw [← append_cons_eq] at hother hwrite
      simp only [setRatioAtNode, splitRatios]
      rw [hwrite]
      simp only [withRatio, List.map_cons, List.map_append, if_neg hne]
      rw [withRatio] at hother
      simp only [Bool.not_true] at hother
      rw [hother]
    | false :: rest =>
      have hne : ¬ pos = pos ++ false :: rest := by simp
      have hother := withRatio_other ratio second
        (List.prefix_append (pos ++ [false]) rest)
      have hwrite := ihFirst (pos ++ [false]) rest
      rw [← append_cons_eq] at hother hwrite
      simp only [setRatioAtNode, splitRatios]
      rw [hwrite]
      simp only [withRatio, List.map_cons, List.map_append, if_neg hne]
      rw [withRatio] at hother
      simp only [Bool.not_false] at hother
      rw [hother]

/-- The write succeeds exactly at the path of a split. -/
theorem setRatioAtNode_snd_iff (ratio : F32) (root : Node) (pos path : List Bool) :
    (setRatioAtNode ratio root path).2 = true ↔
      pos ++ path ∈ (splitRatios pos root).map (·.1) := by
  induction root generalizing pos path with
  | pane id => simp [setRatioAtNode, splitRatios]
  | split direction old first second ihFirst ihSecond =>
    cases path with
    | nil => simp [setRatioAtNode, splitRatios]
    | cons step rest =>
      cases step with
      | true =>
        have hnot : pos ++ true :: rest ∉ (splitRatios (pos ++ [false]) first).map (·.1) := by
          intro hmem
          obtain ⟨entry, hentry, hpath⟩ := List.mem_map.mp hmem
          have hfront := prefix_of_mem_splitRatios hentry
          rw [hpath] at hfront
          exact not_both_isPrefix hfront ⟨rest, (append_cons_eq pos rest true).symm⟩
        show (setRatioAtNode ratio second rest).2 = true ↔ _
        rw [ihSecond (pos ++ [true]) rest, ← append_cons_eq, splitRatios, List.map_cons,
          List.map_append, List.mem_cons, List.mem_append]
        simp [hnot]
      | false =>
        have hnot : pos ++ false :: rest ∉ (splitRatios (pos ++ [true]) second).map (·.1) := by
          intro hmem
          obtain ⟨entry, hentry, hpath⟩ := List.mem_map.mp hmem
          have hfront := prefix_of_mem_splitRatios hentry
          rw [hpath] at hfront
          exact not_both_isPrefix ⟨rest, (append_cons_eq pos rest false).symm⟩ hfront
        show (setRatioAtNode ratio first rest).2 = true ↔ _
        rw [ihFirst (pos ++ [false]) rest, ← append_cons_eq, splitRatios, List.map_cons,
          List.map_append, List.mem_cons, List.mem_append]
        simp [hnot]

/-! ### Leaves with their addresses -/

/-- A leaf with its path and the rectangle that the walk gives it. -/
structure Leaf where
  path : List Bool
  id : PaneId
  rect : Rect

/-- The leaves in leaf order. -/
def leaves (area : Rect) (pos : List Bool) : Node → List Leaf
  | .pane id => [⟨pos, id, area⟩]
  | .split direction ratio first second =>
      let rects := splitRect area direction ratio
      leaves rects.1 (pos ++ [false]) first ++ leaves rects.2 (pos ++ [true]) second

/-- The panes are the leaves, one for one. -/
theorem collectPanes_eq_map_leaves (area : Rect) (focus : PaneId) (pos : List Bool)
    (root : Node) :
    collectPanes area focus root =
      (leaves area pos root).map (fun leaf => leafInfo leaf.rect focus leaf.id) := by
  induction root generalizing area pos with
  | pane id => rfl
  | split direction ratio first second ihFirst ihSecond =>
    rw [leaves, List.map_append, ← ihFirst, ← ihSecond]
    rfl

variable {leaf : Leaf}

theorem prefix_of_mem_leaves (h : leaf ∈ leaves area pos root) : pos <+: leaf.path := by
  induction root generalizing area pos with
  | pane id =>
    rw [leaves, List.mem_singleton] at h
    rw [h]
  | split direction ratio first second ihFirst ihSecond =>
    rcases List.mem_append.mp h with hmem | hmem
    · exact prefix_of_append_singleton (ihFirst hmem)
    · exact prefix_of_append_singleton (ihSecond hmem)

/-- One leaf before and after a write at `path`: its rectangle changes only under that path. -/
def MovedUnder (path : List Bool) (before after : Leaf) : Prop :=
  after.path = before.path ∧ after.id = before.id ∧
    (after.rect ≠ before.rect → path <+: before.path)

theorem movedUnder_refl (path : List Bool) (all : List Leaf) :
    List.Forall₂ (MovedUnder path) all all :=
  List.forall₂_same.mpr fun _ _ => ⟨rfl, rfl, fun h => absurd rfl h⟩

/-- In another area the leaves keep their paths and ids. -/
theorem leaves_area (h : path <+: pos) (before after : Rect) (root : Node) :
    List.Forall₂ (MovedUnder path) (leaves before pos root) (leaves after pos root) := by
  induction root generalizing before after pos with
  | pane id => exact List.Forall₂.cons ⟨rfl, rfl, fun _ => h⟩ List.Forall₂.nil
  | split direction ratio first second ihFirst ihSecond =>
    exact List.rel_append (ihFirst (h.trans (List.prefix_append _ _)) _ _)
      (ihSecond (h.trans (List.prefix_append _ _)) _ _)

/-- A write moves only the leaves under its path. -/
theorem leaves_setRatioAtNode (ratio : F32) (area : Rect) (root : Node) (pos path : List Bool) :
    List.Forall₂ (MovedUnder (pos ++ path)) (leaves area pos root)
      (leaves area pos (setRatioAtNode ratio root path).1) := by
  induction root generalizing area pos path with
  | pane id => exact movedUnder_refl _ _
  | split direction old first second ihFirst ihSecond =>
    match path with
    | [] =>
      rw [List.append_nil]
      exact List.rel_append (leaves_area (List.prefix_append pos _) _ _ first)
        (leaves_area (List.prefix_append pos _) _ _ second)
    | true :: rest =>
      have hwrite := ihSecond (splitRect area direction old).2 (pos ++ [true]) rest
      rw [← append_cons_eq] at hwrite
      exact List.rel_append (movedUnder_refl _ _) hwrite
    | false :: rest =>
      have hwrite := ihFirst (splitRect area direction old).1 (pos ++ [false]) rest
      rw [← append_cons_eq] at hwrite
      exact List.rel_append hwrite (movedUnder_refl _ _)

/-! ### Areas -/

/-- No ratio of the tree cuts a first child longer than the length it is cut from. -/
def NeverOverlong : Node → Prop
  | .pane _ => True
  | .split _ ratio first second =>
      (∀ total, roundedLength total ratio ≤ total) ∧ NeverOverlong first ∧ NeverOverlong second

/-- A clamped ratio is in range or NaN, and NaN cuts nothing off. -/
theorem roundedLength_clamp_le (ratio : F32) (total : UInt16) :
    roundedLength total (ratio.clamp minRatio maxRatio) ≤ total := by
  cases hnan : ratio.isNan with
  | false => exact roundedLength_le (inRange_clamp hnan) total
  | true =>
    cases ratio with
    | nan =>
      have hzero : roundedLength total F32.nan = 0 := by
        rw [roundedLength]
        cases F32.ofRat total.toNat <;> rfl
      rw [F32.clamp_nan, hzero]
      exact UInt16.zero_le
    | inf negative => cases hnan
    | num q => cases hnan

theorem neverOverlong_setRatioAtNode (hratio : ∀ total, roundedLength total ratio ≤ total)
    (h : NeverOverlong root) (path : List Bool) :
    NeverOverlong (setRatioAtNode ratio root path).1 := by
  induction root generalizing path with
  | pane id => trivial
  | split direction old first second ihFirst ihSecond =>
    obtain ⟨hold, hfirst, hsecond⟩ := h
    match path with
    | [] => exact ⟨hratio, hfirst, hsecond⟩
    | true :: rest => exact ⟨hold, hfirst, ihSecond hsecond rest⟩
    | false :: rest => exact ⟨hold, ihFirst hfirst rest, hsecond⟩

theorem splitRect_halves (hfits : Fits area) (direction : Direction)
    (h : ∀ total, roundedLength total ratio ≤ total) :
    Halves area (splitRect area direction ratio).1 (splitRect area direction ratio).2 := by
  rw [← splitRectAt_roundedLength]
  exact splitRectAt_halves hfits direction h

theorem leaves_inside (hfits : Fits area) (h : NeverOverlong root)
    (hleaf : leaf ∈ leaves area pos root) : Inside leaf.rect area := by
  induction root generalizing area pos with
  | pane id =>
    rw [leaves, List.mem_singleton] at hleaf
    rw [hleaf]
    exact .refl area
  | split direction ratio first second ihFirst ihSecond =>
    obtain ⟨hratio, hfirst, hsecond⟩ := h
    have hhalves := splitRect_halves hfits direction hratio
    rcases List.mem_append.mp hleaf with hmem | hmem
    · exact (ihFirst (hhalves.first_inside.fits hfits) hfirst hmem).trans hhalves.first_inside
    · exact (ihSecond (hhalves.second_inside.fits hfits) hsecond hmem).trans
        hhalves.second_inside

/-- A leaf under a split lies inside its area. -/
theorem leaf_inside_split (hfits : Fits area) (h : NeverOverlong root)
    (hleaf : leaf ∈ leaves area pos root) (hsplit : split ∈ collectSplits area pos root)
    (hunder : split.path <+: leaf.path) : Inside leaf.rect split.area := by
  induction root generalizing area pos with
  | pane id => cases hsplit
  | split direction ratio first second ihFirst ihSecond =>
    have hwhole := leaves_inside hfits h hleaf
    obtain ⟨hratio, hfirst, hsecond⟩ := h
    have hhalves := splitRect_halves hfits direction hratio
    rcases List.mem_cons.mp hsplit with rfl | hbelow
    · exact hwhole
    · rcases List.mem_append.mp hbelow with hmem | hmem
      · have hside := (prefix_of_mem_collectSplits hmem).trans hunder
        rcases List.mem_append.mp hleaf with hl | hl
        · exact ihFirst (hhalves.first_inside.fits hfits) hfirst hl hmem
        · exact (not_both_isPrefix hside (prefix_of_mem_leaves hl)).elim
      · have hside := (prefix_of_mem_collectSplits hmem).trans hunder
        rcases List.mem_append.mp hleaf with hl | hl
        · exact (not_both_isPrefix (prefix_of_mem_leaves hl) hside).elim
        · exact ihSecond (hhalves.second_inside.fits hfits) hsecond hl hmem

/-- A split keeps its area when its own ratio is written. -/
theorem area_setRatioAtNode (ratio : F32) (hsplit : split ∈ collectSplits area pos root)
    (hpath : split.path = pos ++ path) :
    ∃ after ∈ collectSplits area pos (setRatioAtNode ratio root path).1,
      after.path = split.path ∧ after.area = split.area := by
  induction root generalizing area pos path with
  | pane id => cases hsplit
  | split direction old first second ihFirst ihSecond =>
    match path with
    | [] =>
      rcases List.mem_cons.mp hsplit with rfl | hbelow
      · exact ⟨_, List.mem_cons_self, rfl, rfl⟩
      · rw [List.append_nil] at hpath
        rcases List.mem_append.mp hbelow with hmem | hmem
        · exact (not_prefix_of_append_singleton (prefix_of_mem_collectSplits hmem) hpath).elim
        · exact (not_prefix_of_append_singleton (prefix_of_mem_collectSplits hmem) hpath).elim
    | true :: rest =>
      rw [append_cons_eq] at hpath
      have hside : pos ++ [true] <+: split.path := ⟨rest, hpath.symm⟩
      rcases List.mem_cons.mp hsplit with rfl | hbelow
      · exact (not_prefix_of_append_singleton hside rfl).elim
      · rcases List.mem_append.mp hbelow with hmem | hmem
        · exact (not_both_isPrefix (prefix_of_mem_collectSplits hmem) hside).elim
        · obtain ⟨after, hafter, hsame⟩ := ihSecond hmem hpath
          exact ⟨after, List.mem_cons_of_mem _ (List.mem_append_right _ hafter), hsame⟩
    | false :: rest =>
      rw [append_cons_eq] at hpath
      have hside : pos ++ [false] <+: split.path := ⟨rest, hpath.symm⟩
      rcases List.mem_cons.mp hsplit with rfl | hbelow
      · exact (not_prefix_of_append_singleton hside rfl).elim
      · rcases List.mem_append.mp hbelow with hmem | hmem
        · obtain ⟨after, hafter, hsame⟩ := ihFirst hmem hpath
          exact ⟨after, List.mem_cons_of_mem _ (List.mem_append_left _ hafter), hsame⟩
        · exact (not_both_isPrefix hside (prefix_of_mem_collectSplits hmem)).elim

/-! ### `set_ratio_at` on a layout -/

/-- The pane at position `k` before and after a write: the same pane, and it moves only under the
path that is written. -/
theorem panes_setRatioAt {layout : TileLayout} {k : Nat} {before after : PaneInfo}
    (hbefore : (layout.panes area)[k]? = some before)
    (hafter : ((layout.setRatioAt path ratio).1.panes area)[k]? = some after) :
    ∃ old ∈ leaves area [] layout.root,
      ∃ new ∈ leaves area [] (layout.setRatioAt path ratio).1.root,
        (leaves area [] layout.root)[k]? = some old ∧ MovedUnder path old new ∧
        before = leafInfo old.rect layout.focus old.id ∧
        after = leafInfo new.rect layout.focus new.id := by
  have hfocus : (layout.setRatioAt path ratio).1.focus = layout.focus := rfl
  rw [TileLayout.panes, collectPanes_eq_map_leaves area _ [], List.getElem?_map,
    Option.map_eq_some_iff] at hbefore hafter
  obtain ⟨old, hold, hbefore⟩ := hbefore
  obtain ⟨new, hnew, hafter⟩ := hafter
  have hmoved := leaves_setRatioAtNode (ratio.clamp minRatio maxRatio) area layout.root [] path
  have hpair : MovedUnder path old new := by
    obtain ⟨hk, hget⟩ := List.getElem?_eq_some_iff.mp hold
    obtain ⟨hk', hget'⟩ := List.getElem?_eq_some_iff.mp hnew
    have hat := (List.forall₂_iff_get.mp hmoved).2 k hk hk'
    rw [List.get_eq_getElem, List.get_eq_getElem, hget] at hat
    exact hget' ▸ hat
  exact ⟨old, List.mem_of_getElem? hold, new, List.mem_of_getElem? hnew, hold, hpair,
    hbefore.symm, by rw [← hafter, hfocus]⟩

end Herden.Proofs.Layout
