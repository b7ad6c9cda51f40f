import Herden.Proofs.Layout.Addressing

/-!
# `Herden.Proofs.Layout.Resize`: the split a resize finds is an ancestor

`nearest_resize_split` looks at borders, not at the tree. It still finds an ancestor of the pane:
where another split passes its tests, the node at which the two addresses part passes them too,
with a border at least as near (`ancestor_dominates`), and it comes first in preorder, so
`min_by_key` prefers it. The argument needs the borders of nested areas to be in order: areas whose
far edges fit in a `u16`, and no ratio that cuts a first child longer than its parent.
`split_addressing_and_resize` puts this beside the statements about paths, which need neither.
-/

namespace Herden.Proofs.Layout

open Herden.Lib (F32)
open Herden.Runtime.Layout

/-! ### `min_by_key` -/

/-- The least element, the first one of its key. -/
theorem minByKey_spec {α : Type} {key : α → Nat} {all : List α} {x : α}
    (h : minByKey key all = some x) :
    ∃ before after, all = before ++ x :: after ∧ (∀ y ∈ before, key x < key y) ∧
      ∀ y ∈ after, key x ≤ key y := by
  have hfold : ∀ (rest : List α) (best : α), ∃ before after,
      best :: rest = before ++ rest.foldl (fun b y => if key y < key b then y else b) best
          :: after ∧
      (∀ y ∈ before, key (rest.foldl (fun b y => if key y < key b then y else b) best) < key y) ∧
      ∀ y ∈ after, key (rest.foldl (fun b y => if key y < key b then y else b) best) ≤ key y := by
    intro rest
    induction rest with
    | nil => exact fun best => ⟨[], [], rfl, nofun, nofun⟩
    | cons y rest ih =>
      intro best
      rw [List.foldl_cons]
      by_cases hlt : key y < key best
      · rw [if_pos hlt]
        obtain ⟨before, after, heq, hbefore, hafter⟩ := ih y
        refine ⟨best :: before, after, by rw [heq, List.cons_append], ?_, hafter⟩
        intro z hz
        rcases List.mem_cons.mp hz with rfl | hmem
        · have hy : y ∈ before ++ _ :: after := heq ▸ List.mem_cons_self
          rcases List.mem_append.mp hy with hb | ha
          · exact (hbefore y hb).trans hlt
          · rcases List.mem_cons.mp ha with hself | ha
            · rw [← hself]
              exact hlt
            · exact (hafter y ha).trans_lt hlt
        · exact hbefore z hmem
      · rw [if_neg hlt]
        obtain ⟨before, after, heq, hbefore, hafter⟩ := ih best
        cases before with
        | nil =>
          obtain ⟨hbest, hrest⟩ := List.cons.inj heq
          refine ⟨[], y :: rest, by rw [← hbest]; rfl, nofun, ?_⟩
          intro z hz
          rw [← hbest]
          rcases List.mem_cons.mp hz with rfl | hmem
          · exact Nat.le_of_not_lt hlt
          · rw [hbest]
            exact hafter z (hrest ▸ hmem)
        | cons b before =>
          obtain ⟨rfl, hrest⟩ := List.cons.inj heq
          refine ⟨best :: y :: before, after, congrArg (best :: y :: ·) hrest, ?_, hafter⟩
          intro z hz
          have hbest := hbefore best List.mem_cons_self
          rcases List.mem_cons.mp hz with rfl | hz
          · exact hbest
          · rcases List.mem_cons.mp hz with rfl | hmem
            · exact hbest.trans_le (Nat.le_of_not_lt hlt)
            · exact hbefore z (List.mem_cons_of_mem _ hmem)
  cases all with
  | nil => cases h
  | cons best rest =>
    obtain ⟨before, after, heq, hbefore, hafter⟩ := hfold rest best
    have hx := Option.some.inj h
    rw [hx] at heq hbefore hafter
    exact ⟨before, after, heq, hbefore, hafter⟩

/-! ### Borders -/

/-- The orientation of the splits that a resize looks for. -/
def targetDirection : NavDirection → Direction
  | .left | .right => .horizontal
  | .up | .down => .vertical

theorem targetDirection_opposite (nav : NavDirection) :
    targetDirection (oppositeDirection nav) = targetDirection nav := by
  cases nav <;> rfl

/-- Where the border of a split lies: not before its first child ends, not after its second one
starts, within its area. -/
structure Border (area first second : Rect) (direction : Direction) (pos : UInt16) : Prop where
  horizontal : direction = .horizontal →
    first.x.toNat + first.width.toNat ≤ pos.toNat ∧ pos.toNat ≤ second.x.toNat ∧
      area.x.toNat ≤ pos.toNat ∧ pos.toNat ≤ area.x.toNat + area.width.toNat
  vertical : direction = .vertical →
    first.y.toNat + first.height.toNat ≤ pos.toNat ∧ pos.toNat ≤ second.y.toNat ∧
      area.y.toNat ≤ pos.toNat ∧ pos.toNat ≤ area.y.toNat + area.height.toNat

/-- `pos` of `collect_splits`. -/
def borderPos (direction : Direction) (first : Rect) : UInt16 :=
  match direction with
  | .horizontal => first.x + first.width
  | .vertical => first.y + first.height

variable {area : Rect} {split : SplitBorder} {nav : NavDirection}

theorem splitRect_border (hfits : Fits area) (direction : Direction) {ratio : F32}
    (h : ∀ total, roundedLength total ratio ≤ total) :
    Border area (splitRect area direction ratio).1 (splitRect area direction ratio).2 direction
      (borderPos direction (splitRect area direction ratio).1) := by
  obtain ⟨hx, hy⟩ := hfits
  rw [← splitRectAt_roundedLength]
  cases direction with
  | horizontal =>
    refine ⟨fun _ => ?_, fun hother => (by cases hother)⟩
    have hle := UInt16.le_iff_toNat_le.mp (h area.width)
    obtain ⟨hfirst, hmiddle, -⟩ := cut_spec (h area.width) hx
    have hpos : (area.x + (saturatingAdd area.x (roundedLength area.width ratio) - area.x)).toNat =
        area.x.toNat + (roundedLength area.width ratio).toNat := by
      rw [UInt16.toNat_add, hfirst, Nat.mod_eq_of_lt (by omega)]
    simp only [borderPos, splitRectAt, Rect.new, hpos, hfirst, hmiddle]
    omega
  | vertical =>
    refine ⟨fun hother => (by cases hother), fun _ => ?_⟩
    have hle := UInt16.le_iff_toNat_le.mp (h area.height)
    obtain ⟨hfirst, hmiddle, -⟩ := cut_spec (h area.height) hy
    have hpos : (area.y + (saturatingAdd area.y (roundedLength area.height ratio) - area.y)).toNat =
        area.y.toNat + (roundedLength area.height ratio).toNat := by
      rw [UInt16.toNat_add, hfirst, Nat.mod_eq_of_lt (by omega)]
    simp only [borderPos, splitRectAt, Rect.new, hpos, hfirst, hmiddle]
    omega

variable {pos : List Bool} {root : Node} {direction : Direction} {leaf : Leaf} {layout : TileLayout}

/-- A split lies inside the area of the walk, with its border inside its own area. -/
theorem split_inside (hfits : Fits area) (h : NeverOverlong root)
    (hsplit : split ∈ collectSplits area pos root) : Inside split.area area ∧
      (split.direction = .horizontal → split.area.x.toNat ≤ split.pos.toNat ∧
        split.pos.toNat ≤ split.area.x.toNat + split.area.width.toNat) ∧
      (split.direction = .vertical → split.area.y.toNat ≤ split.pos.toNat ∧
        split.pos.toNat ≤ split.area.y.toNat + split.area.height.toNat) := by
  induction root generalizing area pos with
  | pane id => cases hsplit
  | split direction ratio first second ihFirst ihSecond =>
    obtain ⟨hratio, hfirst, hsecond⟩ := h
    have hhalves := splitRect_halves hfits direction hratio
    rcases List.mem_cons.mp hsplit with rfl | hbelow
    · have hborder := splitRect_border hfits direction hratio
      refine ⟨.refl area, fun hdir => ?_, fun hdir => ?_⟩
      · exact (hborder.horizontal hdir).2.2
      · exact (hborder.vertical hdir).2.2
    · rcases List.mem_append.mp hbelow with hmem | hmem
      · obtain ⟨hinside, hpos⟩ := ihFirst (hhalves.first_inside.fits hfits) hfirst hmem
        exact ⟨hinside.trans hhalves.first_inside, hpos⟩
      · obtain ⟨hinside, hpos⟩ := ihSecond (hhalves.second_inside.fits hfits) hsecond hmem
        exact ⟨hinside.trans hhalves.second_inside, hpos⟩

/-- Two ranges that end within a `u16` overlap when each starts before the other one ends. -/
theorem rangesOverlap_iff {aStart aLen bStart bLen : UInt16}
    (ha : aStart.toNat + aLen.toNat < 2 ^ 16) (hb : bStart.toNat + bLen.toNat < 2 ^ 16) :
    rangesOverlap aStart aLen bStart bLen = true ↔
      aStart.toNat < bStart.toNat + bLen.toNat ∧ bStart.toNat < aStart.toNat + aLen.toNat := by
  rw [rangesOverlap, Bool.and_eq_true, decide_eq_true_iff, decide_eq_true_iff, gt_iff_lt,
    UInt16.lt_iff_toNat_lt, UInt16.lt_iff_toNat_lt, UInt16.toNat_add, UInt16.toNat_add,
    Nat.mod_eq_of_lt hb, Nat.mod_eq_of_lt ha]

/-! ### The parting node -/

/-- A split passes the tests of `nearest_resize_split`, save the nearness. -/
structure Candidate (nav : NavDirection) (focused : Rect) (split : SplitBorder) : Prop where
  direction : split.direction = targetDirection nav
  overlaps : splitAreaOverlapsFocusedPane split focused nav = true

/-- Two parts of an area on either side of the border of its split: the split of the area is a
candidate for one part where a split of the other part is, with a border no farther away. -/
theorem border_dominates {first second near far : Rect} {pos : UInt16} (hfits : Fits area)
    (hborder : Border area first second direction pos)
    (hsides : Inside near first ∧ Inside far second ∨ Inside near second ∧ Inside far first)
    (hfirst : Inside first area) (hsecond : Inside second area) (hfar : Inside split.area far)
    (hhorizontal : split.direction = .horizontal → split.area.x.toNat ≤ split.pos.toNat ∧
      split.pos.toNat ≤ split.area.x.toNat + split.area.width.toNat)
    (hvertical : split.direction = .vertical → split.area.y.toNat ≤ split.pos.toNat ∧
      split.pos.toNat ≤ split.area.y.toNat + split.area.height.toNat)
    (hsplit : Candidate nav near split) (node : SplitBorder) (hnodeArea : node.area = area)
    (hnodePos : node.pos = pos) (hnodeDirection : node.direction = direction) :
    Candidate nav near node ∧
      splitEdgeDistance node near nav ≤ splitEdgeDistance split near nav := by
  obtain ⟨hdir, hoverlap⟩ := hsplit
  have hnearArea : Inside near area := by
    rcases hsides with h | h
    · exact h.1.trans hfirst
    · exact h.1.trans hsecond
  have hfarArea : Inside split.area area := by
    rcases hsides with h | h
    · exact hfar.trans (h.2.trans hsecond)
    · exact hfar.trans (h.2.trans hfirst)
  have hnearFits := hnearArea.fits hfits
  have hsplitFits := hfarArea.fits hfits
  have hright : (near.x + near.width).toNat = near.x.toNat + near.width.toNat := by
    rw [UInt16.toNat_add, Nat.mod_eq_of_lt hnearFits.1]
  have hbottom : (near.y + near.height).toNat = near.y.toNat + near.height.toNat := by
    rw [UInt16.toNat_add, Nat.mod_eq_of_lt hnearFits.2]
  obtain ⟨hn1, hn2, hn3, hn4⟩ := hnearArea
  obtain ⟨hf1, hf2, hf3, hf4⟩ := hfarArea
  have hrows : nav = .left ∨ nav = .right → direction = .horizontal := by
    intro hnav
    cases direction with
    | horizontal => rfl
    | vertical =>
      exfalso
      have hover : rangesOverlap split.area.y split.area.height near.y near.height = true := by
        rcases hnav with rfl | rfl <;> exact hoverlap
      rw [rangesOverlap_iff hsplitFits.2 hnearFits.2] at hover
      have hb := hborder.vertical rfl
      rcases hsides with ⟨h1, h2⟩ | ⟨h1, h2⟩
      · have := h1.bottom
        have := (hfar.trans h2).top
        omega
      · have := h1.top
        have := (hfar.trans h2).bottom
        omega
  have hcolumns : nav = .up ∨ nav = .down → direction = .vertical := by
    intro hnav
    cases direction with
    | vertical => rfl
    | horizontal =>
      exfalso
      have hover : rangesOverlap split.area.x split.area.width near.x near.width = true := by
        rcases hnav with rfl | rfl <;> exact hoverlap
      rw [rangesOverlap_iff hsplitFits.1 hnearFits.1] at hover
      have hb := hborder.horizontal rfl
      rcases hsides with ⟨h1, h2⟩ | ⟨h1, h2⟩
      · have := h1.right
        have := (hfar.trans h2).left
        omega
      · have := h1.left
        have := (hfar.trans h2).right
        omega
  subst hnodeArea hnodePos hnodeDirection
  have hdistance : ∀ edge : UInt16, (node.direction = .horizontal ∧ near.x.toNat ≤ edge.toNat ∧
      edge.toNat ≤ near.x.toNat + near.width.toNat ∧ split.direction = .horizontal) ∨
      (node.direction = .vertical ∧ near.y.toNat ≤ edge.toNat ∧
      edge.toNat ≤ near.y.toNat + near.height.toNat ∧ split.direction = .vertical) →
      absDistance node.pos edge ≤ absDistance split.pos edge := by
    rintro edge (⟨hd, hlow, hhigh, hsd⟩ | ⟨hd, hlow, hhigh, hsd⟩)
    · have hb := hborder.horizontal hd
      have hs := hhorizontal hsd
      unfold absDistance
      rcases hsides with ⟨h1, h2⟩ | ⟨h1, h2⟩
      · have := h1.right
        have := (hfar.trans h2).left
        omega
      · have := h1.left
        have := (hfar.trans h2).right
        omega
    · have hb := hborder.vertical hd
      have hs := hvertical hsd
      unfold absDistance
      rcases hsides with ⟨h1, h2⟩ | ⟨h1, h2⟩
      · have := h1.bottom
        have := (hfar.trans h2).top
        omega
      · have := h1.top
        have := (hfar.trans h2).bottom
        omega
  have hrowsOverlap : rangesOverlap split.area.y split.area.height near.y near.height = true →
      rangesOverlap node.area.y node.area.height near.y near.height = true := by
    intro hover
    rw [rangesOverlap_iff hsplitFits.2 hnearFits.2] at hover
    rw [rangesOverlap_iff hfits.2 hnearFits.2]
    omega
  have hcolumnsOverlap : rangesOverlap split.area.x split.area.width near.x near.width = true →
      rangesOverlap node.area.x node.area.width near.x near.width = true := by
    intro hover
    rw [rangesOverlap_iff hsplitFits.1 hnearFits.1] at hover
    rw [rangesOverlap_iff hfits.1 hnearFits.1]
    omega
  cases nav with
  | left =>
    have hd := hrows (.inl rfl)
    exact ⟨⟨hd, hrowsOverlap hoverlap⟩,
      hdistance near.x (.inl ⟨hd, le_rfl, Nat.le_add_right _ _, hdir⟩)⟩
  | right =>
    have hd := hrows (.inr rfl)
    exact ⟨⟨hd, hrowsOverlap hoverlap⟩,
      hdistance (near.x + near.width) (.inl ⟨hd, by omega, by omega, hdir⟩)⟩
  | up =>
    have hd := hcolumns (.inl rfl)
    exact ⟨⟨hd, hcolumnsOverlap hoverlap⟩,
      hdistance near.y (.inr ⟨hd, le_rfl, Nat.le_add_right _ _, hdir⟩)⟩
  | down =>
    have hd := hcolumns (.inr rfl)
    exact ⟨⟨hd, hcolumnsOverlap hoverlap⟩,
      hdistance (near.y + near.height) (.inr ⟨hd, by omega, by omega, hdir⟩)⟩

/-- Where a split that is no ancestor of a leaf is a candidate for it, the node at which their
paths part is one too, and no farther away. -/
theorem ancestor_dominates (hfits : Fits area) (h : NeverOverlong root)
    (hleaf : leaf ∈ leaves area pos root) (hsplit : split ∈ collectSplits area pos root)
    (hcandidate : Candidate nav leaf.rect split) (hnot : ¬ split.path <+: leaf.path) :
    ∃ node ∈ collectSplits area pos root, node.path <+: leaf.path ∧ node.path <+: split.path ∧
      Candidate nav leaf.rect node ∧
      splitEdgeDistance node leaf.rect nav ≤ splitEdgeDistance split leaf.rect nav := by
  induction root generalizing area pos with
  | pane id => cases hsplit
  | split direction ratio first second ihFirst ihSecond =>
    have hall : NeverOverlong (.split direction ratio first second) := h
    obtain ⟨hratio, hfirst, hsecond⟩ := h
    have hhalves := splitRect_halves hfits direction hratio
    have hborder := splitRect_border hfits direction hratio
    have hleafPrefix := prefix_of_mem_leaves hleaf
    have hsplitPrefix := prefix_of_mem_collectSplits hsplit
    rcases List.mem_cons.mp hsplit with rfl | hbelow
    · exact (hnot hleafPrefix).elim
    rcases List.mem_append.mp hbelow with hs | hs <;>
      rcases List.mem_append.mp hleaf with hl | hl
    · obtain ⟨node, hnode, hrest⟩ := ihFirst (hhalves.first_inside.fits hfits) hfirst hl hs
      exact ⟨node, List.mem_cons_of_mem _ (List.mem_append_left _ hnode), hrest⟩
    · have hleafInside := leaves_inside (hhalves.second_inside.fits hfits) hsecond hl
      obtain ⟨hsplitInside, hh, hv⟩ := split_inside (hhalves.first_inside.fits hfits) hfirst hs
      have hdominates := border_dominates hfits hborder
        (.inr ⟨hleafInside, Inside.refl _⟩) hhalves.first_inside hhalves.second_inside
        hsplitInside hh hv hcandidate
        ⟨borderPos direction (splitRect area direction ratio).1, direction, ratio, area, pos⟩
        rfl rfl rfl
      exact ⟨_, List.mem_cons_self, hleafPrefix, hsplitPrefix, hdominates⟩
    · have hleafInside := leaves_inside (hhalves.first_inside.fits hfits) hfirst hl
      obtain ⟨hsplitInside, hh, hv⟩ := split_inside (hhalves.second_inside.fits hfits) hsecond hs
      have hdominates := border_dominates hfits hborder
        (.inl ⟨hleafInside, Inside.refl _⟩) hhalves.first_inside hhalves.second_inside
        hsplitInside hh hv hcandidate
        ⟨borderPos direction (splitRect area direction ratio).1, direction, ratio, area, pos⟩
        rfl rfl rfl
      exact ⟨_, List.mem_cons_self, hleafPrefix, hsplitPrefix, hdominates⟩
    · obtain ⟨node, hnode, hrest⟩ := ihSecond (hhalves.second_inside.fits hfits) hsecond hl hs
      exact ⟨node, List.mem_cons_of_mem _ (List.mem_append_right _ hnode), hrest⟩

/-! ### `nearest_resize_split` -/

/-- The choice is one of the splits, of the requested orientation. -/
theorem mem_of_nearestResizeSplit {splits : List SplitBorder} {focused : Rect}
    (h : nearestResizeSplit splits direction focused nav = some split) :
    split ∈ splits ∧ split.direction = direction := by
  obtain ⟨before, after, heq, -⟩ := minByKey_spec h
  have hmem : split ∈ before ++ split :: after :=
    List.mem_append_right _ List.mem_cons_self
  rw [← heq] at hmem
  have hoverlap := List.mem_of_mem_filter hmem
  have hdirection := List.mem_of_mem_filter hoverlap
  obtain ⟨hsplit, htest⟩ := List.mem_filter.mp hdirection
  exact ⟨hsplit, of_decide_eq_true htest⟩

/-- The splits come in preorder: none behind one that it is an ancestor of. -/
theorem pairwise_splits (layout : TileLayout) (area : Rect) :
    (layout.splits area).Pairwise (fun a b => ¬ b.path <+: a.path) := by
  have hpaths := pairwise_splitRatios [] layout.root
  rw [← map_path_collectSplits area, List.pairwise_map] at hpaths
  exact hpaths

/-- The nearest split of a leaf is an ancestor of it. -/
theorem nearestResizeSplit_ancestor (hfits : Fits area) (h : NeverOverlong layout.root)
    (hleaf : leaf ∈ leaves area [] layout.root)
    (hnearest : nearestResizeSplit (layout.splits area) (targetDirection nav) leaf.rect nav =
      some split) : split.path <+: leaf.path := by
  by_contra hnot
  obtain ⟨hsplit, hdirection⟩ := mem_of_nearestResizeSplit hnearest
  obtain ⟨before, after, heq, hbefore, hafter⟩ := minByKey_spec hnearest
  have hmem : split ∈ before ++ split :: after := List.mem_append_right _ List.mem_cons_self
  rw [← heq] at hmem
  have hedge : splitOnRequestedEdge split leaf.rect nav = true := (List.mem_filter.mp hmem).2
  have hoverlaps : splitAreaOverlapsFocusedPane split leaf.rect nav = true :=
    (List.mem_filter.mp (List.mem_filter.mp hmem).1).2
  obtain ⟨node, hnode, hunder, habove, hcandidate, hnear⟩ :=
    ancestor_dominates hfits h hleaf hsplit ⟨hdirection, hoverlaps⟩ hnot
  have hnodeEdge : splitOnRequestedEdge node leaf.rect nav = true := by
    rw [splitOnRequestedEdge, decide_eq_true_iff] at hedge ⊢
    exact hnear.trans hedge
  have hnodeMem : node ∈ before ++ split :: after := by
    rw [← heq]
    exact List.mem_filter.mpr ⟨List.mem_filter.mpr ⟨List.mem_filter.mpr
      ⟨hnode, decide_eq_true hcandidate.direction⟩, hcandidate.overlaps⟩, hnodeEdge⟩
  rcases List.mem_append.mp hnodeMem with hb | ha
  · exact absurd (hbefore node hb) (Nat.not_lt.mpr hnear)
  · rcases List.mem_cons.mp ha with rfl | ha
    · exact hnot hunder
    · have hordered : (before ++ split :: after).Pairwise (fun a b => ¬ b.path <+: a.path) := by
        rw [← heq]
        exact (((pairwise_splits layout area).filter _).filter _).filter _
      have htail := (List.pairwise_append.mp hordered).2.1
      exact (List.pairwise_cons.mp htail).1 node ha habove

/-! ### `resize_pane` -/

/-- The leaf of a pane in the list of panes. -/
theorem exists_leaf_of_mem_panes {info : PaneInfo} (h : info ∈ layout.panes area) :
    ∃ leaf ∈ leaves area [] layout.root, leaf.rect = info.rect ∧
      (info.isFocused = true → leaf.id = layout.focus) := by
  rw [TileLayout.panes, collectPanes_eq_map_leaves area _ []] at h
  obtain ⟨leaf, hleaf, rfl⟩ := List.mem_map.mp h
  exact ⟨leaf, hleaf, rfl, fun hfocused => of_decide_eq_true hfocused⟩

/-- A resize of the focused pane writes one ratio, of the requested orientation and above the
pane, or nothing. -/
theorem resizeFocused_cases (layout : TileLayout) (nav : NavDirection) (delta : F32)
    (area : Rect) :
    layout.resizeFocused nav delta area = layout ∨
    ∃ split ∈ layout.splits area, ∃ ratio,
      layout.resizeFocused nav delta area = (layout.setRatioAt split.path ratio).1 ∧
      split.direction = targetDirection nav ∧
      (Fits area → NeverOverlong layout.root →
        ∃ leaf ∈ leaves area [] layout.root, leaf.id = layout.focus ∧
          split.path <+: leaf.path) := by
  unfold TileLayout.resizeFocused
  split
  · exact .inl rfl
  next focused hfocused =>
    dsimp only
    split
    · exact .inl rfl
    next split hbest =>
      have hbest : (nearestResizeSplit (layout.splits area) (targetDirection nav) focused.rect
          nav).or (nearestResizeSplit (layout.splits area) (targetDirection nav) focused.rect
          (oppositeDirection nav)) = some split := hbest
      obtain ⟨leaf, hleaf, hrect, hid⟩ :=
        exists_leaf_of_mem_panes (List.mem_of_find?_eq_some hfocused)
      have hleafId := hid (List.find?_some hfocused)
      rcases Option.or_eq_some_iff.mp hbest with hnear | ⟨-, hnear⟩
      · obtain ⟨hsplit, hdirection⟩ := mem_of_nearestResizeSplit hnear
        refine .inr ⟨split, hsplit, _, rfl, hdirection, fun hfits hall =>
          ⟨leaf, hleaf, hleafId, ?_⟩⟩
        rw [← hrect] at hnear
        exact nearestResizeSplit_ancestor hfits hall hleaf hnear
      · obtain ⟨hsplit, hdirection⟩ := mem_of_nearestResizeSplit hnear
        refine .inr ⟨split, hsplit, _, rfl, hdirection, fun hfits hall =>
          ⟨leaf, hleaf, hleafId, ?_⟩⟩
        rw [← hrect, ← targetDirection_opposite nav] at hnear
        exact nearestResizeSplit_ancestor hfits hall hleaf hnear

/-- What `resize_pane` does: it leaves the leaves and the focus, and writes at most one ratio, of
the requested orientation and above the pane. -/
structure ResizesOne (layout : TileLayout) (area : Rect) (paneId : PaneId) (nav : NavDirection)
    (after : TileLayout) : Prop where
  paneIds : after.paneIds = layout.paneIds
  focus : after.focus = layout.focus
  prevFocus : after.prevFocus = layout.prevFocus
  ratios : splitRatios [] after.root = splitRatios [] layout.root ∨
    ∃ split ∈ layout.splits area, ∃ ratio,
      splitRatios [] after.root = withRatio split.path ratio (splitRatios [] layout.root) ∧
      split.direction = targetDirection nav ∧
      (Fits area → NeverOverlong layout.root →
        ∃ leaf ∈ leaves area [] layout.root, leaf.id = paneId ∧ split.path <+: leaf.path)

theorem resizePane_resizesOne (layout : TileLayout) (area : Rect) (paneId : PaneId)
    (nav : NavDirection) (delta : F32) :
    ResizesOne layout area paneId nav (layout.resizePane paneId nav delta area).1 := by
  unfold TileLayout.resizePane
  split
  · exact ⟨rfl, rfl, rfl, .inl rfl⟩
  · dsimp only
    obtain heq | ⟨split, hsplit, ratio, heq, hdirection, habove⟩ :=
      resizeFocused_cases { layout with focus := paneId } nav delta area
    · rw [heq]
      exact ⟨rfl, rfl, rfl, .inl rfl⟩
    · rw [heq]
      refine ⟨?_, rfl, rfl, .inr ⟨split, hsplit, ratio.clamp minRatio maxRatio, ?_, hdirection,
        habove⟩⟩
      · exact collectIds_setRatioAtNode _ _ _
      · exact splitRatios_setRatioAtNode _ layout.root [] split.path

/-- The paths of the splits address them: `set_ratio_at` writes the ratio at its path and moves
panes inside that split's area, `resize_pane` writes at most one ratio, above its pane. Only the
areas and the ancestor need an area that fits and first children within their lengths. -/
theorem split_addressing_and_resize (layout : TileLayout) (area : Rect) :
    ((layout.splits area).map (·.path)).Nodup ∧
    (∀ path ratio,
      let after := layout.setRatioAt path ratio
      (after.2 = true ↔ path ∈ (layout.splits area).map (·.path)) ∧
      splitRatios [] after.1.root =
        withRatio path (ratio.clamp minRatio maxRatio) (splitRatios [] layout.root) ∧
      ∀ (k : Nat) before moved, (layout.panes area)[k]? = some before →
        (after.1.panes area)[k]? = some moved → before.rect ≠ moved.rect →
        (∃ leaf, (leaves area [] layout.root)[k]? = some leaf ∧ path <+: leaf.path) ∧
        (Fits area → NeverOverlong layout.root → ∀ split ∈ layout.splits area,
          split.path = path → Inside before.rect split.area ∧ Inside moved.rect split.area)) ∧
    ∀ paneId nav delta,
      ResizesOne layout area paneId nav (layout.resizePane paneId nav delta area).1 := by
  refine ⟨nodup_path_splits layout area, fun path ratio => ⟨?_, ?_, ?_⟩,
    fun paneId nav delta => resizePane_resizesOne layout area paneId nav delta⟩
  · rw [TileLayout.splits, map_path_collectSplits]
    exact setRatioAtNode_snd_iff _ layout.root [] path
  · exact splitRatios_setRatioAtNode _ layout.root [] path
  · intro k before moved hbefore hmoved hne
    obtain ⟨old, hold, new, hnew, hk, hunder, rfl, rfl⟩ := panes_setRatioAt hbefore hmoved
    have hrects : new.rect ≠ old.rect := fun heq => hne heq.symm
    have hfront := hunder.2.2 hrects
    refine ⟨⟨old, hk, hfront⟩, fun hfits hall split hsplit hpath => ⟨?_, ?_⟩⟩
    · exact leaf_inside_split hfits hall hold hsplit (hpath ▸ hfront)
    · obtain ⟨after, hafter, hafterPath, hafterArea⟩ :=
        area_setRatioAtNode (ratio.clamp minRatio maxRatio) hsplit
          (show split.path = [] ++ path from hpath)
      have hallAfter := neverOverlong_setRatioAtNode (roundedLength_clamp_le ratio) hall path
      have hnewPrefix : after.path <+: new.path := by
        rw [hafterPath, hpath, hunder.1]
        exact hfront
      have hinside := leaf_inside_split hfits hallAfter hnew hafter hnewPrefix
      rwa [hafterArea] at hinside

/-- A saved tree with the ratio 2: the second border lies beyond its own area. -/
def overlongLayout : TileLayout :=
  .fromSaved (.split .horizontal halfRatio
    (.split .horizontal (.num 2) (.pane ⟨1⟩) (.pane ⟨2⟩)) (.pane ⟨3⟩)) ⟨1⟩

/-- A coherent layout. In an area that starts at 40000 and is 65535 wide, the second child of the
root wraps around and ends next to the first one. -/
def wrappedLayout : TileLayout :=
  .fromSaved (.split .horizontal halfRatio (.pane ⟨1⟩)
    (.split .horizontal maxRatio (.pane ⟨2⟩)
      (.split .horizontal maxRatio (.pane ⟨3⟩)
        (.split .horizontal maxRatio (.pane ⟨4⟩)
          (.split .horizontal maxRatio (.pane ⟨5⟩)
            (.split .horizontal maxRatio (.pane ⟨6⟩) (.pane ⟨7⟩))))))) ⟨1⟩

/-- Both hypotheses are needed: with an overlong ratio a resize of pane 3 and in an area that does
not fit a resize of pane 1 change a split that is no ancestor of the pane, and an overlong ratio
puts a pane outside the area of the split above it, from where `set_ratio_at` moves it. -/
theorem resize_leaves_the_ancestors :
    (getRatioAt (overlongLayout.resizePane ⟨3⟩ .right minRatio ⟨0, 0, 100, 10⟩).1.root [false] ≠
        getRatioAt overlongLayout.root [false] ∧
      ∀ leaf ∈ leaves ⟨0, 0, 100, 10⟩ [] overlongLayout.root,
        leaf.id = ⟨3⟩ → ¬ [false] <+: leaf.path) ∧
    (getRatioAt (wrappedLayout.resizePane ⟨1⟩ .left minRatio ⟨40000, 0, 65535, 10⟩).1.root
        [true, true, true, true, true] ≠
          getRatioAt wrappedLayout.root [true, true, true, true, true] ∧
      ∀ leaf ∈ leaves ⟨40000, 0, 65535, 10⟩ [] wrappedLayout.root,
        leaf.id = ⟨1⟩ → ¬ [true, true, true, true, true] <+: leaf.path) ∧
    ∃ before ∈ (overlongLayout.panes ⟨0, 0, 100, 10⟩)[0]?,
      ∃ moved ∈ ((overlongLayout.setRatioAt [false] halfRatio).1.panes ⟨0, 0, 100, 10⟩)[0]?,
        ∃ split ∈ overlongLayout.splits ⟨0, 0, 100, 10⟩,
          split.path = [false] ∧ before.rect ≠ moved.rect ∧ ¬ Inside before.rect split.area := by
  refine ⟨by decide +kernel, by decide +kernel, ?_⟩
  have hpanes : (overlongLayout.panes ⟨0, 0, 100, 10⟩)[0]? =
      some (leafInfo ⟨0, 0, 100, 10⟩ ⟨1⟩ ⟨1⟩) := by decide +kernel
  have hmoved : ((overlongLayout.setRatioAt [false] halfRatio).1.panes ⟨0, 0, 100, 10⟩)[0]? =
      some (leafInfo ⟨0, 0, 25, 10⟩ ⟨1⟩ ⟨1⟩) := by decide +kernel
  have hsplit : (⟨100, .horizontal, .num 2, ⟨0, 0, 50, 10⟩, [false]⟩ : SplitBorder) ∈
      overlongLayout.splits ⟨0, 0, 100, 10⟩ := by decide +kernel
  refine ⟨_, hpanes, _, hmoved, _, hsplit, rfl, by decide, fun hinside => ?_⟩
  exact absurd hinside.right (by decide)

end Herden.Proofs.Layout
