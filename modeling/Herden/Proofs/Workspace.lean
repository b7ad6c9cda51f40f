import Mathlib.Data.List.Perm.Basic
import Herden.Lib.Registry
import Herden.Proofs.Layout
import Herden.Runtime.Workspace

/-!
# `Herden.Proofs.Workspace`: every reachable workspace is valid

`Valid` is the invariant of a workspace: there is a tab and the active index is in range, the
leaves of each tab are its panes and its root pane is one of them, no pane is in two tabs, the
panes with a public number are the panes in the tabs, and the numbers of panes and of tabs are
positive, distinct and below their counters. `reachable_valid` proves it for every workspace
that the calls of `WorkspaceRun.step` reach, spawns that fail included, together with what the
calls do to the numbers and to the active tab.

A pane that is moved leaves its tab first and comes back, or loses its number, in a later
call. `Valid` therefore takes the panes that are away. Tabs are compared up to their order
(`TabsValid.perm`), so that replacing, dropping and moving a tab are edits of the first tab of
a list. `Lib.Registry` says what a counter has to do so that no number is given out twice.

A tab has no identity but its number. `Follows` compares a state with the one before it: a tab
with an old number shares a pane with the tab that had the number.
-/

namespace Herden.Proofs.Workspace

open Herden.Lib
open Herden.Runtime
open Herden.Runtime.Layout
open Herden.Proofs.Layout (Coherent)

/-! ### The invariant -/

/-- A tab: its layout is coherent, the leaves are the panes, and the root pane is one. -/
structure TabValid (tab : Tab) : Prop where
  coherent : Coherent tab.layout
  leaves : ∀ id, id ∈ tab.layout.paneIds ↔ tab.panes.containsKey id = true
  root_mem : tab.rootPane ∈ tab.layout.paneIds

/-- The panes of some tabs. -/
def panesOf (tabs : List Tab) : List PaneId := tabs.flatMap (fun tab => tab.layout.paneIds)

/-- The tabs of a workspace, in whatever order: each is valid, no pane has two leaves, and
the numbers are positive, distinct and below the counter. -/
structure TabsValid (tabs : List Tab) (nextNumber : Nat) : Prop where
  each : ∀ tab ∈ tabs, TabValid tab
  nodup : (panesOf tabs).Nodup
  numbers : (tabs.map Tab.number).Nodup
  range : ∀ tab ∈ tabs, 0 < tab.number ∧ tab.number < nextNumber

/-- The invariant of a workspace. `away` lists panes that have a number and are in no tab
at the moment, because a caller took them out to move them. -/
structure Valid (workspace : Workspace) (away : List PaneId) : Prop where
  tabs : TabsValid workspace.tabs workspace.nextPublicTabNumber
  nextTab_pos : 0 < workspace.nextPublicTabNumber
  registered : ∀ id, workspace.publicPaneNumbers.containsKey id = true ↔
    id ∈ panesOf workspace.tabs ∨ id ∈ away
  away_not_mem : ∀ id ∈ away, id ∉ panesOf workspace.tabs
  numbering : Numbering workspace.publicPaneNumbers workspace.nextPublicPaneNumber
  active : workspace.tabs ≠ [] → workspace.activeTab < workspace.tabs.length
  active_zero : workspace.tabs = [] → workspace.activeTab = 0
  nonempty : away = [] → workspace.tabs ≠ []

/-- Two versions of one tab: the same number, and a pane in common. -/
def Carries (old tab : Tab) : Prop :=
  old.number = tab.number ∧ ∃ id, id ∈ old.layout.paneIds ∧ id ∈ tab.layout.paneIds

/-- What a call keeps of the numbers: no pane number is reused, and a tab with an old number
is the tab that had it. -/
structure Follows (before after : Workspace) : Prop where
  panes : NoReuse before.publicPaneNumbers before.nextPublicPaneNumber
    after.publicPaneNumbers after.nextPublicPaneNumber
  nextTab_le : before.nextPublicTabNumber ≤ after.nextPublicTabNumber
  tabs : ∀ tab ∈ after.tabs, tab.number < before.nextPublicTabNumber →
    ∃ old ∈ before.tabs, Carries old tab

/-! ### Tabs up to their order -/

@[simp] theorem panesOf_nil : panesOf [] = [] := rfl

@[simp] theorem panesOf_cons (tab : Tab) (rest : List Tab) :
    panesOf (tab :: rest) = tab.layout.paneIds ++ panesOf rest := rfl

variable {id : PaneId} {tabs : List Tab} {i : Nat} {w : Workspace} {away : List PaneId}

theorem mem_panesOf : id ∈ panesOf tabs ↔ ∃ tab ∈ tabs, id ∈ tab.layout.paneIds := List.mem_flatMap

variable {tabs' : List Tab}

theorem panesOf_perm (h : tabs.Perm tabs') :
    (panesOf tabs).Perm (panesOf tabs') := h.flatMap_right _

theorem TabsValid.perm {next : Nat} (h : TabsValid tabs next) (hperm : tabs.Perm tabs') :
    TabsValid tabs' next where
  each tab htab := h.each tab (hperm.mem_iff.mpr htab)
  nodup := (panesOf_perm hperm).nodup_iff.mp h.nodup
  numbers := (hperm.map _).nodup_iff.mp h.numbers
  range tab htab := h.range tab (hperm.mem_iff.mpr htab)

theorem TabsValid.mono {next next' : Nat} (h : TabsValid tabs next) (hle : next ≤ next') :
    TabsValid tabs next' where
  each := h.each
  nodup := h.nodup
  numbers := h.numbers
  range tab htab := by
    have := h.range tab htab
    omega

theorem TabsValid.tail {tab : Tab} {rest : List Tab} {next : Nat}
    (h : TabsValid (tab :: rest) next) : TabsValid rest next where
  each other hmem := h.each other (List.mem_cons_of_mem _ hmem)
  nodup := h.nodup.of_append_right
  numbers := (List.nodup_cons.mp h.numbers).2
  range other hmem := h.range other (List.mem_cons_of_mem _ hmem)

/-- Putting a valid tab with a number and panes of its own in front. -/
theorem TabsValid.cons {tab : Tab} {rest : List Tab} {next : Nat} (h : TabsValid rest next)
    (htab : TabValid tab) (hdisjoint : ∀ id ∈ tab.layout.paneIds, id ∉ panesOf rest)
    (hnumber : tab.number ∉ rest.map Tab.number) (hrange : 0 < tab.number ∧ tab.number < next) :
    TabsValid (tab :: rest) next where
  each other hmem := by
    rcases List.mem_cons.mp hmem with rfl | hmem
    · exact htab
    · exact h.each other hmem
  nodup := List.Nodup.append htab.coherent.nodup h.nodup (fun id hid hid' => hdisjoint id hid hid')
  numbers := List.nodup_cons.mpr ⟨hnumber, h.numbers⟩
  range other hmem := by
    rcases List.mem_cons.mp hmem with rfl | hmem
    · exact hrange
    · exact h.range other hmem

/-- The tab in front may be replaced by a valid one with the same number whose panes are in
no other tab. -/
theorem TabsValid.replace {tab tab' : Tab} {rest : List Tab} {next : Nat}
    (h : TabsValid (tab :: rest) next) (htab : TabValid tab') (hnumber : tab'.number = tab.number)
    (hdisjoint : ∀ id ∈ tab'.layout.paneIds, id ∉ panesOf rest) :
    TabsValid (tab' :: rest) next := by
  apply h.tail.cons htab hdisjoint
  · rw [hnumber]
    exact (List.nodup_cons.mp h.numbers).1
  · rw [hnumber]
    exact h.range tab List.mem_cons_self

/-- The panes of the tab in front are in no other tab. -/
theorem TabsValid.disjoint {tab : Tab} {rest : List Tab} {next : Nat}
    (h : TabsValid (tab :: rest) next) (hid : id ∈ tab.layout.paneIds) : id ∉ panesOf rest :=
  fun hrest => List.disjoint_of_nodup_append h.nodup hid hrest

/-- A tab at an index and the others, up to their order. -/
theorem perm_of_getElem? {tab : Tab} (h : tabs[i]? = some tab) :
    tabs.Perm (tab :: tabs.eraseIdx i) := by
  obtain ⟨hlt, rfl⟩ := List.getElem?_eq_some_iff.mp h
  exact (List.getElem_cons_eraseIdx_perm hlt).symm

theorem set_perm {tab : Tab} (h : tabs[i]? = some tab) (tab' : Tab) :
    (tabs.set i tab').Perm (tab' :: tabs.eraseIdx i) := by
  obtain ⟨hlt, -⟩ := List.getElem?_eq_some_iff.mp h
  exact List.set_perm_cons_eraseIdx hlt tab'

/-! ### What a tab does -/

/-- A tab with one pane. -/
theorem tabValid_single {tab : Tab} {state : PaneState} (hlayout : tab.layout = .new id)
    (hpanes : tab.panes = HashMap.insert ∅ id state) (hroot : tab.rootPane = id) :
    TabValid tab where
  coherent := by
    rw [hlayout]
    exact .new id
  leaves other := by
    rw [hlayout, hpanes, HashMap.containsKey_singleton]
    exact List.mem_singleton
  root_mem := by
    rw [hlayout, hroot]
    exact List.mem_singleton.mpr rfl

theorem tabValid_new (number : Nat) (id : PaneId) (terminalId : TerminalId) :
    TabValid (.new number id terminalId) := tabValid_single rfl rfl rfl

theorem tabValid_fromExistingPane (number : Nat) (label : Option String) (moved : MovedPane) :
    TabValid (.fromExistingPane number label moved) := tabValid_single rfl rfl rfl

theorem TabValid.carries_refl {tab : Tab} (h : TabValid tab) : Carries tab tab :=
  ⟨rfl, tab.rootPane, h.root_mem, h.root_mem⟩

/-- A split adds the new pane to the tab, or, when it fails, changes no pane. -/
theorem splitPaneWithRuntime_spec {tab : Tab} (h : TabValid tab) (target : PaneId)
    (focusNewPane : Bool) (direction : Direction) (ratio : Option F32) {spawn : Spawn}
    (hfresh : spawn.paneId ∉ tab.layout.paneIds) :
    ∃ after result,
      tab.splitPaneWithRuntime target focusNewPane direction ratio spawn = some (after, result) ∧
      TabValid after ∧ after.number = tab.number ∧
      (result = none ∧ (∀ id, id ∈ after.layout.paneIds ↔ id ∈ tab.layout.paneIds) ∨
        result = some spawn.paneId ∧
          ∀ id, id ∈ after.layout.paneIds ↔ id = spawn.paneId ∨ id ∈ tab.layout.paneIds) := by
  have hsplit := Layout.splitPane_spec h.coherent target direction (ratio.getD halfRatio) hfresh
  unfold Tab.splitPaneWithRuntime
  cases heq : tab.layout.splitPane target direction (ratio.getD halfRatio) spawn.paneId with
  | mk layout newId =>
    rw [heq] at hsplit
    cases newId with
    | none =>
      -- the target is not in the layout, which stays as it was
      obtain rfl : layout = tab.layout := hsplit.unchanged rfl
      exact ⟨tab, none, rfl, h, rfl, .inl ⟨rfl, fun _ => Iff.rfl⟩⟩
    | some newId =>
      obtain ⟨rfl, hperm⟩ := hsplit.leaves
      have hmem : ∀ id, id ∈ layout.paneIds ↔ id = spawn.paneId ∨ id ∈ tab.layout.paneIds := by
        intro id
        rw [hperm.mem_iff, List.mem_cons]
      cases hterminal : spawn.terminal with
      | none =>
        -- the layout is rolled back by closing the pane that was just added
        have hcount : 1 < layout.paneCount := by
          rw [TileLayout.paneCount, Layout.countPanes_eq_length]
          have hlen := hperm.length_eq
          have hpos := List.length_pos_of_mem h.root_mem
          simp only [TileLayout.paneIds, List.length_cons] at hlen hpos
          omega
        obtain ⟨rolled, hclose, hcoherent, hids⟩ :=
          Layout.closePane_of_mem hsplit.coherent ((hmem spawn.paneId).mpr (.inl rfl)) hcount
        have hback : ∀ id, id ∈ rolled.paneIds ↔ id ∈ tab.layout.paneIds := by
          intro id
          rw [hids, hsplit.coherent.nodup.mem_erase_iff, hmem]
          constructor
          · rintro ⟨hne, rfl | hid⟩
            · exact absurd rfl hne
            · exact hid
          · intro hid
            exact ⟨fun heq => hfresh (heq ▸ hid), .inr hid⟩
        refine ⟨{ tab with layout := rolled }, none, ?_, ?_, rfl, .inl ⟨rfl, hback⟩⟩
        · have hclose' : layout.closePane spawn.paneId = some (rolled, true) := hclose
          simp [hclose']
        · exact ⟨hcoherent, fun id => (hback id).trans (h.leaves id), (hback _).mpr h.root_mem⟩
      | some terminalId =>
        have hfocus : ∀ id, id ∈ (if focusNewPane then layout.focusPane spawn.paneId
            else layout).paneIds ↔ id ∈ layout.paneIds := by
          intro id
          split
          · exact (Layout.focusPane_spec hsplit.coherent spawn.paneId).leaves.mem_iff
          · exact Iff.rfl
        refine ⟨_, some spawn.paneId, rfl, ⟨?_, ?_, ?_⟩, rfl,
          .inr ⟨rfl, fun id => (hfocus id).trans (hmem id)⟩⟩
        · dsimp only
          split
          · exact (Layout.focusPane_spec hsplit.coherent spawn.paneId).coherent
          · exact hsplit.coherent
        · intro id
          dsimp only
          rw [hfocus, hmem, HashMap.containsKey_insert, h.leaves]
        · exact (hfocus _).mpr ((hmem _).mpr (.inr h.root_mem))

/-- A pane that is not the only one leaves its tab: the others stay, and so does the number. -/
def Leaves (tab : Tab) (id : PaneId) (after : Tab) : Prop :=
  TabValid after ∧ after.number = tab.number ∧
    ∀ other, other ∈ after.layout.paneIds ↔ other ≠ id ∧ other ∈ tab.layout.paneIds

/-- What `detachPane` and `takePaneForMove` write when the tab has other panes: the pane goes
from the layout and from the map, and another pane takes over as root if needed. -/
theorem leaves_of_closePane {tab : Tab} (h : TabValid tab) (hmem : id ∈ tab.layout.paneIds)
    (hcount : 1 < tab.layout.paneCount) : ∃ layout, tab.layout.closePane id = some (layout, true) ∧
      Leaves tab id { tab with
        layout := layout
        panes := tab.panes.remove id
        zoomed := false
        rootPane := (tab.promotedRootIfNeeded id).getD tab.rootPane } := by
  obtain ⟨layout, hclose, hcoherent, hids⟩ := Layout.closePane_of_mem h.coherent hmem hcount
  have hothers : ∀ other, other ∈ layout.paneIds ↔ other ≠ id ∧ other ∈ tab.layout.paneIds := by
    intro other
    rw [hids, h.coherent.nodup.mem_erase_iff]
  refine ⟨layout, hclose, ⟨hcoherent, ?_, ?_⟩, rfl, hothers⟩
  · intro other
    rw [hothers, HashMap.containsKey_remove, h.leaves]
  · show (tab.promotedRootIfNeeded id).getD tab.rootPane ∈ layout.paneIds
    rw [hothers]
    unfold Tab.promotedRootIfNeeded
    split
    next hroot => exact ⟨hroot, h.root_mem⟩
    next hroot =>
      -- the closed pane was the root, and a tab with two panes has another one
      cases hfind : tab.layout.paneIds.find? (· ≠ id) with
      | some other =>
        have hne := List.find?_some hfind
        exact ⟨by simpa using hne, List.mem_of_find?_eq_some hfind⟩
      | none =>
        have hall := List.find?_eq_none.mp hfind
        have hfocus := hcoherent.focus_mem
        obtain ⟨hne, hother⟩ := (hothers _).mp hfocus
        exact absurd (by simpa using hne) (hall _ hother)

theorem get_of_leaf {tab : Tab} (h : TabValid tab) (hmem : id ∈ tab.layout.paneIds) :
    ∃ state, tab.panes.get id = some state :=
  Option.isSome_iff_exists.mp ((h.leaves id).mp hmem)

theorem detachPane_spec {tab : Tab} (h : TabValid tab) (hmem : id ∈ tab.layout.paneIds)
    (hcount : 1 < tab.layout.paneCount) :
    ∃ after terminalId, tab.detachPane id = some (after, some (id, terminalId)) ∧
      Leaves tab id after := by
  obtain ⟨state, hstate⟩ := get_of_leaf h hmem
  obtain ⟨layout, hclose, hleaves⟩ := leaves_of_closePane h hmem hcount
  refine ⟨_, state.attachedTerminalId, ?_, hleaves⟩
  rw [Tab.detachPane, if_neg (by omega), hclose]
  simp [hstate]

theorem takePaneForMove_spec {tab : Tab} (h : TabValid tab) (hmem : id ∈ tab.layout.paneIds) :
    ∃ after state, tab.takePaneForMove id = some (after, some ⟨id, state⟩) ∧
      (1 < tab.layout.paneCount → Leaves tab id after) := by
  obtain ⟨state, hstate⟩ := get_of_leaf h hmem
  unfold Tab.takePaneForMove
  rw [hstate]
  dsimp only
  split
  next hcount =>
    obtain ⟨layout, hclose, hleaves⟩ := leaves_of_closePane h hmem hcount
    refine ⟨_, state, ?_, fun _ => hleaves⟩
    simp [hclose]
  next hcount => exact ⟨_, state, rfl, fun h => absurd h hcount⟩

theorem insertExistingPane_spec {tab : Tab} (h : TabValid tab) (target : PaneId)
    (moved : MovedPane) (direction : Direction) (ratio : F32) (focus : Bool) :
    tab.insertExistingPane target moved direction ratio focus = (tab, .error moved) ∨
      ∃ after, tab.insertExistingPane target moved direction ratio focus
          = (after, .ok moved.paneId) ∧ TabValid after ∧ after.number = tab.number ∧
        ∀ id, id ∈ after.layout.paneIds ↔ id = moved.paneId ∨ id ∈ tab.layout.paneIds := by
  have hinsert := Layout.insertPaneNear_spec h.coherent target moved.paneId direction ratio focus
  unfold Tab.insertExistingPane
  cases heq : tab.layout.insertPaneNear target moved.paneId direction ratio focus with
  | mk layout ok =>
    rw [heq] at hinsert
    cases ok with
    | false =>
      obtain rfl : layout = tab.layout := hinsert.unchanged rfl
      exact .inl rfl
    | true =>
      have hmem : ∀ id, id ∈ layout.paneIds ↔ id = moved.paneId ∨ id ∈ tab.layout.paneIds := by
        intro id
        rw [hinsert.leaves.mem_iff, List.mem_cons]
      refine .inr ⟨_, rfl, ⟨hinsert.coherent, ?_, (hmem _).mpr (.inr h.root_mem)⟩, rfl, hmem⟩
      intro id
      rw [hmem, HashMap.containsKey_insert, h.leaves]

/-! ### Edits of a workspace

Every call is put together from five edits: one tab is replaced, a pane is added to a tab, a
pane or a whole tab leaves, a number is given back, and a new tab comes. -/

section Edits

variable {w : Workspace} {away : List PaneId}

variable {i : Nat} {tab' : Tab} {id : PaneId}

theorem Valid.tab (h : Valid w away) {tab : Tab} (hi : w.tabs[i]? = some tab) :
    TabValid tab := h.tabs.each tab (List.mem_of_getElem? hi)

/-- The tabs with the one at `i` in front. -/
theorem Valid.tabs_front (h : Valid w away) {tab : Tab} (hi : w.tabs[i]? = some tab) :
    TabsValid (tab :: w.tabs.eraseIdx i) w.nextPublicTabNumber := h.tabs.perm (perm_of_getElem? hi)

theorem mem_panesOf_iff {tab : Tab} (hi : w.tabs[i]? = some tab) (id : PaneId) :
    id ∈ panesOf w.tabs ↔ id ∈ tab.layout.paneIds ∨ id ∈ panesOf (w.tabs.eraseIdx i) := by
  rw [(panesOf_perm (perm_of_getElem? hi)).mem_iff, panesOf_cons, List.mem_append]

theorem mem_panesOf_set {tab : Tab} (hi : w.tabs[i]? = some tab) (tab' : Tab) (id : PaneId) :
    id ∈ panesOf (w.tabs.set i tab') ↔
      id ∈ tab'.layout.paneIds ∨ id ∈ panesOf (w.tabs.eraseIdx i) := by
  rw [(panesOf_perm (set_perm hi tab')).mem_iff, panesOf_cons, List.mem_append]

/-- Tabs that were there before carry their own numbers. -/
theorem Valid.carries_of_mem (h : Valid w away) {tab : Tab} (hmem : tab ∈ w.tabs) :
    ∃ old ∈ w.tabs, Carries old tab := ⟨tab, hmem, (h.tabs.each tab hmem).carries_refl⟩

/-- The number of a replaced tab goes to its new version. -/
theorem Valid.carries_set (h : Valid w away) {tab : Tab} (hi : w.tabs[i]? = some tab)
    (hcarries : Carries tab tab') :
    ∀ other ∈ w.tabs.set i tab', other.number < w.nextPublicTabNumber →
      ∃ old ∈ w.tabs, Carries old other := by
  intro other hmem _
  rcases List.mem_or_eq_of_mem_set hmem with hmem | rfl
  · exact h.carries_of_mem hmem
  · exact ⟨tab, List.mem_of_getElem? hi, hcarries⟩

theorem Follows.refl (h : Valid w away) : Follows w w where
  panes := .refl _ _
  nextTab_le := le_refl _
  tabs _ hmem _ := h.carries_of_mem hmem

/-- Numbers may be given back or out after the tabs have changed. -/
theorem Follows.then_numbers {after last : Workspace} (h : Follows w after)
    (hpanes : NoReuse after.publicPaneNumbers after.nextPublicPaneNumber
      last.publicPaneNumbers last.nextPublicPaneNumber)
    (htabs : last.tabs = after.tabs)
    (hnext : last.nextPublicTabNumber = after.nextPublicTabNumber) : Follows w last where
  panes := h.panes.trans hpanes
  nextTab_le := hnext ▸ h.nextTab_le
  tabs := htabs ▸ h.tabs

/-- A tab is replaced by one with the same panes and the same number. -/
theorem Valid.setTab (h : Valid w away) {tab : Tab} (hi : w.tabs[i]? = some tab)
    (htab : TabValid tab') (hnumber : tab'.number = tab.number)
    (hmem : ∀ id, id ∈ tab'.layout.paneIds ↔ id ∈ tab.layout.paneIds) :
    Valid { w with tabs := w.tabs.set i tab' } away ∧
      Follows w { w with tabs := w.tabs.set i tab' } := by
  have hsame : ∀ id, id ∈ panesOf (w.tabs.set i tab') ↔ id ∈ panesOf w.tabs := by
    intro id
    rw [mem_panesOf_set hi, mem_panesOf_iff hi, hmem]
  have hnil : w.tabs.set i tab' = [] ↔ w.tabs = [] := List.set_eq_nil_iff i tab'
  constructor
  · constructor
    · exact ((h.tabs_front hi).replace htab hnumber
        (fun id hid => (h.tabs_front hi).disjoint ((hmem id).mp hid))).perm (set_perm hi tab').symm
    · exact h.nextTab_pos
    · intro id
      rw [hsame, h.registered]
    · intro id hid
      rw [hsame]
      exact h.away_not_mem id hid
    · exact h.numbering
    · intro hne
      rw [List.length_set]
      exact h.active (fun heq => hne (hnil.mpr heq))
    · intro heq
      exact h.active_zero (hnil.mp heq)
    · intro haway heq
      exact h.nonempty haway (hnil.mp heq)
  · constructor
    · exact .refl _ _
    · exact le_refl _
    · apply h.carries_set hi
      exact ⟨hnumber.symm, tab.rootPane, (h.tab hi).root_mem, (hmem _).mpr (h.tab hi).root_mem⟩

theorem registerIfNew_spec (w : Workspace)
    (h : Numbering w.publicPaneNumbers w.nextPublicPaneNumber) (id : PaneId) :
    Numbering (w.registerIfNew id).publicPaneNumbers (w.registerIfNew id).nextPublicPaneNumber ∧
      NoReuse w.publicPaneNumbers w.nextPublicPaneNumber (w.registerIfNew id).publicPaneNumbers
        (w.registerIfNew id).nextPublicPaneNumber ∧
      ∀ other, (w.registerIfNew id).publicPaneNumbers.containsKey other = true ↔
        other = id ∨ w.publicPaneNumbers.containsKey other = true := by
  unfold Workspace.registerIfNew
  split
  next hknown =>
    refine ⟨h, .refl _ _, fun other => ?_⟩
    constructor
    · exact .inr
    · rintro (rfl | hother)
      · exact hknown
      · exact hother
  next =>
    have hnext : max w.nextPublicPaneNumber (w.nextPublicPaneNumber + 1)
        = w.nextPublicPaneNumber + 1 := by omega
    rw [Workspace.registerNewPaneWithNumber, hnext]
    exact ⟨h.insert_next id, .insert_next _ _ id,
      fun other => HashMap.containsKey_insert _ id other _⟩

@[simp] theorem tabs_registerIfNew (w : Workspace) (id : PaneId) :
    (w.registerIfNew id).tabs = w.tabs := by
  unfold Workspace.registerIfNew
  split <;> rfl

@[simp] theorem nextPublicTabNumber_registerIfNew (w : Workspace) (id : PaneId) :
    (w.registerIfNew id).nextPublicTabNumber = w.nextPublicTabNumber := by
  unfold Workspace.registerIfNew
  split <;> rfl

@[simp] theorem activeTab_registerIfNew (w : Workspace) (id : PaneId) :
    (w.registerIfNew id).activeTab = w.activeTab := by
  unfold Workspace.registerIfNew
  split <;> rfl

/-- A pane comes into the tab at `i`. It is new to the workspace, or the one that was away. -/
theorem Valid.addPane (h : Valid w away) {tab : Tab} (hi : w.tabs[i]? = some tab)
    (htab : TabValid tab') (hnumber : tab'.number = tab.number)
    (hmem : ∀ other, other ∈ tab'.layout.paneIds ↔ other = id ∨ other ∈ tab.layout.paneIds)
    (hfresh : id ∉ panesOf w.tabs) (haway : ∀ other ∈ away, other = id) :
    Valid (Workspace.registerIfNew { w with tabs := w.tabs.set i tab' } id) [] ∧
      Follows w (Workspace.registerIfNew { w with tabs := w.tabs.set i tab' } id) := by
  obtain ⟨hnumbering, hreuse, hkeys⟩ :=
    registerIfNew_spec { w with tabs := w.tabs.set i tab' } h.numbering id
  have hpanes : ∀ other, other ∈ panesOf (w.tabs.set i tab') ↔
      other = id ∨ other ∈ panesOf w.tabs := by
    intro other
    rw [mem_panesOf_set hi, mem_panesOf_iff hi, hmem, or_assoc]
  have hne : w.tabs.set i tab' ≠ [] := by
    intro heq
    rw [List.set_eq_nil_iff] at heq
    rw [heq] at hi
    cases hi
  constructor
  · constructor
    · rw [tabs_registerIfNew, nextPublicTabNumber_registerIfNew]
      refine ((h.tabs_front hi).replace htab hnumber (fun other hother => ?_)).perm
        (set_perm hi tab').symm
      rcases (hmem other).mp hother with rfl | hother
      · exact fun hrest => hfresh ((mem_panesOf_iff hi other).mpr (.inr hrest))
      · exact (h.tabs_front hi).disjoint hother
    · rw [nextPublicTabNumber_registerIfNew]
      exact h.nextTab_pos
    · intro other
      rw [hkeys, tabs_registerIfNew, hpanes, h.registered]
      constructor
      · rintro (rfl | hother | hother)
        · exact .inl (.inl rfl)
        · exact .inl (.inr hother)
        · exact .inl (.inl (haway other hother))
      · rintro ((rfl | hother) | hother)
        · exact .inl rfl
        · exact .inr (.inl hother)
        · cases hother
    · intro other hother
      cases hother
    · exact hnumbering
    · intro _
      rw [activeTab_registerIfNew, tabs_registerIfNew, List.length_set]
      exact h.active (fun heq => hne (by rw [heq]; rfl))
    · intro heq
      rw [tabs_registerIfNew] at heq
      exact absurd heq hne
    · intro _
      rw [tabs_registerIfNew]
      exact hne
  · constructor
    · exact hreuse
    · rw [nextPublicTabNumber_registerIfNew]
    · rw [tabs_registerIfNew]
      apply h.carries_set hi
      exact ⟨hnumber.symm, tab.rootPane, (h.tab hi).root_mem,
        (hmem _).mpr (.inr (h.tab hi).root_mem)⟩

/-- A pane leaves the tab at `i`, which has others. -/
theorem Valid.leaveTab (h : Valid w []) {tab : Tab} (hi : w.tabs[i]? = some tab)
    (hid : id ∈ tab.layout.paneIds) (hleaves : Leaves tab id tab') :
    Valid { w with tabs := w.tabs.set i tab' } [id] ∧
      Follows w { w with tabs := w.tabs.set i tab' } := by
  obtain ⟨htab, hnumber, hmem⟩ := hleaves
  have hfront := h.tabs_front hi
  have hpanes : ∀ other, other ∈ panesOf (w.tabs.set i tab') ↔
      other ≠ id ∧ other ∈ panesOf w.tabs := by
    intro other
    rw [mem_panesOf_set hi, mem_panesOf_iff hi, hmem]
    constructor
    · rintro (⟨hne, hother⟩ | hother)
      · exact ⟨hne, .inl hother⟩
      · exact ⟨fun heq => hfront.disjoint hid (heq ▸ hother), .inr hother⟩
    · rintro ⟨hne, hother | hother⟩
      · exact .inl ⟨hne, hother⟩
      · exact .inr hother
  have hne : w.tabs.set i tab' ≠ [] := by
    rw [Ne, List.set_eq_nil_iff]
    exact h.nonempty rfl
  constructor
  · constructor
    · exact (hfront.replace htab hnumber
        (fun other hother => hfront.disjoint ((hmem other).mp hother).2)).perm
          (set_perm hi tab').symm
    · exact h.nextTab_pos
    · intro other
      rw [hpanes, h.registered, List.mem_singleton]
      constructor
      · rintro (hother | hother)
        · by_cases heq : other = id
          · exact .inr heq
          · exact .inl ⟨heq, hother⟩
        · cases hother
      · rintro (⟨-, hother⟩ | rfl)
        · exact .inl hother
        · exact .inl ((mem_panesOf_iff hi other).mpr (.inl hid))
    · intro other hother
      rw [hpanes]
      exact fun hboth => hboth.1 (List.mem_singleton.mp hother)
    · exact h.numbering
    · intro _
      rw [List.length_set]
      exact h.active (h.nonempty rfl)
    · exact fun heq => absurd heq hne
    · exact fun _ => hne
  · constructor
    · exact .refl _ _
    · exact le_refl _
    · apply h.carries_set hi
      exact ⟨hnumber.symm, tab'.rootPane, ((hmem _).mp htab.root_mem).2, htab.root_mem⟩

/-- The active index stays in range when a tab goes. -/
theorem adjustActiveTabAfterRemoval_range (w : Workspace) (i : Nat) :
    ((w.adjustActiveTabAfterRemoval i).tabs ≠ [] →
        (w.adjustActiveTabAfterRemoval i).activeTab < w.tabs.length) ∧
      (w.tabs = [] → (w.adjustActiveTabAfterRemoval i).activeTab = 0) := by
  unfold Workspace.adjustActiveTabAfterRemoval
  split
  next hempty => simp_all
  next hempty =>
    have hpos : 0 < w.tabs.length := by
      rw [List.length_pos_iff]
      simpa using hempty
    have hne : w.tabs ≠ [] := List.ne_nil_of_length_pos hpos
    refine ⟨fun _ => ?_, fun heq => absurd heq hne⟩
    split
    · show w.tabs.length - 1 < w.tabs.length
      omega
    · split
      · show w.activeTab - 1 < w.tabs.length
        omega
      · omega

@[simp] theorem tabs_adjustActiveTabAfterRemoval (w : Workspace) (i : Nat) :
    (w.adjustActiveTabAfterRemoval i).tabs = w.tabs := by
  unfold Workspace.adjustActiveTabAfterRemoval
  split
  · rfl
  · split
    · rfl
    · split <;> rfl

/-- Only the active index changes. -/
theorem adjustActiveTabAfterRemoval_eq (w : Workspace) (i : Nat) :
    w.adjustActiveTabAfterRemoval i
      = { w with activeTab := (w.adjustActiveTabAfterRemoval i).activeTab } := by
  unfold Workspace.adjustActiveTabAfterRemoval
  split
  · rfl
  · split
    · rfl
    · split <;> rfl

/-- The tab at `i` goes. Its panes are away until their numbers are given back. -/
theorem Valid.dropTab (h : Valid w []) {tab : Tab} (hi : w.tabs[i]? = some tab) :
    let after := Workspace.adjustActiveTabAfterRemoval { w with tabs := w.tabs.eraseIdx i } i
    Valid after tab.layout.paneIds ∧ Follows w after := by
  intro after
  have hfront := h.tabs_front hi
  obtain ⟨hrange, hzero⟩ :=
    adjustActiveTabAfterRemoval_range { w with tabs := w.tabs.eraseIdx i } i
  have hafter : after = { w with tabs := w.tabs.eraseIdx i, activeTab := after.activeTab } :=
    adjustActiveTabAfterRemoval_eq _ i
  have htabs : after.tabs = w.tabs.eraseIdx i := tabs_adjustActiveTabAfterRemoval _ i
  constructor
  · constructor
    · rw [hafter]
      exact hfront.tail
    · rw [hafter]
      exact h.nextTab_pos
    · intro id
      rw [hafter]
      show w.publicPaneNumbers.containsKey id = true ↔ id ∈ panesOf (w.tabs.eraseIdx i) ∨ _
      rw [h.registered, mem_panesOf_iff hi]
      constructor
      · rintro ((hid | hid) | hid)
        · exact .inr hid
        · exact .inl hid
        · cases hid
      · rintro (hid | hid)
        · exact .inl (.inr hid)
        · exact .inl (.inl hid)
    · intro id hid
      rw [htabs]
      exact hfront.disjoint hid
    · rw [hafter]
      exact h.numbering
    · intro hne
      rw [htabs]
      exact hrange hne
    · intro heq
      rw [htabs] at heq
      exact hzero heq
    · intro hnil
      have hroot := (h.tab hi).root_mem
      rw [hnil] at hroot
      cases hroot
  · constructor
    · rw [hafter]
      exact .refl _ _
    · rw [hafter]
    · rw [htabs]
      intro other hmem _
      exact h.carries_of_mem (List.mem_of_mem_eraseIdx hmem)

/-- Giving numbers back touches the numbers only. -/
theorem foldl_unregisterPane (ids : List PaneId) (w : Workspace) :
    ids.foldl Workspace.unregisterPane w
      = { w with publicPaneNumbers := ids.foldl HashMap.remove w.publicPaneNumbers } := by
  induction ids generalizing w with
  | nil => rfl
  | cons id rest ih => rw [List.foldl_cons, ih]; rfl

/-- The panes that are away lose their numbers. -/
theorem Valid.unregister (h : Valid w away) (ids : List PaneId)
    (hids : ∀ id, id ∈ ids ↔ id ∈ away) (hne : w.tabs ≠ []) :
    Valid (ids.foldl Workspace.unregisterPane w) [] ∧
      NoReuse w.publicPaneNumbers w.nextPublicPaneNumber
        (ids.foldl Workspace.unregisterPane w).publicPaneNumbers w.nextPublicPaneNumber := by
  have hsub : ∀ id n, (ids.foldl HashMap.remove w.publicPaneNumbers).get id = some n →
      w.publicPaneNumbers.get id = some n := by
    intro id n hn
    rw [HashMap.get_foldl_remove_keys] at hn
    split at hn
    · cases hn
    · exact hn
  rw [foldl_unregisterPane]
  refine ⟨⟨h.tabs, h.nextTab_pos, ?_, ?_, h.numbering.of_sub hsub, h.active, h.active_zero,
    fun _ => hne⟩, .of_sub _ hsub⟩
  · intro id
    show ((ids.foldl HashMap.remove w.publicPaneNumbers).get id).isSome = true ↔ _
    rw [HashMap.get_foldl_remove_keys]
    have hregistered := h.registered id
    unfold HashMap.containsKey at hregistered
    split
    next hid =>
      have hnot := h.away_not_mem id ((hids id).mp hid)
      simp [hnot]
    next hid =>
      have hnot : id ∉ away := fun haway => hid ((hids id).mpr haway)
      simp [hregistered, hnot]
  · intro id hid
    cases hid

/-- A new tab comes, with one pane that is new to the workspace or was away. -/
theorem Valid.pushTab (h : Valid w away) {tab : Tab} (htab : TabValid tab)
    (hnumber : tab.number = w.nextPublicTabNumber) (hmem : tab.layout.paneIds = [id])
    (hfresh : id ∉ panesOf w.tabs) (haway : ∀ other ∈ away, other = id) :
    let numbered := Workspace.registerIfNew
      { w with nextPublicTabNumber := w.nextPublicTabNumber + 1 } id
    let after := { numbered with tabs := numbered.tabs ++ [tab] }
    Valid after [] ∧ Follows w after := by
  intro numbered after
  obtain ⟨hnumbering, hreuse, hkeys⟩ := registerIfNew_spec
    { w with nextPublicTabNumber := w.nextPublicTabNumber + 1 } h.numbering id
  have htabs : after.tabs = w.tabs ++ [tab] := by
    show numbered.tabs ++ [tab] = _
    rw [tabs_registerIfNew]
  have hnext : after.nextPublicTabNumber = w.nextPublicTabNumber + 1 :=
    nextPublicTabNumber_registerIfNew _ id
  have hactive : after.activeTab = w.activeTab := activeTab_registerIfNew _ id
  have hperm : (w.tabs ++ [tab]).Perm (tab :: w.tabs) := List.perm_append_singleton tab w.tabs
  have hpanes : ∀ other, other ∈ panesOf (w.tabs ++ [tab]) ↔ other = id ∨ other
      ∈ panesOf w.tabs := by
    intro other
    rw [(panesOf_perm hperm).mem_iff, panesOf_cons, hmem, List.singleton_append, List.mem_cons]
  constructor
  · constructor
    · rw [htabs, hnext]
      refine ((h.tabs.mono (Nat.le_succ _)).cons htab ?_ ?_ ?_).perm hperm.symm
      · intro other hother
        rw [hmem, List.mem_singleton] at hother
        rw [hother]
        exact hfresh
      · intro hused
        obtain ⟨old, hold, heq⟩ := List.mem_map.mp hused
        have := h.tabs.range old hold
        omega
      · have := h.nextTab_pos
        omega
    · rw [hnext]
      omega
    · intro other
      rw [htabs, hpanes]
      show numbered.publicPaneNumbers.containsKey other = true ↔ _
      rw [hkeys, h.registered]
      constructor
      · rintro (rfl | hother | hother)
        · exact .inl (.inl rfl)
        · exact .inl (.inr hother)
        · exact .inl (.inl (haway other hother))
      · rintro ((rfl | hother) | hother)
        · exact .inl rfl
        · exact .inr (.inl hother)
        · cases hother
    · intro other hother
      cases hother
    · exact hnumbering
    · intro _
      rw [htabs, hactive, List.length_append, List.length_singleton]
      by_cases hne : w.tabs = []
      · have := h.active_zero hne
        omega
      · have := h.active hne
        omega
    · intro heq
      rw [htabs] at heq
      exact absurd heq (List.append_ne_nil_of_right_ne_nil _ (List.cons_ne_nil _ _))
    · intro _
      rw [htabs]
      exact List.append_ne_nil_of_right_ne_nil _ (List.cons_ne_nil _ _)
  · constructor
    · exact hreuse
    · rw [hnext]
      omega
    · rw [htabs]
      intro other hother hlt
      rcases List.mem_append.mp hother with hother | hother
      · exact h.carries_of_mem hother
      · rw [List.mem_singleton.mp hother] at hlt
        omega

end Edits

/-! ### The active tab -/

/-- The rule that `closeTab`, `closePane` and `removePane` write out for tabs that remain. -/
theorem activeTab_adjust (hne : w.tabs ≠ []) (i : Nat) : (w.adjustActiveTabAfterRemoval i).activeTab
      = if w.activeTab ≥ w.tabs.length then w.tabs.length - 1
        else if i ≤ w.activeTab ∧ w.activeTab > 0 then w.activeTab - 1
        else w.activeTab := by
  have hempty : w.tabs.isEmpty = false := List.isEmpty_eq_false_iff.mpr hne
  unfold Workspace.adjustActiveTabAfterRemoval
  rw [hempty, if_neg Bool.false_ne_true]
  split
  · rfl
  · split <;> rfl

/-- When another tab goes, the active index follows the active tab. -/
theorem active_eraseIdx (hactive : w.activeTab < w.tabs.length) (hi : i < w.tabs.length)
    (hne : i ≠ w.activeTab) :
    let after := Workspace.adjustActiveTabAfterRemoval { w with tabs := w.tabs.eraseIdx i } i
    after.tabs[after.activeTab]? = w.tabs[w.activeTab]? := by
  intro after
  have hlength : (w.tabs.eraseIdx i).length = w.tabs.length - 1 := List.length_eraseIdx_of_lt hi
  have hrest : w.tabs.eraseIdx i ≠ [] := by
    apply List.ne_nil_of_length_pos
    omega
  -- below the removed tab the index stays, above it it goes down by one
  have hindex : after.activeTab = if i < w.activeTab then w.activeTab - 1 else w.activeTab := by
    have hadjust := activeTab_adjust (w := { w with tabs := w.tabs.eraseIdx i }) hrest i
    dsimp only at hadjust
    rw [hlength] at hadjust
    show (Workspace.adjustActiveTabAfterRemoval _ i).activeTab = _
    rw [hadjust]
    split_ifs <;> omega
  show (Workspace.adjustActiveTabAfterRemoval _ i).tabs[after.activeTab]? = _
  rw [tabs_adjustActiveTabAfterRemoval]
  dsimp only
  rw [hindex, List.getElem?_eraseIdx]
  split_ifs
  · omega
  · rw [Nat.sub_add_cancel (by omega)]
  · rfl
  · omega

/-- Two tabs of a workspace that share a pane are one tab. -/
theorem TabsValid.eq_of_pane {next : Nat} (h : TabsValid tabs next) {a b : Tab} (ha : a ∈ tabs)
    (hb : b ∈ tabs) (hida : id ∈ a.layout.paneIds) (hidb : id ∈ b.layout.paneIds) : a = b := by
  obtain ⟨i, hi⟩ := List.getElem?_of_mem ha
  have hfront := h.perm (perm_of_getElem? hi)
  rcases List.mem_cons.mp ((perm_of_getElem? hi).mem_iff.mp hb) with rfl | hrest
  · rfl
  · exact absurd (mem_panesOf.mpr ⟨b, hrest, hidb⟩) (hfront.disjoint hida)

/-! ### One lemma for each operation -/

theorem findTabIndexForPane_spec (h : Valid w away) (id : PaneId) :
    w.findTabIndexForPane id = none ∨
      ∃ i tab, w.findTabIndexForPane id = some i ∧ w.tabs[i]? = some tab ∧
        id ∈ tab.layout.paneIds := by
  cases hfind : w.findTabIndexForPane id with
  | none => exact .inl rfl
  | some i =>
    obtain ⟨hlt, hkey, -⟩ := List.findIdx?_eq_some_iff_getElem.mp hfind
    have hi : w.tabs[i]? = some w.tabs[i] := List.getElem?_eq_getElem hlt
    exact .inr ⟨i, w.tabs[i], rfl, hi, ((h.tab hi).leaves id).mpr hkey⟩

/-- A pane that is in no tab and not away is registered with the next number. -/
theorem Valid.register_eq (h : Valid w []) (hfresh : id ∉ panesOf w.tabs) (next : Nat)
    (tabs : List Tab) :
    ({ w with tabs := tabs, nextPublicTabNumber := next } : Workspace).registerNewPaneWithNumber id
        w.nextPublicPaneNumber
      = ({ w with tabs := tabs, nextPublicTabNumber := next } : Workspace).registerIfNew id := by
  have hunknown : ¬ w.publicPaneNumbers.containsKey id = true := by
    rw [h.registered]
    rintro (hmem | hmem)
    · exact hfresh hmem
    · cases hmem
  rw [Workspace.registerIfNew, if_neg hunknown]

theorem createTab_spec (h : Valid w []) {spawn : Spawn} (hfresh : spawn.paneId ∉ panesOf w.tabs) :
    ∃ after result, w.createTab spawn = some (after, result) ∧ Valid after [] ∧
      Follows w after := by
  have hactive := List.getElem?_eq_getElem (h.active (h.nonempty rfl))
  unfold Workspace.createTab
  dsimp only
  rw [hactive]
  cases hterminal : spawn.terminal with
  | none =>
    -- the number of the tab is gone, and nothing else has changed
    refine ⟨_, none, rfl, ⟨h.tabs.mono (Nat.le_succ _), Nat.succ_pos _, h.registered,
      h.away_not_mem, h.numbering, h.active, h.active_zero, h.nonempty⟩,
      ⟨.refl _ _, Nat.le_succ _, fun tab hmem _ => h.carries_of_mem hmem⟩⟩
  | some terminalId =>
    dsimp only
    rw [h.register_eq hfresh (w.nextPublicTabNumber + 1) w.tabs]
    refine ⟨_, _, rfl, ?_⟩
    exact h.pushTab (tabValid_new _ spawn.paneId terminalId) rfl rfl hfresh (by simp)

theorem createTabFromExistingPane_spec (h : Valid w away) (moved : MovedPane)
    (label : Option String) (hfresh : moved.paneId ∉ panesOf w.tabs)
    (haway : ∀ other ∈ away, other = moved.paneId) :
    Valid (w.createTabFromExistingPane moved label).1 [] ∧
      Follows w (w.createTabFromExistingPane moved label).1 :=
  h.pushTab (tabValid_fromExistingPane _ label moved) rfl rfl hfresh haway

theorem splitPane_spec (h : Valid w []) (paneId : PaneId) (direction : Direction)
    (ratio : Option F32) (focusNewPane : Bool) {spawn : Spawn}
    (hfresh : spawn.paneId ∉ panesOf w.tabs) :
    ∃ after result, w.splitPane paneId direction ratio focusNewPane spawn = some (after, result) ∧
      Valid after [] ∧ Follows w after := by
  unfold Workspace.splitPane
  obtain hfind | ⟨i, tab, hfind, hi, -⟩ := findTabIndexForPane_spec h paneId
  · rw [hfind]
    exact ⟨w, _, rfl, h, .refl h⟩
  · have hnew : spawn.paneId ∉ tab.layout.paneIds :=
      fun hmem => hfresh ((mem_panesOf_iff hi _).mpr (.inl hmem))
    obtain ⟨after, result, heq, htab, hnumber, hpanes⟩ :=
      splitPaneWithRuntime_spec (h.tab hi) paneId focusNewPane direction ratio hnew
    rw [hfind]
    dsimp only
    rw [hi, Option.bind_eq_bind, Option.bind_some, heq]
    obtain ⟨rfl, hsame⟩ | ⟨rfl, hadded⟩ := hpanes
    · exact ⟨_, _, rfl, h.setTab hi htab hnumber hsame⟩
    · refine ⟨_, _, rfl, ?_⟩
      rw [h.register_eq hfresh w.nextPublicTabNumber]
      exact h.addPane hi htab hnumber hadded hfresh (by simp)

theorem insertMovedPaneIntoTab_spec (h : Valid w away) (tabIdx : Nat) (target : PaneId)
    (moved : MovedPane) (direction : Direction) (ratio : F32) (focus : Bool)
    (hfresh : moved.paneId ∉ panesOf w.tabs) (haway : ∀ other ∈ away, other = moved.paneId) :
    ∃ after result, w.insertMovedPaneIntoTab tabIdx target moved direction ratio focus
        = (after, result) ∧ Follows w after ∧
      (result = .error moved ∧ Valid after away ∨ result = .ok moved.paneId ∧ Valid after []) := by
  unfold Workspace.insertMovedPaneIntoTab
  cases hi : w.tabs[tabIdx]? with
  | none => exact ⟨w, _, rfl, .refl h, .inl ⟨rfl, h⟩⟩
  | some tab =>
    dsimp only
    obtain heq | ⟨after, heq, htab, hnumber, hadded⟩ :=
      insertExistingPane_spec (h.tab hi) target moved direction ratio focus
    · obtain ⟨hvalid, hfollows⟩ := h.setTab hi (h.tab hi) rfl (fun _ => Iff.rfl)
      rw [heq]
      exact ⟨_, _, rfl, hfollows, .inl ⟨rfl, hvalid⟩⟩
    · obtain ⟨hvalid, hfollows⟩ := h.addPane hi htab hnumber hadded hfresh haway
      rw [heq]
      exact ⟨_, _, rfl, hfollows, .inr ⟨rfl, hvalid⟩⟩

/-- Giving numbers back before or after the active index is adjusted is the same. -/
theorem adjust_foldl_unregisterPane (ids : List PaneId) (w : Workspace) (i : Nat) :
    (ids.foldl Workspace.unregisterPane w).adjustActiveTabAfterRemoval i
      = ids.foldl Workspace.unregisterPane (w.adjustActiveTabAfterRemoval i) := by
  rw [foldl_unregisterPane, foldl_unregisterPane]
  unfold Workspace.adjustActiveTabAfterRemoval
  dsimp only
  split
  · rfl
  · split
    · rfl
    · split <;> rfl

/-- A tab goes together with the numbers of its panes. -/
theorem Valid.closeTabAt (h : Valid w []) {tab : Tab} (hi : w.tabs[i]? = some tab)
    (hlen : 1 < w.tabs.length) (ids : List PaneId)
    (hids : ∀ id, id ∈ ids ↔ id ∈ tab.layout.paneIds) :
    let after := (ids.foldl Workspace.unregisterPane
      { w with tabs := w.tabs.eraseIdx i }).adjustActiveTabAfterRemoval i
    Valid after [] ∧ Follows w after ∧
      (i ≠ w.activeTab → after.tabs[after.activeTab]? = w.tabs[w.activeTab]?) := by
  intro after
  have hafter : after = ids.foldl Workspace.unregisterPane
      (Workspace.adjustActiveTabAfterRemoval { w with tabs := w.tabs.eraseIdx i } i) :=
    adjust_foldl_unregisterPane ids _ i
  obtain ⟨hlt, -⟩ := List.getElem?_eq_some_iff.mp hi
  have hne : (Workspace.adjustActiveTabAfterRemoval { w with tabs := w.tabs.eraseIdx i } i).tabs
      ≠ [] := by
    rw [tabs_adjustActiveTabAfterRemoval]
    apply List.ne_nil_of_length_pos
    rw [List.length_eraseIdx_of_lt hlt]
    omega
  obtain ⟨hdropped, hfollows⟩ := h.dropTab hi
  obtain ⟨hvalid, hreuse⟩ := hdropped.unregister ids hids hne
  rw [hafter]
  refine ⟨hvalid, hfollows.then_numbers ?_ ?_ ?_, fun hother => ?_⟩
  · rw [foldl_unregisterPane] at hreuse ⊢
    exact hreuse
  · rw [foldl_unregisterPane]
  · rw [foldl_unregisterPane]
  · rw [foldl_unregisterPane]
    exact active_eraseIdx (h.active (h.nonempty rfl)) hlt hother

/-- The rule for the active index, as `closeTab`, `closePane` and `removePane` write it. -/
theorem adjust_eq_ite (hne : w.tabs ≠ []) (i : Nat) {ρ : Type} (answer : ρ) :
    (if w.activeTab ≥ w.tabs.length then
        (({ w with activeTab := w.tabs.length - 1 }, answer) : Workspace × ρ)
      else if i ≤ w.activeTab ∧ w.activeTab > 0 then
        ({ w with activeTab := w.activeTab - 1 }, answer)
      else (w, answer)) = (w.adjustActiveTabAfterRemoval i, answer) := by
  rw [adjustActiveTabAfterRemoval_eq, activeTab_adjust hne]
  split
  · rfl
  · split <;> rfl

theorem closeTab_spec (h : Valid w []) (idx : Nat) :
    Valid (w.closeTab idx).1 [] ∧ Follows w (w.closeTab idx).1 ∧
      (idx ≠ w.activeTab →
        (w.closeTab idx).1.tabs[(w.closeTab idx).1.activeTab]? = w.tabs[w.activeTab]?) := by
  unfold Workspace.closeTab
  split
  · exact ⟨h, .refl h, fun _ => rfl⟩
  next hlen =>
    cases hi : w.tabs[idx]? with
    | none => exact ⟨h, .refl h, fun _ => rfl⟩
    | some tab =>
      obtain ⟨hlt, -⟩ := List.getElem?_eq_some_iff.mp hi
      have hids : ∀ id, id ∈ tab.panes.keys ↔ id ∈ tab.layout.paneIds := by
        intro id
        rw [(h.tab hi).leaves, HashMap.mem_keys_iff]
      have hne : (tab.panes.keys.foldl Workspace.unregisterPane
          { w with tabs := w.tabs.eraseIdx idx }).tabs ≠ [] := by
        rw [foldl_unregisterPane]
        apply List.ne_nil_of_length_pos
        dsimp only
        rw [List.length_eraseIdx_of_lt hlt]
        omega
      dsimp only
      rw [adjust_eq_ite hne]
      exact h.closeTabAt hi (by omega) _ hids

/-- The only pane of a tab. -/
theorem paneIds_eq_singleton {tab : Tab} (hmem : id ∈ tab.layout.paneIds)
    (hcount : tab.layout.paneCount ≤ 1) : tab.layout.paneIds = [id] := by
  have hlen : tab.layout.paneIds.length ≤ 1 := by
    rw [TileLayout.paneCount, Layout.countPanes_eq_length] at hcount
    exact hcount
  cases hids : tab.layout.paneIds with
  | nil =>
    rw [hids] at hmem
    cases hmem
  | cons first rest =>
    rw [hids, List.length_cons] at hlen
    obtain rfl : rest = [] := List.length_eq_zero_iff.mp (by omega)
    rw [hids, List.mem_singleton] at hmem
    rw [hmem]

theorem closePaneWith_spec (h : Valid w []) (paneId : PaneId) :
    ∃ after result, w.closePaneWith paneId Tab.detachPane = some (after, result) ∧
      Valid after [] ∧ Follows w after ∧
      (w.findTabIndexForPane paneId ≠ some w.activeTab →
        after.tabs[after.activeTab]? = w.tabs[w.activeTab]?) := by
  unfold Workspace.closePaneWith
  obtain hfind | ⟨i, tab, hfind, hi, hmem⟩ := findTabIndexForPane_spec h paneId
  · rw [hfind]
    exact ⟨w, _, rfl, h, .refl h, fun _ => rfl⟩
  · rw [hfind]
    dsimp only
    rw [hi, Option.bind_eq_bind, Option.bind_some]
    split
    next hcount =>
      split
      · exact ⟨w, _, rfl, h, .refl h, fun _ => rfl⟩
      next hlen =>
        -- the tab goes with its only pane
        obtain ⟨hlt, -⟩ := List.getElem?_eq_some_iff.mp hi
        have hids : ∀ id, id ∈ [paneId] ↔ id ∈ tab.layout.paneIds := by
          rw [paneIds_eq_singleton hmem hcount]
          exact fun _ => Iff.rfl
        have hne : (Workspace.unregisterPane { w with tabs := w.tabs.eraseIdx i } paneId).tabs
            ≠ [] := by
          apply List.ne_nil_of_length_pos
          show 0 < (w.tabs.eraseIdx i).length
          rw [List.length_eraseIdx_of_lt hlt]
          omega
        obtain ⟨hvalid, hfollows, hactive⟩ := h.closeTabAt hi (by omega) [paneId] hids
        refine
            ⟨_, false, ?_, hvalid, hfollows, fun hother => hactive (fun heq => hother (heq ▸ rfl))⟩
        have hite := adjust_eq_ite hne i false
        rw [List.foldl_cons, List.foldl_nil, ← hite]
        split_ifs <;> rfl
    next hcount =>
      obtain ⟨after, terminalId, heq, hleaves⟩ := detachPane_spec (h.tab hi) hmem (by omega)
      obtain ⟨hleft, hfollows⟩ := h.leaveTab hi hmem hleaves
      have hne : w.tabs.set i after ≠ [] := by
        rw [Ne, List.set_eq_nil_iff]
        exact h.nonempty rfl
      obtain ⟨hvalid, hreuse⟩ := hleft.unregister [paneId] (fun _ => Iff.rfl) hne
      rw [heq]
      refine ⟨_, _, rfl, hvalid, hfollows.then_numbers hreuse rfl rfl, fun hother => ?_⟩
      show (w.tabs.set i after)[w.activeTab]? = _
      rw [List.getElem?_set_ne]
      exact fun heq => hother (heq ▸ rfl)

theorem takePaneForMove_workspace (h : Valid w []) (paneId : PaneId) :
    ∃ after taken, w.takePaneForMove paneId = some (after, taken) ∧
      Valid after (taken.toList.map (·.moved.paneId)) ∧ Follows w after ∧
      (w.findTabIndexForPane paneId ≠ some w.activeTab →
        after.tabs[after.activeTab]? = w.tabs[w.activeTab]?) := by
  unfold Workspace.takePaneForMove
  obtain hfind | ⟨i, tab, hfind, hi, hmem⟩ := findTabIndexForPane_spec h paneId
  · rw [hfind]
    exact ⟨w, none, rfl, h, .refl h, fun _ => rfl⟩
  · rw [hfind]
    obtain ⟨after, state, heq, hleaves⟩ := takePaneForMove_spec (h.tab hi) hmem
    dsimp only
    rw [hi, Option.bind_eq_bind, Option.bind_some, heq, Option.bind_eq_bind, Option.bind_some]
    dsimp only
    split
    next hcount =>
      obtain ⟨hlt, -⟩ := List.getElem?_eq_some_iff.mp hi
      obtain ⟨hvalid, hfollows⟩ := h.dropTab hi
      rw [paneIds_eq_singleton hmem hcount] at hvalid
      refine ⟨_, _, rfl, hvalid, hfollows, fun hother => ?_⟩
      exact active_eraseIdx (h.active (h.nonempty rfl)) hlt (fun heq => hother (heq ▸ rfl))
    next hcount =>
      obtain ⟨hvalid, hfollows⟩ := h.leaveTab hi hmem (hleaves (by omega))
      refine ⟨_, _, rfl, hvalid, hfollows, fun hother => ?_⟩
      show (w.tabs.set i after)[w.activeTab]? = _
      rw [List.getElem?_set_ne]
      exact fun heq => hother (heq ▸ rfl)

/-- The workspace with its tabs in another order and an active index in range. -/
theorem Valid.reorder (h : Valid w []) {active : Nat} (hperm : tabs.Perm w.tabs)
    (hactive : active < tabs.length) : Valid { w with tabs := tabs, activeTab := active } [] ∧
      Follows w { w with tabs := tabs, activeTab := active } := by
  have hne : tabs ≠ [] := by
    apply List.ne_nil_of_length_pos
    omega
  constructor
  · constructor
    · exact h.tabs.perm hperm.symm
    · exact h.nextTab_pos
    · intro id
      rw [h.registered, (panesOf_perm hperm).mem_iff]
    · intro id hid
      cases hid
    · exact h.numbering
    · exact fun _ => hactive
    · exact fun heq => absurd heq hne
    · exact fun _ => hne
  · exact ⟨.refl _ _, le_refl _, fun tab hmem _ => h.carries_of_mem (hperm.mem_iff.mp hmem)⟩

/-- Moving a tab never changes which tab is active: it is found again by its root pane. -/
theorem moveTab_spec (h : Valid w []) (sourceIdx insertIdx : Nat) :
    Valid (w.moveTab sourceIdx insertIdx).1 [] ∧ Follows w (w.moveTab sourceIdx insertIdx).1 ∧
      (w.moveTab sourceIdx insertIdx).1.tabs[(w.moveTab sourceIdx insertIdx).1.activeTab]?
        = w.tabs[w.activeTab]? := by
  unfold Workspace.moveTab
  split
  · exact ⟨h, .refl h, rfl⟩
  cases hi : w.tabs[sourceIdx]? with
  | none => exact ⟨h, .refl h, rfl⟩
  | some tab =>
    dsimp only
    generalize htarget : min (if sourceIdx < insertIdx then insertIdx - 1 else insertIdx)
      (w.tabs.length - 1) = target
    split
    · exact ⟨h, .refl h, rfl⟩
    obtain ⟨hlt, -⟩ := List.getElem?_eq_some_iff.mp hi
    have hinside : target ≤ (w.tabs.eraseIdx sourceIdx).length := by
      rw [List.length_eraseIdx_of_lt hlt]
      omega
    have hperm : ((w.tabs.eraseIdx sourceIdx).insertIdx target tab).Perm w.tabs :=
      (List.perm_insertIdx tab _ hinside).trans (perm_of_getElem? hi).symm
    generalize htabs : (w.tabs.eraseIdx sourceIdx).insertIdx target tab = tabs at hperm ⊢
    have hactiveLt := h.active (h.nonempty rfl)
    have hactive := List.getElem?_eq_getElem hactiveLt
    have hmem : w.tabs[w.activeTab] ∈ tabs := hperm.mem_iff.mpr (List.getElem_mem hactiveLt)
    rw [hactive, Option.map_some, Option.bind_some]
    -- the search for the root pane of the active tab finds that tab, and no other
    cases hfind : tabs.findIdx? (fun other => other.rootPane = w.tabs[w.activeTab].rootPane) with
    | none =>
      have hnone := List.findIdx?_eq_none_iff.mp hfind _ hmem
      simp at hnone
    | some found =>
      obtain ⟨hfoundLt, hroot, -⟩ := List.findIdx?_eq_some_iff_getElem.mp hfind
      obtain ⟨hvalid, hfollows⟩ := h.reorder hperm hfoundLt
      refine ⟨hvalid, hfollows, ?_⟩
      show tabs[found]? = _
      rw [List.getElem?_eq_getElem hfoundLt]
      have hfoundMem : tabs[found] ∈ w.tabs := hperm.mem_iff.mp (List.getElem_mem hfoundLt)
      have hfoundRoot := (h.tabs.each _ hfoundMem).root_mem
      rw [of_decide_eq_true hroot] at hfoundRoot
      exact congrArg some (h.tabs.eq_of_pane hfoundMem (List.getElem_mem hactiveLt) hfoundRoot
        (h.tab hactive).root_mem)

theorem switchTab_spec (h : Valid w []) (idx : Nat) :
    Valid (w.switchTab idx) [] ∧ Follows w (w.switchTab idx) := by
  unfold Workspace.switchTab
  cases hi : w.tabs[idx]? with
  | none => exact ⟨h, .refl h⟩
  | some tab =>
    obtain ⟨hlt, -⟩ := List.getElem?_eq_some_iff.mp hi
    dsimp only
    generalize hpanes : tab.panes.mapValues (fun _ pane => { pane with seen := true }) = panes
    have htab : TabValid { tab with panes := panes } := by
      refine ⟨(h.tab hi).coherent, fun id => ?_, (h.tab hi).root_mem⟩
      rw [← hpanes, HashMap.containsKey_mapValues]
      exact (h.tab hi).leaves id
    obtain ⟨hvalid, hfollows⟩ := h.setTab hi htab rfl (fun _ => Iff.rfl)
    have hin : idx < (w.tabs.set idx { tab with panes := panes }).length := by
      rw [List.length_set]
      exact hlt
    obtain ⟨hlast, -⟩ := hvalid.reorder (List.Perm.refl _) hin
    exact ⟨hlast, hfollows.panes, hfollows.nextTab_le, hfollows.tabs⟩

/-! ### The run -/

open WorkspaceRun (Op)

/-- A workspace a run starts from: one pane, fresh or moved here from another workspace. -/
def Start (run : WorkspaceRun) : Prop :=
  run.held = none ∧
    ((∃ id spawn, Workspace.new id spawn = some run.workspace) ∨
      ∃ id label tabLabel moved,
        run.workspace = Workspace.fromExistingPane id label tabLabel moved)

/-- A moved pane is the one that was taken here, or comes from another workspace. -/
def Incoming (run : WorkspaceRun) (moved : MovedPane) : Prop :=
  run.held = some moved ∨ run.held = none ∧ moved.paneId ∉ panesOf run.workspace.tabs

/-- The calls the callers make. `PaneId::alloc` hands out fresh ids. A pane that was taken is
put back or given away before anything else happens (`app/api/panes.rs`), and a workspace that
lost its last pane to another one is dropped, not called again. -/
def Allowed (run : WorkspaceRun) : Op → Prop
  | .createTab spawn | .splitPane _ _ _ _ spawn =>
      run.held = none ∧ spawn.paneId ∉ panesOf run.workspace.tabs
  | .insertMovedPaneIntoTab _ _ moved _ _ _ | .createTabFromExistingPane moved _ =>
      Incoming run moved
  | .unregisterMovedPane paneId =>
      run.held.map MovedPane.paneId = some paneId ∧ run.workspace.tabs ≠ []
  | _ => run.held = none

/-- The panes that are away: the held one. -/
def awayOf (held : Option MovedPane) : List PaneId := held.toList.map MovedPane.paneId

/-- Closing or moving a tab other than the active one leaves the same tab active. -/
def ActiveKept (before : Workspace) (op : Op) (after : Workspace) : Prop :=
  let same := after.tabs[after.activeTab]? = before.tabs[before.activeTab]?
  match op with
  | .closeTab idx => idx ≠ before.activeTab → same
  | .moveTab _ _ => same
  | .closePane paneId | .removePane paneId | .takePaneForMove paneId =>
      before.findTabIndexForPane paneId ≠ some before.activeTab → same
  | _ => True

theorem valid_single {tab : Tab} (htabs : w.tabs = [tab]) (htab : TabValid tab)
    (hmem : tab.layout.paneIds = [id]) (hnumber : tab.number = 1)
    (hnumbers : w.publicPaneNumbers = HashMap.insert ∅ id 1) (hpane : w.nextPublicPaneNumber = 2)
    (hnext : w.nextPublicTabNumber = 2) (hactive : w.activeTab = 0) : Valid w [] := by
  have hempty : Numbering (∅ : HashMap PaneId Nat) 1 :=
    ⟨by omega, fun id n hn => (by cases hn), fun a b n ha => (by cases ha)⟩
  constructor
  · rw [htabs, hnext]
    apply TabsValid.cons ⟨by simp, by simp, by simp, by simp⟩ htab (by simp) (by simp)
    omega
  · omega
  · intro other
    rw [hnumbers, HashMap.containsKey_singleton, htabs, panesOf_cons, hmem]
    simp
  · intro other hother
    cases hother
  · rw [hnumbers, hpane]
    exact hempty.insert_next id
  · intro _
    rw [hactive, htabs]
    exact Nat.one_pos
  · exact fun _ => hactive
  · intro _
    rw [htabs]
    exact List.cons_ne_nil _ _

theorem Start.valid {run : WorkspaceRun} (h : Start run) :
    Valid run.workspace (awayOf run.held) := by
  obtain ⟨hheld, ⟨id, spawn, hnew⟩ | ⟨id, label, tabLabel, moved, hnew⟩⟩ := h
  · rw [hheld]
    obtain ⟨terminalId, -, hworkspace⟩ := Option.map_eq_some_iff.mp hnew
    rw [← hworkspace]
    exact valid_single rfl (tabValid_new 1 spawn.paneId terminalId) rfl rfl rfl rfl rfl rfl
  · rw [hheld, hnew]
    exact valid_single rfl (tabValid_fromExistingPane 1 tabLabel moved) rfl rfl rfl rfl rfl rfl

/-- A moved pane is in no tab, and nothing but it is away. -/
theorem Incoming.fresh {run : WorkspaceRun} {moved : MovedPane} (h : Incoming run moved)
    (hvalid : Valid run.workspace (awayOf run.held)) :
    moved.paneId ∉ panesOf run.workspace.tabs ∧
      ∀ other ∈ awayOf run.held, other = moved.paneId := by
  obtain hheld | ⟨hheld, hfresh⟩ := h
  · rw [hheld] at hvalid ⊢
    exact ⟨hvalid.away_not_mem _ List.mem_cons_self, fun other => List.mem_singleton.mp⟩
  · rw [hheld]
    exact ⟨hfresh, fun other hother => (by cases hother)⟩

/-- One call keeps the invariant, the numbers and the active tab. -/
theorem step_spec {run : WorkspaceRun} (h : Valid run.workspace (awayOf run.held)) {op : Op}
    (hop : Allowed run op) :
    ∃ after, run.step op = some (after, ()) ∧ Valid after.workspace (awayOf after.held) ∧
      Follows run.workspace after.workspace ∧ ActiveKept run.workspace op after.workspace := by
  obtain ⟨w, held⟩ := run
  cases op with
  | createTab spawn =>
    obtain ⟨rfl, hfresh⟩ : held = none ∧ _ := hop
    obtain ⟨after, result, heq, hvalid, hfollows⟩ := createTab_spec h hfresh
    exact ⟨⟨after, none⟩, by simp [WorkspaceRun.step, heq], hvalid, hfollows, trivial⟩
  | splitPane paneId direction ratio focusNewPane spawn =>
    obtain ⟨rfl, hfresh⟩ : held = none ∧ _ := hop
    obtain ⟨after, result, heq, hvalid, hfollows⟩ :=
      splitPane_spec h paneId direction ratio focusNewPane hfresh
    exact ⟨⟨after, none⟩, by simp [WorkspaceRun.step, heq], hvalid, hfollows, trivial⟩
  | closePane paneId =>
    obtain rfl : held = none := hop
    obtain ⟨after, result, heq, hvalid, hfollows, hactive⟩ := closePaneWith_spec h paneId
    have heq' : w.closePane paneId = some (after, result) := heq
    exact ⟨⟨after, none⟩, by simp [WorkspaceRun.step, heq'], hvalid, hfollows, hactive⟩
  | removePane paneId =>
    obtain rfl : held = none := hop
    obtain ⟨after, result, heq, hvalid, hfollows, hactive⟩ := closePaneWith_spec h paneId
    have heq' : w.removePane paneId = some (after, result) := heq
    exact ⟨⟨after, none⟩, by simp [WorkspaceRun.step, heq'], hvalid, hfollows, hactive⟩
  | closeTab idx =>
    obtain rfl : held = none := hop
    exact ⟨_, rfl, closeTab_spec h idx⟩
  | moveTab sourceIdx insertIdx =>
    obtain rfl : held = none := hop
    exact ⟨_, rfl, moveTab_spec h sourceIdx insertIdx⟩
  | switchTab idx =>
    obtain rfl : held = none := hop
    obtain ⟨hvalid, hfollows⟩ := switchTab_spec h idx
    exact ⟨_, rfl, hvalid, hfollows, trivial⟩
  | takePaneForMove paneId =>
    obtain rfl : held = none := hop
    obtain ⟨after, taken, heq, hvalid, hfollows, hactive⟩ := takePaneForMove_workspace h paneId
    refine ⟨⟨after, taken.map TakenPane.moved⟩, by simp [WorkspaceRun.step, heq], ?_, hfollows,
      hactive⟩
    cases taken with
    | none => exact hvalid
    | some taken => exact hvalid
  | insertMovedPaneIntoTab tabIdx target moved direction ratio focus =>
    obtain ⟨hfresh, haway⟩ := Incoming.fresh hop h
    obtain ⟨after, result, heq, hfollows, hresult⟩ :=
      insertMovedPaneIntoTab_spec h tabIdx target moved direction ratio focus hfresh haway
    have heq' : w.insertMovedPaneIntoTab tabIdx target moved direction ratio focus
        = (after, result) := heq
    obtain ⟨rfl, hvalid⟩ | ⟨rfl, hvalid⟩ := hresult
    · exact ⟨⟨after, held⟩, by simp [WorkspaceRun.step, heq'], hvalid, hfollows, trivial⟩
    · exact ⟨⟨after, none⟩, by simp [WorkspaceRun.step, heq'], hvalid, hfollows, trivial⟩
  | createTabFromExistingPane moved label =>
    obtain ⟨hfresh, haway⟩ := Incoming.fresh hop h
    obtain ⟨hvalid, hfollows⟩ := createTabFromExistingPane_spec h moved label hfresh haway
    exact ⟨_, rfl, hvalid, hfollows, trivial⟩
  | unregisterMovedPane paneId =>
    obtain ⟨hheld, hne⟩ : held.map MovedPane.paneId = some paneId ∧ _ := hop
    obtain ⟨moved, rfl, rfl⟩ := Option.map_eq_some_iff.mp hheld
    obtain ⟨hvalid, hreuse⟩ := h.unregister [moved.paneId] (fun _ => Iff.rfl) hne
    exact ⟨_, rfl, hvalid, (Follows.refl h).then_numbers hreuse rfl rfl, trivial⟩

/-- What a run keeps of the numbers: a pane number stays with its pane, and a tab number that
no tab carries any more is not used again. -/
def NumbersKept (before after : Workspace) : Prop :=
  (∀ paneId paneId' n, before.publicPaneNumbers.get paneId = some n →
    after.publicPaneNumbers.get paneId' = some n → paneId' = paneId) ∧
  ∀ tab ∈ after.tabs, tab.number < before.nextPublicTabNumber →
    ∃ old ∈ before.tabs, old.number = tab.number

/-- The invariant of a run: whatever a later state has of an earlier one's numbers. -/
theorem numbersKept_of_reachable {before after : WorkspaceRun}
    (hbefore : Valid before.workspace (awayOf before.held))
    (h : Reachable (· = before) Allowed WorkspaceRun.step after) :
    NumbersKept before.workspace after.workspace := by
  have hinv := h.invariant
    (fun run => Valid run.workspace (awayOf run.held) ∧
      NoReuse before.workspace.publicPaneNumbers before.workspace.nextPublicPaneNumber
        run.workspace.publicPaneNumbers run.workspace.nextPublicPaneNumber ∧
      before.workspace.nextPublicTabNumber ≤ run.workspace.nextPublicTabNumber ∧
      ∀ tab ∈ run.workspace.tabs, tab.number < before.workspace.nextPublicTabNumber →
        ∃ old ∈ before.workspace.tabs, old.number = tab.number)
    (by
      rintro _ rfl
      exact ⟨hbefore, .refl _ _, le_refl _, fun tab hmem _ => ⟨tab, hmem, rfl⟩⟩)
    (by
      rintro run op next answer hop hstep ⟨hvalid, hreuse, hle, htabs⟩
      obtain ⟨after', heq, hvalid', hfollows, -⟩ := step_spec hvalid hop
      rw [hstep] at heq
      cases heq
      refine ⟨hvalid', hreuse.trans hfollows.panes, hle.trans hfollows.nextTab_le, ?_⟩
      intro tab hmem hlt
      -- back to the state before the call, and from there to the first one
      obtain ⟨old, hold, hnumber, -⟩ := hfollows.tabs tab hmem (Nat.lt_of_lt_of_le hlt hle)
      obtain ⟨oldest, holdest, heq⟩ := htabs old hold (hnumber ▸ hlt)
      exact ⟨oldest, holdest, heq.trans hnumber⟩)
  obtain ⟨-, hreuse, -, htabs⟩ := hinv
  refine ⟨fun paneId paneId' n hget hget' => ?_, htabs⟩
  exact hreuse.key_eq hbefore.numbering hget hget'

/-- Every reachable workspace is valid while no pane is on its way, every later state keeps its
numbers, and every call the callers make succeeds, gives no tab the number of another one, and
leaves the active tab active when it closes or moves another tab. -/
theorem reachable_valid {run : WorkspaceRun}
    (h : Reachable Start Allowed WorkspaceRun.step run) :
    (run.held = none → Valid run.workspace []) ∧
      (∀ later, Reachable (· = run) Allowed WorkspaceRun.step later →
        NumbersKept run.workspace later.workspace) ∧
      ∀ op, Allowed run op → ∃ after, run.step op = some (after, ()) ∧
        Follows run.workspace after.workspace ∧
        ActiveKept run.workspace op after.workspace := by
  have hvalid : Valid run.workspace (awayOf run.held) := by
    apply h.invariant (fun run => Valid run.workspace (awayOf run.held))
    · exact fun _ hstart => hstart.valid
    · intro before op after answer hop hstep hbefore
      obtain ⟨after', heq, hafter, -⟩ := step_spec hbefore hop
      rw [hstep] at heq
      cases heq
      exact hafter
  refine ⟨fun hheld => ?_, fun later => numbersKept_of_reachable hvalid, fun op hop => ?_⟩
  · rw [hheld] at hvalid
    exact hvalid
  · obtain ⟨after, heq, -, hfollows, hactive⟩ := step_spec hvalid hop
    exact ⟨after, heq, hfollows, hactive⟩

/-- A tab whose runtime does not start, a tab that does, and the pane of the first tab taken
out and put into a tab of its own: the numbers 2 and 1 of the tabs are gone, and the pane has
kept its number. -/
theorem reachable_valid_moved_pane :
    ∃ run : WorkspaceRun, Valid run.workspace [] ∧ run.workspace.tabs.map Tab.number = [3, 4] ∧
      run.workspace.publicPaneNumbers.get ⟨1⟩ = some 1 := by
  have start : Reachable Start Allowed WorkspaceRun.step ⟨_, none⟩ :=
    .start ⟨rfl, .inl ⟨"w1", ⟨⟨1⟩, some "t1"⟩, rfl⟩⟩
  have failed := start.next (Op.createTab ⟨⟨2⟩, none⟩) ⟨rfl, by decide⟩ rfl
  have created := failed.next (Op.createTab ⟨⟨3⟩, some "t3"⟩) ⟨rfl, by decide⟩ rfl
  have taken := created.next (Op.takePaneForMove ⟨1⟩) (Eq.refl none) rfl
  have back := taken.next (Op.createTabFromExistingPane ⟨⟨1⟩, .new "t1"⟩ none) (.inl rfl) rfl
  exact ⟨_, (reachable_valid back).1 rfl, rfl, rfl⟩

end Herden.Proofs.Workspace
