import Mathlib.Data.Finset.Card
import Herden.Proofs.PublicId
import Herden.Proofs.Workspace
import Herden.Runtime.Persist

/-!
# `Herden.Proofs.Persist`: a restored session keeps its public identity

`restore_capture` says what is left of a session that was saved and restored. The pane ids are
all new, so old and new panes are compared by their place in the leaf order: `RestoredTab` and
`RestoredWorkspace` pair the leaves of the two trees.

Restoring hands out consecutive ids (`freshIds`). There are `2 ^ 32` of them and no more old
leaves than that in one workspace, so the new ids of a workspace are distinct. The maps between
old and new ids are then inverse to each other (`get_idMapOf`, `get_reverseIdMapOf`), and every
pane finds the number of the pane at its place.

The id counter has 64 bits. `restored_id_handed_out_again` is the session whose ids reach its
end.
-/

namespace Herden.Proofs.Persist

open Herden.Lib
open Herden.Runtime
open Herden.Runtime.Layout
open Herden.Runtime.Persist
open Herden.Proofs.Layout (Coherent RatiosInRange)
open Herden.Proofs.Workspace (Valid TabValid TabsValid panesOf)

/-! ### Fresh pane ids -/

/-- The next `n` ids that `PaneId::alloc` hands out. -/
def freshIds (next : UInt32) : Nat → List PaneId
  | 0 => []
  | n + 1 => ⟨next⟩ :: freshIds (next + 1) n

@[simp] theorem length_freshIds (next : UInt32) (n : Nat) : (freshIds next n).length = n := by
  induction n generalizing next with
  | zero => rfl
  | succ n ih => rw [freshIds, List.length_cons, ih]

theorem freshIds_add (next : UInt32) (a b : Nat) :
    freshIds next (a + b) = freshIds next a ++ freshIds (next + UInt32.ofNat a) b := by
  induction a generalizing next with
  | zero =>
    rw [Nat.zero_add, show UInt32.ofNat 0 = 0 from rfl, UInt32.add_zero]
    rfl
  | succ a ih =>
    rw [Nat.succ_add, freshIds, ih, freshIds, List.cons_append, UInt32.ofNat_add,
      show UInt32.ofNat 1 = 1 from rfl, UInt32.add_comm (UInt32.ofNat a) 1, UInt32.add_assoc]

variable {id : PaneId} {new old : List PaneId} {outcome : PaneId → Option TerminalId}
  {tabs tabs' : List Tab} {w : Workspace}

variable {n : Nat} {pair : PaneId × PaneId} {node : Node} {numberOf : PaneId → Nat}

theorem mem_freshIds {next : UInt32} (h : id ∈ freshIds next n) :
    ∃ i, i < n ∧ id.raw.toNat = (next.toNat + i) % 2 ^ 32 := by
  induction n generalizing next with
  | zero => cases h
  | succ n ih =>
    rcases List.mem_cons.mp h with rfl | h
    · exact ⟨0, by omega, (Nat.mod_eq_of_lt next.toNat_lt).symm⟩
    · obtain ⟨i, hi, heq⟩ := ih h
      refine ⟨i + 1, by omega, ?_⟩
      rw [heq, UInt32.toNat_add]
      show ((next.toNat + 1) % 2 ^ 32 + i) % 2 ^ 32 = _
      omega

/-- The counter comes round after `2 ^ 32` ids, so fewer are distinct. -/
theorem nodup_freshIds (next : UInt32) (hn : n ≤ 2 ^ 32) : (freshIds next n).Nodup := by
  induction n generalizing next with
  | zero => exact List.nodup_nil
  | succ n ih =>
    refine List.nodup_cons.mpr ⟨fun hmem => ?_, ih (next + 1) (by omega)⟩
    obtain ⟨i, hi, heq⟩ := mem_freshIds hmem
    have hlt := next.toNat_lt
    rw [UInt32.toNat_add] at heq
    have heq' : next.toNat = ((next.toNat + 1) % 2 ^ 32 + i) % 2 ^ 32 := heq
    omega

/-- There are no more than `2 ^ 32` pane ids. -/
theorem length_le_of_nodup {ids : List PaneId} (h : ids.Nodup) : ids.length ≤ 2 ^ 32 := by
  have hinj : Function.Injective (fun id : PaneId => id.raw.toNat) := by
    intro a b hab
    exact congrArg PaneId.mk (UInt32.toNat_inj.mp hab)
  have hsub : (ids.map (fun id => id.raw.toNat)).toFinset ⊆ Finset.range (2 ^ 32) := by
    intro n hn
    obtain ⟨id, -, rfl⟩ := List.mem_map.mp (List.mem_toFinset.mp hn)
    exact Finset.mem_range.mpr id.raw.toNat_lt
  have hcard := Finset.card_le_card hsub
  rw [List.toFinset_card_of_nodup (h.map hinj), List.length_map, Finset.card_range] at hcard
  exact hcard

/-! ### Trees under new ids -/

/-- Two trees with the same splits, directions and ratios. -/
def SameShape : Node → Node → Prop
  | .pane _, .pane _ => True
  | .split direction ratio first second, .split direction' ratio' first' second' =>
      direction = direction' ∧ ratio = ratio' ∧ SameShape first first' ∧ SameShape second second'
  | _, _ => False

theorem collectSnapshotIds_captureNode (root : Node) :
    collectSnapshotIds (captureNode root) = (collectIds root).map PaneId.raw := by
  induction root with
  | pane id => rfl
  | split direction ratio first second ihFirst ihSecond =>
    show collectSnapshotIds (captureNode first) ++ collectSnapshotIds (captureNode second) = _
    rw [ihFirst, ihSecond, collectIds, List.map_append]

/-- What `remapInner` builds: fresh ids in leaf order, and the pairs of old and new ids. -/
theorem remapInner_spec (snap : LayoutSnapshot) (next : UInt32) (idMap : HashMap UInt32 PaneId) :
    collectIds (remapInner next idMap snap).1
        = freshIds next (collectSnapshotIds snap).length ∧
      (remapInner next idMap snap).2.1
        = idMap.insertAll ((collectSnapshotIds snap).zip
            (freshIds next (collectSnapshotIds snap).length)) ∧
      (remapInner next idMap snap).2.2
        = next + UInt32.ofNat (collectSnapshotIds snap).length := by
  induction snap generalizing next idMap with
  | pane oldId => exact ⟨rfl, rfl, rfl⟩
  | split direction ratio first second ihFirst ihSecond =>
    obtain ⟨hids, hmap, hnext⟩ := ihFirst next idMap
    obtain ⟨hids', hmap', hnext'⟩ := ihSecond (remapInner next idMap first).2.2
      (remapInner next idMap first).2.1
    rw [hnext] at hids' hmap' hnext'
    rw [hmap] at hmap'
    simp only [remapInner, collectSnapshotIds, collectIds, List.length_append]
    refine ⟨?_, ?_, ?_⟩
    · rw [hnext, hids, hids', freshIds_add]
    · rw [hnext, hmap, hmap', freshIds_add, List.zip_append (length_freshIds _ _).symm,
        HashMap.insertAll_append]
    · rw [hnext, hnext', UInt32.ofNat_add, UInt32.add_assoc]

theorem sameShape_remapInner (root : Node) (next : UInt32) (idMap : HashMap UInt32 PaneId) :
    SameShape root (remapInner next idMap (captureNode root)).1 := by
  induction root generalizing next idMap with
  | pane id => exact trivial
  | split direction ratio first second ihFirst ihSecond =>
    refine ⟨?_, rfl, ihFirst _ _, ihSecond _ _⟩
    cases direction <;> rfl

/-! ### Old and new leaves -/

/-- A pair of leaves stands at one position of both orders. -/
theorem idxOf_eq_of_mem_zip (hold : old.Nodup) (hnew : new.Nodup) (h : pair ∈ old.zip new) :
    new.idxOf pair.2 = old.idxOf pair.1 := by
  obtain ⟨i, hi, heq⟩ := List.mem_iff_getElem.mp h
  rw [List.length_zip] at hi
  rw [List.getElem_zip] at heq
  rw [← heq]
  show new.idxOf new[i] = old.idxOf old[i]
  rw [hnew.idxOf_getElem, hold.idxOf_getElem]

/-- Every old leaf is paired with a new one. -/
theorem exists_pair (hlength : new.length = old.length) (h : id ∈ old) :
    ∃ id', (id, id') ∈ old.zip new := by
  obtain ⟨i, hi, rfl⟩ := List.mem_iff_getElem.mp h
  refine ⟨new[i], List.mem_iff_getElem.mpr ⟨i, ?_, List.getElem_zip⟩⟩
  rw [List.length_zip]
  omega

/-- A new leaf is paired with one old leaf only. -/
theorem fst_eq_of_mem_zip {α : Type} {old : List α} (hnew : new.Nodup) {a b : α}
    (ha : (a, id) ∈ old.zip new) (hb : (b, id) ∈ old.zip new) : a = b := by
  obtain ⟨i, hi, heq⟩ := List.mem_iff_getElem.mp ha
  obtain ⟨j, hj, heq'⟩ := List.mem_iff_getElem.mp hb
  rw [List.length_zip] at hi hj
  rw [List.getElem_zip, Prod.mk.injEq] at heq heq'
  have hij : i = j := (List.Nodup.getElem_inj_iff hnew).mp (heq.2.trans heq'.2.symm)
  subst hij
  exact heq.1.symm.trans heq'.1

/-- The map from the old ids of some leaves to the new ones. -/
def idMapOf (old new : List PaneId) : HashMap UInt32 PaneId :=
  HashMap.insertAll ∅ ((old.map PaneId.raw).zip new)

theorem get_idMapOf (hold : old.Nodup) (hlength : new.length = old.length) (oldRaw : UInt32)
    (id : PaneId) : (idMapOf old new).get oldRaw = some id ↔ (⟨oldRaw⟩, id) ∈ old.zip new := by
  have hkeys : (((old.map PaneId.raw).zip new).map Prod.fst).Nodup := by
    rw [List.map_fst_zip (by rw [List.length_map]; omega)]
    exact hold.map (fun a b hab => congrArg PaneId.mk hab)
  rw [idMapOf, HashMap.get_insertAll_empty hkeys, List.zip_map_left, List.mem_map]
  constructor
  · rintro ⟨⟨⟨raw⟩, id'⟩, hmem, heq⟩
    obtain ⟨rfl, rfl⟩ := Prod.mk.inj heq
    exact hmem
  · intro hmem
    exact ⟨_, hmem, rfl⟩

/-- The map back from the new ids. -/
def reverseIdMapOf (old new : List PaneId) : HashMap PaneId UInt32 :=
  HashMap.insertAll ∅ ((idMapOf old new).entries.map (fun entry => (entry.2, entry.1)))

theorem get_reverseIdMapOf (hold : old.Nodup) (hnew : new.Nodup) (hlength : new.length = old.length)
    (h : pair ∈ old.zip new) : (reverseIdMapOf old new).get pair.2 = some pair.1.raw := by
  rw [reverseIdMapOf, HashMap.get_insertAll_swap, get_idMapOf hold hlength]
  · exact h
  · intro a b id ha hb
    rw [get_idMapOf hold hlength] at ha hb
    exact congrArg PaneId.raw (fst_eq_of_mem_zip hnew ha hb)

/-! ### Restoring a tab -/

/-- When every pane comes back, the panes of the tab are the leaves of its tree. -/
theorem containsKey_restorePanes (houtcome : ∀ id, (outcome id).isSome = true) (ids : List PaneId)
    (id : PaneId) : (restorePanes outcome ids).containsKey id = true ↔ id ∈ ids := by
  have hfold : ∀ (step : HashMap PaneId PaneState → PaneId → HashMap PaneId PaneState),
      (∀ panes first, ∃ state, step panes first = panes.insert first state) →
        ∀ panes, (ids.foldl step panes).containsKey id = true ↔
          id ∈ ids ∨ panes.containsKey id = true := by
    intro step hstep
    induction ids with
    | nil => simp
    | cons first rest ih =>
      intro panes
      obtain ⟨state, hinsert⟩ := hstep panes first
      rw [List.foldl_cons, ih, hinsert, HashMap.containsKey_insert, List.mem_cons, ← or_assoc,
        or_comm (a := id ∈ rest)]
  refine (hfold _ (fun panes first => ?_) ∅).trans ?_
  · obtain ⟨terminalId, hterminal⟩ := Option.isSome_iff_exists.mp (houtcome first)
    exact ⟨.new terminalId, by rw [hterminal]⟩
  · simp [HashMap.containsKey]

theorem pruneRestoredNode_of_all {surviving : PaneId → Bool}
    (h : ∀ id ∈ collectIds node, surviving id = true) :
    pruneRestoredNode surviving node = some node := by
  induction node with
  | pane id => rw [pruneRestoredNode, if_pos (h id List.mem_cons_self)]
  | split direction ratio first second ihFirst ihSecond =>
    rw [pruneRestoredNode, ihFirst (fun id hid => h id (List.mem_append_left _ hid)),
      ihSecond (fun id hid => h id (List.mem_append_right _ hid))]

theorem ratiosInRange_of_sameShape {node' : Node} (h : SameShape node node')
    (hratios : RatiosInRange node) : RatiosInRange node' := by
  induction node generalizing node' with
  | pane id =>
    cases node' with
    | pane _ => exact trivial
    | split => exact h.elim
  | split direction ratio first second ihFirst ihSecond =>
    cases node' with
    | pane _ => exact h.elim
    | split direction' ratio' first' second' =>
      obtain ⟨-, rfl, hfirst, hsecond⟩ := h
      exact ⟨hratios.1, ihFirst hfirst hratios.2.1, ihSecond hsecond hratios.2.2⟩

/-- What restoring keeps of a tab. -/
structure RestoredTab (tab tab' : Tab) : Prop where
  number : tab'.number = tab.number
  customName : tab'.customName = tab.customName
  zoomed : tab'.zoomed = tab.zoomed
  shape : SameShape tab.layout.root tab'.layout.root
  focus : tab'.layout.paneIds.idxOf tab'.layout.focus
    = tab.layout.paneIds.idxOf tab.layout.focus
  rootPane : tab'.layout.paneIds.idxOf tab'.rootPane = tab.layout.paneIds.idxOf tab.rootPane

theorem restoreTab_spec {tab : Tab} (h : TabValid tab) (houtcome : ∀ id, (outcome id).isSome = true)
    (next : UInt32) : ∃ tab', restoreTab (captureTab tab) tab.number outcome next
        = (some (tab', reverseIdMapOf tab.layout.paneIds tab'.layout.paneIds),
            next + UInt32.ofNat tab.layout.paneIds.length) ∧
      tab'.layout.paneIds = freshIds next tab.layout.paneIds.length ∧
      TabValid tab' ∧ RestoredTab tab tab' := by
  -- the tree under new ids, and the pairs of old and new ids
  have hsnapIds : collectSnapshotIds (captureTab tab).layout = tab.layout.paneIds.map PaneId.raw :=
    collectSnapshotIds_captureNode tab.layout.root
  obtain ⟨hids, hidMap, hnext⟩ := remapInner_spec (captureTab tab).layout next ∅
  have hshape := sameShape_remapInner tab.layout.root next ∅
  rw [hsnapIds, List.length_map] at hids hidMap hnext
  generalize hremapped : remapInner next ∅ (captureTab tab).layout = remapped at hids hidMap hnext
  have hshape' : SameShape tab.layout.root remapped.1 := hremapped ▸ hshape
  obtain ⟨node, idMap, next'⟩ := remapped
  have hold := h.coherent.nodup
  have hnew : (collectIds node).Nodup := hids ▸ nodup_freshIds next (length_le_of_nodup hold)
  have hlength : (collectIds node).length = tab.layout.paneIds.length := by
    rw [hids, length_freshIds]
  have hidMap' : idMap = idMapOf tab.layout.paneIds (collectIds node) := by
    rw [idMapOf, hids]
    exact hidMap
  have hpanes := containsKey_restorePanes houtcome (collectIds node)
  -- a leaf of the old tree is found again at its place in the new one
  have hresolve : ∀ id ∈ tab.layout.paneIds, ∃ id',
      resolveRestoredPane (some id.raw) idMap
        (restorePanes outcome (collectIds node)).containsKey (collectIds node) = some id' ∧
      (id, id') ∈ tab.layout.paneIds.zip (collectIds node) := by
    intro id hid
    obtain ⟨id', hpair⟩ := exists_pair hlength hid
    have hget : idMap.get id.raw = some id' := by
      rw [hidMap', get_idMapOf hold hlength]
      exact hpair
    refine ⟨id', ?_, hpair⟩
    rw [resolveRestoredPane, Option.bind_some, hget,
      Option.filter_some_pos ((hpanes id').mpr (List.of_mem_zip hpair).2), Option.some_or]
  obtain ⟨focus, hfocus, hfocusPair⟩ := hresolve _ h.coherent.focus_mem
  obtain ⟨rootPane, hrootPane, hrootPair⟩ := hresolve _ h.root_mem
  have hkeys : (restorePanes outcome (collectIds node)).keys.isEmpty = false := by
    rw [List.isEmpty_eq_false_iff]
    apply List.ne_nil_of_mem (a := focus)
    exact HashMap.mem_keys_iff.mpr ((hpanes focus).mpr (List.of_mem_zip hfocusPair).2)
  refine ⟨{ customName := tab.customName
            number := tab.number
            rootPane := rootPane
            layout := .fromSaved node focus
            panes := restorePanes outcome (collectIds node)
            zoomed := tab.zoomed }, ?_, hids, ?_, ?_⟩
  · have hprune := pruneRestoredNode_of_all (fun id hid => (hpanes id).mpr hid)
    have hreverse : HashMap.insertAll ∅ (idMap.entries.map (fun entry => (entry.2, entry.1)))
        = reverseIdMapOf tab.layout.paneIds (collectIds node) := by rw [reverseIdMapOf, hidMap']
    rw [restoreTab, restoreNodeRemapped, hremapped]
    simp only [hkeys, Bool.false_eq_true, if_false, hprune]
    rw [show (captureTab tab).focused = some tab.layout.focus.raw from rfl,
      show (captureTab tab).rootPane = some tab.rootPane.raw from rfl, hfocus, hrootPane]
    dsimp only
    rw [hreverse, show next' = _ from hnext]
    rfl
  · refine ⟨⟨hnew, (List.of_mem_zip hfocusPair).2, fun prev hprev => (by cases hprev), ?_⟩, ?_,
      (List.of_mem_zip hrootPair).2⟩
    · exact ratiosInRange_of_sameShape hshape' h.coherent.ratios
    · exact fun id => (hpanes id).symm
  · exact ⟨rfl, rfl, rfl, hshape', idxOf_eq_of_mem_zip hold hnew hfocusPair,
      idxOf_eq_of_mem_zip hold hnew hrootPair⟩

/-! ### Restoring a workspace -/

/-- The numbers of the restored panes, by the pairs of old and new ids. -/
def numberEntries (numberOf : PaneId → Nat) (pairs : List (PaneId × PaneId)) :
    List (PaneId × Nat) := pairs.map (fun pair => (pair.2, numberOf pair.1))

/-- Panes whose old ids have numbers below the counter keep them, and the counter stays. -/
theorem foldl_registerRestoredPane {byOldRaw : HashMap UInt32 Nat}
    {reverseIdMap : HashMap PaneId UInt32} {next : Nat} (pairs : List (PaneId × PaneId))
    (hreverse : ∀ pair ∈ pairs, reverseIdMap.get pair.2 = some pair.1.raw)
    (hnumbers : ∀ pair ∈ pairs, byOldRaw.get pair.1.raw = some (numberOf pair.1) ∧
      numberOf pair.1 < next) (numbers : HashMap PaneId Nat) :
    (pairs.map Prod.snd).foldl (registerRestoredPane byOldRaw reverseIdMap) (numbers, next)
      = (numbers.insertAll (numberEntries numberOf pairs), next) := by
  induction pairs generalizing numbers with
  | nil => rfl
  | cons pair rest ih =>
    obtain ⟨hnumber, hlt⟩ := hnumbers pair List.mem_cons_self
    have hmax : max next (numberOf pair.1 + 1) = next := by omega
    have hfirst : registerRestoredPane byOldRaw reverseIdMap (numbers, next) pair.2
        = (numbers.insert pair.2 (numberOf pair.1), next) := by
      rw [registerRestoredPane, hreverse pair List.mem_cons_self, Option.getD_some, hnumber]
      dsimp only
      rw [hmax]
    rw [List.map_cons, List.foldl_cons, hfirst,
      ih (fun pair hpair => hreverse pair (List.mem_cons_of_mem _ hpair))
        (fun pair hpair => hnumbers pair (List.mem_cons_of_mem _ hpair))]
    rfl

/-- The loop over the tabs, from tab number `k` on: each tab comes back under fresh ids, with
its own number and the numbers of its panes. -/
theorem restoreTabs_spec (snap : WorkspaceSnapshot) (byOldRaw : HashMap UInt32 Nat)
    (numberOf : PaneId → Nat) (houtcome : ∀ id, (outcome id).isSome = true) (tabs : List Tab)
    (k : Nat) (state : Restoring) (htabs : ∀ tab ∈ tabs, TabValid tab)
    (htabNumbers : snap.publicTabNumbers.drop k = tabs.map Tab.number)
    (htabRange : ∀ tab ∈ tabs, tab.number < state.nextPublicTabNumber)
    (hnumbers : ∀ id ∈ panesOf tabs, byOldRaw.get id.raw = some (numberOf id) ∧
      numberOf id < state.nextPublicPaneNumber) : ∃ tabs',
      ((tabs.map captureTab).zipIdx k).foldl (restoreTabInto snap byOldRaw outcome) state
        = { tabs := state.tabs ++ tabs'
            publicPaneNumbers := state.publicPaneNumbers.insertAll
              (numberEntries numberOf ((panesOf tabs).zip (panesOf tabs')))
            nextPublicPaneNumber := state.nextPublicPaneNumber
            nextPublicTabNumber := state.nextPublicTabNumber
            nextPaneId := state.nextPaneId + UInt32.ofNat (panesOf tabs).length } ∧
      panesOf tabs' = freshIds state.nextPaneId (panesOf tabs).length ∧
      List.Forall₂ (fun tab tab' => TabValid tab' ∧ RestoredTab tab tab' ∧
        tab'.layout.paneIds.length = tab.layout.paneIds.length) tabs tabs' := by
  induction tabs generalizing k state with
  | nil =>
    refine ⟨[], ?_, rfl, .nil⟩
    show state = _
    rw [List.append_nil, show UInt32.ofNat (panesOf []).length = 0 from rfl, UInt32.add_zero]
    rfl
  | cons tab rest ih =>
    have htab := htabs tab List.mem_cons_self
    obtain ⟨tab', heq, hids, hvalid, hrestored⟩ :=
      restoreTab_spec htab houtcome state.nextPaneId
    have hlength : tab'.layout.paneIds.length = tab.layout.paneIds.length := by
      rw [hids, length_freshIds]
    -- the saved number of the tab
    have hnumber : snap.publicTabNumbers[k]? = some tab.number := by
      have hhead := congrArg List.head? htabNumbers
      rwa [List.head?_drop, List.map_cons, List.head?_cons] at hhead
    -- the numbers of its panes
    have hmem : ∀ pair ∈ tab.layout.paneIds.zip tab'.layout.paneIds,
        pair.1 ∈ panesOf (tab :: rest) := by
      intro pair hpair
      exact List.mem_append_left _ (List.of_mem_zip hpair).1
    have hregister : tab'.layout.paneIds.foldl (registerRestoredPane byOldRaw
          (reverseIdMapOf tab.layout.paneIds tab'.layout.paneIds))
          (state.publicPaneNumbers, state.nextPublicPaneNumber)
        = (state.publicPaneNumbers.insertAll
            (numberEntries numberOf (tab.layout.paneIds.zip tab'.layout.paneIds)),
          state.nextPublicPaneNumber) := by
      rw [← foldl_registerRestoredPane (tab.layout.paneIds.zip tab'.layout.paneIds)
        (fun pair hpair =>
          get_reverseIdMapOf htab.coherent.nodup hvalid.coherent.nodup hlength hpair)
        (fun pair hpair => hnumbers _ (hmem pair hpair)), List.map_snd_zip (by omega)]
    have hmax : max state.nextPublicTabNumber (tab'.number + 1) = state.nextPublicTabNumber := by
      have := htabRange tab List.mem_cons_self
      rw [hrestored.number]
      omega
    have hstep : restoreTabInto snap byOldRaw outcome state (captureTab tab, k)
        = { tabs := state.tabs ++ [tab']
            publicPaneNumbers := state.publicPaneNumbers.insertAll
              (numberEntries numberOf (tab.layout.paneIds.zip tab'.layout.paneIds))
            nextPublicPaneNumber := state.nextPublicPaneNumber
            nextPublicTabNumber := state.nextPublicTabNumber
            nextPaneId := state.nextPaneId + UInt32.ofNat tab.layout.paneIds.length } := by
      rw [restoreTabInto]
      dsimp only
      rw [hnumber, Option.getD_some, heq]
      dsimp only
      rw [hregister, hmax]
    obtain ⟨tabs', hfold, hrestIds, hforall⟩ := ih (k + 1)
      { tabs := state.tabs ++ [tab']
        publicPaneNumbers := state.publicPaneNumbers.insertAll
          (numberEntries numberOf (tab.layout.paneIds.zip tab'.layout.paneIds))
        nextPublicPaneNumber := state.nextPublicPaneNumber
        nextPublicTabNumber := state.nextPublicTabNumber
        nextPaneId := state.nextPaneId + UInt32.ofNat tab.layout.paneIds.length }
      (fun other hother => htabs other (List.mem_cons_of_mem _ hother))
      (by rw [← List.tail_drop, htabNumbers]; rfl)
      (fun other hother => htabRange other (List.mem_cons_of_mem _ hother))
      (fun id hid => hnumbers id (List.mem_append_right _ hid))
    refine ⟨tab' :: tabs', ?_, ?_, .cons ⟨hvalid, hrestored, hlength⟩ hforall⟩
    · rw [List.map_cons, List.zipIdx_cons, List.foldl_cons, hstep, hfold]
      simp only [Workspace.panesOf_cons, List.length_append, UInt32.ofNat_add, UInt32.add_assoc,
        List.append_assoc, List.singleton_append, numberEntries]
      rw [List.zip_append hlength.symm, List.map_append, HashMap.insertAll_append]
    · rw [Workspace.panesOf_cons, Workspace.panesOf_cons, List.length_append, freshIds_add, hids,
        hrestIds]

theorem get_publicPaneNumbers_captureWorkspace (w : Workspace) (id : PaneId) :
    (captureWorkspace w).publicPaneNumbers.get id.raw = w.publicPaneNumbers.get id := by
  have hkeys : ((w.publicPaneNumbers.entries.map (fun entry => (entry.1.raw, entry.2))).map
      Prod.fst).Nodup := by
    rw [List.map_map, show (Prod.fst ∘ fun entry : Sigma (fun _ : PaneId => Nat) =>
      (entry.1.raw, entry.2)) = PaneId.raw ∘ Sigma.fst from rfl, ← List.map_map]
    exact w.publicPaneNumbers.nodupKeys.map (fun a b hab => congrArg PaneId.mk hab)
  ext n
  rw [show (captureWorkspace w).publicPaneNumbers = HashMap.insertAll ∅ _ from rfl,
    HashMap.get_insertAll_empty hkeys, HashMap.get_eq_some_iff, List.mem_map]
  constructor
  · rintro ⟨⟨⟨raw⟩, m⟩, hmem, heq⟩
    obtain ⟨rfl, rfl⟩ := Prod.mk.inj heq
    exact hmem
  · intro hmem
    exact ⟨_, hmem, rfl⟩

/-- Every leaf has a saved number, so none is handed out. -/
theorem migratedPublicPaneNumbersByOldRaw_eq {snap : WorkspaceSnapshot} (next : Nat)
    (h : ∀ oldRaw ∈ snap.tabs.flatMap (fun tab => collectSnapshotIds tab.layout),
      snap.publicPaneNumbers.containsKey oldRaw = true) :
    migratedPublicPaneNumbersByOldRaw snap next = (snap.publicPaneNumbers, next) := by
  unfold migratedPublicPaneNumbersByOldRaw
  generalize snap.tabs.flatMap (fun tab => collectSnapshotIds tab.layout) = ids at h
  induction ids with
  | nil => rfl
  | cons first rest ih =>
    rw [List.foldl_cons, if_pos (h first List.mem_cons_self)]
    exact ih (fun oldRaw hmem => h oldRaw (List.mem_cons_of_mem _ hmem))

theorem flatMap_collectSnapshotIds (tabs : List Tab) :
    (tabs.map captureTab).flatMap (fun tab => collectSnapshotIds tab.layout)
      = (panesOf tabs).map PaneId.raw := by
  induction tabs with
  | nil => rfl
  | cons tab rest ih =>
    rw [List.map_cons, List.flatMap_cons, ih, Workspace.panesOf_cons, List.map_append]
    congr 1
    exact collectSnapshotIds_captureNode tab.layout.root

/-- What restoring keeps of a workspace: leaves at the same place carry the same number. -/
structure RestoredWorkspace (w w' : Workspace) : Prop where
  id : w'.id = w.id
  customName : w'.customName = w.customName
  activeTab : w'.activeTab = w.activeTab
  tabs : List.Forall₂ (fun tab tab' => RestoredTab tab tab' ∧
    List.Forall₂ (fun id id' => w'.publicPaneNumbers.get id' = w.publicPaneNumbers.get id)
      tab.layout.paneIds tab'.layout.paneIds) w.tabs w'.tabs
  nextPane_le : w.nextPublicPaneNumber ≤ w'.nextPublicPaneNumber
  nextTab_le : w.nextPublicTabNumber ≤ w'.nextPublicTabNumber

/-- A relation between leaves at the same place of two lists of tabs, tab by tab. -/
theorem forall₂_of_zip {R : PaneId → PaneId → Prop}
    (h : List.Forall₂ (fun tab tab' => TabValid tab' ∧ RestoredTab tab tab' ∧
      tab'.layout.paneIds.length = tab.layout.paneIds.length) tabs tabs')
    (hpairs : ∀ pair ∈ (panesOf tabs).zip (panesOf tabs'), R pair.1 pair.2) :
    List.Forall₂ (fun tab tab' => RestoredTab tab tab' ∧
      List.Forall₂ R tab.layout.paneIds tab'.layout.paneIds) tabs tabs' := by
  induction h with
  | nil => exact .nil
  | @cons tab tab' rest rest' hhead htail ih =>
    obtain ⟨-, hrestored, hlength⟩ := hhead
    rw [Workspace.panesOf_cons, Workspace.panesOf_cons, List.zip_append hlength.symm] at hpairs
    refine .cons ⟨hrestored, List.forall₂_iff_zip.mpr ⟨hlength.symm, ?_⟩⟩ ?_
    · intro id id' hmem
      exact hpairs (id, id') (List.mem_append_left _ hmem)
    · exact ih (fun pair hpair => hpairs pair (List.mem_append_right _ hpair))

theorem map_number_of_forall₂
    (h : List.Forall₂ (fun tab tab' => TabValid tab' ∧ RestoredTab tab tab' ∧
      tab'.layout.paneIds.length = tab.layout.paneIds.length) tabs tabs') :
    tabs'.map Tab.number = tabs.map Tab.number := by
  induction h with
  | nil => rfl
  | cons hhead _ ih => rw [List.map_cons, List.map_cons, ih, hhead.2.1.number]

theorem tabValid_of_forall₂
    (h : List.Forall₂ (fun tab tab' => TabValid tab' ∧ RestoredTab tab tab' ∧
      tab'.layout.paneIds.length = tab.layout.paneIds.length) tabs tabs') :
    ∀ tab' ∈ tabs', TabValid tab' := by
  induction h with
  | nil => intro tab' hmem; cases hmem
  | cons hhead _ ih =>
    intro tab' hmem
    rcases List.mem_cons.mp hmem with rfl | hmem
    · exact hhead.1
    · exact ih tab' hmem

/-- The numbers of the restored panes, looked up. -/
theorem get_numberEntries (hnew : new.Nodup) (hlength : new.length = old.length) (id' : PaneId)
    (n : Nat) : (HashMap.insertAll ∅ (numberEntries numberOf (old.zip new))).get id' = some n ↔
      ∃ id, (id, id') ∈ old.zip new ∧ numberOf id = n := by
  have hkeys : ((numberEntries numberOf (old.zip new)).map Prod.fst).Nodup := by
    rw [numberEntries, List.map_map]
    show ((old.zip new).map Prod.snd).Nodup
    rw [List.map_snd_zip (by omega)]
    exact hnew
  rw [HashMap.get_insertAll_empty hkeys, numberEntries, List.mem_map]
  constructor
  · rintro ⟨⟨id, other⟩, hmem, heq⟩
    obtain ⟨rfl, rfl⟩ := Prod.mk.inj heq
    exact ⟨id, hmem, rfl⟩
  · rintro ⟨id, hmem, rfl⟩
    exact ⟨(id, id'), hmem, rfl⟩

/-- The number of a pane of a workspace. -/
def numberIn (w : Workspace) (id : PaneId) : Nat := (w.publicPaneNumbers.get id).getD 0

theorem get_eq_numberIn (h : Valid w []) (hid : id ∈ panesOf w.tabs) :
    w.publicPaneNumbers.get id = some (numberIn w id) := by
  obtain ⟨n, hn⟩ := Option.isSome_iff_exists.mp ((h.registered id).mpr (.inl hid))
  rw [numberIn, hn]
  rfl

/-- A workspace with the tabs that came back, the old numbers and counters that did not go
back is valid. -/
theorem valid_of_restoredTabs {w' : Workspace} (h : Valid w [])
    (htabs : List.Forall₂ (fun tab tab' => TabValid tab' ∧ RestoredTab tab tab' ∧
      tab'.layout.paneIds.length = tab.layout.paneIds.length) w.tabs w'.tabs)
    (hnodup : (panesOf w'.tabs).Nodup)
    (hlength : (panesOf w'.tabs).length = (panesOf w.tabs).length)
    (hnumbers : w'.publicPaneNumbers = HashMap.insertAll ∅
      (numberEntries (numberIn w) ((panesOf w.tabs).zip (panesOf w'.tabs))))
    (hpane : w.nextPublicPaneNumber ≤ w'.nextPublicPaneNumber)
    (htab : w.nextPublicTabNumber ≤ w'.nextPublicTabNumber) (hactive : w'.activeTab = w.activeTab) :
    Valid w' [] := by
  have hget : ∀ id' n, w'.publicPaneNumbers.get id' = some n ↔
      ∃ id, (id, id') ∈ (panesOf w.tabs).zip (panesOf w'.tabs) ∧ numberIn w id = n := by
    rw [hnumbers]
    exact get_numberEntries hnodup hlength
  -- a number in the new workspace is the number of the old pane at its place
  have hold : ∀ id' n, w'.publicPaneNumbers.get id' = some n →
      ∃ id, (id, id') ∈ (panesOf w.tabs).zip (panesOf w'.tabs) ∧
        w.publicPaneNumbers.get id = some n := by
    intro id' n hn
    obtain ⟨id, hpair, rfl⟩ := (hget id' n).mp hn
    exact ⟨id, hpair, get_eq_numberIn h (List.of_mem_zip hpair).1⟩
  have htabNumbers := map_number_of_forall₂ htabs
  have hcount : w'.tabs.length = w.tabs.length := htabs.length_eq.symm
  have hne : w'.tabs ≠ [] := by
    apply List.ne_nil_of_length_pos
    rw [hcount]
    exact List.length_pos_of_ne_nil (h.nonempty rfl)
  constructor
  · refine ⟨tabValid_of_forall₂ htabs, hnodup, htabNumbers ▸ h.tabs.numbers, ?_⟩
    intro tab' hmem
    have hmem' : tab'.number ∈ w.tabs.map Tab.number := by
      rw [← htabNumbers]
      exact List.mem_map_of_mem hmem
    obtain ⟨tab, htabMem, hnumber⟩ := List.mem_map.mp hmem'
    have := h.tabs.range tab htabMem
    omega
  · have := h.nextTab_pos
    omega
  · intro id'
    constructor
    · intro hkey
      obtain ⟨n, hn⟩ := Option.isSome_iff_exists.mp hkey
      obtain ⟨id, hpair, -⟩ := hold id' n hn
      exact .inl (List.of_mem_zip hpair).2
    · rintro (hmem | hmem)
      · obtain ⟨i, hi, rfl⟩ := List.mem_iff_getElem.mp hmem
        have hpair : ((panesOf w.tabs)[i], (panesOf w'.tabs)[i])
            ∈ (panesOf w.tabs).zip (panesOf w'.tabs) := by
          refine List.mem_iff_getElem.mpr ⟨i, ?_, List.getElem_zip⟩
          rw [List.length_zip]
          omega
        exact Option.isSome_iff_exists.mpr ⟨_, (hget _ _).mpr ⟨_, hpair, rfl⟩⟩
      · cases hmem
  · intro id hid
    cases hid
  · refine ⟨Nat.lt_of_lt_of_le h.numbering.next_pos hpane, ?_, ?_⟩
    · intro id' n hn
      obtain ⟨id, -, hn'⟩ := hold id' n hn
      have := h.numbering.range id n hn'
      omega
    · intro a b n ha hb
      obtain ⟨id, hpair, hid⟩ := hold a n ha
      obtain ⟨id', hpair', hid'⟩ := hold b n hb
      -- one number, one old pane, one place, one new pane
      obtain rfl := h.numbering.distinct id id' n hid hid'
      have hidx := idxOf_eq_of_mem_zip h.tabs.nodup hnodup hpair
      have hidx' := idxOf_eq_of_mem_zip h.tabs.nodup hnodup hpair'
      exact (List.idxOf_inj (List.of_mem_zip hpair).2).mp (hidx.trans hidx'.symm)
  · intro _
    rw [hactive, hcount]
    exact h.active (h.nonempty rfl)
  · exact fun heq => absurd heq hne
  · exact fun _ => hne

theorem le_nextNumber (used : List Nat) (saved : Nat) : saved ≤ nextNumber used saved :=
  le_max_right _ _

theorem restoreWorkspace_spec (h : Valid w []) (houtcome : ∀ id, (outcome id).isSome = true)
    (counters : Counters) : ∃ w' nextPaneId, restoreWorkspace (captureWorkspace w) outcome counters
        = (some w', { nextPaneId := nextPaneId, nextWorkspaceId := counters.nextWorkspaceId }) ∧
      Valid w' [] ∧ RestoredWorkspace w w' := by
  have hsnapGet := get_publicPaneNumbers_captureWorkspace w
  generalize hpaneNext : nextNumber (captureWorkspace w).publicPaneNumbers.values
    (captureWorkspace w).nextPublicPaneNumber = paneNext
  generalize htabNext : nextNumber (captureWorkspace w).publicTabNumbers
    (captureWorkspace w).nextPublicTabNumber = tabNext
  have hpaneLe : w.nextPublicPaneNumber ≤ paneNext := hpaneNext ▸ le_nextNumber _ _
  have htabLe : w.nextPublicTabNumber ≤ tabNext := htabNext ▸ le_nextNumber _ _
  have hmigrated : migratedPublicPaneNumbersByOldRaw (captureWorkspace w) paneNext
      = ((captureWorkspace w).publicPaneNumbers, paneNext) := by
    apply migratedPublicPaneNumbersByOldRaw_eq
    intro oldRaw hmem
    rw [show (captureWorkspace w).tabs = w.tabs.map captureTab from rfl,
      flatMap_collectSnapshotIds] at hmem
    obtain ⟨id, hid, rfl⟩ := List.mem_map.mp hmem
    rw [HashMap.containsKey, hsnapGet]
    exact (h.registered id).mpr (.inl hid)
  obtain ⟨tabs', hfold, hids, hforall⟩ := restoreTabs_spec (captureWorkspace w)
    (captureWorkspace w).publicPaneNumbers (numberIn w) houtcome w.tabs 0
    { tabs := []
      publicPaneNumbers := ∅
      nextPublicPaneNumber := paneNext
      nextPublicTabNumber := tabNext
      nextPaneId := counters.nextPaneId } h.tabs.each rfl
    (fun tab hmem => Nat.lt_of_lt_of_le (h.tabs.range tab hmem).2 htabLe)
    (fun id hid => by
      have hn := get_eq_numberIn h hid
      exact ⟨(hsnapGet id).trans hn, Nat.lt_of_lt_of_le (h.numbering.range id _ hn).2 hpaneLe⟩)
  dsimp only at hfold hids
  rw [List.nil_append] at hfold
  have hlength : (panesOf tabs').length = (panesOf w.tabs).length := by
    rw [hids, length_freshIds]
  have hnodup : (panesOf tabs').Nodup := by
    rw [hids]
    exact nodup_freshIds _ (length_le_of_nodup h.tabs.nodup)
  have hcount : tabs'.length = w.tabs.length := hforall.length_eq.symm
  have hactiveLt := h.active (h.nonempty rfl)
  have hempty : tabs'.isEmpty = false := by
    rw [List.isEmpty_eq_false_iff]
    apply List.ne_nil_of_length_pos
    omega
  have hactive : min w.activeTab (tabs'.length - 1) = w.activeTab := by omega
  refine ⟨{ id := w.id
            customName := w.customName
            publicPaneNumbers := HashMap.insertAll ∅
              (numberEntries (numberIn w) ((panesOf w.tabs).zip (panesOf tabs')))
            nextPublicPaneNumber := paneNext
            nextPublicTabNumber := tabNext
            tabs := tabs'
            activeTab := w.activeTab },
    counters.nextPaneId + UInt32.ofNat (panesOf w.tabs).length, ?_, ?_, ?_⟩
  · rw [restoreWorkspace]
    dsimp only
    rw [hpaneNext, htabNext, hmigrated]
    dsimp only
    rw [show (captureWorkspace w).tabs = w.tabs.map captureTab from rfl, hfold]
    dsimp only
    rw [hempty, show (captureWorkspace w).activeTab = w.activeTab from rfl, hactive]
    rfl
  · exact valid_of_restoredTabs h hforall hnodup hlength rfl hpaneLe htabLe rfl
  · refine ⟨rfl, rfl, rfl, forall₂_of_zip hforall ?_, hpaneLe, htabLe⟩
    intro pair hpair
    rw [get_eq_numberIn h (List.of_mem_zip hpair).1]
    exact (get_numberEntries hnodup hlength _ _).mpr ⟨pair.1, hpair, rfl⟩

/-! ### Restoring a session -/

/-- Every workspace comes back valid and with its public identity. -/
theorem restoreWorkspaces_spec {outcome : Nat → PaneId → Option TerminalId}
    (houtcome : ∀ idx id, (outcome idx id).isSome = true) (workspaces : List Workspace) (k : Nat)
    (counters : Counters) (hvalid : ∀ w ∈ workspaces, Valid w []) :
    ∃ restored nextPaneId, restoreWorkspaces outcome counters ((capture workspaces).zipIdx k)
        = (restored, { nextPaneId := nextPaneId, nextWorkspaceId := counters.nextWorkspaceId }) ∧
      List.Forall₂ (fun w w' => Valid w' [] ∧ RestoredWorkspace w w') workspaces restored := by
  induction workspaces generalizing k counters with
  | nil => exact ⟨[], counters.nextPaneId, rfl, .nil⟩
  | cons w rest ih =>
    obtain ⟨w', nextPaneId, heq, hw', hrestored⟩ :=
      restoreWorkspace_spec (hvalid w List.mem_cons_self) (houtcome k) counters
    obtain ⟨restored, lastPaneId, hrest, hforall⟩ := ih (k + 1)
      { nextPaneId := nextPaneId, nextWorkspaceId := counters.nextWorkspaceId }
      (fun other hmem => hvalid other (List.mem_cons_of_mem _ hmem))
    refine ⟨w' :: restored, lastPaneId, ?_, .cons ⟨hw', hrestored⟩ hforall⟩
    rw [capture, List.map_cons, List.zipIdx_cons, restoreWorkspaces, heq]
    dsimp only
    rw [show rest.map captureWorkspace = capture rest from rfl, hrest]
    rfl

theorem numbersOf_restored {workspaces restored : List Workspace}
    (h : List.Forall₂ (fun w w' => Valid w' [] ∧ RestoredWorkspace w w') workspaces restored) :
    PublicId.numbersOf restored = PublicId.numbersOf workspaces := by
  induction h with
  | nil => rfl
  | cons hhead _ ih =>
    rw [PublicId.numbersOf, PublicId.numbersOf, List.filterMap_cons, List.filterMap_cons,
      hhead.2.id]
    rw [PublicId.numbersOf, PublicId.numbersOf] at ih
    rw [ih]

/-- A session comes back with its public identity when every pane does: each workspace is valid
again and keeps its id, its tabs and their numbers, the active tab, the trees, the places of the
focused and the root pane, and the number of the pane at each place; the counters do not go
back. The ids handed out next are new as long as the id counter does not overflow. -/
theorem restore_capture (workspaces : List Workspace) (hvalid : ∀ w ∈ workspaces, Valid w [])
    (outcome : Nat → PaneId → Option TerminalId)
    (houtcome : ∀ idx id, (outcome idx id).isSome = true) (counters : Counters) :
    let result := restore (capture workspaces) outcome counters
    List.Forall₂ (fun w w' => Valid w' [] ∧ RestoredWorkspace w w') workspaces result.1 ∧
      ∀ k, counters.nextWorkspaceId.toNat + k < usizeEnd →
        (∀ n ∈ PublicId.numbersOf workspaces, n + 1 + k < usizeEnd) →
        ∀ w' ∈ result.1, PublicId.generated result.2.nextWorkspaceId k ≠ w'.id := by
  obtain ⟨restored, nextPaneId, heq, hforall⟩ :=
    restoreWorkspaces_spec houtcome workspaces 0 counters hvalid
  have hrestore : restore (capture workspaces) outcome counters = (restored,
      { nextPaneId := nextPaneId
        nextWorkspaceId := reserveWorkspaceIds restored counters.nextWorkspaceId }) := by
    rw [restore, heq]
  rw [hrestore]
  refine ⟨hforall, fun k hcounter hroom => ?_⟩
  apply PublicId.generated_ne restored counters.nextWorkspaceId k hcounter
  rw [numbersOf_restored hforall]
  exact hroom

/-- One workspace with one pane. -/
def single (id : String) : Workspace :=
  Workspace.fromExistingPane id none none ⟨⟨7⟩, .new "t7"⟩

theorem valid_single (id : String) : Valid (single id) [] :=
  Workspace.Start.valid (show Workspace.Start ⟨single id, none⟩ from
    ⟨rfl, .inr ⟨id, none, none, _, rfl⟩⟩)

/-- A session of two workspaces. The first id handed out after it is `wK`. -/
theorem restore_capture_two :
    let workspaces := [single "w3", single "wJ"]
    let result := restore (capture workspaces) (fun _ _ => some "t1") ⟨1, 1⟩
    PublicId.generated result.2.nextWorkspaceId 0 = "wK" ∧
      List.Forall₂ (fun w w' => Valid w' [] ∧ RestoredWorkspace w w') workspaces result.1 ∧
      ∀ w' ∈ result.1, PublicId.generated result.2.nextWorkspaceId 0 ≠ w'.id := by
  intro workspaces result
  have hvalid : ∀ w ∈ workspaces, Valid w [] := by
    intro w hmem
    rcases List.mem_cons.mp hmem with rfl | hmem
    · exact valid_single "w3"
    · rw [List.mem_singleton.mp hmem]
      exact valid_single "wJ"
  obtain ⟨hforall, hnew⟩ := restore_capture workspaces hvalid (fun _ _ => some "t1")
    (fun _ _ => rfl) ⟨1, 1⟩
  exact ⟨by decide +kernel, hforall, hnew 0 (by decide +kernel) (by decide +kernel)⟩

/-- A restored id may be the last number there is. Then `reserve_workspace_ids` reserves
nothing, and the next id handed out is one that another workspace has. -/
theorem restored_id_handed_out_again :
    ∃ workspaces : List Workspace, (∀ w ∈ workspaces, Valid w []) ∧
      (workspaces.map Workspace.id).Nodup ∧
      let result := restore (capture workspaces) (fun _ _ => some "t1") ⟨1, 1⟩
      PublicId.generated result.2.nextWorkspaceId 0 ∈ result.1.map Workspace.id := by
  refine ⟨[single "w1", single "wFZZZZZZZZZZZZ"], ?_, by decide, by decide +kernel⟩
  intro w hmem
  rcases List.mem_cons.mp hmem with rfl | hmem
  · exact valid_single "w1"
  · rw [List.mem_singleton.mp hmem]
    exact valid_single _

end Herden.Proofs.Persist
