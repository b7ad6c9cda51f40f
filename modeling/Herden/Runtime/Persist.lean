import Herden.Runtime.PublicId

/-!
# `Herden.Runtime.Persist`: saving and restoring a session

Embedding of `capture` (`runtime/src/persist/snapshot.rs`) and of `restore_workspace`,
`restore_tab` and the functions below them (`runtime/src/persist/restore.rs`). A snapshot keeps
the tree of each tab under the raw pane ids of the old session. Restoring gives every pane a
fresh id, drops the leaves whose pane could not be brought back, and carries the public numbers
over through the map from old to new ids and its inverse.

Bringing one pane back reads its saved directory and agent session and starts a process. Its
result is a parameter: the terminal of the pane, running or kept as unavailable, or `none` when
an imported runtime failed. The saved data that only this step reads, the histories, and the
state of the sidebar are left out. Public numbers are naturals: they are below a `usize`
counter, so adding one does not overflow.
-/

namespace Herden.Runtime.Persist

open Herden.Lib (F32 HashMap)
open Herden.Runtime.Layout

/-! ### Snapshots -/

inductive DirectionSnapshot where
  | horizontal
  | vertical

inductive LayoutSnapshot where
  | pane (id : UInt32)
  | split (direction : DirectionSnapshot) (ratio : F32) (first second : LayoutSnapshot)

structure TabSnapshot where
  customName : Option String
  layout : LayoutSnapshot
  zoomed : Bool
  focused : Option UInt32
  rootPane : Option UInt32

structure WorkspaceSnapshot where
  id : Option String
  customName : Option String
  publicPaneNumbers : HashMap UInt32 Nat
  nextPublicPaneNumber : Nat
  publicTabNumbers : List Nat
  nextPublicTabNumber : Nat
  tabs : List TabSnapshot
  activeTab : Nat

/-! ### Capture -/

def captureNode : Node → LayoutSnapshot
  | .pane id => .pane id.raw
  | .split direction ratio first second =>
      .split (match direction with
          | .horizontal => .horizontal
          | .vertical => .vertical)
        ratio (captureNode first) (captureNode second)

def captureTab (tab : Tab) : TabSnapshot where
  customName := tab.customName
  layout := captureNode tab.layout.root
  zoomed := tab.zoomed
  focused := some tab.layout.focus.raw
  rootPane := some tab.rootPane.raw

def captureWorkspace (ws : Workspace) : WorkspaceSnapshot where
  id := some ws.id
  customName := ws.customName
  publicPaneNumbers := HashMap.insertAll ∅
    (ws.publicPaneNumbers.entries.map (fun entry => (entry.1.raw, entry.2)))
  nextPublicPaneNumber := ws.nextPublicPaneNumber
  publicTabNumbers := ws.tabs.map Tab.number
  nextPublicTabNumber := ws.nextPublicTabNumber
  tabs := ws.tabs.map captureTab
  activeTab := ws.activeTab

def capture (workspaces : List Workspace) : List WorkspaceSnapshot :=
  workspaces.map captureWorkspace

/-! ### Restoring a tree -/

/-- `NEXT_PANE_ID` and `NEXT_WORKSPACE_ID`. -/
structure Counters where
  nextPaneId : UInt32
  nextWorkspaceId : UInt64

/-- `collect_layout_snapshot_pane_ids`. -/
def collectSnapshotIds : LayoutSnapshot → List UInt32
  | .pane id => [id]
  | .split _ _ first second => collectSnapshotIds first ++ collectSnapshotIds second

/-- `remap_inner`: the tree under fresh ids, the map from old to new ids, and the pane counter
after the call. -/
def remapInner (next : UInt32) (idMap : HashMap UInt32 PaneId) :
    LayoutSnapshot → Node × HashMap UInt32 PaneId × UInt32
  | .pane oldId => (.pane ⟨next⟩, idMap.insert oldId ⟨next⟩, next + 1)
  | .split direction ratio first second =>
      let (firstNode, idMap, next) := remapInner next idMap first
      let (secondNode, idMap, next) := remapInner next idMap second
      let dir := match direction with
        | .horizontal => Direction.horizontal
        | .vertical => Direction.vertical
      (.split dir ratio firstNode secondNode, idMap, next)

def restoreNodeRemapped (next : UInt32) (snap : LayoutSnapshot) :
    Node × HashMap UInt32 PaneId × UInt32 :=
  remapInner next ∅ snap

/-- The leaves that are not in `surviving` go, and so does a split that has lost a child. -/
def pruneRestoredNode (surviving : PaneId → Bool) : Node → Option Node
  | .pane id => if surviving id then some (.pane id) else none
  | .split direction ratio first second =>
      match pruneRestoredNode surviving first, pruneRestoredNode surviving second with
      | some first, some second => some (.split direction ratio first second)
      | some remaining, none => some remaining
      | none, some remaining => some remaining
      | none, none => none

def resolveRestoredPane (savedOldId : Option UInt32) (idMap : HashMap UInt32 PaneId)
    (surviving : PaneId → Bool) (paneIds : List PaneId) : Option PaneId :=
  ((savedOldId.bind idMap.get).filter surviving).or paneIds.head?

/-! ### Restoring a tab -/

/-- The panes that came back, under their new ids. -/
def restorePanes (outcome : PaneId → Option TerminalId) (paneIds : List PaneId) :
    HashMap PaneId PaneState :=
  paneIds.foldl (fun panes id =>
    match outcome id with
    | some terminalId => panes.insert id (.new terminalId)
    | none => panes) ∅

/-- The tab and the map from its new ids back to the old ones, unless every pane was lost, and
the pane counter after the call. -/
def restoreTab (snap : TabSnapshot) (number : Nat) (outcome : PaneId → Option TerminalId)
    (next : UInt32) : Option (Tab × HashMap PaneId UInt32) × UInt32 :=
  let (node, idMap, next) := restoreNodeRemapped next snap.layout
  let reverseIdMap : HashMap PaneId UInt32 :=
    HashMap.insertAll ∅ (idMap.entries.map (fun entry => (entry.2, entry.1)))
  let panes := restorePanes outcome (collectIds node)
  if panes.keys.isEmpty then (none, next)
  else
    let surviving := panes.containsKey
    match pruneRestoredNode surviving node with
    | none => (none, next)
    | some node =>
        let paneIds := collectIds node
        match resolveRestoredPane snap.focused idMap surviving paneIds,
            resolveRestoredPane snap.rootPane idMap surviving paneIds with
        | some focus, some rootPane =>
            (some ({ customName := snap.customName
                     number := number
                     rootPane := rootPane
                     layout := .fromSaved node focus
                     panes := panes
                     zoomed := snap.zoomed }, reverseIdMap), next)
        | _, _ => (none, next)

/-! ### Restoring a workspace -/

/-- The saved numbers, with new ones for leaves that have none, and the counter after them. -/
def migratedPublicPaneNumbersByOldRaw (snap : WorkspaceSnapshot) (next : Nat) :
    HashMap UInt32 Nat × Nat :=
  (snap.tabs.flatMap (fun tab => collectSnapshotIds tab.layout)).foldl
    (fun state oldRaw =>
      if state.1.containsKey oldRaw then state
      else (state.1.insert oldRaw state.2, state.2 + 1))
    (snap.publicPaneNumbers, next)

/-- `values.max() + 1`, or 1, but at least the saved counter. -/
def nextNumber (used : List Nat) (saved : Nat) : Nat :=
  max ((used.max?.map (· + 1)).getD 1) saved

/-- What the loop over the tabs of a workspace has built so far. -/
structure Restoring where
  tabs : List Tab
  publicPaneNumbers : HashMap PaneId Nat
  nextPublicPaneNumber : Nat
  nextPublicTabNumber : Nat
  nextPaneId : UInt32

/-- The number of one restored pane: the one its old id had, or a new one. -/
def registerRestoredPane (byOldRaw : HashMap UInt32 Nat) (reverseIdMap : HashMap PaneId UInt32)
    (state : HashMap PaneId Nat × Nat) (paneId : PaneId) : HashMap PaneId Nat × Nat :=
  match byOldRaw.get ((reverseIdMap.get paneId).getD paneId.raw) with
  | some number => (state.1.insert paneId number, max state.2 (number + 1))
  | none => (state.1.insert paneId state.2, state.2 + 1)

/-- One round of the loop over the tabs. A tab that was lost leaves no trace. -/
def restoreTabInto (snap : WorkspaceSnapshot) (byOldRaw : HashMap UInt32 Nat)
    (outcome : PaneId → Option TerminalId) (state : Restoring) (entry : TabSnapshot × Nat) :
    Restoring :=
  let (tabSnap, idx) := entry
  let tabNumber := snap.publicTabNumbers[idx]?.getD (idx + 1)
  match restoreTab tabSnap tabNumber outcome state.nextPaneId with
  | (none, nextPaneId) => { state with nextPaneId := nextPaneId }
  | (some (tab, reverseIdMap), nextPaneId) =>
      let numbers := tab.layout.paneIds.foldl (registerRestoredPane byOldRaw reverseIdMap)
        (state.publicPaneNumbers, state.nextPublicPaneNumber)
      { tabs := state.tabs ++ [tab]
        publicPaneNumbers := numbers.1
        nextPublicPaneNumber := numbers.2
        nextPublicTabNumber := max state.nextPublicTabNumber (tab.number + 1)
        nextPaneId := nextPaneId }

def restoreWorkspace (snap : WorkspaceSnapshot) (outcome : PaneId → Option TerminalId)
    (counters : Counters) : Option Workspace × Counters :=
  let (workspaceId, nextWorkspaceId) := match snap.id with
    | some id => (id, counters.nextWorkspaceId)
    | none => generateWorkspaceId counters.nextWorkspaceId
  let nextPublicPaneNumber := nextNumber snap.publicPaneNumbers.values snap.nextPublicPaneNumber
  let (byOldRaw, nextPublicPaneNumber) :=
    migratedPublicPaneNumbersByOldRaw snap nextPublicPaneNumber
  let restored := snap.tabs.zipIdx.foldl (restoreTabInto snap byOldRaw outcome)
    { tabs := []
      publicPaneNumbers := ∅
      nextPublicPaneNumber := nextPublicPaneNumber
      nextPublicTabNumber := nextNumber snap.publicTabNumbers snap.nextPublicTabNumber
      nextPaneId := counters.nextPaneId }
  let counters := { nextPaneId := restored.nextPaneId, nextWorkspaceId := nextWorkspaceId }
  if restored.tabs.isEmpty then (none, counters)
  else
    (some { id := workspaceId
            customName := snap.customName
            publicPaneNumbers := restored.publicPaneNumbers
            nextPublicPaneNumber := restored.nextPublicPaneNumber
            nextPublicTabNumber := restored.nextPublicTabNumber
            tabs := restored.tabs
            activeTab := min snap.activeTab (restored.tabs.length - 1) }, counters)

/-- The loop over the workspaces. `outcome` tells the panes of different workspaces apart. -/
def restoreWorkspaces (outcome : Nat → PaneId → Option TerminalId) (counters : Counters) :
    List (WorkspaceSnapshot × Nat) → List Workspace × Counters
  | [] => ([], counters)
  | (snap, idx) :: rest =>
      let (workspace, counters) := restoreWorkspace snap (outcome idx) counters
      let (workspaces, counters) := restoreWorkspaces outcome counters rest
      (workspace.toList ++ workspaces, counters)

/-- `restore_with_imports_and_failures`, without the terminals. -/
def restore (snapshot : List WorkspaceSnapshot) (outcome : Nat → PaneId → Option TerminalId)
    (counters : Counters) : List Workspace × Counters :=
  let (workspaces, counters) := restoreWorkspaces outcome counters snapshot.zipIdx
  (workspaces, { counters with
    nextWorkspaceId := reserveWorkspaceIds workspaces counters.nextWorkspaceId })

end Herden.Runtime.Persist
