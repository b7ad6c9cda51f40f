import Herden.Lib.HashMap
import Herden.Runtime.Layout

/-!
# `Herden.Runtime.Workspace`: tabs, panes and their public numbers

Embedding of `runtime/src/workspace/tab.rs` and of the operations of `runtime/src/workspace.rs`
that create, close and move panes and tabs. A tab holds a layout and the state of each of its
panes. A workspace holds its tabs, the active one, and the public numbers that other programs
know its panes and tabs by.

Starting a process is outside: `Spawn` carries the id that `PaneId::alloc` hands out and, if the
runtime started, the id of its terminal. A method that takes `&mut self` returns the value after
the call next to its result; `none` is a panic. Public numbers are `usize` in the source and
never get near its end, so they are naturals. Names, directories, Git and worktree data,
metadata tokens, launch environments and the runtimes themselves are left out.
-/

namespace Herden.Runtime

open Herden.Lib (F32 HashMap)
open Herden.Runtime.Layout

abbrev TerminalId := String

structure PaneState where
  attachedTerminalId : TerminalId
  seen : Bool
  rightClickPassthrough : Bool

def PaneState.new (attachedTerminalId : TerminalId) : PaneState where
  attachedTerminalId := attachedTerminalId
  seen := true
  rightClickPassthrough := false

/-- A pane on its way from one tab to another. -/
structure MovedPane where
  paneId : PaneId
  paneState : PaneState

/-- An attempt to start a pane: the id allocated for it, and its terminal if the runtime
started. -/
structure Spawn where
  paneId : PaneId
  terminal : Option TerminalId

/-! ### Tabs -/

structure Tab where
  customName : Option String
  number : Nat
  rootPane : PaneId
  layout : TileLayout
  panes : HashMap PaneId PaneState
  zoomed : Bool

namespace Tab

/-- `Tab::new` and `Tab::new_argv_command`, once the runtime has started. -/
def new (number : Nat) (rootId : PaneId) (terminalId : TerminalId) : Tab where
  customName := none
  number := number
  rootPane := rootId
  layout := .new rootId
  panes := HashMap.insert ∅ rootId (.new terminalId)
  zoomed := false

def fromExistingPane (number : Nat) (customName : Option String) (moved : MovedPane) : Tab where
  customName := customName
  number := number
  rootPane := moved.paneId
  layout := .fromSaved (.pane moved.paneId) moved.paneId
  panes := HashMap.insert ∅ moved.paneId moved.paneState
  zoomed := false

/-- Split `target`. Focus moves to the new pane only when `focusNewPane` is set. When the
runtime does not start, the layout is rolled back. -/
def splitPaneWithRuntime (self : Tab) (target : PaneId) (focusNewPane : Bool)
    (direction : Direction) (ratio : Option F32) (spawn : Spawn) : Option (Tab × Option PaneId) :=
  match self.layout.splitPane target direction (ratio.getD halfRatio) spawn.paneId with
  | (layout, none) => some ({ self with layout := layout }, none)
  | (layout, some newId) =>
      match spawn.terminal with
      | none => do
          let (layout, _) ← layout.closePane newId
          return ({ self with layout := layout }, none)
      | some terminalId =>
          some ({ self with
              layout := if focusNewPane then layout.focusPane newId else layout
              panes := self.panes.insert newId (.new terminalId)
              zoomed := false }, some newId)

def promotedRootIfNeeded (self : Tab) (closing : PaneId) : Option PaneId :=
  if self.rootPane ≠ closing then none
  else self.layout.paneIds.find? (· ≠ closing)

/-- The pane leaves the tab, unless it is the only one. -/
def detachPane (self : Tab) (paneId : PaneId) : Option (Tab × Option (PaneId × TerminalId)) :=
  if self.layout.paneCount ≤ 1 then some (self, none)
  else do
    let nextRoot := self.promotedRootIfNeeded paneId
    let (layout, _) ← self.layout.closePane paneId
    match self.panes.get paneId with
    | none => return ({ self with layout := layout }, none)
    | some pane =>
        return ({ self with
            layout := layout
            panes := self.panes.remove paneId
            zoomed := false
            rootPane := nextRoot.getD self.rootPane }, some (paneId, pane.attachedTerminalId))

def closePane (self : Tab) (paneId : PaneId) : Option (Tab × Option (PaneId × TerminalId)) :=
  self.detachPane paneId

def removePane (self : Tab) (paneId : PaneId) : Option (Tab × Option (PaneId × TerminalId)) :=
  self.detachPane paneId

def takePaneForMove (self : Tab) (paneId : PaneId) : Option (Tab × Option MovedPane) :=
  match self.panes.get paneId with
  | none => some (self, none)
  | some paneState =>
      let panes := self.panes.remove paneId
      if self.layout.paneCount > 1 then do
        let nextRoot := self.promotedRootIfNeeded paneId
        let (layout, _) ← self.layout.closePane paneId
        return ({ self with
            layout := layout
            rootPane := nextRoot.getD self.rootPane
            panes := panes
            zoomed := false }, some ⟨paneId, paneState⟩)
      else some ({ self with panes := panes, zoomed := false }, some ⟨paneId, paneState⟩)

def insertExistingPane (self : Tab) (targetPaneId : PaneId) (moved : MovedPane)
    (direction : Direction) (ratio : F32) (focus : Bool) : Tab × Except MovedPane PaneId :=
  match self.layout.insertPaneNear targetPaneId moved.paneId direction ratio focus with
  | (layout, false) => ({ self with layout := layout }, .error moved)
  | (layout, true) =>
      ({ self with
          layout := layout
          panes := self.panes.insert moved.paneId moved.paneState
          zoomed := false }, .ok moved.paneId)

end Tab

/-! ### Workspaces -/

structure Workspace where
  id : String
  customName : Option String
  /-- Public pane numbers within this workspace. Closed pane numbers are not reused. -/
  publicPaneNumbers : HashMap PaneId Nat
  nextPublicPaneNumber : Nat
  nextPublicTabNumber : Nat
  tabs : List Tab
  activeTab : Nat

structure TakenPane where
  moved : MovedPane
  removedTabIdx : Option Nat
  workspaceEmpty : Bool

namespace Workspace

/-- `Workspace::new_with_tab`, with the id `generate_workspace_id` hands out. `none` is the
error of a runtime that did not start. -/
def new (id : String) (spawn : Spawn) : Option Workspace :=
  spawn.terminal.map fun terminalId =>
    { id := id
      customName := none
      publicPaneNumbers := HashMap.insert ∅ spawn.paneId 1
      nextPublicPaneNumber := 2
      nextPublicTabNumber := 2
      tabs := [.new 1 spawn.paneId terminalId]
      activeTab := 0 }

def fromExistingPane (id : String) (label tabLabel : Option String) (moved : MovedPane) :
    Workspace where
  id := id
  customName := label
  publicPaneNumbers := HashMap.insert ∅ moved.paneId 1
  nextPublicPaneNumber := 2
  nextPublicTabNumber := 2
  tabs := [.fromExistingPane 1 tabLabel moved]
  activeTab := 0

def findTabIndexForPane (self : Workspace) (paneId : PaneId) : Option Nat :=
  self.tabs.findIdx? (fun tab => tab.panes.containsKey paneId)

def registerNewPaneWithNumber (self : Workspace) (paneId : PaneId) (number : Nat) : Workspace :=
  { self with
    publicPaneNumbers := self.publicPaneNumbers.insert paneId number
    nextPublicPaneNumber := max self.nextPublicPaneNumber (number + 1) }

def unregisterPane (self : Workspace) (paneId : PaneId) : Workspace :=
  { self with publicPaneNumbers := self.publicPaneNumbers.remove paneId }

/-- The active index after the tab at `removedIdx` has gone. -/
def adjustActiveTabAfterRemoval (self : Workspace) (removedIdx : Nat) : Workspace :=
  if self.tabs.isEmpty then { self with activeTab := 0 }
  else if self.activeTab ≥ self.tabs.length then
    { self with activeTab := self.tabs.length - 1 }
  else if removedIdx ≤ self.activeTab ∧ self.activeTab > 0 then
    { self with activeTab := self.activeTab - 1 }
  else self

def switchTab (self : Workspace) (idx : Nat) : Workspace :=
  match self.tabs[idx]? with
  | none => self
  | some tab =>
      let panes := tab.panes.mapValues (fun _ pane => { pane with seen := true })
      { self with activeTab := idx, tabs := self.tabs.set idx { tab with panes := panes } }

/-- The number of the tab is used up even when its runtime does not start. -/
def createTab (self : Workspace) (spawn : Spawn) : Option (Workspace × Option Nat) :=
  let number := self.nextPublicTabNumber
  let paneNumber := self.nextPublicPaneNumber
  let self := { self with nextPublicTabNumber := number + 1 }
  match self.tabs[self.activeTab]? with
  | none => none
  | some _ =>
      match spawn.terminal with
      | none => some (self, none)
      | some terminalId =>
          let self := self.registerNewPaneWithNumber spawn.paneId paneNumber
          some ({ self with tabs := self.tabs ++ [.new number spawn.paneId terminalId] },
            some self.tabs.length)

/-- What a split answers: the target is in no tab, the split failed, or the tab and the new
pane. -/
inductive SplitResult where
  | noTarget
  | failed
  | split (tabIdx : Nat) (paneId : PaneId)

def splitPane (self : Workspace) (paneId : PaneId) (direction : Direction) (ratio : Option F32)
    (focusNewPane : Bool) (spawn : Spawn) : Option (Workspace × SplitResult) :=
  match self.findTabIndexForPane paneId with
  | none => some (self, .noTarget)
  | some tabIdx => do
      let paneNumber := self.nextPublicPaneNumber
      let tab ← self.tabs[tabIdx]?
      match ← tab.splitPaneWithRuntime paneId focusNewPane direction ratio spawn with
      | (tab, none) => return ({ self with tabs := self.tabs.set tabIdx tab }, .failed)
      | (tab, some newPane) =>
          let self := { self with tabs := self.tabs.set tabIdx tab }
          return (self.registerNewPaneWithNumber newPane paneNumber, .split tabIdx newPane)

/-- The body `close_pane` and `remove_pane` share. The flag says that the workspace should
close. `detach` is what the tab does when it has other panes. -/
def closePaneWith (self : Workspace) (paneId : PaneId)
    (detach : Tab → PaneId → Option (Tab × Option (PaneId × TerminalId))) :
    Option (Workspace × Bool) :=
  match self.findTabIndexForPane paneId with
  | none => some (self, false)
  | some tabIdx => do
      let tab ← self.tabs[tabIdx]?
      if tab.layout.paneCount ≤ 1 then
        if self.tabs.length ≤ 1 then return (self, true)
        let self := { self with tabs := self.tabs.eraseIdx tabIdx }
        let self := self.unregisterPane paneId
        if self.activeTab ≥ self.tabs.length then
          return ({ self with activeTab := self.tabs.length - 1 }, false)
        else if tabIdx ≤ self.activeTab ∧ self.activeTab > 0 then
          return ({ self with activeTab := self.activeTab - 1 }, false)
        else return (self, false)
      else
        match ← detach tab paneId with
        | (tab, none) => return ({ self with tabs := self.tabs.set tabIdx tab }, false)
        | (tab, some (removed, _)) =>
            let self := { self with tabs := self.tabs.set tabIdx tab }
            return (self.unregisterPane removed, false)

def closePane (self : Workspace) (paneId : PaneId) : Option (Workspace × Bool) :=
  self.closePaneWith paneId Tab.closePane

def removePane (self : Workspace) (paneId : PaneId) : Option (Workspace × Bool) :=
  self.closePaneWith paneId Tab.removePane

def closeTab (self : Workspace) (idx : Nat) : Workspace × Bool :=
  if self.tabs.length ≤ 1 then (self, false)
  else
    match self.tabs[idx]? with
    | none => (self, false)
    | some tab =>
        let self := { self with tabs := self.tabs.eraseIdx idx }
        let self := tab.panes.keys.foldl unregisterPane self
        if self.activeTab ≥ self.tabs.length then
          ({ self with activeTab := self.tabs.length - 1 }, true)
        else if idx ≤ self.activeTab ∧ self.activeTab > 0 then
          ({ self with activeTab := self.activeTab - 1 }, true)
        else (self, true)

def moveTab (self : Workspace) (sourceIdx insertIdx : Nat) : Workspace × Bool :=
  if insertIdx > self.tabs.length then (self, false)
  else
    match self.tabs[sourceIdx]? with
    | none => (self, false)
    | some tab =>
        let targetIdx :=
          min (if sourceIdx < insertIdx then insertIdx - 1 else insertIdx) (self.tabs.length - 1)
        if sourceIdx = targetIdx then (self, false)
        else
          let activeRootPane := self.tabs[self.activeTab]?.map Tab.rootPane
          let tabs := (self.tabs.eraseIdx sourceIdx).insertIdx targetIdx tab
          let activeTab := (activeRootPane.bind fun rootPane =>
            tabs.findIdx? (fun tab => tab.rootPane = rootPane)).getD targetIdx
          ({ self with tabs := tabs, activeTab := activeTab }, true)

def takePaneForMove (self : Workspace) (paneId : PaneId) :
    Option (Workspace × Option TakenPane) :=
  match self.findTabIndexForPane paneId with
  | none => some (self, none)
  | some tabIdx => do
      let tab ← self.tabs[tabIdx]?
      let (taken, result) ← tab.takePaneForMove paneId
      if tab.layout.paneCount ≤ 1 then
        let self := { self with tabs := self.tabs.eraseIdx tabIdx }
        match result with
        | none => return (self, none)
        | some moved =>
            let self := self.adjustActiveTabAfterRemoval tabIdx
            return (self, some ⟨moved, some tabIdx, self.tabs.isEmpty⟩)
      else
        let self := { self with tabs := self.tabs.set tabIdx taken }
        return (self, result.map (⟨·, none, false⟩))

/-- A pane that this workspace already knows keeps its number. -/
def registerIfNew (self : Workspace) (paneId : PaneId) : Workspace :=
  if self.publicPaneNumbers.containsKey paneId then self
  else self.registerNewPaneWithNumber paneId self.nextPublicPaneNumber

def insertMovedPaneIntoTab (self : Workspace) (tabIdx : Nat) (targetPaneId : PaneId)
    (moved : MovedPane) (direction : Direction) (ratio : F32) (focus : Bool) :
    Workspace × Except MovedPane PaneId :=
  match self.tabs[tabIdx]? with
  | none => (self, .error moved)
  | some tab =>
      match tab.insertExistingPane targetPaneId moved direction ratio focus with
      | (tab, .error moved) => ({ self with tabs := self.tabs.set tabIdx tab }, .error moved)
      | (tab, .ok paneId) =>
          let self := { self with tabs := self.tabs.set tabIdx tab }
          (self.registerIfNew moved.paneId, .ok paneId)

def createTabFromExistingPane (self : Workspace) (moved : MovedPane) (label : Option String) :
    Workspace × Nat :=
  let number := self.nextPublicTabNumber
  let self := { self with nextPublicTabNumber := number + 1 }
  let self := self.registerIfNew moved.paneId
  ({ self with tabs := self.tabs ++ [.fromExistingPane number label moved] }, self.tabs.length)

def unregisterMovedPane (self : Workspace) (paneId : PaneId) : Workspace :=
  self.unregisterPane paneId

end Workspace

/-! ### The operations as one machine -/

/-- A workspace, and the pane that `takePaneForMove` took out of it and that its caller has
not put back or given away yet. -/
structure WorkspaceRun where
  workspace : Workspace
  held : Option MovedPane

namespace WorkspaceRun

/-- A call on a workspace, with the arguments the caller chooses. A moved pane is the held
one, or comes from another workspace. -/
inductive Op where
  | createTab (spawn : Spawn)
  | splitPane (paneId : PaneId) (direction : Direction) (ratio : Option F32)
      (focusNewPane : Bool) (spawn : Spawn)
  | closePane (paneId : PaneId)
  | removePane (paneId : PaneId)
  | closeTab (idx : Nat)
  | moveTab (sourceIdx insertIdx : Nat)
  | switchTab (idx : Nat)
  | takePaneForMove (paneId : PaneId)
  | insertMovedPaneIntoTab (tabIdx : Nat) (targetPaneId : PaneId) (moved : MovedPane)
      (direction : Direction) (ratio : F32) (focus : Bool)
  | createTabFromExistingPane (moved : MovedPane) (label : Option String)
  | unregisterMovedPane (paneId : PaneId)

/-- One call. `none` is a panic. An insertion that fails gives the pane back to the caller. -/
def step (self : WorkspaceRun) : Op → Option (WorkspaceRun × Unit)
  | .createTab spawn =>
      (self.workspace.createTab spawn).map fun result => (⟨result.1, self.held⟩, ())
  | .splitPane paneId direction ratio focusNewPane spawn =>
      (self.workspace.splitPane paneId direction ratio focusNewPane spawn).map fun result =>
        (⟨result.1, self.held⟩, ())
  | .closePane paneId =>
      (self.workspace.closePane paneId).map fun result => (⟨result.1, self.held⟩, ())
  | .removePane paneId =>
      (self.workspace.removePane paneId).map fun result => (⟨result.1, self.held⟩, ())
  | .closeTab idx => some (⟨(self.workspace.closeTab idx).1, self.held⟩, ())
  | .moveTab sourceIdx insertIdx =>
      some (⟨(self.workspace.moveTab sourceIdx insertIdx).1, self.held⟩, ())
  | .switchTab idx => some (⟨self.workspace.switchTab idx, self.held⟩, ())
  | .takePaneForMove paneId =>
      (self.workspace.takePaneForMove paneId).map fun result =>
        (⟨result.1, result.2.map TakenPane.moved⟩, ())
  | .insertMovedPaneIntoTab tabIdx targetPaneId moved direction ratio focus =>
      let result := self.workspace.insertMovedPaneIntoTab tabIdx targetPaneId moved direction
        ratio focus
      some (⟨result.1, match result.2 with | .ok _ => none | .error _ => self.held⟩, ())
  | .createTabFromExistingPane moved label =>
      some (⟨(self.workspace.createTabFromExistingPane moved label).1, none⟩, ())
  | .unregisterMovedPane paneId =>
      some (⟨self.workspace.unregisterMovedPane paneId, none⟩, ())

end WorkspaceRun

end Herden.Runtime
