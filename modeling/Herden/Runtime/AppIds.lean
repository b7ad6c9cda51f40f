import Herden.Lib.Text
import Herden.Runtime.PublicId

/-!
# `Herden.Runtime.AppIds`: ids that clients send

Embedding of the parsers in `app/ids.rs` and of the ids they read (`public_pane_id_for_number`,
`public_tab_id_for_number` of `workspace.rs`). An id is a text. Of the state they need the
workspaces and the aliases that moved and restored panes leave behind.
-/

namespace Herden.Runtime

open Herden.Lib (HashMap Text)
open Herden.Lib.Text (afterPrefix rsplitOnce)
open Herden.Runtime.Layout (PaneId)

/-- `str::parse` to an unsigned number below `bound`, where a plus sign may come first. -/
def parseBelow (bound : Nat) (text : Text) : Option Nat :=
  let digits := (afterPrefix ['+'] text).getD text
  if !digits.isEmpty && digits.all Char.isDigit then
    let value := Nat.ofDigitChars 10 digits 0
    if value < bound then some value else none
  else none

/-- `parse::<usize>().ok()?.checked_sub(1)`. -/
def parseOrdinal (text : Text) : Option Nat := do
  let value ← parseBelow usizeEnd text
  if value = 0 then none else some (value - 1)

def publicPaneIdForNumber (workspaceId : String) (paneNumber : Nat) : String :=
  workspaceId ++ ":p" ++ encodePublicNumber paneNumber

def publicTabIdForNumber (workspaceId : String) (tabNumber : Nat) : String :=
  workspaceId ++ ":t" ++ encodePublicNumber tabNumber

/-- `Workspace::pane_state`, as far as there is one. -/
def Workspace.hasPane (self : Workspace) (paneId : PaneId) : Bool :=
  self.tabs.any fun tab => tab.panes.containsKey paneId

/-- The first pane with the number, in the order of the map. -/
def Workspace.paneWithNumber (self : Workspace) (number : Nat) : Option PaneId :=
  (self.publicPaneNumbers.entries.find? fun entry => entry.2 = number).map (·.1)

structure AppState where
  workspaces : List Workspace
  paneIdAliases : HashMap Nat PaneId
  publicPaneIdAliases : HashMap String PaneId

namespace AppState

def publicTabId (self : AppState) (wsIdx tabIdx : Nat) : Option String := do
  let ws ← self.workspaces[wsIdx]?
  let tab ← ws.tabs[tabIdx]?
  return publicTabIdForNumber ws.id tab.number

def publicPaneId (self : AppState) (wsIdx : Nat) (paneId : PaneId) : Option String := do
  let ws ← self.workspaces[wsIdx]?
  let number ← ws.publicPaneNumbers.get paneId
  return publicPaneIdForNumber ws.id number

/-- The index of the workspace that has the pane. -/
def findPane (self : AppState) (paneId : PaneId) : Option Nat :=
  self.workspaces.findIdx? (·.hasPane paneId)

def parseWorkspaceId (self : AppState) (id : Text) : Option Nat :=
  (self.workspaces.findIdx? fun workspace => workspace.id.toList = id)
    <|> ((afterPrefix "w_".toList id).bind parseOrdinal) <|> parseOrdinal id

def parseTabId (self : AppState) (id : Text) : Option (Nat × Nat) :=
  match afterPrefix "t_".toList id with
  | some rest => do
      let (wsRaw, tabRaw) ← rsplitOnce ['_'] rest
      let wsIdx ← self.parseWorkspaceId wsRaw
      let tabIdx ← parseOrdinal tabRaw
      let _ ← (← self.workspaces[wsIdx]?).tabs[tabIdx]?
      return (wsIdx, tabIdx)
  | none => do
      let (wsRaw, tabRaw) ← rsplitOnce [':'] id
      let wsIdx ← self.parseWorkspaceId wsRaw
      let tabIdx ← match afterPrefix ['t'] tabRaw with
        | some encoded => do
            let tabNumber ← decodePublicNumber (String.ofList encoded)
            (← self.workspaces[wsIdx]?).tabs.findIdx? (·.number = tabNumber)
        | none => parseOrdinal tabRaw
      let _ ← (← self.workspaces[wsIdx]?).tabs[tabIdx]?
      return (wsIdx, tabIdx)

def resolveRawPaneId (self : AppState) (raw : Nat) : Option PaneId :=
  match self.paneIdAliases.get raw with
  | some target => (self.findPane target).map fun _ => target
  | none =>
      let paneId : PaneId := ⟨UInt32.ofNat raw⟩
      if (self.findPane paneId).isSome then some paneId else none

def parsePaneId (self : AppState) (id : Text) : Option (Nat × PaneId) :=
  match self.publicPaneIdAliases.get (String.ofList id) with
  | some target => (self.findPane target).map (·, target)
  | none =>
      match afterPrefix "p_".toList id with
      | some rest =>
          match rsplitOnce ['_'] rest with
          | some (wsRaw, paneRaw) => do
              let wsIdx ← self.parseWorkspaceId wsRaw
              let paneId ← self.resolveRawPaneId (← parseBelow (2 ^ 32) paneRaw)
              let ws ← self.workspaces[wsIdx]?
              if ws.hasPane paneId then return (wsIdx, paneId) else none
          | none => do
              let paneId ← self.resolveRawPaneId (← parseBelow (2 ^ 32) rest)
              return (← self.findPane paneId, paneId)
      | none =>
          match rsplitOnce ":p".toList id with
          | some (wsRaw, paneNumberRaw) => do
              let wsIdx ← self.parseWorkspaceId wsRaw
              let paneNumber ← decodePublicNumber (String.ofList paneNumberRaw)
              return (wsIdx, ← (← self.workspaces[wsIdx]?).paneWithNumber paneNumber)
          | none => do
              let (wsRaw, paneNumberRaw) ← rsplitOnce ['-'] id
              let wsIdx ← self.parseWorkspaceId wsRaw
              let paneNumber ← parseBelow usizeEnd paneNumberRaw
              return (wsIdx, ← (← self.workspaces[wsIdx]?).paneWithNumber paneNumber)

end AppState

end Herden.Runtime
