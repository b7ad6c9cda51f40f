import Herden.Lib.Lines
import Herden.Runtime.Integration.Command

/-!
# `Herden.Runtime.Integration.TomlEdit`: the edits of the Codex and Kimi configurations

Embedding of the TOML half of `integration/config_edit.rs`. Both edits work on lines:
`buildCodexConfigWithHooks` sets one key of the `[features]` table, and `buildKimiConfigWithHooks`
keeps a block of hook tables between two marker lines at the end.
-/

namespace Herden.Runtime.Integration.TomlEdit

open Herden.Lib
open Herden.Lib.Text

def startsWith (start : String) (text : Text) : Bool := start.toList.isPrefixOf text

def trimStart (text : Text) : Text := text.dropWhile isWhitespace

/-- The text up to the end of the first occurrence of `stop`, and the rest. -/
def splitAfter (stop : Text) : Text → Option (Text × Text)
  | [] => if stop.isPrefixOf [] then some (stop, []) else none
  | c :: rest =>
      if stop.isPrefixOf (c :: rest) then some (stop, (c :: rest).drop stop.length)
      else (splitAfter stop rest).map fun (before, after) => (c :: before, after)

def tomlTableHeader (line : Text) : Option Text :=
  let trimmed := trimStart line
  if startsWith "#" trimmed || !startsWith "[" trimmed then none
  else
    let split :=
      if startsWith "[[" trimmed then splitAfter "]]".toList trimmed
      else splitAfter "]".toList trimmed
    match split with
    | none => none
    | some (header, rest) =>
        let rest := trimStart rest
        if !rest.isEmpty && !startsWith "#" rest then none else some header

def isTomlKey (line : Text) (key : String) : Bool :=
  let trimmed := trim line
  if startsWith "#" trimmed || !startsWith key trimmed then false
  else startsWith "=" (trimStart (trimmed.drop key.toList.length))

def joinTomlLines (lines : List Text) (trailingNewline : Bool) : Text :=
  joinLines lines trailingNewline

/-! ### Codex -/

/-- The variables of the loop over the lines. -/
structure Scan where
  inTopLevelFeatures : Bool
  featuresHeaderIndex : Option Nat
  hooksIndex : Option Nat
  deprecatedHooksIndexes : List Nat

def Scan.read (self : Scan) (line : Text) (index : Nat) : Scan :=
  match tomlTableHeader line with
  | some header =>
      let inTopLevelFeatures := header = "[features]".toList
      { self with
        inTopLevelFeatures
        featuresHeaderIndex :=
          if inTopLevelFeatures && self.featuresHeaderIndex.isNone then some index
          else self.featuresHeaderIndex }
  | none =>
      if !self.inTopLevelFeatures then self
      else if isTomlKey line "codex_hooks" then
        { self with deprecatedHooksIndexes := self.deprecatedHooksIndexes ++ [index] }
      else if isTomlKey line "hooks" then { self with hooksIndex := some index }
      else self

def scanLines (lines : List Text) : Scan :=
  lines.zipIdx.foldl (fun scan (line, index) => scan.read line index) ⟨false, none, none, []⟩

def hooksTrue : Text := "hooks = true".toList

def buildCodexConfigWithHooks (content : Text) : Text :=
  let lines := Text.lines content
  let trailingNewline := endsWithNewline content
  let scan := scanLines lines
  let lines :=
    match scan.hooksIndex with
    | some index => lines.set index hooksTrue
    | none => lines
  let lines := scan.deprecatedHooksIndexes.reverse.foldl List.eraseIdx lines
  match scan.hooksIndex, scan.featuresHeaderIndex with
  | some _, _ => joinTomlLines lines trailingNewline
  | none, some index => joinTomlLines (lines.insertIdx (index + 1) hooksTrue) trailingNewline
  | none, none =>
      let result := content.rdropWhile (· = '\n')
      let result := if result.isEmpty then result else result ++ ['\n', '\n']
      result ++ "[features]\nhooks = true\n".toList

/-! ### Kimi -/

def kimiConfigBlockBegin : Text := "# >>> herden kimi integration".toList

def kimiConfigBlockEnd : Text := "# <<< herden kimi integration".toList

def kimiAskUserQuestionMatcher : String := "^AskUserQuestion$"

def kimiOtherToolMatcher : String := "^(?!AskUserQuestion$).*$"

/-- Event, matcher and action. -/
def kimiHookEvents : List (String × Option String × String) :=
  [("SessionStart", none, "session"),
    ("UserPromptSubmit", none, "working"),
    ("PreToolUse", some kimiOtherToolMatcher, "working"),
    ("PreToolUse", some kimiAskUserQuestionMatcher, "blocked"),
    ("PostToolUse", some kimiAskUserQuestionMatcher, "working"),
    ("PostToolUseFailure", some kimiAskUserQuestionMatcher, "working"),
    ("SubagentStart", none, "working"),
    ("PreCompact", none, "working"),
    ("PermissionRequest", none, "blocked"),
    ("PermissionResult", none, "working"),
    ("Stop", none, "idle"),
    ("Interrupt", none, "idle")]

/-- `{:04X}`, of a number with four digits at most. -/
def hex4 (n : Nat) : Text :=
  let digit (nibble : Nat) : Char := "0123456789ABCDEF".toList.getD nibble '0'
  [digit (n / 4096 % 16), digit (n / 256 % 16), digit (n / 16 % 16), digit (n % 16)]

def tomlEscape (ch : Char) : Text :=
  if ch = '"' then ['\\', '"']
  else if ch = '\\' then ['\\', '\\']
  else if ch = '\x08' then ['\\', 'b']
  else if ch = '\t' then ['\\', 't']
  else if ch = '\n' then ['\\', 'n']
  else if ch = '\x0c' then ['\\', 'f']
  else if ch = '\r' then ['\\', 'r']
  else if ch.toNat ≤ 0x1f || ch.toNat = 0x7f then ['\\', 'u'] ++ hex4 ch.toNat
  else [ch]

def tomlBasicString (value : Text) : Text := ['"'] ++ value.flatMap tomlEscape ++ ['"']

def kimiHookTable (platform : Platform) (event : String) (matcher : Option String) (hookPath : Text)
    (action : String) : Text :=
  let command := hookCommand platform hookPath (some action.toList)
  let matcher :=
    match matcher with
    | some matcher => "matcher = ".toList ++ tomlBasicString matcher.toList ++ ['\n']
    | none => []
  "[[hooks]]\nevent = ".toList ++ tomlBasicString event.toList ++ ['\n'] ++ matcher
    ++ "command = ".toList ++ tomlBasicString command ++ "\ntimeout = 10\n\n".toList

/-- The variables of the loop over the lines. -/
structure Removal where
  lines : List Text
  inBlock : Bool
  removedBlock : Bool

def Removal.read (self : Removal) (line : Text) : Removal :=
  if trim line = kimiConfigBlockBegin then { self with inBlock := true, removedBlock := true }
  else if self.inBlock then
    if trim line = kimiConfigBlockEnd then { self with inBlock := false } else self
  else { self with lines := self.lines ++ [line] }

/-- The loop that pops while there are two line feeds at the end. -/
def popNewlines (text : Text) : Text :=
  match text.reverse with
  | '\n' :: '\n' :: rest => ('\n' :: rest.dropWhile (· = '\n')).reverse
  | _ => text

def removeKimiConfigBlock (content : Text) : Text :=
  let trailingNewline := endsWithNewline content
  let removal := (lines content).foldl Removal.read ⟨[], false, false⟩
  if !removal.removedBlock then content
  else
    let result := popNewlines (joinTomlLines removal.lines trailingNewline)
    if result = ['\n'] then [] else result

def buildKimiConfigWithHooks (platform : Platform) (content hookPath : Text) : Text :=
  let result := (removeKimiConfigBlock content).rdropWhile (· = '\n')
  let result := if result.isEmpty then result else result ++ ['\n', '\n']
  result ++ kimiConfigBlockBegin ++ ['\n']
    ++ kimiHookEvents.flatMap (fun (event, matcher, action) =>
      kimiHookTable platform event matcher hookPath action)
    ++ kimiConfigBlockEnd ++ ['\n']

end Herden.Runtime.Integration.TomlEdit
