import Herden.Lib.Text

/-!
# `Herden.Runtime.Integration.Command`: the command lines of hooks

Embedding of the part of `integration/command.rs` that config edits use. A path is its displayed
text.
-/

namespace Herden.Runtime.Integration

open Herden.Lib

/-- `cfg(windows)` or not. -/
inductive Platform where
  | unix
  | windows

/-- `value.replace(from, to)` for a single character. -/
def replaceChar (old : Char) (new : Text) (value : Text) : Text :=
  value.flatMap fun c => if c = old then new else [c]

def shellSingleQuote (value : Text) : Text :=
  ['\''] ++ replaceChar '\'' "'\"'\"'".toList value ++ ['\'']

def windowsCommandQuote (value : Text) : Text :=
  ['"'] ++ replaceChar '"' "\\\"".toList value ++ ['"']

/-- A command line with its action, if it has one. -/
def withAction (command : Text) : Option Text → Text
  | some action => command ++ [' '] ++ action
  | none => command

def legacyBashHookCommand (hookPath : Text) (action : Option Text) : Text :=
  withAction ("bash ".toList ++ shellSingleQuote hookPath) action

def hookCommand (platform : Platform) (hookPath : Text) (action : Option Text) : Text :=
  match platform with
  | .windows =>
      withAction ("powershell -NoProfile -ExecutionPolicy Bypass -File ".toList
        ++ windowsCommandQuote hookPath) action
  | .unix => withAction ("bash ".toList ++ shellSingleQuote hookPath) action

end Herden.Runtime.Integration
