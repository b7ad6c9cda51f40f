import Herden.Runtime.Config.Combo

/-!
# `Herden.Runtime.Config.Keybinds`: the bindings that labels stand for

Embedding of `parse_binding_string` and of `ActionKeybinds::from_labels` in
`runtime/src/config/keybinds.rs`.
-/

namespace Herden.Runtime.Config

open Herden.Lib (Text)
open Herden.Runtime.Key

/-- The constructor `Prefix` of the source is `prefixed`. -/
inductive BindingTrigger where
  | direct (combo : KeyCombo)
  | prefixed (combo : KeyCombo)
deriving DecidableEq

structure ResolvedBinding where
  trigger : BindingTrigger
  label : Text
deriving DecidableEq

inductive ParsedBinding where
  | single (binding : ResolvedBinding)
  | range (bindings : List ResolvedBinding)
deriving DecidableEq

/-- The digits from 1 to 9. -/
def indexDigits : List Char := ['1', '2', '3', '4', '5', '6', '7', '8', '9']

/-- The binding of a combination, after the prefix or direct, with its label. -/
def resolvedBinding (triggerPrefix : Bool) (combo : KeyCombo) (macos : Bool := false) :
    ResolvedBinding where
  trigger := if triggerPrefix then .prefixed combo else .direct combo
  label :=
    if triggerPrefix then "prefix+".toList ++ formatKeyCombo combo macos
    else formatKeyCombo combo macos

def parseBindingString (raw : Text) (macos : Bool := false) : Option ParsedBinding :=
  let trimmed := Text.trim raw
  let (triggerPrefix, body) :=
    match Text.afterPrefix "prefix+".toList trimmed with
    | some rest => (true, rest)
    | none => (false, trimmed)
  match parseRangeModifiers body with
  | some modifiers => some (.range (indexDigits.map fun digit =>
      resolvedBinding triggerPrefix (.char digit, modifiers) macos))
  | none =>
      (parseKeyCombo body).map fun combo => .single (resolvedBinding triggerPrefix combo macos)

/-- `ActionKeybinds::from_labels`. An error has the label. -/
def fromLabels (labels : List Text) (macos : Bool := false) : Except Text (List ResolvedBinding) :=
  labels.foldlM (fun bindings label =>
    match parseBindingString label macos with
    | some (.single binding) => .ok (bindings ++ [binding])
    | some (.range range) => .ok (bindings ++ range)
    | none => .error ("invalid endpoint command binding: ".toList ++ label)) []

end Herden.Runtime.Config
