import Herden.Lib.Text

/-!
# `Herden.Runtime.Manifest.Version`: versions of manifests

Embedding of `ManifestVersion` of `detect/manifest_update.rs`. A version keeps its text, and two
versions are compared segment by segment, where a missing segment counts as zero. `debug` is the
`{:?}` of a string in a message.
-/

namespace Herden.Runtime.Manifest.Version

open Herden.Lib
open Herden.Lib.Text (trim parseBelow)

structure ManifestVersion where
  text : Text

def checkSegment (debug : Text → Text) (trimmed segment : Text) : Except Text Unit :=
  if segment.isEmpty then
    .error ("version ".toList ++ debug trimmed ++ " contains an empty segment".toList)
  else if !segment.all Char.isDigit then
    .error ("version ".toList ++ debug trimmed ++ " must be dotted numeric".toList)
  else if (parseBelow (2 ^ 64) segment).isNone then
    .error ("version ".toList ++ debug trimmed ++ " contains an oversized segment".toList)
  else .ok ()

def ManifestVersion.parse (debug : Text → Text) (value : Text) : Except Text ManifestVersion := do
  let trimmed := trim value
  if trimmed.isEmpty then .error "version must not be empty".toList
  else
    (trimmed.splitOn '.').forM (checkSegment debug trimmed)
    return ⟨trimmed⟩

/-- `segment.parse::<u64>().unwrap_or(0)`. -/
def segmentNumber (segment : Text) : Nat := (parseBelow (2 ^ 64) segment).getD 0

/-- The loop of `cmp` once the other version has no segment left. -/
def cmpRest (ordering : Ordering) : List Text → Ordering
  | [] => .eq
  | segment :: rest => if segmentNumber segment = 0 then cmpRest ordering rest else ordering

/-- The loop of `cmp`. -/
def cmpSegments : List Text → List Text → Ordering
  | [], right => cmpRest .lt right
  | left, [] => cmpRest .gt left
  | left :: lefts, right :: rights =>
      match compare (segmentNumber left) (segmentNumber right) with
      | .eq => cmpSegments lefts rights
      | ordering => ordering

def ManifestVersion.cmp (self other : ManifestVersion) : Ordering :=
  cmpSegments (self.text.splitOn '.') (other.text.splitOn '.')

end Herden.Runtime.Manifest.Version
