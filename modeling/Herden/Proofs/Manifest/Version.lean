import Herden.Lib.Fallible
import Herden.Lib.Padded
import Herden.Runtime.Manifest.Version

/-!
# `Herden.Proofs.Manifest.Version`: the order of versions

`cmp` compares the numbers of two versions as sequences that go on with zeros
(`cmpSegments_compares`). In a version that `parse` accepts every segment is a number in decimal
digits (`parse_digits`), so the default for a segment that is none is never used.
-/

namespace Herden.Proofs.Manifest.Version

open Herden.Lib
open Herden.Lib.Text (parseBelow)
open Herden.Runtime.Manifest.Version

/-- The numbers that the segments of a version are in decimal digits. -/
def numbers (version : ManifestVersion) : List Nat :=
  (version.text.splitOn '.').map (Nat.ofDigitChars 10 · 0)

variable {debug : Text → Text}

/-- A segment that passes is the number of its digits. -/
theorem segmentNumber_of_checkSegment {trimmed segment : Text}
    (h : checkSegment debug trimmed segment = .ok ()) :
    segmentNumber segment = Nat.ofDigitChars 10 segment 0 := by
  unfold checkSegment at h
  split at h
  next => cases h
  split at h
  next => cases h
  split at h
  next => cases h
  next hempty hdigits hnumber =>
    have hne : segment ≠ [] := fun hnil => hempty (List.isEmpty_iff.mpr hnil)
    have hall : segment.all Char.isDigit = true := by simpa using hdigits
    unfold segmentNumber
    rw [Text.parseBelow_digits hne hall] at hnumber ⊢
    split at hnumber
    next hbound =>
      rw [if_pos hbound]
      rfl
    next => exact absurd rfl hnumber

/-- Each segment of a version that is accepted is the number of its digits. -/
theorem parse_digits {value : Text} {version : ManifestVersion}
    (h : ManifestVersion.parse debug value = .ok version) :
    (version.text.splitOn '.').map segmentNumber = numbers version := by
  unfold ManifestVersion.parse at h
  dsimp only at h
  split at h
  next => cases h
  next =>
    obtain ⟨_, hsegments, hversion⟩ := bind_eq_ok.mp h
    cases hversion
    refine List.map_congr_left fun segment hsegment => ?_
    exact segmentNumber_of_checkSegment (forM_eq_ok.mp hsegments segment hsegment)

/-! ### Comparison -/

/-- What is left over is compared with zeros. -/
theorem cmpRest_left (segments : List Text) :
    (cmpRest .gt segments).Compares (padded (segments.map segmentNumber)) (padded []) := by
  induction segments with
  | nil => rfl
  | cons segment rest ih =>
    rw [cmpRest, List.map_cons, ← padded_zero]
    split
    next hzero =>
      rw [hzero]
      exact compares_cons ih
    next hpos => exact padded_lt_of_head_lt (Nat.pos_of_ne_zero hpos) _ _

theorem cmpRest_right (segments : List Text) :
    (cmpRest .lt segments).Compares (padded []) (padded (segments.map segmentNumber)) := by
  induction segments with
  | nil => rfl
  | cons segment rest ih =>
    rw [cmpRest, List.map_cons, ← padded_zero]
    split
    next hzero =>
      rw [hzero]
      exact compares_cons ih
    next hpos => exact padded_lt_of_head_lt (Nat.pos_of_ne_zero hpos) _ _

theorem cmpSegments_compares (left right : List Text) :
    (cmpSegments left right).Compares (padded (left.map segmentNumber))
      (padded (right.map segmentNumber)) := by
  induction left generalizing right with
  | nil => exact cmpRest_right right
  | cons segment rest ih =>
    cases right with
    | nil => exact cmpRest_left (segment :: rest)
    | cons other more =>
      rw [cmpSegments, List.map_cons, List.map_cons]
      rcases Nat.lt_trichotomy (segmentNumber segment) (segmentNumber other) with hlt | heq | hgt
      · rw [Nat.compare_eq_lt.mpr hlt]
        exact padded_lt_of_head_lt hlt _ _
      · rw [Nat.compare_eq_eq.mpr heq, heq]
        exact compares_cons (ih more)
      · rw [Nat.compare_eq_gt.mpr hgt]
        exact padded_lt_of_head_lt hgt _ _

/-- The order in which versions are compared, parsed or not. -/
def rank (version : ManifestVersion) : Lex (ℕ → ℕ) :=
  padded ((version.text.splitOn '.').map segmentNumber)

theorem cmp_compares_rank (left right : ManifestVersion) :
    (left.cmp right).Compares (rank left) (rank right) :=
  cmpSegments_compares _ _

/-- Versions that are accepted are compared by their numbers. -/
theorem cmp_compares {a b : Text} {left right : ManifestVersion}
    (hleft : ManifestVersion.parse debug a = .ok left)
    (hright : ManifestVersion.parse debug b = .ok right) :
    (left.cmp right).Compares (padded (numbers left)) (padded (numbers right)) := by
  rw [← parse_digits hleft, ← parse_digits hright]
  exact cmp_compares_rank left right

end Herden.Proofs.Manifest.Version
