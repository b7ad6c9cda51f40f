import Mathlib.Data.Set.Disjoint
import Mathlib.Data.List.Pairwise
import Mathlib.Data.Set.BooleanAlgebra
import Mathlib.Order.CompletePartialOrder

/-!
# `Herden.Lib.Tiling`: a set cut into disjoint parts

`Tiles whole parts` says that a list of sets covers a set exactly: every element of the
whole is in some part, no part reaches outside, and no two parts share an element. A set
is a tiling of itself, and tilings of two disjoint sets join into a tiling of their union.
A recursive subdivision is built from these two.
-/

namespace Herden.Lib

variable {α : Type*}

/-- The parts are pairwise disjoint and together make up the whole. -/
structure Tiles (whole : Set α) (parts : List (Set α)) : Prop where
  disjoint : parts.Pairwise Disjoint
  cover : ∀ cell, cell ∈ whole ↔ ∃ part ∈ parts, cell ∈ part

namespace Tiles

theorem single (whole : Set α) : Tiles whole [whole] where
  disjoint := List.pairwise_singleton _ _
  cover := by simp

theorem subset {whole : Set α} {parts : List (Set α)} (h : Tiles whole parts) {part : Set α}
    (hpart : part ∈ parts) : part ⊆ whole :=
  fun cell hcell => (h.cover cell).mpr ⟨part, hpart, hcell⟩

/-- Cutting a hole out of every part cuts it out of the whole. -/
theorem cutOut {ι : Type*} {cells : ι → Set α} {whole hole : Set α} {parts : List ι}
    (h : Tiles whole (parts.map cells)) {cut : ι → List ι}
    (hcut : ∀ part ∈ parts, Tiles (cells part \ hole) ((cut part).map cells)) :
    Tiles (whole \ hole) ((parts.flatMap cut).map cells) where
  disjoint := by
    rw [List.map_flatMap, List.pairwise_flatMap]
    refine ⟨fun part hpart => (hcut part hpart).disjoint, ?_⟩
    have hparts := List.pairwise_map.mp h.disjoint
    refine hparts.imp_of_mem ?_
    intro part other hpart hother hdisjoint piece hpiece otherPiece hotherPiece
    exact hdisjoint.mono (fun cell hcell => ((hcut part hpart).subset hpiece hcell).1)
      fun cell hcell => ((hcut other hother).subset hotherPiece hcell).1
  cover := by
    intro cell
    constructor
    · rintro ⟨hwhole, hhole⟩
      obtain ⟨piece, hpiece, hcell⟩ := (h.cover cell).mp hwhole
      obtain ⟨part, hpart, rfl⟩ := List.mem_map.mp hpiece
      obtain ⟨piece, hpiece, hcell⟩ := ((hcut part hpart).cover cell).mp ⟨hcell, hhole⟩
      refine ⟨piece, ?_, hcell⟩
      rw [List.map_flatMap, List.mem_flatMap]
      exact ⟨part, hpart, hpiece⟩
    · rintro ⟨piece, hpiece, hcell⟩
      rw [List.map_flatMap, List.mem_flatMap] at hpiece
      obtain ⟨part, hpart, hpiece⟩ := hpiece
      have hinside := ((hcut part hpart).cover cell).mpr ⟨piece, hpiece, hcell⟩
      exact ⟨h.subset (List.mem_map_of_mem hpart) hinside.1, hinside.2⟩

/-- Tilings of two disjoint sets join into a tiling of their union. -/
theorem append {first second : Set α} {firstParts secondParts : List (Set α)}
    (hfirst : Tiles first firstParts) (hsecond : Tiles second secondParts)
    (hdisjoint : Disjoint first second) :
    Tiles (first ∪ second) (firstParts ++ secondParts) where
  disjoint := by
    refine List.pairwise_append.mpr ⟨hfirst.disjoint, hsecond.disjoint, ?_⟩
    intro part hpart other hother
    exact hdisjoint.mono (hfirst.subset hpart) (hsecond.subset hother)
  cover := by
    intro cell
    rw [Set.mem_union, hfirst.cover, hsecond.cover]
    constructor
    · rintro (⟨part, hpart, hcell⟩ | ⟨part, hpart, hcell⟩)
      · exact ⟨part, List.mem_append_left _ hpart, hcell⟩
      · exact ⟨part, List.mem_append_right _ hpart, hcell⟩
    · rintro ⟨part, hpart, hcell⟩
      rcases List.mem_append.mp hpart with hleft | hright
      · exact .inl ⟨part, hleft, hcell⟩
      · exact .inr ⟨part, hright, hcell⟩

end Tiles

end Herden.Lib
