import Mathlib.Order.PiLex
import Mathlib.Order.Compare

/-!
# `Herden.Lib.Padded`: sequences that go on with zeros

`padded` reads a finite sequence of numbers as an infinite one. Two of them are compared by the
first place where they differ, the order of `Lex (ℕ → ℕ)`. The lemmas say what a common or a
differing first number does, so that a comparison that walks two lists is followed step by step.
-/

namespace Herden.Lib

/-- The numbers, and zeros behind them. -/
def padded (numbers : List Nat) : Lex (ℕ → ℕ) := toLex fun place => numbers.getD place 0

theorem padded_zero : padded [0] = padded [] := by
  refine congrArg toLex (funext fun place => ?_)
  cases place <;> rfl

variable {a : Nat} {left right : List Nat}

/-- A smaller first number makes a sequence smaller. -/
theorem padded_lt_of_head_lt {b : Nat} (h : a < b) (left right : List Nat) :
    padded (a :: left) < padded (b :: right) :=
  ⟨0, fun place hplace => absurd hplace (Nat.not_lt_zero place), h⟩

theorem padded_cons_lt_cons (h : padded left < padded right) :
    padded (a :: left) < padded (a :: right) := by
  obtain ⟨place, hbefore, hlt⟩ := h
  refine ⟨place + 1, fun other hother => ?_, hlt⟩
  cases other with
  | zero => rfl
  | succ other => exact hbefore other (Nat.lt_of_succ_lt_succ hother)

theorem padded_cons_congr (h : padded left = padded right) :
    padded (a :: left) = padded (a :: right) := by
  refine congrArg toLex (funext fun place => ?_)
  cases place with
  | zero => rfl
  | succ place => exact congrFun (congrArg ofLex h) place

/-- A common first number leaves the comparison to the rest. -/
theorem compares_cons {ordering : Ordering} (h : ordering.Compares (padded left) (padded right)) :
    ordering.Compares (padded (a :: left)) (padded (a :: right)) := by
  cases ordering with
  | lt => exact padded_cons_lt_cons h
  | eq => exact padded_cons_congr h
  | gt => exact padded_cons_lt_cons h

end Herden.Lib
