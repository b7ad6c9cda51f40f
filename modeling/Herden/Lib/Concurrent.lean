import Mathlib.Logic.Function.Basic

/-!
# `Herden.Lib.Concurrent`: processes over shared state

A `System` is a shared state with the private state of every process. A step changes the shared
state and one private state (`System.set`). The lemmas say what survives such a step: a witness
among the other processes, and a property of all processes that the changed one keeps.
-/

namespace Herden.Lib

structure System (σ ι π : Type) where
  shared : σ
  process : ι → π

namespace System

variable {σ ι π : Type} [DecidableEq ι]

/-- One process moves on. -/
def set (s : System σ ι π) (i : ι) (shared : σ) (phase : π) : System σ ι π :=
  ⟨shared, Function.update s.process i phase⟩

@[simp] theorem shared_set (s : System σ ι π) (i : ι) (shared : σ) (phase : π) :
    (s.set i shared phase).shared = shared := rfl

@[simp] theorem process_set_self (s : System σ ι π) (i : ι) (shared : σ) (phase : π) :
    (s.set i shared phase).process i = phase := by
  show Function.update s.process i phase i = phase
  rw [Function.update_self]

variable {i : ι}

theorem process_set_of_ne (s : System σ ι π) {j : ι} (h : j ≠ i) (shared : σ) (phase : π) :
    (s.set i shared phase).process j = s.process j := by
  show Function.update s.process i phase j = s.process j
  rw [Function.update_of_ne h]

@[simp] theorem set_set (s : System σ ι π) (i : ι) (shared shared' : σ) (phase phase' : π) :
    (s.set i shared phase).set i shared' phase' = s.set i shared' phase' := by
  show (⟨shared', Function.update (Function.update s.process i phase) i phase'⟩ : System σ ι π) = _
  rw [Function.update_idem]
  rfl

variable {s : System σ ι π}

/-- A process that the step does not witness any more is not the one that moved. -/
theorem exists_set {P Q : π → Prop} (shared : σ) (phase : π) (h : ∃ j, P (s.process j))
    (hself : P (s.process i) → Q phase) (hother : ∀ j, j ≠ i → P (s.process j) → Q (s.process j)) :
    ∃ j, Q ((s.set i shared phase).process j) := by
  obtain ⟨j, hj⟩ := h
  by_cases hji : j = i
  · subst hji
    exact ⟨j, by rw [process_set_self]; exact hself hj⟩
  · exact ⟨j, by rw [process_set_of_ne s hji]; exact hother j hji hj⟩

/-- A property of every process after the step, from the one that moved and the others. -/
theorem forall_set {Q : ι → π → Prop} {shared : σ} {phase : π} (hself : Q i phase)
    (hother : ∀ j, j ≠ i → Q j (s.process j)) : ∀ j, Q j ((s.set i shared phase).process j) := by
  intro j
  by_cases hji : j = i
  · subst hji
    rw [process_set_self]
    exact hself
  · rw [process_set_of_ne s hji]
    exact hother j hji

end System

end Herden.Lib
