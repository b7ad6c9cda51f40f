import Mathlib.Data.Set.Basic

/-!
# `Herden.Lib.Run`: runs of a labelled state machine

A machine is given by a step function that takes a state and an operation to the next
state and an answer, or to `none` when the operation panics. `Reachable` collects the
states of every run whose operations are allowed where they happen, and
`Reachable.invariant` is the one induction over runs: a property of the initial states
that every allowed step keeps holds in every reachable state.
-/

namespace Herden.Lib

variable {σ ω ρ : Type*}

/-- The states that runs of `step` from `init` reach, with every operation allowed in the
state it is made in. -/
inductive Reachable (init : σ → Prop) (allowed : σ → ω → Prop)
    (step : σ → ω → Option (σ × ρ)) : σ → Prop
  | start {s : σ} : init s → Reachable init allowed step s
  | next {s t : σ} {answer : ρ} (op : ω) : Reachable init allowed step s → allowed s op →
      step s op = some (t, answer) → Reachable init allowed step t

variable {s : σ} {step : σ → ω → Option (σ × ρ)}

variable {allowed : σ → ω → Prop} {init : σ → Prop} {ops : List ω} {t : σ}

/-- The invariant rule: what holds initially and survives every allowed step holds in
every reachable state. -/
theorem Reachable.invariant (h : Reachable init allowed step s) (Inv : σ → Prop)
    (hinit : ∀ s, init s → Inv s)
    (hstep : ∀ s op t answer, allowed s op → step s op = some (t, answer) → Inv s → Inv t) :
    Inv s := by
  induction h with
  | start h₀ => exact hinit _ h₀
  | next op _ hallowed hstepEq ih => exact hstep _ op _ _ hallowed hstepEq ih

/-- The state after a list of operations, or `none` when one of them is not possible. -/
def runAll (step : σ → ω → Option (σ × ρ)) (s : σ) : List ω → Option σ
  | [] => some s
  | op :: ops => (step s op).bind fun next => runAll step next.1 ops

/-- What every operation of the list keeps holds at the end. -/
theorem runAll_invariant (Inv : σ → Prop)
    (hstep : ∀ s op t answer, op ∈ ops → step s op = some (t, answer) → Inv s → Inv t)
    (hrun : runAll step s ops = some t) (h : Inv s) : Inv t := by
  induction ops generalizing s with
  | nil =>
    cases hrun
    exact h
  | cons op ops ih =>
    obtain ⟨next, hnext, hrest⟩ := Option.bind_eq_some_iff.mp hrun
    have hkept : Inv next.1 := hstep s op next.1 next.2 List.mem_cons_self hnext h
    exact ih (fun s op t answer hmem => hstep s op t answer (List.mem_cons_of_mem _ hmem))
      hrest hkept

/-- The step, where a test allows it. -/
def guarded (test : σ → ω → Bool) (step : σ → ω → Option (σ × ρ)) (s : σ) (op : ω) :
    Option (σ × ρ) :=
  if test s op then step s op else none

theorem Reachable.runAll {test : σ → ω → Bool} (htest : ∀ s op, test s op = true → allowed s op)
    (h : Reachable init allowed step s) (hrun : runAll (guarded test step) s ops = some t) :
    Reachable init allowed step t := by
  induction ops generalizing s with
  | nil =>
    cases hrun
    exact h
  | cons op ops ih =>
    obtain ⟨next, hstep, hrest⟩ := Option.bind_eq_some_iff.mp hrun
    unfold guarded at hstep
    split at hstep
    next htrue => exact ih (Reachable.next op h (htest s op htrue) hstep) hrest
    · cases hstep

end Herden.Lib
