import Herden.Lib.Skim

/-!
# `Herden.Lib.Scan`: a scanner that skips ahead gives the same results however it is fed

A scanner reads items one at a time, and each step may put out one result. In some states only a
marked item does anything, so its loop jumps to the next mark. It is a skimmer of `Lib.Skim` that
stops at the same items in every state that skips, so feeding it in pieces gives the results of
feeding it item by item, each at its place in the whole input (`feed_eq_run`).
-/

namespace Herden.Lib

structure Scanner (σ α ω : Type*) where
  step : σ → α → σ × Option ω
  /-- The states in which only marked items count. -/
  skips : σ → Bool
  marked : α → Bool

namespace Scanner

variable {σ α ω : Type*} (m : Scanner σ α ω)

def skimmer : Skimmer σ α ω where
  step state item := ((m.step state item).1, (m.step state item).2.toList)
  stops state := if m.skips state then some m.marked else none

/-- The loop over one piece of input. Results come with the place of their last item. -/
def scan (state : σ) (items : List α) : σ × List (Nat × ω) :=
  m.skimmer.skim state items

/-- One item without looking ahead. -/
def advance (state : σ) (item : α) : σ × Option ω :=
  if m.skips state && !m.marked item then (state, none) else m.step state item

/-- The machine item by item, from the item at `cursor` on. -/
def run (cursor : Nat) (state : σ) (items : List α) : σ × List (Nat × ω) :=
  m.skimmer.run cursor state items

/-- Pieces of input one after the other, from the item at `cursor` on. -/
def feed (cursor : Nat) (state : σ) (pieces : List (List α)) : σ × List (Nat × ω) :=
  m.skimmer.feed cursor state pieces

theorem feed_cons (cursor : Nat) (state : σ) (items : List α) (rest : List (List α)) :
    m.feed cursor state (items :: rest)
      = ((m.feed (cursor + items.length) (m.scan state items).1 rest).1,
        (m.scan state items).2.map (fun result => (result.1 + cursor, result.2))
          ++ (m.feed (cursor + items.length) (m.scan state items).1 rest).2) := rfl

theorem advance_skimmer (state : σ) (item : α) :
    m.skimmer.advance state item
      = ((m.advance state item).1, (m.advance state item).2.toList) := by
  unfold Skimmer.advance Skimmer.stopsAt skimmer advance
  by_cases hskips : m.skips state = true <;> by_cases hmarked : m.marked item = true <;>
    simp [hskips, hmarked]

theorem scan_eq_run (state : σ) (items : List α) : m.scan state items = m.run 0 state items :=
  m.skimmer.skim_eq_run state items

/-- However the input is cut, the results are those of the machine item by item. -/
theorem feed_eq_run (cursor : Nat) (state : σ) (pieces : List (List α)) :
    m.feed cursor state pieces = m.run cursor state pieces.flatten :=
  m.skimmer.feed_eq_run cursor state pieces

/-- The results item by item, without their places. -/
def results (state : σ) : List α → List ω
  | [] => []
  | item :: rest =>
      (m.advance state item).2.toList ++ results (m.advance state item).1 rest

theorem map_snd_run (cursor : Nat) (state : σ) (items : List α) :
    (m.run cursor state items).2.map Prod.snd = m.results state items := by
  induction items generalizing cursor state with
  | nil => rfl
  | cons item rest ih =>
    unfold run at ih ⊢
    rw [Skimmer.run_cons, List.map_append, ih, advance_skimmer, List.map_map]
    exact congrArg (· ++ _) (List.map_id _)

/-- What every step keeps, the whole input keeps. -/
theorem run_invariant (keeps : σ → Prop)
    (hstep : ∀ state item, keeps state → keeps (m.step state item).1) (cursor : Nat) {state : σ}
    (hstate : keeps state) (items : List α) : keeps (m.run cursor state items).1 := by
  induction items generalizing cursor state with
  | nil => exact hstate
  | cons item rest ih =>
    have hadvance : keeps (m.advance state item).1 := by
      unfold advance
      split
      · exact hstate
      · exact hstep state item hstate
    unfold run
    rw [Skimmer.run_cons, advance_skimmer]
    exact ih (cursor + 1) hadvance

end Scanner

end Herden.Lib
