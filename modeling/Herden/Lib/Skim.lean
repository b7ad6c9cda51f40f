import Mathlib.Data.List.Basic

/-!
# `Herden.Lib.Skim`: a loop that passes over items is not seen from outside

A machine reads items one at a time, and each step may put out results. Some states pass over all
items but those they stop at, and which these are depends on the state. The loop then jumps to the
next one (`skim`). It does what the machine does item by item (`skim_eq_run`), so input that is cut
into pieces gives the results of the whole (`feed_eq_run`).
-/

namespace Herden.Lib

structure Skimmer (σ α ω : Type*) where
  step : σ → α → σ × List ω
  /-- The items that a state stops at, if it passes over the others. -/
  stops : σ → Option (α → Bool)

namespace Skimmer

variable {σ α ω : Type*} (m : Skimmer σ α ω)

/-- Whether a state stops at an item. -/
def stopsAt (state : σ) (item : α) : Bool := (m.stops state).all (· item)

/-- Where the loop goes on. -/
def jump (state : σ) (items : List α) : Option Nat :=
  match m.stops state with
  | none => some 0
  | some stop => items.findIdx? stop

/-- The loop, from the item at `cursor` on. Results come with the place of their last item. -/
def skimFrom : Nat → Nat → σ → List α → σ × List (Nat × ω)
  | 0, _, state, _ => (state, [])
  | fuel + 1, cursor, state, items =>
      match m.jump state items with
      | none => (state, [])
      | some offset =>
          match items.drop offset with
          | [] => (state, [])
          | item :: rest =>
              let (state, results) := m.step state item
              let (state, later) := skimFrom fuel (cursor + offset + 1) state rest
              (state, results.map (cursor + offset, ·) ++ later)

/-- The loop over one piece of input. -/
def skim (state : σ) (items : List α) : σ × List (Nat × ω) :=
  m.skimFrom items.length 0 state items

/-- One item without looking ahead. -/
def advance (state : σ) (item : α) : σ × List ω :=
  if m.stopsAt state item then m.step state item else (state, [])

/-- The machine item by item, from the item at `cursor` on. -/
def run (cursor : Nat) (state : σ) : List α → σ × List (Nat × ω)
  | [] => (state, [])
  | item :: rest =>
      let (state, results) := m.advance state item
      let (state, later) := run (cursor + 1) state rest
      (state, results.map (cursor, ·) ++ later)

/-- Pieces of input one after the other, from the item at `cursor` on. -/
def feed (cursor : Nat) (state : σ) : List (List α) → σ × List (Nat × ω)
  | [] => (state, [])
  | items :: rest =>
      let (state, results) := m.skim state items
      let (state, later) := feed (cursor + items.length) state rest
      (state, results.map (fun result => (result.1 + cursor, result.2)) ++ later)

theorem run_cons (cursor : Nat) (state : σ) (item : α) (rest : List α) :
    m.run cursor state (item :: rest)
      = ((m.run (cursor + 1) (m.advance state item).1 rest).1,
        (m.advance state item).2.map (cursor, ·)
          ++ (m.run (cursor + 1) (m.advance state item).1 rest).2) := rfl

theorem run_append (cursor : Nat) (state : σ) (items more : List α) :
    m.run cursor state (items ++ more)
      = ((m.run (cursor + items.length) (m.run cursor state items).1 more).1,
        (m.run cursor state items).2
          ++ (m.run (cursor + items.length) (m.run cursor state items).1 more).2) := by
  induction items generalizing cursor state with
  | nil => rfl
  | cons item rest ih =>
    rw [List.cons_append, run_cons, run_cons, ih, List.length_cons, List.append_assoc,
      Nat.add_right_comm cursor 1, Nat.add_assoc cursor]

theorem run_shift (cursor start : Nat) (state : σ) (items : List α) :
    m.run (cursor + start) state items
      = ((m.run cursor state items).1,
        (m.run cursor state items).2.map fun result => (result.1 + start, result.2)) := by
  induction items generalizing cursor state with
  | nil => rfl
  | cons item rest ih =>
    rw [run_cons, run_cons, Nat.add_right_comm, ih, List.map_append, List.map_map]
    rfl

variable {items : List α}

variable {state : σ}

/-- Items that the state passes over do nothing. -/
theorem run_passed (hpassed : ∀ item ∈ items, m.stopsAt state item = false) (cursor : Nat) :
    m.run cursor state items = (state, []) := by
  induction items generalizing cursor with
  | nil => rfl
  | cons item rest ih =>
    obtain ⟨hitem, hrest⟩ := List.forall_mem_cons.mp hpassed
    have hadvance : m.advance state item = (state, []) := by
      unfold advance
      rw [hitem]
      rfl
    rw [run_cons, hadvance]
    dsimp only
    rw [ih hrest]
    rfl

/-- The jump passes over everything, or it ends at an item that the state stops at. -/
theorem jump_cases (state : σ) (items : List α) :
    items = [] ∨ (m.jump state items = none ∧ ∀ item ∈ items, m.stopsAt state item = false) ∨
      ∃ front item rest, items = front ++ item :: rest ∧ m.jump state items = some front.length
        ∧ (∀ other ∈ front, m.stopsAt state other = false) ∧ m.stopsAt state item = true := by
  cases items with
  | nil => exact .inl rfl
  | cons first more =>
    right
    cases hstops : m.stops state with
    | none =>
      refine .inr ⟨[], first, more, rfl, ?_, by simp, ?_⟩
      · unfold jump
        rw [hstops]
        rfl
      · unfold stopsAt
        rw [hstops]
        rfl
    | some stop =>
      have hstopsAt : ∀ item, m.stopsAt state item = stop item := by
        intro item
        unfold stopsAt
        rw [hstops]
        rfl
      have hjump : m.jump state (first :: more) = (first :: more).findIdx? stop := by
        unfold jump
        rw [hstops]
      rw [hjump]
      cases hoffset : (first :: more).findIdx? stop with
      | none =>
        refine .inl ⟨rfl, fun item hmem => ?_⟩
        rw [hstopsAt]
        simpa using List.findIdx?_eq_none_iff.mp hoffset item hmem
      | some offset =>
        obtain ⟨hlt, hstop, hearlier⟩ := List.findIdx?_eq_some_iff_getElem.mp hoffset
        refine .inr ⟨(first :: more).take offset, (first :: more)[offset],
          (first :: more).drop (offset + 1), ?_, ?_, ?_, ?_⟩
        · rw [← List.drop_eq_getElem_cons hlt, List.take_append_drop]
        · rw [List.length_take_of_le (Nat.le_of_lt hlt)]
        · intro other hmem
          obtain ⟨j, hj, rfl⟩ := List.mem_take_iff_getElem.mp hmem
          rw [hstopsAt]
          simpa using hearlier j (by omega)
        · rw [hstopsAt]
          exact hstop

/-- The loop does what the machine does item by item. -/
theorem skimFrom_eq_run {fuel : Nat} (hfuel : items.length ≤ fuel) (cursor : Nat) (state : σ) :
    m.skimFrom fuel cursor state items = m.run cursor state items := by
  induction fuel generalizing cursor state items with
  | zero =>
    rw [List.length_eq_zero_iff.mp (Nat.le_zero.mp hfuel)]
    rfl
  | succ fuel ih =>
    rw [skimFrom]
    rcases m.jump_cases state items with
      rfl | ⟨hjump, hpassed⟩ | ⟨front, item, rest, rfl, hjump, hpassed, hstop⟩
    · unfold jump
      cases m.stops state with
      | none => rfl
      | some stop => rfl
    · rw [hjump]
      exact (m.run_passed hpassed cursor).symm
    · have hadvance : m.advance state item = m.step state item := if_pos hstop
      have hrest : rest.length ≤ fuel := by
        rw [List.length_append, List.length_cons] at hfuel
        omega
      rw [hjump]
      dsimp only
      rw [List.drop_left]
      dsimp only
      rw [ih hrest, m.run_append, m.run_passed hpassed, run_cons, hadvance]
      rfl

theorem skim_eq_run (state : σ) (items : List α) : m.skim state items = m.run 0 state items :=
  m.skimFrom_eq_run (Nat.le_refl _) 0 state

/-- However the input is cut, the results are those of the machine item by item. -/
theorem feed_eq_run (cursor : Nat) (state : σ) (pieces : List (List α)) :
    m.feed cursor state pieces = m.run cursor state pieces.flatten := by
  induction pieces generalizing cursor state with
  | nil => rfl
  | cons items rest ih =>
    have hshift := m.run_shift 0 cursor state items
    rw [Nat.zero_add] at hshift
    rw [List.flatten_cons, run_append, hshift, ← skim_eq_run, ← ih]
    rfl

/-! ### Places -/

/-- The state behind some items. -/
def after (state : σ) (items : List α) : σ :=
  items.foldl (fun state item => (m.advance state item).1) state

theorem fst_run (cursor : Nat) (state : σ) (items : List α) :
    (m.run cursor state items).1 = m.after state items := by
  induction items generalizing cursor state with
  | nil => rfl
  | cons item rest ih => exact ih (cursor + 1) (m.advance state item).1

theorem after_snoc (state : σ) (items : List α) (item : α) :
    m.after state (items ++ [item]) = (m.advance (m.after state items) item).1 := by
  unfold after
  rw [List.foldl_append]
  rfl

theorem le_place {cursor : Nat} {result : Nat × ω} (h : result ∈ (m.run cursor state items).2) :
    cursor ≤ result.1 := by
  induction items generalizing cursor state with
  | nil => cases h
  | cons item rest ih =>
    rw [run_cons] at h
    rcases List.mem_append.mp h with hfirst | hlater
    · obtain ⟨_, -, rfl⟩ := List.mem_map.mp hfirst
      exact Nat.le_refl _
    · exact Nat.le_of_succ_le (ih hlater)

/-- The results of one item, by its place. -/
theorem filter_run (cursor : Nat) (state : σ) (items : List α) (index : Nat) :
    (m.run cursor state items).2.filter (fun result => result.1 = cursor + index)
      = match items[index]? with
        | none => []
        | some item =>
            (m.advance (m.after state (items.take index)) item).2.map (cursor + index, ·) := by
  induction items generalizing cursor state index with
  | nil => rfl
  | cons item rest ih =>
    rw [run_cons, List.filter_append]
    cases index with
    | zero =>
      have hlater : (m.run (cursor + 1) (m.advance state item).1 rest).2.filter
          (fun result => result.1 = cursor + 0) = [] := by
        refine List.filter_eq_nil_iff.mpr fun result hresult => ?_
        have hle := m.le_place hresult
        rw [decide_eq_true_iff]
        omega
      rw [hlater, List.append_nil, List.filter_eq_self.mpr]
      · rfl
      · intro result hresult
        obtain ⟨_, -, rfl⟩ := List.mem_map.mp hresult
        exact decide_eq_true rfl
    | succ index =>
      have hfirst : ((m.advance state item).2.map (cursor, ·)).filter
          (fun result => result.1 = cursor + (index + 1)) = [] := by
        refine List.filter_eq_nil_iff.mpr fun result hresult => ?_
        obtain ⟨_, -, rfl⟩ := List.mem_map.mp hresult
        rw [decide_eq_true_iff]
        show ¬ cursor = cursor + (index + 1)
        omega
      have hrest := ih (cursor + 1) (m.advance state item).1 index
      have hplace : cursor + 1 + index = cursor + (index + 1) := by omega
      rw [hplace] at hrest
      rw [hfirst, List.nil_append, hrest]
      rfl

end Skimmer

end Herden.Lib
