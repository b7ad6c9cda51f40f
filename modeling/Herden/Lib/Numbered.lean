import Mathlib.Data.List.Basic

/-!
# `Herden.Lib.Numbered`: a numbered history and its windows

`numberedFrom n items` pairs the items of a log with consecutive sequence numbers, the
first of them `n + 1`. A bounded log keeps a suffix of its history: dropping the oldest
entries is `drop_numberedFrom`, and a read "after sequence `s`" or "up to sequence `s`" is
a filter on the numbers that `filter_lt_numberedFrom` and `filter_le_numberedFrom` turn
into a `drop` and a `take`.
-/

namespace Herden.Lib

variable {α : Type*}

/-- The items with the sequence numbers `n + 1`, `n + 2`, … -/
def numberedFrom (n : Nat) : List α → List (Nat × α)
  | [] => []
  | item :: rest => (n + 1, item) :: numberedFrom (n + 1) rest

@[simp] theorem length_numberedFrom (n : Nat) (items : List α) :
    (numberedFrom n items).length = items.length := by
  induction items generalizing n with
  | nil => rfl
  | cons item rest ih => simp [numberedFrom, ih]

theorem numberedFrom_append (n : Nat) (items more : List α) :
    numberedFrom n (items ++ more)
      = numberedFrom n items ++ numberedFrom (n + items.length) more := by
  induction items generalizing n with
  | nil => rfl
  | cons item rest ih =>
    rw [List.cons_append, numberedFrom, ih, numberedFrom, List.cons_append, List.length_cons,
      Nat.add_right_comm n 1, Nat.add_assoc n]

theorem drop_numberedFrom (n k : Nat) (items : List α) :
    (numberedFrom n items).drop k = numberedFrom (n + k) (items.drop k) := by
  induction items generalizing n k with
  | nil => simp [numberedFrom]
  | cons item rest ih =>
    cases k with
    | zero => rfl
    | succ k =>
      rw [numberedFrom, List.drop_succ_cons, ih, List.drop_succ_cons, Nat.add_right_comm,
        Nat.add_assoc]

variable {items : List α} {n high low : Nat}

theorem lt_of_mem_numberedFrom {entry : Nat × α} (h : entry ∈ numberedFrom n items) :
    n < entry.1 ∧ entry.1 ≤ n + items.length := by
  induction items generalizing n with
  | nil => cases h
  | cons item rest ih =>
    rcases List.mem_cons.mp h with rfl | h
    · simp only [List.length_cons]
      omega
    · have := ih h
      simp only [List.length_cons]
      omega

/-- Every number of the range belongs to an entry. -/
theorem exists_mem_numberedFrom {seq : Nat} (hlow : n < seq) (hhigh : seq ≤ n + items.length) :
    ∃ item, (seq, item) ∈ numberedFrom n items := by
  induction items generalizing n with
  | nil => simp only [List.length_nil] at hhigh; omega
  | cons item rest ih =>
    by_cases heq : seq = n + 1
    · exact ⟨item, by simp [numberedFrom, heq]⟩
    · rw [List.length_cons] at hhigh
      obtain ⟨found, hmem⟩ := ih (n := n + 1) (by omega) (by omega)
      exact ⟨found, List.mem_cons_of_mem _ hmem⟩

/-- Reading after sequence `s` drops the entries up to `s`. -/
theorem filter_lt_numberedFrom (n s : Nat) (items : List α) :
    (numberedFrom n items).filter (fun entry => s < entry.1)
      = (numberedFrom n items).drop (s - n) := by
  induction items generalizing n with
  | nil => simp [numberedFrom]
  | cons item rest ih =>
    rw [numberedFrom]
    by_cases h : s < n + 1
    · have hn : s - n = 0 := by omega
      have hn' : s - (n + 1) = 0 := by omega
      rw [List.filter_cons_of_pos (by simpa using h), ih, hn, hn', List.drop_zero,
        List.drop_zero]
    · have hn : s - n = s - (n + 1) + 1 := by omega
      rw [List.filter_cons_of_neg (by simpa using h), ih, hn, List.drop_succ_cons]

/-- Reading up to sequence `s` takes the entries up to `s`. -/
theorem filter_le_numberedFrom (n s : Nat) (items : List α) :
    (numberedFrom n items).filter (fun entry => entry.1 ≤ s)
      = (numberedFrom n items).take (s - n) := by
  induction items generalizing n with
  | nil => simp [numberedFrom]
  | cons item rest ih =>
    rw [numberedFrom]
    by_cases h : n + 1 ≤ s
    · have hn : s - n = s - (n + 1) + 1 := by omega
      rw [List.filter_cons_of_pos (by simpa using h), ih, hn, List.take_succ_cons]
    · have hn : s - n = 0 := by omega
      have hn' : s - (n + 1) = 0 := by omega
      rw [List.filter_cons_of_neg (by simpa using h), ih, hn, hn', List.take_zero,
        List.take_zero]

/-- The entries numbered from `low + 1` to `high`. -/
def window (low high : Nat) (entries : List (Nat × α)) : List (Nat × α) :=
  entries.filter (fun entry => low < entry.1 ∧ entry.1 ≤ high)

theorem window_numbered (low high : Nat) (items : List α) :
    window low high (numberedFrom 0 items) = ((numberedFrom 0 items).take high).drop low := by
  have hsplit : window low high (numberedFrom 0 items)
      = ((numberedFrom 0 items).filter (fun entry => low < entry.1)).filter
          (fun entry => entry.1 ≤ high) := by
    rw [window, List.filter_filter]
    exact List.filter_congr (fun entry _ => by simp [and_comm])
  rw [hsplit, filter_lt_numberedFrom, drop_numberedFrom, filter_le_numberedFrom, List.drop_take,
    drop_numberedFrom]
  simp

/-- New entries behind the window leave it as it is. -/
theorem window_append (items more : List α) (h : high ≤ items.length ∨ high ≤ low) :
    window low high (numberedFrom 0 (items ++ more)) = window low high (numberedFrom 0 items) := by
  rw [window_numbered, window_numbered, numberedFrom_append, List.drop_take, List.drop_take,
    List.drop_append]
  rcases h with h | h
  · rw [List.take_append_of_le_length]
    simp only [List.length_drop, length_numberedFrom]
    omega
  · have hzero : high - low = 0 := by omega
    rw [hzero, List.take_zero, List.take_zero]

/-- A window up to its own lower end is empty. -/
theorem window_max (low high : Nat) (items : List α) :
    window low (max low high) (numberedFrom 0 items)
      = window low high (numberedFrom 0 items) := by
  rw [window_numbered, window_numbered, List.drop_take, List.drop_take]
  congr 1
  omega

/-- A read from the end of one window to the end of the history extends the window. -/
theorem window_extend (h : low ≤ high) (items : List α) :
    window low items.length (numberedFrom 0 items)
      = window low high (numberedFrom 0 items) ++ (numberedFrom 0 items).drop high := by
  rw [window_numbered, window_numbered]
  have hall : (numberedFrom 0 items).take items.length = numberedFrom 0 items :=
    List.take_of_length_le (Nat.le_of_eq (length_numberedFrom 0 items))
  rw [hall]
  conv_lhs => rw [← List.take_append_drop high (numberedFrom 0 items)]
  by_cases hlen : high ≤ items.length
  · rw [List.drop_append_of_le_length]
    simp only [List.length_take, length_numberedFrom]
    omega
  · have hdrop : (numberedFrom 0 items).drop high = [] := by
      rw [List.drop_eq_nil_iff, length_numberedFrom]
      omega
    rw [hdrop, List.append_nil, List.append_nil]

end Herden.Lib
