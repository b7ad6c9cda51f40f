import Mathlib.Tactic.Common

/-!
# `Herden.Lib.Screen`: rows of a terminal with narrow and wide glyphs

A column of a row shows a narrow glyph or one half of a wide one. A glyph written into a row takes
one column or two. If it takes one half of a wide glyph away, the other half cannot stay: it becomes
a narrow glyph, and which one depends on the terminal (`erase`).

`WellFormed` rows have their halves in pairs, and writing keeps them so. The lemmas say which halves
a row has after a write, and that writing what is there already changes nothing.
-/

namespace Herden.Lib.Screen

variable {γ : Type}

/-- What a column shows. -/
inductive Column (γ : Type) where
  | narrow (glyph : γ)
  | lead (glyph : γ)
  | trail (glyph : γ)

namespace Column

def isLead : Column γ → Bool
  | .lead _ => true
  | _ => false

def isTrail : Column γ → Bool
  | .trail _ => true
  | _ => false

/-- A half without its other half. -/
def orphan (erase : γ → γ) : Column γ → Column γ
  | .narrow glyph => .narrow glyph
  | .lead glyph => .narrow (erase glyph)
  | .trail glyph => .narrow (erase glyph)

@[simp] theorem isLead_orphan (erase : γ → γ) (column : Column γ) :
    (column.orphan erase).isLead = false := by
  cases column <;> rfl

@[simp] theorem isTrail_orphan (erase : γ → γ) (column : Column γ) :
    (column.orphan erase).isTrail = false := by
  cases column <;> rfl

@[simp] theorem orphan_orphan (erase : γ → γ) (column : Column γ) :
    (column.orphan erase).orphan erase = column.orphan erase := by
  cases column <;> rfl

theorem isLead_eq_false_of_isTrail {column : Column γ} (h : column.isTrail = true) :
    column.isLead = false := by
  cases column with
  | narrow glyph => rfl
  | lead glyph => cases h
  | trail glyph => rfl

end Column

/-- A row of columns. -/
abbrev Row (γ : Type) : Type := Nat → Column γ

/-- Write a narrow glyph at column `x`. -/
def putNarrow (erase : γ → γ) (row : Row γ) (x : Nat) (glyph : γ) : Row γ := fun y =>
  if y = x then .narrow glyph
  else if y = x + 1 ∧ (row x).isLead ∨ y + 1 = x ∧ (row x).isTrail then (row y).orphan erase
  else row y

/-- Write a wide glyph at columns `x` and `x + 1`. -/
def putWide (erase : γ → γ) (row : Row γ) (x : Nat) (glyph : γ) : Row γ := fun y =>
  if y = x then .lead glyph
  else if y = x + 1 then .trail glyph
  else if y = x + 2 ∧ (row (x + 1)).isLead ∨ y + 1 = x ∧ (row x).isTrail then
    (row y).orphan erase
  else row y

/-- Write a glyph of the given width into a row of `columns` columns. A glyph without width is not
seen, and a wide one needs two columns. -/
def put (erase : γ → γ) (columns : Nat) (row : Row γ) (x width : Nat) (glyph : γ) : Row γ :=
  if width = 0 then row
  else if width = 1 then if x < columns then putNarrow erase row x glyph else row
  else if x + 1 < columns then putWide erase row x glyph else row

/-- Halves come in pairs. -/
structure WellFormed (row : Row γ) : Prop where
  pair : ∀ x, (row x).isLead = (row (x + 1)).isTrail
  first : (row 0).isTrail = false

/-- A row as a terminal keeps it. -/
@[ext] structure Line (γ : Type) where
  row : Row γ
  wellFormed : WellFormed row

section

variable {erase : γ → γ} {row : Row γ} {x : Nat}

variable {glyph : γ} {columns width n : Nat}

/-- Writing the narrow glyph that is there changes nothing. -/
theorem putNarrow_eq_self (h : row x = .narrow glyph) : putNarrow erase row x glyph = row := by
  funext y
  unfold putNarrow
  split
  · rename_i hy
    rw [hy, h]
  · simp [h, Column.isLead, Column.isTrail]

/-- Writing the wide glyph that is there changes nothing. -/
theorem putWide_eq_self (hlead : row x = .lead glyph) (htrail : row (x + 1) = .trail glyph) :
    putWide erase row x glyph = row := by
  funext y
  unfold putWide
  split
  · rename_i hy
    rw [hy, hlead]
  · split
    · rename_i hy
      rw [hy, htrail]
    · simp [hlead, htrail, Column.isLead, Column.isTrail]

/-! ### Halves after a write -/

theorem isLead_putNarrow (h : WellFormed row) (glyph : γ) (y : Nat) :
    (putNarrow erase row x glyph y).isLead
      = if y = x ∨ y + 1 = x then false else (row y).isLead := by
  unfold putNarrow
  split
  · rename_i hy
    simp [hy, Column.isLead]
  · rename_i hy
    split
    · rename_i horphan
      rw [Column.isLead_orphan]
      rcases horphan with ⟨hright, hlead⟩ | ⟨hleft, -⟩
      · have htrail : (row y).isTrail = true := by rw [hright, ← h.pair x, hlead]
        rw [Column.isLead_eq_false_of_isTrail htrail, ite_self]
      · rw [if_pos (.inr hleft)]
    · rename_i hkept
      by_cases hleft : y + 1 = x
      · rw [if_pos (.inr hleft), h.pair y, hleft]
        cases htrail : (row x).isTrail with
        | false => rfl
        | true => exact absurd (.inr ⟨hleft, htrail⟩) hkept
      · rw [if_neg (by omega)]

theorem isTrail_putNarrow (h : WellFormed row) (glyph : γ) (y : Nat) :
    (putNarrow erase row x glyph y).isTrail
      = if y = x ∨ y = x + 1 then false else (row y).isTrail := by
  unfold putNarrow
  split
  · rename_i hy
    simp [hy, Column.isTrail]
  · rename_i hy
    split
    · rename_i horphan
      rw [Column.isTrail_orphan]
      rcases horphan with ⟨hright, -⟩ | ⟨hleft, htrail⟩
      · rw [if_pos (.inr hright)]
      · have hlead : (row y).isLead = true := by rw [h.pair y, hleft, htrail]
        cases hrow : row y with
        | narrow glyph => simp [Column.isTrail]
        | lead glyph => simp [Column.isTrail]
        | trail glyph =>
          rw [hrow] at hlead
          cases hlead
    · rename_i hkept
      by_cases hright : y = x + 1
      · rw [if_pos (.inr hright), hright, ← h.pair x]
        cases hlead : (row x).isLead with
        | false => rfl
        | true => exact absurd (.inl ⟨hright, hlead⟩) hkept
      · rw [if_neg (by omega)]

theorem WellFormed.putNarrow (h : WellFormed row) (glyph : γ) :
    WellFormed (putNarrow erase row x glyph) where
  pair := by
    intro y
    rw [isLead_putNarrow h, isTrail_putNarrow h, h.pair y]
    by_cases hy : y = x ∨ y + 1 = x
    · rw [if_pos hy, if_pos (by omega)]
    · rw [if_neg hy, if_neg (by omega)]
  first := by
    rw [isTrail_putNarrow h, h.first, ite_self]

theorem isLead_putWide (h : WellFormed row) (glyph : γ) (y : Nat) :
    (putWide erase row x glyph y).isLead
      = if y = x then true else if y = x + 1 ∨ y + 1 = x then false else (row y).isLead := by
  unfold putWide
  split
  · rfl
  · split
    · rename_i hy
      rw [if_pos (.inl hy)]
      rfl
    · rename_i hy
      split
      · rename_i horphan
        rw [Column.isLead_orphan]
        rcases horphan with ⟨hright, hlead⟩ | ⟨hleft, -⟩
        · have htrail : (row y).isTrail = true := by rw [hright, ← h.pair (x + 1), hlead]
          rw [Column.isLead_eq_false_of_isTrail htrail, ite_self]
        · rw [if_pos (.inr hleft)]
      · rename_i hkept
        by_cases hleft : y + 1 = x
        · rw [if_pos (.inr hleft), h.pair y, hleft]
          cases htrail : (row x).isTrail with
          | false => rfl
          | true => exact absurd (.inr ⟨hleft, htrail⟩) hkept
        · rw [if_neg (by omega)]

theorem isTrail_putWide (h : WellFormed row) (glyph : γ) (y : Nat) :
    (putWide erase row x glyph y).isTrail
      = if y = x + 1 then true else if y = x ∨ y = x + 2 then false else (row y).isTrail := by
  unfold putWide
  split
  · rename_i hy
    rw [if_neg (by omega), if_pos (.inl hy)]
    rfl
  · split
    · rfl
    · rename_i hy hy'
      split
      · rename_i horphan
        rw [Column.isTrail_orphan]
        rcases horphan with ⟨hright, -⟩ | ⟨hleft, htrail⟩
        · rw [if_pos (.inr hright)]
        · have hlead : (row y).isLead = true := by rw [h.pair y, hleft, htrail]
          cases hrow : row y with
          | narrow glyph => simp [Column.isTrail]
          | lead glyph => simp [Column.isTrail]
          | trail glyph =>
            rw [hrow] at hlead
            cases hlead
      · rename_i hkept
        by_cases hright : y = x + 2
        · rw [if_pos (.inr hright), hright, ← h.pair (x + 1)]
          cases hlead : (row (x + 1)).isLead with
          | false => rfl
          | true => exact absurd (.inl ⟨hright, hlead⟩) hkept
        · rw [if_neg (by omega)]

theorem WellFormed.putWide (h : WellFormed row) (glyph : γ) :
    WellFormed (putWide erase row x glyph) where
  pair := by
    intro y
    rw [isLead_putWide h, isTrail_putWide h, h.pair y]
    by_cases hy : y = x
    · rw [if_pos hy, if_pos (by omega)]
    · rw [if_neg hy, if_neg (show ¬ y + 1 = x + 1 by omega)]
      by_cases hy' : y = x + 1 ∨ y + 1 = x
      · rw [if_pos hy', if_pos (by omega)]
      · rw [if_neg hy', if_neg (by omega)]
  first := by
    rw [isTrail_putWide h, h.first, ite_self, if_neg (by omega)]

theorem WellFormed.put (h : WellFormed row) (columns width : Nat) (glyph : γ) :
    WellFormed (put erase columns row x width glyph) := by
  unfold Screen.put
  split
  · exact h
  · split
    · split
      · exact h.putNarrow glyph
      · exact h
    · split
      · exact h.putWide glyph
      · exact h

/-- Write a glyph into a line. -/
def Line.put (erase : γ → γ) (columns : Nat) (line : Line γ) (x width : Nat) (glyph : γ) :
    Line γ :=
  ⟨Screen.put erase columns line.row x width glyph, line.wellFormed.put columns width glyph⟩

/-! ### What a write leaves alone -/

variable {y : Nat}

/-- A narrow glyph touches nothing to its right, unless a wide one began at its column. -/
theorem putNarrow_right (glyph : γ) (hy : x < y) (h : (row x).isLead = false ∨ y ≠ x + 1) :
    putNarrow erase row x glyph y = row y := by
  unfold putNarrow
  rw [if_neg (by omega), if_neg]
  rintro (⟨hright, hlead⟩ | ⟨hleft, -⟩)
  · rcases h with h | h
    · rw [h] at hlead
      cases hlead
    · exact h hright
  · omega

/-- A wide glyph touches nothing to its right, unless another one began at its second column. -/
theorem putWide_right (glyph : γ) (hy : x + 1 < y) (h : (row (x + 1)).isLead = false ∨ y ≠ x + 2) :
    putWide erase row x glyph y = row y := by
  unfold putWide
  rw [if_neg (by omega), if_neg (by omega), if_neg]
  rintro (⟨hright, hlead⟩ | ⟨hleft, -⟩)
  · rcases h with h | h
    · rw [h] at hlead
      cases hlead
    · exact h hright
  · omega

/-- A write leaves the columns to its left alone, unless a wide glyph ended at its column. -/
theorem put_left (h : WellFormed row) (glyph : γ) (hy : y < x) (hlead : (row y).isLead = false) :
    put erase columns row x width glyph y = row y := by
  have hhalf : ¬ (y + 1 = x ∧ (row x).isTrail) := by
    rintro ⟨rfl, htrail⟩
    rw [← h.pair y, hlead] at htrail
    cases htrail
  unfold put
  split
  · rfl
  · split
    · split
      · unfold Screen.putNarrow
        rw [if_neg (by omega), if_neg
            (by rintro (⟨hright, -⟩ | hleft) <;> [omega; exact hhalf hleft])]
      · rfl
    · split
      · unfold Screen.putWide
        rw [if_neg (by omega), if_neg (by omega),
          if_neg (by rintro (⟨hright, -⟩ | hleft) <;> [omega; exact hhalf hleft])]
      · rfl

/-- A column a write does not take shows what it did, or loses its half. -/
theorem put_eq_or_orphan (glyph : γ) (hat : y = x → width = 0) (hafter : y = x + 1 → width ≤ 1) :
    put erase columns row x width glyph y = row y
      ∨ put erase columns row x width glyph y = (row y).orphan erase := by
  unfold put
  split
  · exact .inl rfl
  · rename_i hwidth
    split
    · split
      · unfold Screen.putNarrow
        rw [if_neg (fun hy => hwidth (hat hy))]
        split
        · exact .inr rfl
        · exact .inl rfl
      · exact .inl rfl
    · split
      · unfold Screen.putWide
        rw [if_neg (fun hy => hwidth (hat hy)), if_neg (fun hy => by have := hafter hy; omega)]
        split
        · exact .inr rfl
        · exact .inl rfl
      · exact .inl rfl

/-! ### Painting a row

A row is painted from left to right; `draw` says at which columns something is written. -/

variable {columns : Nat} {draw : Nat → Bool} {width : Nat → Nat} {glyph : Nat → γ}

/-- The row after its first columns have been painted. -/
def paint (erase : γ → γ) (columns : Nat) (draw : Nat → Bool) (width : Nat → Nat)
    (glyph : Nat → γ) (row : Row γ) : Nat → Row γ
  | 0 => row
  | c + 1 =>
    let painted := paint erase columns draw width glyph row c
    if draw c then put erase columns painted c (width c) (glyph c) else painted

theorem paint_succ (c : Nat) :
    paint erase columns draw width glyph row (c + 1)
      = if draw c then
          put erase columns (paint erase columns draw width glyph row c) c (width c) (glyph c)
        else paint erase columns draw width glyph row c := rfl

/-- Nothing reached column `c` from the column before it: no wide glyph was there, and none was
written. -/
def Fresh (row : Row γ) (draw : Nat → Bool) (width : Nat → Nat) (c : Nat) : Prop :=
  ∀ b, b + 1 = c → (row b).isLead = false ∧ (draw b = true → width b ≤ 1)

theorem WellFormed.paint (h : WellFormed row) (c : Nat) :
    WellFormed (paint erase columns draw width glyph row c) := by
  induction c with
  | zero => exact h
  | succ c ih =>
    rw [paint_succ]
    split
    · exact ih.put columns (width c) (glyph c)
    · exact ih

/-- The columns still to be painted are as they were. Two of them may not be: the next one, if the
column before it had or got a wide glyph, and the one after that, if such a glyph took the first
half of a wide one. -/
theorem paint_right (h : WellFormed row) {c : Nat} (hy : c ≤ y)
    (hnext : y = c → Fresh row draw width c)
    (hafter : y = c + 1 → Fresh row draw width c ∨ (row c).isLead = false) :
    paint erase columns draw width glyph row c y = row y := by
  induction c generalizing y with
  | zero => rfl
  | succ c ih =>
    have hsame : paint erase columns draw width glyph row c y = row y := by
      refine ih (by omega) (fun hyc => by omega) (fun hyc => .inr ?_)
      exact (hnext hyc c rfl).1
    have hpainted : WellFormed (paint erase columns draw width glyph row c) := h.paint c
    rw [paint_succ]
    split
    · rename_i hdraw
      rw [← hsame]
      -- A lead before an unchanged column is the one that was there.
      have hlead : ∀ b, b + 1 = y → (row b).isLead = false →
          (paint erase columns draw width glyph row c b).isLead = false := by
        intro b hb hrow
        rw [hpainted.pair b, hb, hsame, ← hb, ← h.pair b, hrow]
      unfold put
      split
      · rfl
      · split
        · split
          · refine putNarrow_right (glyph c) (by omega) ?_
            by_cases hyc : y = c + 1
            · exact .inl (hlead c hyc.symm (hnext hyc c rfl).1)
            · exact .inr hyc
          · rfl
        · rename_i hzero hone
          have hne : y ≠ c + 1 := by
            intro hyc
            have := (hnext hyc c rfl).2 hdraw
            omega
          split
          · refine putWide_right (glyph c) (by omega) ?_
            by_cases hyc : y = c + 2
            · rcases hafter hyc with hfresh | hrow
              · have := (hfresh c rfl).2 hdraw
                omega
              · exact .inl (hlead (c + 1) hyc.symm hrow)
            · exact .inr hyc
          · rfl
    · exact hsame

/-- Two ways to paint a row end alike if they differ only where writing changes nothing. -/
theorem paint_congr {other : Nat → Bool} (hsame : ∀ c, c < n → draw c ≠ other c →
      put erase columns (paint erase columns draw width glyph row c) c (width c) (glyph c)
        = paint erase columns draw width glyph row c) :
    paint erase columns draw width glyph row n = paint erase columns other width glyph row n := by
  induction n with
  | zero => rfl
  | succ n ih =>
    have hih := ih (fun c hc => hsame c (by omega))
    rw [paint_succ, paint_succ, ← hih]
    by_cases hdraw : draw n = other n
    · rw [hdraw]
    · rw [hsame n (by omega) hdraw, ite_self, ite_self]

/-- What has been painted at a column stays there, if it is not the first half of a wide glyph. -/
theorem paint_left (h : WellFormed row) {m : Nat} (hy : y < n) (hnm : n ≤ m)
    (hlead : (paint erase columns draw width glyph row n y).isLead = false) :
    paint erase columns draw width glyph row m y
      = paint erase columns draw width glyph row n y := by
  induction hnm with
  | refl => rfl
  | @step k hnk ih =>
    have hpainted : WellFormed (paint erase columns draw width glyph row k) := h.paint k
    have hyk : y < k := Nat.lt_of_lt_of_le hy hnk
    rw [paint_succ]
    split
    · rw [put_left hpainted (glyph k) hyk (by rw [ih, hlead]), ih]
    · exact ih

/-- A column that is not painted shows what it did, or has lost its half. -/
theorem paint_eq_or_orphan (n : Nat) (hat : draw y = true → width y = 0)
    (hbefore : ∀ b, b + 1 = y → draw b = true → width b ≤ 1) :
    paint erase columns draw width glyph row n y = row y
      ∨ paint erase columns draw width glyph row n y = (row y).orphan erase := by
  induction n with
  | zero => exact .inl rfl
  | succ n ih =>
    rw [paint_succ]
    split
    · rename_i hdraw
      have hwidth : y = n → width n = 0 := by
        rintro rfl
        exact hat hdraw
      rcases put_eq_or_orphan (glyph n) hwidth (fun hyn => hbefore n hyn.symm hdraw) with
        hput | hput
      · rw [hput]
        exact ih
      · rw [hput]
        rcases ih with ih | ih
        · exact .inr (by rw [ih])
        · exact .inr (by rw [ih, Column.orphan_orphan])
    · exact ih

end

end Herden.Lib.Screen
