import Mathlib.Data.Int.Log
import Mathlib.Data.Rat.Floor
import Mathlib.Tactic.Linarith
import Mathlib.Tactic.Positivity

/-!
# `Herden.Lib.Float32`: binary32 arithmetic on its values

An IEEE 754 binary32 number is a NaN, an infinity, or a finite value. The finite values
are kept as the rationals they denote, and every operation rounds its exact result to the
nearest representable value, ties to even (`F32.ofRat`). The two zeros are one value
here: no operation below reads the sign of a zero.

`F32.num` holds any rational, so the type is larger than the set of binary32 values. A
statement over all of `F32` covers the representable ones.
-/

namespace Herden.Lib

/-- A binary32 number by its value. -/
inductive F32 where
  | nan
  | inf (negative : Bool)
  | num (value : ℚ)
deriving DecidableEq

namespace F32

/-- Round to an integer, ties to even. -/
def roundHalfEven (q : ℚ) : ℤ :=
  let low := q.floor
  let rest := q - low
  if rest < 1 / 2 then low
  else if 1 / 2 < rest then low + 1
  else if low % 2 = 0 then low
  else low + 1

/-- The exponent of the last significand bit at a value of magnitude `q`: 23 below the
exponent of the leading bit, and never below the subnormal spacing `2 ^ (-149)`. -/
def ulpExponent (q : ℚ) : ℤ := max (Int.log 2 q - 23) (-149)

/-- The nearest binary32 value of a rational, ties to even. A magnitude that rounds to
`2 ^ 128` or more overflows to the infinity of its sign. -/
def ofRat (q : ℚ) : F32 :=
  let ulp : ℚ := 2 ^ ulpExponent |q|
  let magnitude : ℚ := roundHalfEven (|q| / ulp) * ulp
  if 2 ^ 128 ≤ magnitude then .inf (q < 0)
  else if q < 0 then .num (-magnitude)
  else .num magnitude

def isFinite : F32 → Bool
  | .num _ => true
  | _ => false

def isNan : F32 → Bool
  | .nan => true
  | _ => false

def neg : F32 → F32
  | .nan => .nan
  | .inf negative => .inf !negative
  | .num q => .num (-q)

def add : F32 → F32 → F32
  | .num a, .num b => ofRat (a + b)
  | .nan, _ => .nan
  | _, .nan => .nan
  | .inf a, .inf b => if a = b then .inf a else .nan
  | .inf a, .num _ => .inf a
  | .num _, .inf b => .inf b

def mul : F32 → F32 → F32
  | .num a, .num b => ofRat (a * b)
  | .nan, _ => .nan
  | _, .nan => .nan
  | .inf a, .inf b => .inf (a != b)
  | .inf a, .num q => if q = 0 then .nan else .inf (a != decide (q < 0))
  | .num q, .inf b => if q = 0 then .nan else .inf (decide (q < 0) != b)

/-- The ordered comparison: false as soon as a NaN is involved. -/
def lt : F32 → F32 → Bool
  | .num a, .num b => a < b
  | .inf a, .inf b => a && !b
  | .inf a, .num _ => a
  | .num _, .inf b => !b
  | _, _ => false

/-- Numeric equality: a NaN equals nothing, itself included. -/
def eq : F32 → F32 → Bool
  | .num a, .num b => a = b
  | .inf a, .inf b => a = b
  | _, _ => false

/-- `min` when below it, `max` when above it, the number itself otherwise. A NaN is
neither below nor above, so it comes back unchanged. -/
def clamp (x min max : F32) : F32 :=
  if x.lt min then min else if max.lt x then max else x

/-- Round to the nearest integer, ties away from zero. -/
def round : F32 → F32
  | .num q => .num (if q < 0 then -(⌊-q + 1 / 2⌋ : ℚ) else ⌊q + 1 / 2⌋)
  | x => x

/-- The saturating conversion to an unsigned 16-bit integer: truncation toward zero, NaN
to zero. -/
def toU16 : F32 → UInt16
  | .nan => 0
  | .inf negative => if negative then 0 else 65535
  | .num q => if q < 0 then 0 else UInt16.ofNat (min ⌊q⌋.toNat 65535)

/-- A value inside the closed interval of two finite bounds. -/
def Between (low high : ℚ) : F32 → Prop
  | .num q => low ≤ q ∧ q ≤ high
  | _ => False

instance (low high : ℚ) : (x : F32) → Decidable (Between low high x)
  | .num q => inferInstanceAs (Decidable (low ≤ q ∧ q ≤ high))
  | .nan => .isFalse id
  | .inf _ => .isFalse id

variable {high low q : ℚ} {x : F32}

/-- Clamping to `[low, high]` lands in the interval for everything but a NaN. -/
theorem clamp_between (h : low ≤ high) (hx : x.isNan = false) :
    Between low high (x.clamp (.num low) (.num high)) := by
  cases x with
  | nan => simp [isNan] at hx
  | inf negative => cases negative <;> simp [clamp, lt, Between, h]
  | num q =>
    by_cases h₁ : q < low
    · simp [clamp, lt, h₁, Between, h]
    · by_cases h₂ : high < q
      · simp [clamp, lt, h₁, h₂, Between, h]
      · simp only [clamp, lt, h₁, h₂, Between, decide_false, Bool.false_eq_true, if_false]
        exact ⟨not_lt.mp h₁, not_lt.mp h₂⟩

/-- A NaN comes out of a clamp as it went in. -/
theorem clamp_nan (low high : F32) : F32.nan.clamp low high = .nan := by
  cases low <;> cases high <;> rfl

variable {y : F32} {n : ℕ}

/-- Inside an interval, numeric equality is identity. -/
theorem eq_of_between_right (hy : Between low high y) (h : x.eq y = true) : x = y := by
  cases y with
  | nan => exact hy.elim
  | inf _ => exact hy.elim
  | num r =>
    cases x with
    | nan => simp [eq] at h
    | inf _ => simp [eq] at h
    | num q => simpa [eq] using h

/-- Rounding never makes a NaN. -/
theorem isNan_ofRat (q : ℚ) : (ofRat q).isNan = false := by
  unfold ofRat
  dsimp only
  split
  · rfl
  · split <;> rfl

theorem isNan_neg (x : F32) : x.neg.isNan = x.isNan := by cases x <;> rfl

/-- A finite value plus anything but a NaN is no NaN. -/
theorem isNan_add_of_between (hx : Between low high x) (hy : y.isNan = false) :
    (x.add y).isNan = false := by
  cases x with
  | nan => exact hx.elim
  | inf _ => exact hx.elim
  | num q =>
    cases y with
    | nan => simp [isNan] at hy
    | inf _ => rfl
    | num r => exact isNan_ofRat _

/-! ### Rounding within a bound -/

theorem roundHalfEven_intCast (n : ℤ) : roundHalfEven n = n := by
  have hfloor : (n : ℚ).floor = n := Rat.floor_intCast n
  simp [roundHalfEven, hfloor]

/-- Rounding to an integer never passes an integer bound. -/
theorem roundHalfEven_le {n : ℤ} (h : q ≤ n) : roundHalfEven q ≤ n := by
  have hfloor : q.floor ≤ n := by
    have := Rat.floor_le q
    exact_mod_cast this.trans h
  have hlow : (q.floor : ℚ) ≤ q := Rat.floor_le q
  -- below the bound there is room for one more; at the bound the rest is zero
  rcases hfloor.lt_or_eq with hlt | heq
  · simp only [roundHalfEven]
    split_ifs <;> omega
  · have hrest : q - (q.floor : ℚ) ≤ 0 := by
      rw [heq]
      linarith
    have hsmall : q - (q.floor : ℚ) < 1 / 2 := by linarith
    simp only [roundHalfEven, if_pos hsmall]
    omega

theorem roundHalfEven_nonneg (h : 0 ≤ q) : 0 ≤ roundHalfEven q := by
  have hfloor : 0 ≤ q.floor := by
    rw [Rat.le_floor_iff]
    exact_mod_cast h
  simp only [roundHalfEven]
  split_ifs <;> omega

/-- Below `2 ^ 24` the spacing of the representable values is `2 ^ (-k)` for a natural
`k`, so every integer is a multiple of it. -/
theorem ulpExponent_nonpos (h : q < 2 ^ 24) : ulpExponent q ≤ 0 := by
  have hlog : Int.log 2 q ≤ 23 := by
    rcases le_or_gt q 0 with hq | hq
    · rw [Int.log_of_right_le_zero 2 hq]
      norm_num
    · have : Int.log 2 q < 24 := by
        rw [← Int.lt_zpow_iff_log_lt (by norm_num) hq]
        exact_mod_cast h
      omega
  unfold ulpExponent
  omega

/-- Below `2 ^ 24` rounding is rounding to a multiple of some `2 ^ (-k)`. -/
theorem ofRat_of_small (hq : 0 ≤ q) (hsmall : q < 2 ^ 24) :
    ∃ k : ℕ, ofRat q = .num (roundHalfEven (q * 2 ^ k) / 2 ^ k) := by
  obtain ⟨k, hk⟩ := Int.exists_eq_neg_ofNat (ulpExponent_nonpos hsmall)
  have hulp : (2 : ℚ) ^ ulpExponent q = (2 ^ k)⁻¹ := by rw [hk, zpow_neg, zpow_natCast]
  have hpos : (0 : ℚ) < 2 ^ k := by positivity
  have hle : roundHalfEven (q * 2 ^ k) ≤ 2 ^ 24 * 2 ^ k := by
    apply roundHalfEven_le
    push_cast
    exact mul_le_mul_of_nonneg_right hsmall.le hpos.le
  have hfinite : ¬ (2 : ℚ) ^ 128 ≤ roundHalfEven (q * 2 ^ k) / 2 ^ k := by
    have hbound : (roundHalfEven (q * 2 ^ k) : ℚ) ≤ 2 ^ 24 * 2 ^ k := by exact_mod_cast hle
    rw [not_le, div_lt_iff₀ hpos]
    exact hbound.trans_lt (mul_lt_mul_of_pos_right (by norm_num) hpos)
  refine ⟨k, ?_⟩
  simp only [ofRat, abs_of_nonneg hq, hulp, div_inv_eq_mul, ← div_eq_mul_inv, if_neg hfinite,
    if_neg hq.not_gt]

/-- A non-negative value up to a small integer rounds to one up to that integer. -/
theorem ofRat_le_natCast (hq : 0 ≤ q) (hqn : q ≤ n) (hn : n < 2 ^ 24) :
    ∃ r, ofRat q = .num r ∧ 0 ≤ r ∧ r ≤ n := by
  have hn' : (n : ℚ) < 2 ^ 24 := by exact_mod_cast hn
  obtain ⟨k, hk⟩ := ofRat_of_small hq (hqn.trans_lt hn')
  have hpos : (0 : ℚ) < 2 ^ k := by positivity
  refine ⟨_, hk, ?_, ?_⟩
  · have hnonneg : 0 ≤ roundHalfEven (q * 2 ^ k) :=
      roundHalfEven_nonneg (mul_nonneg hq hpos.le)
    exact div_nonneg (by exact_mod_cast hnonneg) hpos.le
  · have hle : roundHalfEven (q * 2 ^ k) ≤ n * 2 ^ k := by
      apply roundHalfEven_le
      push_cast
      exact mul_le_mul_of_nonneg_right hqn hpos.le
    rw [div_le_iff₀ hpos]
    exact_mod_cast hle

/-- Small integers are representable. -/
theorem ofRat_natCast (hn : n < 2 ^ 24) : ofRat n = .num n := by
  have hn' : (n : ℚ) < 2 ^ 24 := by exact_mod_cast hn
  obtain ⟨k, hk⟩ := ofRat_of_small (Nat.cast_nonneg n) hn'
  have hround : roundHalfEven ((n : ℚ) * 2 ^ k) = n * 2 ^ k := by
    exact_mod_cast roundHalfEven_intCast (n * 2 ^ k)
  have hpos : (0 : ℚ) < 2 ^ k := by positivity
  rw [hk, hround]
  push_cast
  rw [mul_div_assoc, div_self hpos.ne', mul_one]

/-- Rounding to an integer and converting to 16 bits stays within an integer bound. -/
theorem toU16_round_le {r : ℚ} {n : UInt16} (hr : 0 ≤ r) (hrn : r ≤ n.toNat) :
    (F32.round (.num r)).toU16 ≤ n := by
  have hfloor : ⌊r + 1 / 2⌋ ≤ n.toNat := by
    rw [← Int.lt_add_one_iff, Int.floor_lt]
    push_cast
    linarith
  have hnonneg : 0 ≤ ⌊r + 1 / 2⌋ := Int.floor_nonneg.mpr (by linarith)
  have hcast : ¬ ((⌊r + 1 / 2⌋ : ℤ) : ℚ) < 0 := by
    rw [not_lt]
    exact_mod_cast hnonneg
  simp only [F32.round, if_neg hr.not_gt, toU16, if_neg hcast, Int.floor_intCast]
  rw [UInt16.le_iff_toNat_le, UInt16.toNat_ofNat']
  have := n.toNat_lt
  omega

/-- A length times a ratio between 0 and 1 rounds to at most the length. -/
theorem toU16_round_mul_le {ratio : F32} (h : Between 0 1 ratio) (n : UInt16) :
    ((ofRat n.toNat).mul ratio).round.toU16 ≤ n := by
  have hsmall : n.toNat < 2 ^ 24 := by
    have := n.toNat_lt
    omega
  cases ratio with
  | nan => exact h.elim
  | inf _ => exact h.elim
  | num q =>
    obtain ⟨hq, hq'⟩ := h
    have hn : (0 : ℚ) ≤ n.toNat := Nat.cast_nonneg _
    obtain ⟨r, hr, hnonneg, hle⟩ := ofRat_le_natCast (mul_nonneg hn hq)
      (mul_le_of_le_one_right hn hq') hsmall
    rw [ofRat_natCast hsmall, mul, hr]
    exact toU16_round_le hnonneg hle
end F32

end Herden.Lib
