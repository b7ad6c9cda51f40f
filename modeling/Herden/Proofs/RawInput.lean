import Mathlib.Data.List.TakeWhile
import Herden.Lib.Framing
import Herden.Runtime.RawInput

/-!
# `Herden.Proofs.RawInput`: framing does not depend on where reads split

The framer cuts its buffer greedily (`Lib.Splits`), so it is enough that its recogniser is
prefix stable: whatever it takes for a complete event stays one, with the same length, when
more bytes follow. Each search of the source gets its stability lemma, then the escape
sequences, then `extractOneEvent`, and last `nextChunkLen`, the recogniser of the loop with
its ESC that stands alone before a Kitty report.

The delicate steps are the negative tests. A buffer that does not start with `ESC [ 200 ~`
may do so after the next read, and then it must not have been cut before. In each such case
the shorter buffer is a proper prefix of the pattern, and nothing in it is complete.

`push_partition` is the result: for every partition of the input into pushes in which no
push finds an abandoned host color reply, the chunks and the buffer are those of one push of
the whole input, and together they are the input. `push_drops_long_color_reply` is the
partition for which the dropped reply makes the difference.
-/

namespace Herden.Proofs.RawInput

open Herden.Lib (PrefixStable Recogniser Splits)
open Herden.Runtime.RawInput

/-! ### Searches -/

variable {byte first second : UInt8} {needle rest xs ys buffer : Bytes} {len : Nat}
  {framer : RawInputByteFramer} {split : Bool}

theorem findSubsequence_cons_of_match (h : needle <+: byte :: rest) :
    findSubsequence needle (byte :: rest) = some 0 := by
  simp [findSubsequence, h]

theorem findSubsequence_cons_of_mismatch (h : ¬ needle <+: byte :: rest) :
    findSubsequence needle (byte :: rest) = (findSubsequence needle rest).map (· + 1) := by
  simp [findSubsequence, h]

variable {i : Nat} {finals : Bytes}

theorem findSubsequence_le (h : findSubsequence needle xs = some i) :
    i + needle.length ≤ xs.length := by
  induction xs generalizing i with
  | nil =>
    simp only [findSubsequence] at h
    split at h
    · cases h
      simp_all
    · cases h
  | cons byte rest ih =>
    by_cases hpre : needle <+: byte :: rest
    · rw [findSubsequence_cons_of_match hpre] at h
      cases h
      have := hpre.length_le
      omega
    · rw [findSubsequence_cons_of_mismatch hpre] at h
      obtain ⟨j, hj, rfl⟩ := Option.map_eq_some_iff.mp h
      have := ih hj
      simp only [List.length_cons]
      omega

theorem prefixStable_findSubsequence (needle : Bytes) :
    PrefixStable (findSubsequence needle) := by
  intro xs ys i h
  induction xs generalizing i with
  | nil =>
    cases needle with
    | nil =>
      cases h
      cases ys <;> rfl
    | cons => cases h
  | cons byte rest ih =>
    by_cases hpre : needle <+: byte :: rest
    · rw [findSubsequence_cons_of_match hpre] at h
      have hlong : needle <+: byte :: (rest ++ ys) := hpre.trans (List.prefix_append _ ys)
      rw [List.cons_append, findSubsequence_cons_of_match hlong, h]
    · rw [findSubsequence_cons_of_mismatch hpre] at h
      obtain ⟨j, hj, rfl⟩ := Option.map_eq_some_iff.mp h
      -- the needle fits into the rest, so it cannot start earlier and end later
      have hlong : ¬ needle <+: byte :: (rest ++ ys) := by
        intro hlong
        have hlt := (Lib.eq_take_of_prefix_append hpre hlong).1
        have := findSubsequence_le hj
        simp only [List.length_cons] at hlt
        omega
      rw [List.cons_append, findSubsequence_cons_of_mismatch hlong, ih j hj, Option.map_some]

/-- An occurrence that only the longer input has ends in the new part. -/
theorem lt_of_findSubsequence_append (hshort : findSubsequence needle xs = none)
    (hlong : findSubsequence needle (xs ++ ys) = some i) : xs.length < i + needle.length := by
  induction xs generalizing i with
  | nil =>
    cases needle with
    | nil => cases hshort
    | cons => simp only [List.length_nil, List.length_cons]; omega
  | cons byte rest ih =>
    by_cases hpre : needle <+: byte :: rest
    · rw [findSubsequence_cons_of_match hpre] at hshort
      cases hshort
    · rw [findSubsequence_cons_of_mismatch hpre, Option.map_eq_none_iff] at hshort
      rw [List.cons_append] at hlong
      by_cases hpre' : needle <+: byte :: (rest ++ ys)
      · have := (Lib.eq_take_of_prefix_append hpre hpre').1
        omega
      · rw [findSubsequence_cons_of_mismatch hpre'] at hlong
        obtain ⟨j, hj, rfl⟩ := Option.map_eq_some_iff.mp hlong
        have := ih hshort hj
        simp only [List.length_cons]
        omega

theorem findCsiFinal_bounds (h : findCsiFinal buffer finals = some len) :
    0 < len ∧ len ≤ buffer.length := by
  obtain ⟨i, hi, rfl⟩ := Option.map_eq_some_iff.mp h
  obtain ⟨hlt, -⟩ := List.findIdx?_eq_some_iff_getElem.mp hi
  rw [List.length_drop] at hlt
  omega

theorem prefixStable_findCsiFinal (finals : Bytes) :
    PrefixStable (findCsiFinal · finals) := by
  intro xs ys len h
  obtain ⟨i, hi, rfl⟩ := Option.map_eq_some_iff.mp h
  show ((xs ++ ys).drop 2 |>.findIdx? (finals.contains ·)).map (· + 3) = _
  rw [List.drop_append, Lib.prefixStable_findIdx? (finals.contains ·) _ _ i hi, Option.map_some]

/-- A final byte that only the longer input has stands in the new part. -/
theorem findCsiFinal_eq_none (h : ∀ byte ∈ buffer.drop 2, finals.contains byte = false) :
    findCsiFinal buffer finals = none := by
  rw [findCsiFinal, Option.map_eq_none_iff, List.findIdx?_eq_none_iff]
  exact h

/-! ### Control strings -/

theorem stStringTerminator_bounds (h : stStringTerminator buffer = some len) :
    0 < len ∧ len ≤ buffer.length := by
  obtain ⟨i, hi, rfl⟩ := Option.map_eq_some_iff.mp h
  have := findSubsequence_le hi
  simp only [List.length_cons, List.length_nil] at this
  omega

theorem prefixStable_stStringTerminator : PrefixStable stStringTerminator :=
  (prefixStable_findSubsequence _).map _

/-- The position behind the first BEL. -/
def belTerminator (buffer : Bytes) : Option Nat := (buffer.findIdx? (· = 0x07)).map (· + 1)

theorem prefixStable_belTerminator : PrefixStable belTerminator :=
  (Lib.prefixStable_findIdx? _).map _

theorem belTerminator_bounds (h : belTerminator buffer = some len) :
    0 < len ∧ len ≤ buffer.length := by
  obtain ⟨i, hi, rfl⟩ := Option.map_eq_some_iff.mp h
  obtain ⟨hlt, -⟩ := List.findIdx?_eq_some_iff_getElem.mp hi
  omega

theorem lt_of_belTerminator_append (hshort : belTerminator xs = none)
    (hlong : belTerminator (xs ++ ys) = some len) : xs.length < len := by
  obtain ⟨i, hi, rfl⟩ := Option.map_eq_some_iff.mp hlong
  rw [belTerminator, Option.map_eq_none_iff] at hshort
  rw [List.findIdx?_append, hshort, Option.none_or] at hi
  obtain ⟨j, -, rfl⟩ := Option.map_eq_some_iff.mp hi
  omega

theorem lt_of_stStringTerminator_append (hshort : stStringTerminator xs = none)
    (hlong : stStringTerminator (xs ++ ys) = some len) : xs.length < len := by
  obtain ⟨i, hi, rfl⟩ := Option.map_eq_some_iff.mp hlong
  rw [stStringTerminator, Option.map_eq_none_iff] at hshort
  have := lt_of_findSubsequence_append hshort hi
  simpa using this

theorem oscStringTerminator_eq (buffer : Bytes) :
    oscStringTerminator buffer = match stStringTerminator buffer, belTerminator buffer with
      | some st, some bel => some (min st bel)
      | some st, none => some st
      | none, some bel => some bel
      | none, none => none := rfl

theorem oscStringTerminator_bounds (h : oscStringTerminator buffer = some len) :
    0 < len ∧ len ≤ buffer.length := by
  rw [oscStringTerminator_eq] at h
  split at h
  · rename_i st bel hst hbel
    cases h
    have := stStringTerminator_bounds hst
    have := belTerminator_bounds hbel
    omega
  · rename_i st hst _
    cases h
    exact stStringTerminator_bounds hst
  · rename_i bel _ hbel
    cases h
    exact belTerminator_bounds hbel
  · cases h

/-- The earlier of the two terminators: one that appears later ends later. -/
theorem prefixStable_oscStringTerminator : PrefixStable oscStringTerminator := by
  intro xs ys len h
  rw [oscStringTerminator_eq] at h ⊢
  cases hst : stStringTerminator xs with
  | some st =>
    rw [prefixStable_stStringTerminator _ ys _ hst]
    cases hbel : belTerminator xs with
    | some bel =>
      rw [prefixStable_belTerminator _ ys _ hbel]
      simpa [hst, hbel] using h
    | none =>
      simp only [hst, hbel, Option.some.injEq] at h
      cases hbel' : belTerminator (xs ++ ys) with
      | none => simpa using h
      | some bel =>
        have := lt_of_belTerminator_append hbel hbel'
        have := stStringTerminator_bounds hst
        simp only [Option.some.injEq]
        omega
  | none =>
    cases hbel : belTerminator xs with
    | some bel =>
      simp only [hst, hbel, Option.some.injEq] at h
      rw [prefixStable_belTerminator _ ys _ hbel]
      cases hst' : stStringTerminator (xs ++ ys) with
      | none => simpa using h
      | some st =>
        have := lt_of_stStringTerminator_append hst hst'
        have := belTerminator_bounds hbel
        simp only [Option.some.injEq]
        omega
    | none => simp [hst, hbel] at h

theorem controlStringTerminatorForFamily_bounds {family : ControlStringFamily}
    (h : controlStringTerminatorForFamily buffer family = some len) :
    0 < len ∧ len ≤ buffer.length := by
  cases family with
  | osc => exact oscStringTerminator_bounds h
  | stTerminated => exact stStringTerminator_bounds h
  | hostReplyCsi => cases h

theorem prefixStable_controlStringTerminator (family : ControlStringFamily) :
    PrefixStable (controlStringTerminatorForFamily · family) := by
  cases family with
  | osc => exact prefixStable_oscStringTerminator
  | stTerminated => exact prefixStable_stStringTerminator
  | hostReplyCsi => exact fun _ _ _ h => (by cases h)

/-- The two introducer bytes decide the family, and a complete string stays complete. -/
theorem controlString_append (first second : UInt8) (rest ys : Bytes) :
    (∀ len family, controlString (first :: second :: rest) = some (.complete len family) →
      (0 < len ∧ len ≤ (first :: second :: rest).length) ∧
      controlString (first :: second :: rest ++ ys) = some (.complete len family)) ∧
    (controlString (first :: second :: rest) = none →
      controlString (first :: second :: rest ++ ys) = none) := by
  simp only [controlString, List.cons_append]
  cases hfamily : controlStringFamily first second with
  | none => simp
  | some family =>
    refine ⟨fun len family' h => ?_, fun h => by cases h⟩
    simp only [Option.map_some, Option.some.injEq] at h ⊢
    cases hlen : controlStringTerminatorForFamily (first :: second :: rest) family with
    | none => simp [hlen] at h
    | some found =>
      simp only [hlen, ControlString.complete.injEq] at h
      obtain ⟨rfl, rfl⟩ := h
      have hstable := prefixStable_controlStringTerminator family _ ys _ hlen
      simp only [List.cons_append] at hstable
      rw [hstable]
      exact ⟨controlStringTerminatorForFamily_bounds hlen, rfl⟩

/-! ### Escape sequences -/

theorem fromUtf8_eq_some {bytes text : Bytes} (h : fromUtf8 bytes = some text) :
    text = bytes := by
  unfold fromUtf8 at h
  split at h
  · exact (Option.some.inj h).symm
  · cases h

/-- A control sequence is cut at the same place when more input follows. -/
theorem csiSequenceLen_spec (h : csiSequenceLen (esc :: 0x5b :: rest) = some len) (ys : Bytes) :
    (0 < len ∧ len ≤ (esc :: 0x5b :: rest).length) ∧
      csiSequenceLen (esc :: 0x5b :: rest ++ ys) = some len := by
  cases rest with
  | nil => simp [csiSequenceLen, findCsiFinal] at h
  | cons kind rest =>
    have hfinal : ∀ finals, findCsiFinal (esc :: 0x5b :: kind :: rest) finals = some len →
        (0 < len ∧ len ≤ (esc :: 0x5b :: kind :: rest).length) ∧
          findCsiFinal (esc :: 0x5b :: kind :: rest ++ ys) finals = some len := fun finals hf =>
      ⟨findCsiFinal_bounds hf, prefixStable_findCsiFinal finals _ ys _ hf⟩
    have hfront : ∀ (byte : UInt8) (tail : Bytes),
        [esc, 0x5b, byte].isPrefixOf (esc :: 0x5b :: kind :: tail) = (byte == kind) := by
      intro byte tail
      simp [List.isPrefixOf]
    simp only [List.cons_append] at hfinal ⊢
    simp only [csiSequenceLen, hfront] at h ⊢
    split at h
    · rename_i hsgr
      simp only [hsgr, if_true]
      exact hfinal _ h
    rename_i hsgr
    split at h
    · rename_i hx10
      split at h
      · rename_i hlen
        cases h
        have hlong : 6 ≤ (esc :: 0x5b :: kind :: (rest ++ ys)).length := by
          simp only [List.length_cons, List.length_append] at hlen ⊢
          omega
        simp only [hsgr, hx10, hlong, Bool.false_eq_true, if_false, if_true]
        exact ⟨⟨by omega, hlen⟩, trivial⟩
      · cases h
    · rename_i hx10
      simp only [hsgr, hx10, Bool.false_eq_true, if_false]
      exact hfinal _ h

/-- The test for an ESC before an SGR mouse report, once it is decided, stays decided. -/
theorem prefixStable_doubledEscSgrMouse : PrefixStable doubledEscSgrMouse := by
  intro xs ys decided h
  unfold doubledEscSgrMouse at h
  split at h
  · rename_i hpre
    have hpre' : [esc, esc, 0x5b, 0x3c] <+: xs := List.isPrefixOf_iff_prefix.mp hpre
    have hlong : [esc, esc, 0x5b, 0x3c].isPrefixOf (xs ++ ys) = true :=
      List.isPrefixOf_iff_prefix.mpr (hpre'.trans (List.prefix_append xs ys))
    have hlen : 1 ≤ xs.length := by
      have := hpre'.length_le
      simp only [List.length_cons, List.length_nil] at this
      omega
    have hdrop : (xs ++ ys).drop 1 = xs.drop 1 ++ ys := List.drop_append_of_le_length hlen
    cases hfinal : findCsiFinal (xs.drop 1) sgrMouseFinals with
    | none =>
      rw [hfinal] at h
      cases h
    | some mouseLen =>
      have htake : (xs.drop 1 ++ ys).take mouseLen = (xs.drop 1).take mouseLen :=
        List.take_append_of_le_length (findCsiFinal_bounds hfinal).2
      have hfinal' := prefixStable_findCsiFinal sgrMouseFinals _ ys _ hfinal
      simp only at hfinal'
      rw [doubledEscSgrMouse, if_pos hlong, hdrop, hfinal']
      simp only [hfinal, htake] at h ⊢
      exact h
  · cases h

theorem completeEscapeSequenceLen_csi (rest : Bytes) :
    completeEscapeSequenceLen (esc :: 0x5b :: rest) = csiSequenceLen (esc :: 0x5b :: rest) := by
  have hsgr : doubledEscSgrMouse (esc :: 0x5b :: rest) = none := by
    simp [doubledEscSgrMouse, esc]
  have hx10 : doubledEscDefaultMouse (esc :: 0x5b :: rest) = false := by
    simp [doubledEscDefaultMouse, esc]
  have hne : (0x5b : UInt8) ≠ esc := by decide
  simp only [completeEscapeSequenceLen, hsgr, hx10, hne, and_false, if_false,
    Bool.false_eq_true, and_self, if_true]

/-- If only a longer buffer shows that its ESC stands before a complete SGR mouse report,
the shorter one holds no complete escape sequence. -/
theorem completeEscapeSequenceLen_of_sgr_later {decided : Option Nat}
    (hshort : doubledEscSgrMouse (first :: second :: rest) = none)
    (hlong : doubledEscSgrMouse (first :: second :: rest ++ ys) = some decided) :
    completeEscapeSequenceLen (first :: second :: rest) = none := by
  by_cases hpre : [esc, esc, 0x5b, 0x3c] <+: first :: second :: rest
  · -- the report is not complete yet
    obtain ⟨tail, htail⟩ := hpre
    simp only [List.cons_append, List.nil_append, List.cons.injEq] at htail
    obtain ⟨rfl, rfl, rfl⟩ := htail
    have hfinal : findCsiFinal (esc :: 0x5b :: 0x3c :: tail) sgrMouseFinals = none := by
      by_contra hsome
      obtain ⟨mouseLen, hmouse⟩ := Option.ne_none_iff_exists'.mp hsome
      have hmouse' := prefixStable_findCsiFinal sgrMouseFinals _ ys _ hmouse
      have htake : (esc :: 0x5b :: 0x3c :: tail ++ ys).take mouseLen
          = (esc :: 0x5b :: 0x3c :: tail).take mouseLen :=
        List.take_append_of_le_length (findCsiFinal_bounds hmouse).2
      have hsame : doubledEscSgrMouse (esc :: esc :: 0x5b :: 0x3c :: tail ++ ys)
          = doubledEscSgrMouse (esc :: esc :: 0x5b :: 0x3c :: tail) := by
        simp only [List.cons_append] at hmouse' htake ⊢
        simp only [doubledEscSgrMouse, List.isPrefixOf, BEq.rfl, Bool.and_self, if_true,
          List.drop_succ_cons, List.drop_zero, hmouse, hmouse', htake]
      rw [hsame, hshort] at hlong
      cases hlong
    have hx10 : doubledEscDefaultMouse (esc :: esc :: 0x5b :: 0x3c :: tail) = false := by
      simp [doubledEscDefaultMouse]
    have hcsi : completeEscapeSequenceLen (esc :: 0x5b :: 0x3c :: tail) = none := by
      rw [completeEscapeSequenceLen_csi]
      simpa [csiSequenceLen] using hfinal
    rw [completeEscapeSequenceLen, hshort]
    simp only [hx10, Bool.false_eq_true, if_false, and_self, if_true, hcsi, Option.map_none]
  · -- the shorter buffer is a piece of the introducer
    have hpre' : [esc, esc, 0x5b, 0x3c] <+: first :: second :: rest ++ ys := by
      by_contra hnot
      rw [doubledEscSgrMouse, if_neg (by simpa using hnot)] at hlong
      cases hlong
    obtain ⟨hlen, heq⟩ := Lib.eq_take_of_prefix_append hpre hpre'
    generalize first :: second :: rest = xs at hlen heq
    have hcases : xs.length = 0 ∨ xs.length = 1 ∨ xs.length = 2 ∨ xs.length = 3 := by
      simp only [List.length_cons, List.length_nil] at hlen
      omega
    rcases hcases with h | h | h | h <;> rw [heq, h] <;> decide

/-- If only a longer buffer shows that its ESC stands before a complete X10 mouse report,
the shorter one holds no complete escape sequence. -/
theorem completeEscapeSequenceLen_of_x10_later
    (hsgr : doubledEscSgrMouse (first :: second :: rest) = none)
    (hshort : doubledEscDefaultMouse (first :: second :: rest) = false)
    (hlong : doubledEscDefaultMouse (first :: second :: rest ++ ys) = true) :
    completeEscapeSequenceLen (first :: second :: rest) = none := by
  simp only [doubledEscDefaultMouse, Bool.and_eq_true, decide_eq_true_eq] at hlong
  obtain ⟨⟨_, hpre'⟩, hmouse⟩ := hlong
  rw [List.isPrefixOf_iff_prefix] at hpre'
  by_cases hpre : [esc, esc, 0x5b, 0x4d] <+: first :: second :: rest
  · obtain ⟨tail, htail⟩ := hpre
    simp only [List.cons_append, List.nil_append, List.cons.injEq] at htail
    obtain ⟨rfl, rfl, rfl⟩ := htail
    by_cases hlen : 7 ≤ (esc :: esc :: 0x5b :: 0x4d :: tail).length
    · -- the same six bytes, so the same answer
      have htake : ((esc :: esc :: 0x5b :: 0x4d :: tail ++ ys).drop 1).take 6
          = ((esc :: esc :: 0x5b :: 0x4d :: tail).drop 1).take 6 := by
        rw [List.drop_append_of_le_length (by simp),
          List.take_append_of_le_length (by simp only [List.length_drop]; omega)]
      rw [htake] at hmouse
      have htrue : doubledEscDefaultMouse (esc :: esc :: 0x5b :: 0x4d :: tail) = true := by
        simp only [doubledEscDefaultMouse, Bool.and_eq_true, decide_eq_true_eq]
        exact ⟨⟨hlen, by simp [List.isPrefixOf]⟩, hmouse⟩
      rw [hshort] at htrue
      cases htrue
    · have hcsi : completeEscapeSequenceLen (esc :: 0x5b :: 0x4d :: tail) = none := by
        rw [completeEscapeSequenceLen_csi]
        simp only [List.length_cons] at hlen
        simp [csiSequenceLen]
        omega
      rw [completeEscapeSequenceLen, hsgr]
      simp only [hshort, Bool.false_eq_true, if_false, and_self, if_true, hcsi, Option.map_none]
  · obtain ⟨hlen, heq⟩ := Lib.eq_take_of_prefix_append hpre hpre'
    generalize first :: second :: rest = xs at hlen heq
    have hcases : xs.length = 0 ∨ xs.length = 1 ∨ xs.length = 2 ∨ xs.length = 3 := by
      simp only [List.length_cons, List.length_nil] at hlen
      omega
    rcases hcases with h | h | h | h <;> rw [heq, h] <;> decide

theorem doubledEscDefaultMouse_append (h : doubledEscDefaultMouse xs = true) (ys : Bytes) :
    doubledEscDefaultMouse (xs ++ ys) = true := by
  simp only [doubledEscDefaultMouse, Bool.and_eq_true, decide_eq_true_eq] at h ⊢
  obtain ⟨⟨hlen, hpre⟩, hmouse⟩ := h
  rw [List.isPrefixOf_iff_prefix] at hpre
  have htake : ((xs ++ ys).drop 1).take 6 = (xs.drop 1).take 6 := by
    rw [List.drop_append_of_le_length (by omega),
      List.take_append_of_le_length (by rw [List.length_drop]; omega)]
  refine ⟨⟨by rw [List.length_append]; omega, ?_⟩, by rw [htake]; exact hmouse⟩
  rw [List.isPrefixOf_iff_prefix]
  exact hpre.trans (List.prefix_append xs ys)

theorem escapedCharLen_spec (h : escapedCharLen (first :: second :: rest) second = some len)
    (ys : Bytes) : (0 < len ∧ len ≤ (first :: second :: rest).length) ∧
      escapedCharLen (first :: second :: rest ++ ys) second = some len := by
  simp only [escapedCharLen, Option.bind_eq_bind, Option.bind_eq_some_iff] at h
  obtain ⟨width, hwidth, h⟩ := h
  split at h
  · cases h
  rename_i hlen
  obtain ⟨text, htext, h⟩ := Option.bind_eq_some_iff.mp h
  cases h
  have htake : ((first :: second :: rest ++ ys).drop 1).take width
      = ((first :: second :: rest).drop 1).take width := by
    rw [List.drop_append_of_le_length (by simp),
      List.take_append_of_le_length (by rw [List.length_drop]; omega)]
  have hlong : ¬ (first :: second :: rest ++ ys).length < 1 + width := by
    rw [List.length_append]
    omega
  refine ⟨by omega, ?_⟩
  simp only [escapedCharLen, hwidth, Option.bind_eq_bind, Option.bind_some, hlong, if_false,
    htake, htext]

/-- A complete escape sequence is a nonempty prefix of the buffer and stays the same when
more input follows. The induction is on the ESC bytes in front. -/
theorem completeEscapeSequenceLen_spec (h : completeEscapeSequenceLen xs = some len) (ys : Bytes) :
    (0 < len ∧ len ≤ xs.length) ∧ completeEscapeSequenceLen (xs ++ ys) = some len := by
  induction xs generalizing len with
  | nil => cases h
  | cons first tail ih =>
    cases tail with
    | nil => cases h
    | cons second rest =>
      cases hsgr : doubledEscSgrMouse (first :: second :: rest) with
      | some decided =>
        have hsgr' := prefixStable_doubledEscSgrMouse _ ys _ hsgr
        simp only [List.cons_append] at hsgr' ⊢
        simp only [completeEscapeSequenceLen, hsgr] at h
        simp only [completeEscapeSequenceLen, hsgr', h, and_true]
        -- a decided test answers with the single ESC
        subst h
        unfold doubledEscSgrMouse at hsgr
        split at hsgr
        · split at hsgr
          · split at hsgr
            · cases hsgr
            · split at hsgr
              · cases hsgr
                simp
              · cases hsgr
          · cases hsgr
        · cases hsgr
      | none =>
        have hsgr' : doubledEscSgrMouse (first :: second :: rest ++ ys) = none := by
          cases hlater : doubledEscSgrMouse (first :: second :: rest ++ ys) with
          | none => rfl
          | some decided =>
            rw [completeEscapeSequenceLen_of_sgr_later hsgr hlater] at h
            cases h
        cases hx10 : doubledEscDefaultMouse (first :: second :: rest) with
        | true =>
          have hx10' := doubledEscDefaultMouse_append hx10 ys
          simp only [List.cons_append] at hsgr' hx10' ⊢
          simp only [completeEscapeSequenceLen, hsgr, hx10, if_true] at h
          cases h
          simp only [completeEscapeSequenceLen, hsgr', hx10', if_true]
          exact ⟨by simp, trivial⟩
        | false =>
          have hx10' : doubledEscDefaultMouse (first :: second :: rest ++ ys) = false := by
            cases hlater : doubledEscDefaultMouse (first :: second :: rest ++ ys) with
            | false => rfl
            | true =>
              rw [completeEscapeSequenceLen_of_x10_later hsgr hx10 hlater] at h
              cases h
          have hcontrol := controlString_append first second rest ys
          have hcsi := fun found (h : csiSequenceLen (esc :: 0x5b :: rest) = some found) =>
            csiSequenceLen_spec h ys
          have hchar := fun found
              (h : escapedCharLen (first :: second :: rest) second = some found) =>
            escapedCharLen_spec h ys
          simp only [List.cons_append] at hsgr' hx10' hcontrol hcsi hchar ih ⊢
          simp only [completeEscapeSequenceLen, hsgr, hx10, Bool.false_eq_true, if_false] at h
          simp only [completeEscapeSequenceLen, hsgr', hx10', Bool.false_eq_true, if_false]
          split at h
          · -- another ESC in front
            rename_i hescEsc
            obtain ⟨inner, hinner, rfl⟩ := Option.map_eq_some_iff.mp h
            obtain ⟨⟨hpos, hle⟩, hlong⟩ := ih hinner
            simp only [hescEsc, and_self, if_true]
            rw [hescEsc.2] at hlong
            rw [hlong]
            simp only [List.length_cons] at hle ⊢
            exact ⟨by omega, rfl⟩
          rename_i hescEsc
          simp only [hescEsc, if_false]
          split at h
          · rename_i hbracket
            obtain ⟨rfl, rfl⟩ := hbracket
            simp only [and_self, if_true]
            exact hcsi len h
          rename_i hbracket
          simp only [hbracket, if_false]
          split at h
          · rename_i found family heq
            cases h
            obtain ⟨hbounds, hlong⟩ := hcontrol.1 _ _ heq
            rw [hlong]
            exact ⟨hbounds, rfl⟩
          · cases h
          rename_i heq
          rw [hcontrol.2 heq]
          simp only
          split at h
          · rename_i hss3
            split at h
            · rename_i hlen
              cases h
              have hlong : 3 ≤ (first :: second :: (rest ++ ys)).length := by
                simp only [List.length_cons, List.length_append] at hlen ⊢
                omega
              simp only [hss3, and_self, if_true] at hlong ⊢
              simp only [hlong, if_true]
              exact ⟨⟨by omega, hlen⟩, trivial⟩
            · cases h
          · rename_i hss3
            simp only [hss3, if_false]
            exact hchar len h

/-! ### One event -/

theorem firstCompleteUtf8CharLen_spec (h : firstCompleteUtf8CharLen xs = some len) (ys : Bytes) :
    (0 < len ∧ len ≤ xs.length) ∧ firstCompleteUtf8CharLen (xs ++ ys) = some len := by
  cases xs with
  | nil => simp [firstCompleteUtf8CharLen] at h
  | cons first rest =>
    simp only [firstCompleteUtf8CharLen, List.head?_cons, Option.bind_eq_bind, Option.bind_some,
      Option.bind_eq_some_iff] at h
    obtain ⟨width, hwidth, h⟩ := h
    split at h
    · cases h
    rename_i hlen
    obtain ⟨text, htext, h⟩ := Option.bind_eq_some_iff.mp h
    cases h
    have hpos : 0 < len := by
      unfold utf8CharWidth at hwidth
      split at hwidth
      · cases hwidth; omega
      split at hwidth
      · cases hwidth; omega
      split at hwidth
      · cases hwidth; omega
      split at hwidth
      · cases hwidth; omega
      · cases hwidth
    have htake : (first :: rest ++ ys).take len = (first :: rest).take len :=
      List.take_append_of_le_length (by omega)
    have hlong : ¬ (first :: rest ++ ys).length < len := by
      rw [List.length_append]
      omega
    simp only [List.cons_append] at htake hlong ⊢
    refine ⟨⟨hpos, by omega⟩, ?_⟩
    simp only [firstCompleteUtf8CharLen, List.head?_cons, Option.bind_eq_bind, Option.bind_some,
      hwidth, hlong, if_false, htake, htext]

/-- No piece of the introducer of a bracketed paste is complete. -/
theorem extractOneEvent_pasteStart (keys : KeyParser) {n : Nat} (hn : n < 6) :
    extractOneEvent keys (bracketedPasteStart.take n) = none := by
  have hcases : n = 0 ∨ n = 1 ∨ n = 2 ∨ n = 3 ∨ n = 4 ∨ n = 5 := by omega
  rcases hcases with rfl | rfl | rfl | rfl | rfl | rfl <;> rfl

theorem extractOneEvent_spec (keys : KeyParser) {event : RawInputEvent}
    (h : extractOneEvent keys xs = some (event, len)) (ys : Bytes) :
    (0 < len ∧ len ≤ xs.length) ∧ extractOneEvent keys (xs ++ ys) = some (event, len) := by
  cases xs with
  | nil => cases h
  | cons first rest =>
    by_cases hpaste : bracketedPasteStart <+: first :: rest
    · have hpaste' : bracketedPasteStart <+: first :: (rest ++ ys) :=
        hpaste.trans (List.prefix_append _ ys)
      rw [← List.isPrefixOf_iff_prefix] at hpaste hpaste'
      simp only [extractOneEvent, hpaste, if_true, Option.bind_eq_bind,
        Option.bind_eq_some_iff] at h
      obtain ⟨stop, hstop, content, hcontent, h⟩ := h
      cases h
      have hle := findSubsequence_le hstop
      have hstop' := prefixStable_findSubsequence _ _ ys _ hstop
      have htake : (first :: rest ++ ys).take stop = (first :: rest).take stop :=
        List.take_append_of_le_length (by omega)
      simp only [List.cons_append] at hstop' htake ⊢
      refine ⟨⟨by simp [bracketedPasteEnd], hle⟩, ?_⟩
      simp only [extractOneEvent, hpaste', if_true, hstop', htake, hcontent, Option.bind_eq_bind,
        Option.bind_some]
    · have hpaste' : ¬ bracketedPasteStart <+: first :: (rest ++ ys) := by
        intro hlater
        obtain ⟨hlen, heq⟩ := Lib.eq_take_of_prefix_append hpaste hlater
        rw [heq, extractOneEvent_pasteStart keys hlen] at h
        cases h
      rw [← List.isPrefixOf_iff_prefix, Bool.not_eq_true] at hpaste hpaste'
      simp only [List.cons_append]
      simp only [extractOneEvent, hpaste, Bool.false_eq_true, if_false] at h
      simp only [extractOneEvent, hpaste', Bool.false_eq_true, if_false]
      split at h
      · rename_i hesc
        simp only [hesc, if_true]
        simp only [Option.bind_eq_bind, Option.bind_eq_some_iff] at h
        obtain ⟨seqLen, hseq, h⟩ := h
        obtain ⟨hbounds, hseq'⟩ := completeEscapeSequenceLen_spec hseq ys
        have htake : (first :: rest ++ ys).take seqLen = (first :: rest).take seqLen :=
          List.take_append_of_le_length hbounds.2
        simp only [List.cons_append, hesc] at hseq' htake h hbounds
        simp only [hseq', htake, Option.bind_eq_bind, Option.bind_some]
        have hlen : len = seqLen := by
          split at h
          · split at h <;> (cases h; rfl)
          · obtain ⟨sequence, -, h⟩ := Option.bind_eq_some_iff.mp h
            cases h
            rfl
        subst hlen
        exact ⟨hbounds, h⟩
      · rename_i hesc
        simp only [hesc, if_false]
        simp only [Option.bind_eq_bind, Option.bind_eq_some_iff] at h
        obtain ⟨consumed, hconsumed, text, htext, key, hkey, h⟩ := h
        cases h
        obtain ⟨hbounds, hconsumed'⟩ := firstCompleteUtf8CharLen_spec hconsumed ys
        have htake : (first :: rest ++ ys).take len = (first :: rest).take len :=
          List.take_append_of_le_length hbounds.2
        simp only [List.cons_append] at hconsumed' htake
        refine ⟨hbounds, ?_⟩
        simp only [hconsumed', htake, htext, hkey, Option.bind_eq_bind, Option.bind_some]

/-! ### The recogniser of the loop -/

/-- A parameter byte of a Kitty key report. -/
def isKittyParam (byte : UInt8) : Bool := isAsciiDigit byte || byte = 0x3b || byte = 0x3a

/-- `startsWithKittyKeyReport` behind `ESC [`. -/
def kittyReport (rest : Bytes) : Bool :=
  rest.head?.any isAsciiDigit && rest[(rest.takeWhile isKittyParam).length]? = some 0x75

theorem startsWithKittyKeyReport_csi (rest : Bytes) :
    startsWithKittyKeyReport (esc :: 0x5b :: rest) = kittyReport rest := by
  rw [startsWithKittyKeyReport, stripStart, if_pos (by simp [List.isPrefixOf])]
  rfl

/-- A report that ends inside `rest` ends there whatever follows. -/
theorem kittyReport_append (ys : Bytes)
    (hend : (rest.takeWhile isKittyParam).length < rest.length) :
    kittyReport (rest ++ ys) = kittyReport rest := by
  have hne : rest ≠ [] := by
    rintro rfl
    simp at hend
  obtain ⟨first, tail, rfl⟩ := List.exists_cons_of_ne_nil hne
  rw [kittyReport, kittyReport, List.takeWhile_append, if_neg (by omega),
    List.getElem?_append_left hend]
  rfl

theorem kittyReport_end (h : kittyReport rest = true) :
    (rest.takeWhile isKittyParam).length < rest.length := by
  simp only [kittyReport, Bool.and_eq_true, decide_eq_true_eq] at h
  exact (List.getElem?_eq_some_iff.mp h.2).1

theorem startsWithKittyKeyReport_append (ys : Bytes) (h : startsWithKittyKeyReport xs = true) :
    startsWithKittyKeyReport (xs ++ ys) = true := by
  have hpre : [esc, 0x5b] <+: xs := by
    by_contra hnot
    rw [startsWithKittyKeyReport, stripStart, if_neg (by simpa using hnot)] at h
    cases h
  obtain ⟨rest, rfl⟩ := hpre
  simp only [List.cons_append, List.nil_append, startsWithKittyKeyReport_csi] at h ⊢
  rw [kittyReport_append ys (kittyReport_end h), h]

/-- Parameter bytes are no final bytes. -/
theorem not_final_of_isKittyParam (h : isKittyParam byte = true) :
    csiFinals.contains byte = false ∧ byte ≠ 0x3c ∧ byte ≠ 0x4d := by
  have hall : ∀ n : Fin 256, isKittyParam (UInt8.ofNat n) = true →
      csiFinals.contains (UInt8.ofNat n) = false ∧ UInt8.ofNat n ≠ 0x3c ∧
        UInt8.ofNat n ≠ 0x4d := by
    decide +kernel
  have hbyte : UInt8.ofNat byte.toNat = byte := UInt8.ofNat_toNat
  have := hall ⟨byte.toNat, byte.toNat_lt⟩
  rw [hbyte] at this
  exact this h

/-- If only a longer buffer shows that its ESC stands before a complete Kitty report, the
shorter one holds no complete escape sequence. -/
theorem completeEscapeSequenceLen_of_kitty_later
    (hshort : startsWithKittyKeyReport (esc :: rest) = false)
    (hlong : startsWithKittyKeyReport (esc :: rest ++ ys) = true) :
    completeEscapeSequenceLen (esc :: esc :: rest) = none := by
  cases rest with
  | nil => rfl
  | cons second params =>
    have hpre : [esc, 0x5b] <+: esc :: second :: params ++ ys := by
      by_contra hnot
      rw [startsWithKittyKeyReport, stripStart, if_neg (by simpa using hnot)] at hlong
      cases hlong
    obtain ⟨_, heq⟩ := hpre
    simp only [List.cons_append, List.nil_append, List.cons.injEq, true_and] at heq
    obtain ⟨rfl, -⟩ := heq
    simp only [List.cons_append, startsWithKittyKeyReport_csi] at hshort hlong
    -- everything so far is a parameter
    have hall : ∀ byte ∈ params, isKittyParam byte = true := by
      have hend : ¬ (params.takeWhile isKittyParam).length < params.length := by
        intro hend
        rw [kittyReport_append ys hend, hshort] at hlong
        cases hlong
      have htake : params.takeWhile isKittyParam = params :=
        (List.takeWhile_prefix _).eq_of_length_le (by omega)
      intro byte hbyte
      rw [← htake] at hbyte
      exact List.mem_takeWhile_imp hbyte
    have hcsi : completeEscapeSequenceLen (esc :: 0x5b :: params) = none := by
      rw [completeEscapeSequenceLen_csi]
      have hnone : findCsiFinal (esc :: 0x5b :: params) csiFinals = none :=
        findCsiFinal_eq_none fun byte hbyte => (not_final_of_isKittyParam (hall byte hbyte)).1
      cases params with
      | nil => rfl
      | cons first more =>
        have hfirst := not_final_of_isKittyParam (hall first List.mem_cons_self)
        simp only [csiSequenceLen, List.isPrefixOf, BEq.rfl, Bool.true_and, Bool.and_true,
          beq_eq_false_iff_ne.mpr hfirst.2.1.symm, beq_eq_false_iff_ne.mpr hfirst.2.2.symm,
          Bool.false_eq_true, if_false, hnone]
    have hmouse : doubledEscSgrMouse (esc :: esc :: 0x5b :: params) = none ∧
        doubledEscDefaultMouse (esc :: esc :: 0x5b :: params) = false := by
      cases params with
      | nil => exact ⟨rfl, rfl⟩
      | cons first more =>
        have hfirst := not_final_of_isKittyParam (hall first List.mem_cons_self)
        simp [doubledEscSgrMouse, doubledEscDefaultMouse, hfirst.2.1.symm, hfirst.2.2.symm]
    rw [completeEscapeSequenceLen, hmouse.1]
    simp only [hmouse.2, Bool.false_eq_true, if_false, and_self, if_true, hcsi, Option.map_none]

/-- Two ESC without a complete escape sequence are no event. -/
theorem extractOneEvent_esc_esc (keys : KeyParser)
    (h : completeEscapeSequenceLen (esc :: esc :: rest) = none) :
    extractOneEvent keys (esc :: esc :: rest) = none := by
  have hpaste : bracketedPasteStart.isPrefixOf (esc :: esc :: rest) = false := by
    simp [bracketedPasteStart, List.isPrefixOf, esc]
  simp only [extractOneEvent, hpaste, Bool.false_eq_true, if_false, if_true, h,
    Option.bind_eq_bind, Option.bind_none]

/-- How much the loop cuts off a buffer next: an ESC that stands alone, or one event. -/
def nextChunkLen (keys : KeyParser) (split : Bool) (buffer : Bytes) : Option Nat :=
  if [esc, esc].isPrefixOf buffer && (split || startsWithKittyKeyReport (buffer.drop 1)) then
    some 1
  else (extractOneEvent keys buffer).map Prod.snd

theorem recogniser_nextChunkLen (keys : KeyParser) (split : Bool) :
    Recogniser (nextChunkLen keys split) := by
  have hbounds : ∀ xs len, nextChunkLen keys split xs = some len → 0 < len ∧ len ≤ xs.length := by
    intro xs len h
    unfold nextChunkLen at h
    split at h
    · rename_i hguard
      simp only [Bool.and_eq_true, List.isPrefixOf_iff_prefix] at hguard
      have := hguard.1.length_le
      cases h
      simp only [List.length_cons, List.length_nil] at this
      omega
    · obtain ⟨⟨event, _⟩, hevent, rfl⟩ := Option.map_eq_some_iff.mp h
      exact (extractOneEvent_spec keys hevent []).1
  refine ⟨fun xs len h => (hbounds xs len h).1, fun xs len h => (hbounds xs len h).2, ?_⟩
  intro xs ys len h
  by_cases hesc : [esc, esc] <+: xs
  · obtain ⟨rest, rfl⟩ := hesc
    have hpre : ∀ tail, [esc, esc].isPrefixOf (esc :: esc :: tail) = true := by
      intro tail
      simp [List.isPrefixOf]
    simp only [List.cons_append, List.nil_append] at h ⊢
    simp only [nextChunkLen, hpre, Bool.true_and, List.drop_succ_cons, List.drop_zero] at h ⊢
    cases hguard : split || startsWithKittyKeyReport (esc :: rest) with
    | true =>
      have hguard' : (split || startsWithKittyKeyReport (esc :: (rest ++ ys))) = true := by
        rcases Bool.or_eq_true_iff.mp hguard with hsplit | hkitty
        · simp [hsplit]
        · have := startsWithKittyKeyReport_append ys hkitty
          simp only [List.cons_append] at this
          simp [this]
      simpa [hguard, hguard'] using h
    | false =>
      simp only [hguard, Bool.false_eq_true, if_false] at h
      obtain ⟨⟨event, _⟩, hevent, rfl⟩ := Option.map_eq_some_iff.mp h
      obtain ⟨-, hevent'⟩ := extractOneEvent_spec keys hevent ys
      obtain ⟨hsplit, hkitty⟩ := Bool.or_eq_false_iff.mp hguard
      have hguard' : (split || startsWithKittyKeyReport (esc :: (rest ++ ys))) = false := by
        rw [hsplit, Bool.false_or, ← Bool.not_eq_true]
        intro hlater
        have hnone := completeEscapeSequenceLen_of_kitty_later hkitty
          (by rw [List.cons_append]; exact hlater)
        rw [extractOneEvent_esc_esc keys hnone] at hevent
        cases hevent
      simp only [List.cons_append] at hevent'
      simp only [hguard', Bool.false_eq_true, if_false, hevent', Option.map_some]
  · -- at most one byte of the two ESC is there, and it is no event
    have hguard : nextChunkLen keys split xs = (extractOneEvent keys xs).map Prod.snd := by
      rw [nextChunkLen, if_neg (by simp [hesc])]
    have hesc' : ¬ [esc, esc] <+: xs ++ ys := by
      intro hlater
      obtain ⟨hlen, heq⟩ := Lib.eq_take_of_prefix_append hesc hlater
      have hcases : xs.length = 0 ∨ xs.length = 1 := by
        simp only [List.length_cons, List.length_nil] at hlen
        omega
      rw [hguard, heq] at h
      rcases hcases with hzero | hone
      · rw [hzero] at h
        cases h
      · rw [hone] at h
        cases h
    rw [nextChunkLen, if_neg (by simp [hesc'])]
    rw [hguard] at h
    obtain ⟨⟨event, _⟩, hevent, rfl⟩ := Option.map_eq_some_iff.mp h
    rw [(extractOneEvent_spec keys hevent ys).2, Option.map_some]

/-! ### The framer -/

/-- A framer that no flush has left in a recovery state. -/
structure Clean (split : Bool) (framer : RawInputByteFramer) : Prop where
  discardUntil : framer.discardUntil = none
  timedOut : framer.timedOutMousePrefix = none
  loneEscape : framer.loneEscapeRecentlyFlushed = false
  awaiting : framer.awaitingMouseTailAfter = none
  split_eq : framer.splitCoalescedEscape = split

theorem Clean.withBuffer (h : Clean split framer) (buffer : Bytes) :
    Clean split { framer with buffer := buffer } :=
  ⟨h.discardUntil, h.timedOut, h.loneEscape, h.awaiting, h.split_eq⟩

/-- Noting an event touches only the reply counters. -/
theorem Clean.noteEvent (h : Clean split framer) (now : Nat) (event : RawInputEvent) :
    Clean split (framer.noteEvent now event) := by
  have hactivity : ∀ (self : RawInputByteFramer) (flag : Bool), Clean split self →
      Clean split { (if flag then { self with hostReplyActivityAt := some now } else self) with
        heldPendingHostReplyEsc := false } := by
    intro self flag hself
    cases flag <;> exact ⟨hself.1, hself.2, hself.3, hself.4, hself.5⟩
  unfold RawInputByteFramer.noteEvent
  refine hactivity _ _ ?_
  split
  · exact ⟨h.1, h.2, h.3, h.4, h.5⟩
  · exact ⟨h.1, h.2, h.3, h.4, h.5⟩
  · exact ⟨h.1, h.2, h.3, h.4, h.5⟩
  · split
    · exact ⟨h.1, h.2, h.3, h.4, h.5⟩
    · exact h
  · dsimp only
    split <;> exact ⟨h.1, h.2, h.3, h.4, h.5⟩
  · exact h

theorem drainTurn_of_clean (h : Clean split framer) (keys : KeyParser) (now : Nat) :
    framer.drainTurn keys now = framer.drainEvent keys now := by
  obtain ⟨hdiscard, htimedOut, hlone, -, -⟩ := h
  cases framer
  simp only at hdiscard htimedOut hlone
  subst hdiscard htimedOut hlone
  rfl

/-- What the loop does with a clean framer: it cuts the buffer greedily. -/
theorem drainLoop_of_clean (keys : KeyParser) (now : Nat) {fuel : Nat} (h : Clean split framer)
    (hfuel : framer.buffer.length < fuel) (chunks : List Bytes) :
    ∃ after frames, RawInputByteFramer.drainLoop keys now fuel framer chunks
        = (after, chunks ++ frames) ∧
      Clean split after ∧
      Splits (nextChunkLen keys split) framer.buffer frames after.buffer := by
  induction fuel generalizing framer chunks with
  | zero => omega
  | succ fuel ih =>
    obtain rfl := h.split_eq
    rw [RawInputByteFramer.drainLoop, drainTurn_of_clean h]
    have hrecogniser := recogniser_nextChunkLen keys framer.splitCoalescedEscape
    -- one turn cuts off what the recogniser names
    have hgo : ∀ (next : RawInputByteFramer) (len : Nat), Clean framer.splitCoalescedEscape next →
        next.buffer = framer.buffer.drop len →
        nextChunkLen keys framer.splitCoalescedEscape framer.buffer = some len →
        ∃ after frames, RawInputByteFramer.drainLoop keys now fuel next
            (chunks ++ [framer.buffer.take len]) = (after, chunks ++ frames) ∧
          Clean framer.splitCoalescedEscape after ∧
          Splits (nextChunkLen keys framer.splitCoalescedEscape) framer.buffer frames
            after.buffer := by
      intro next len hclean hbuffer hlen
      have hpos := hrecogniser.pos _ _ hlen
      have hle := hrecogniser.le _ _ hlen
      obtain ⟨after, frames, hloop, hafter, hsplits⟩ := ih hclean
        (by rw [hbuffer, List.length_drop]; omega) (chunks ++ [framer.buffer.take len])
      refine ⟨after, framer.buffer.take len :: frames, ?_, hafter, .frame hlen ?_⟩
      · rw [hloop, List.append_assoc, List.singleton_append]
      · rw [← hbuffer]
        exact hsplits
    unfold RawInputByteFramer.drainEvent
    by_cases hguard : ([esc, esc].isPrefixOf framer.buffer &&
        (framer.splitCoalescedEscape || startsWithKittyKeyReport (framer.buffer.drop 1))) = true
    · rw [if_pos hguard]
      have hlen : nextChunkLen keys framer.splitCoalescedEscape framer.buffer = some 1 := by
        rw [nextChunkLen, if_pos hguard]
      have htake : framer.buffer.take 1 = [esc] := by
        rw [Bool.and_eq_true, List.isPrefixOf_iff_prefix] at hguard
        obtain ⟨rest, hrest⟩ := hguard.1
        rw [← hrest]
        rfl
      have := hgo { framer with buffer := framer.buffer.drop 1 } 1 (h.withBuffer _) rfl hlen
      rw [htake] at this
      exact this
    · rw [if_neg hguard]
      have hnext : nextChunkLen keys framer.splitCoalescedEscape framer.buffer
          = (extractOneEvent keys framer.buffer).map Prod.snd := by
        rw [nextChunkLen, if_neg hguard]
      cases hevent : extractOneEvent keys framer.buffer with
      | none =>
        rw [hevent, Option.map_none] at hnext
        exact ⟨framer, [], by rw [List.append_nil], h, .stop hnext⟩
      | some found =>
        obtain ⟨event, consumed⟩ := found
        rw [hevent, Option.map_some] at hnext
        exact hgo _ consumed ((h.noteEvent now event).withBuffer _) rfl hnext

theorem drainAvailableChunks_of_clean (keys : KeyParser) (now : Nat) (h : Clean split framer) :
    Clean split (framer.drainAvailableChunks keys now).1 ∧
      Splits (nextChunkLen keys split) framer.buffer (framer.drainAvailableChunks keys now).2
        (framer.drainAvailableChunks keys now).1.buffer := by
  have hfuel : framer.buffer.length < framer.buffer.length + 3 := by omega
  obtain ⟨after, frames, hloop, hafter, hsplits⟩ := drainLoop_of_clean keys now h hfuel []
  rw [RawInputByteFramer.drainAvailableChunks, hloop]
  exact ⟨hafter, hsplits⟩

theorem pushExtended_of_clean (keys : KeyParser) (now : Nat) (h : Clean split framer) :
    Clean split (framer.pushExtended keys now).1 ∧
      Splits (nextChunkLen keys split) framer.buffer (framer.pushExtended keys now).2
        (framer.pushExtended keys now).1.buffer := by
  have htaken : Clean split { framer with awaitingMouseTailAfter := none } :=
    ⟨h.discardUntil, h.timedOut, h.loneEscape, rfl, h.split_eq⟩
  rw [RawInputByteFramer.pushExtended, h.awaiting]
  exact drainAvailableChunks_of_clean keys now htaken

/-- A push that drops nothing frames the buffer and the new bytes together. -/
theorem push_of_clean (keys : KeyParser) (now : Nat) (h : Clean split framer) (data : Bytes)
    (hkeep : data ≠ [] → framer.dropsHostColorReply now = false) :
    Clean split (framer.push keys now data).1 ∧
      Splits (nextChunkLen keys split) (framer.buffer ++ data) (framer.push keys now data).2
        (framer.push keys now data).1.buffer := by
  cases data with
  | nil =>
    rw [List.append_nil]
    exact pushExtended_of_clean keys now h
  | cons byte rest =>
    have hdrop : framer.dropAbandonedHostColorReply now = framer := by
      rw [RawInputByteFramer.dropAbandonedHostColorReply, hkeep (by simp)]
      rfl
    obtain ⟨hclean, hsplits⟩ := pushExtended_of_clean keys now
      (h.withBuffer (framer.buffer ++ byte :: rest))
    simp only [RawInputByteFramer.push, List.isEmpty_cons, Bool.false_eq_true, if_false, hdrop]
    exact ⟨⟨hclean.1, hclean.2, hclean.3, hclean.4, hclean.5⟩, hsplits⟩

/-! ### Runs of pushes -/

/-- One read of the host input: when it came and its bytes. -/
structure Read where
  now : Nat
  data : Bytes

/-- Push some reads one after the other and collect the chunks. -/
def pushAll (keys : KeyParser) : RawInputByteFramer → List Read → RawInputByteFramer × List Bytes
  | framer, [] => (framer, [])
  | framer, read :: reads =>
      let pushed := framer.push keys read.now read.data
      let rest := pushAll keys pushed.1 reads
      (rest.1, pushed.2 ++ rest.2)

/-- No read finds an unfinished host color reply in the buffer that has grown to 128 bytes
or waited for a second: the replies `drop_abandoned_host_color_reply` gives up. -/
def KeepsReplies (keys : KeyParser) : RawInputByteFramer → List Read → Prop
  | _, [] => True
  | framer, read :: reads =>
      (read.data ≠ [] → framer.dropsHostColorReply read.now = false) ∧
        KeepsReplies keys (framer.push keys read.now read.data).1 reads

theorem pushAll_of_clean (keys : KeyParser) (h : Clean split framer) {reads : List Read}
    (hkeep : KeepsReplies keys framer reads) {input : Bytes} {chunks : List Bytes}
    (hsplits : Splits (nextChunkLen keys split) input chunks framer.buffer) :
    Splits (nextChunkLen keys split) (input ++ reads.flatMap Read.data)
      (chunks ++ (pushAll keys framer reads).2) (pushAll keys framer reads).1.buffer := by
  induction reads generalizing framer input chunks with
  | nil => simpa [pushAll] using hsplits
  | cons read reads ih =>
    obtain ⟨hclean, hpush⟩ := push_of_clean keys read.now h read.data hkeep.1
    have hboth := hsplits.append (recogniser_nextChunkLen keys split) hpush
    have hrest := ih hclean hkeep.2 hboth
    simpa [pushAll, List.append_assoc] using hrest

/-- Every partition of the input into reads, none of which finds an abandoned host color
reply, yields the chunks and the residual buffer of one push of the whole input, and the
chunks with the buffer behind them are the input. -/
theorem push_partition (keys : KeyParser) (preserve : Bool) {reads : List Read}
    (hkeep : KeepsReplies keys (.withHostInputPolicy preserve) reads) (now : Nat) :
    let framer := RawInputByteFramer.withHostInputPolicy preserve
    let input := reads.flatMap Read.data
    (pushAll keys framer reads).2 = (framer.push keys now input).2 ∧
      (pushAll keys framer reads).1.buffer = (framer.push keys now input).1.buffer ∧
      (pushAll keys framer reads).2.flatten ++ (pushAll keys framer reads).1.buffer = input := by
  intro framer input
  have hclean : Clean (!preserve) framer := ⟨rfl, rfl, rfl, rfl, rfl⟩
  have hempty : Splits (nextChunkLen keys (!preserve)) [] [] framer.buffer := .stop rfl
  have hreads := pushAll_of_clean keys hclean hkeep hempty
  rw [List.nil_append, List.nil_append] at hreads
  obtain ⟨-, hwhole⟩ := push_of_clean keys now hclean input (fun _ => rfl)
  obtain ⟨hchunks, hbuffer⟩ := hreads.unique hwhole
  exact ⟨hchunks, hbuffer, hreads.flatten⟩

/-- A parser that knows one key: BEL is Ctrl+g. -/
def bellKeys : KeyParser where
  parseTerminalKeySequence bytes := if bytes = [0x07] then some (.new (.char 'g') ⟨2⟩) else none
  isUppercase _ := false

/-- `ESC [ A`, the up arrow, in three reads. -/
theorem push_partition_up_arrow :
    (pushAll bellKeys (.withHostInputPolicy true)
        [⟨0, [esc]⟩, ⟨5, [0x5b]⟩, ⟨9, [0x41]⟩]).2.flatten ++
      (pushAll bellKeys (.withHostInputPolicy true)
        [⟨0, [esc]⟩, ⟨5, [0x5b]⟩, ⟨9, [0x41]⟩]).1.buffer = [esc, 0x5b, 0x41] := by
  have hkeep : KeepsReplies bellKeys (.withHostInputPolicy true)
      [⟨0, [esc]⟩, ⟨5, [0x5b]⟩, ⟨9, [0x41]⟩] := ⟨fun _ => rfl, fun _ => rfl, fun _ => rfl, trivial⟩
  exact (push_partition bellKeys true hkeep 0).2.2

/-- The first 128 bytes of an overlong OSC 10 reply. -/
def longColorReply : Bytes := [esc, 0x5d, 0x31, 0x30, 0x3b] ++ List.replicate 123 0x61

/-- An OSC 10 reply of 128 bytes and its BEL: pushed at once they are one chunk; with the
BEL in a read of its own, at the same time, the 128 bytes are dropped and the BEL is a key. -/
theorem push_drops_long_color_reply :
    (pushAll bellKeys (.withHostInputPolicy true)
        [⟨0, longColorReply⟩, ⟨0, [0x07]⟩]).2 = [[0x07]] ∧
      (pushAll bellKeys (.withHostInputPolicy true)
        [⟨0, longColorReply⟩, ⟨0, [0x07]⟩]).1.buffer = [] ∧
      ((RawInputByteFramer.withHostInputPolicy true).push bellKeys 0
        (longColorReply ++ [0x07])).2 = [longColorReply ++ [0x07]] := by
  decide +kernel

end Herden.Proofs.RawInput
