import Herden.Proofs.RawInput
import Herden.Runtime.RawInputWindows

/-!
# `Herden.Proofs.RawInput.Mouse`: mouse reports that come in late

A mouse report that did not arrive in time is dropped, and the framer keeps its bytes to recognise
the rest (`classifySgrMouseContinuation`). Whether bytes can still become a report is decided by a
grammar of its own, written apart from the parser (`plausibleSgrMouseStart`). The two agree at every
cut behind the introducer on reports whose coordinates fit in a machine word before the parser
subtracts one (`plausible_of_report`, `coordinates_of_plausible`). From that follows which
continuations are complete (`classify_complete_iff`) and that an invalid one is read like any input
(`drainAvailableChunks_of_invalid`).
-/

namespace Herden.Proofs.RawInput.Mouse

open Herden.Runtime.RawInput
open Herden.Proofs.RawInput

/-! ### Lists with separators -/

section

variable {α : Type}

/-- What a list begins with that is cut by a separator: a part of the first piece, or all of it with
the separator and a part of the rest. -/
theorem append_cons_cases {start first rest : List α} {separator : α}
    (h : start <+: first ++ separator :: rest) :
    start <+: first ∨ ∃ more, start = first ++ separator :: more ∧ more <+: rest := by
  rcases Nat.lt_or_ge first.length start.length with hlt | hge
  · right
    have hfirst : first <+: start :=
      List.prefix_of_prefix_length_le (List.prefix_append _ _) h (Nat.le_of_lt hlt)
    obtain ⟨tail, rfl⟩ := hfirst
    have htail : tail <+: separator :: rest := (List.prefix_append_right_inj first).mp h
    cases tail with
    | nil => simp at hlt
    | cons byte more =>
      obtain ⟨rfl, hmore⟩ := List.cons_prefix_cons.mp htail
      exact ⟨more, rfl, hmore⟩
  · exact .inl (List.prefix_of_prefix_length_le h (List.prefix_append _ _) hge)

/-- An item is the separator, or in one of the pieces. -/
theorem mem_piece_of_mem [DecidableEq α] {items : List α} (separator : α) {item : α}
    (h : item ∈ items) :
    item = separator ∨ ∃ piece ∈ items.splitOn separator, item ∈ piece := by
  induction items with
  | nil => cases h
  | cons first rest ih =>
    rw [List.splitOn_cons_eq_if_modifyHead]
    split
    next hseparator =>
      rcases List.mem_cons.mp h with rfl | hrest
      · exact .inl (by simpa using hseparator)
      · rcases ih hrest with heq | ⟨piece, hpiece, hitem⟩
        · exact .inl heq
        · exact .inr ⟨piece, List.mem_cons_of_mem _ hpiece, hitem⟩
    next =>
      cases hpieces : rest.splitOn separator with
      | nil => exact absurd hpieces (List.splitOn_ne_nil separator rest)
      | cons head pieces =>
        rw [List.modifyHead_cons]
        rcases List.mem_cons.mp h with rfl | hrest
        · exact .inr ⟨item :: head, by simp, by simp⟩
        · rcases ih hrest with heq | ⟨piece, hpiece, hitem⟩
          · exact .inl heq
          · rw [hpieces] at hpiece
            rcases List.mem_cons.mp hpiece with rfl | hpiece
            · exact .inr ⟨first :: piece, by simp, List.mem_cons_of_mem _ hitem⟩
            · exact .inr ⟨piece, List.mem_cons_of_mem _ hpiece, hitem⟩

end

/-! ### Numbers -/

/-- A digit or a semicolon. -/
def isReportByte (byte : UInt8) : Bool := isAsciiDigit byte || byte = 0x3b

theorem digitsValue_append_le (digits more : Bytes) :
    digitsValue 10 digits ≤ digitsValue 10 (digits ++ more) := by
  induction more using List.reverseRecOn with
  | nil => rw [List.append_nil]
  | append_singleton more byte ih =>
    have hlast : digitsValue 10 (digits ++ (more ++ [byte]))
        = digitsValue 10 (digits ++ more) * 10 + hexValue byte := by
      unfold digitsValue
      rw [← List.append_assoc, List.foldl_append]
      rfl
    omega

variable {digits start sequence cb x y tail : Bytes} {event : MouseEvent} {field now : Nat}
  {final : UInt8} {framer : RawInputByteFramer} {keys : KeyParser}

variable {number bytes rest body : Bytes} {value n : Nat}

theorem all_of_prefix {test : UInt8 → Bool} (h : digits <+: number)
    (hall : number.all test = true) : digits.all test = true :=
  List.all_eq_true.mpr fun byte hmem => List.all_eq_true.mp hall byte (h.subset hmem)

theorem digitsValue_le_of_prefix (h : digits <+: number) :
    digitsValue 10 digits ≤ digitsValue 10 number := by
  obtain ⟨more, rfl⟩ := h
  exact digitsValue_append_le digits more

/-- Digits have no sign, so parsing them is reading their value. -/
theorem parseUnsigned_digits (hne : digits ≠ []) (hdigits : digits.all isAsciiDigit = true)
    (largest : Nat) : parseUnsigned largest digits
      = if digitsValue 10 digits ≤ largest then some (digitsValue 10 digits) else none := by
  have hsign : stripStart [0x2b] digits = none := by
    unfold stripStart
    rw [if_neg]
    intro hplus
    rw [List.isPrefixOf_iff_prefix] at hplus
    obtain ⟨more, rfl⟩ := hplus
    simp [isAsciiDigit] at hdigits
  unfold parseUnsigned
  rw [hsign]
  simp [hne, hdigits]

/-! ### Reports -/

/-- `ESC [ <`. -/
def introducer : Bytes := [esc, 0x5b, 0x3c]

/-- A number of a report. -/
structure Number (digits : Bytes) : Prop where
  ne_nil : digits ≠ []
  digits_all : digits.all isAsciiDigit = true

/-- The bytes of a report between the introducer and the final byte. -/
def payload (cb x y : Bytes) : Bytes := cb ++ 0x3b :: (x ++ 0x3b :: y)

/-- A report in its three numbers and its final byte. -/
structure Report (sequence : Bytes) (event : MouseEvent) (cb x y : Bytes) (final : UInt8) :
    Prop where
  sequence_eq : sequence = introducer ++ payload cb x y ++ [final]
  final_eq : final = 0x4d ∨ final = 0x6d
  cb_number : Number cb
  x_number : Number x
  y_number : Number y
  cb_le : digitsValue 10 cb ≤ 255
  cb_button : (parseMouseCb (UInt8.ofNat (digitsValue 10 cb))).isSome = true
  column : event.column + 1 = digitsValue 10 x
  row : event.row + 1 = digitsValue 10 y

theorem parseReportNumber_eq_some (h : parseReportNumber digits = some value) :
    Number digits ∧ value = digitsValue 10 digits := by
  unfold parseReportNumber at h
  split at h
  next hdigits =>
    simp only [Bool.and_eq_true, Bool.not_eq_true', List.isEmpty_eq_false_iff] at hdigits
    rw [parseUnsigned_digits hdigits.1 hdigits.2] at h
    split at h
    · exact ⟨⟨hdigits.1, hdigits.2⟩, (Option.some.inj h).symm⟩
    · cases h
  next => cases h

theorem checkedSub_eq_some {a b : Nat} (h : checkedSub a b = some value) : value + b = a := by
  unfold checkedSub at h
  split at h
  · obtain rfl := Option.some.inj h
    omega
  · cases h

theorem stripStart_eq_some (h : stripStart start bytes = some rest) : bytes = start ++ rest := by
  unfold stripStart at h
  split at h
  next hstart =>
    obtain ⟨more, rfl⟩ := List.isPrefixOf_iff_prefix.mp hstart
    rw [List.drop_left] at h
    rw [Option.some.inj h]
  next => cases h

theorem stripStart_append (start rest : Bytes) : stripStart start (start ++ rest) = some rest := by
  unfold stripStart
  rw [if_pos (List.isPrefixOf_iff_prefix.mpr (List.prefix_append _ _)), List.drop_left]

/-- What is accepted is a report. -/
theorem parseSgrMouse_eq_some (h : parseSgrMouse sequence = some event) :
    ∃ cb x y final, Report sequence event cb x y final := by
  unfold parseSgrMouse at h
  simp only [Option.bind_eq_bind, Option.bind_eq_some_iff] at h
  obtain ⟨report, hreport, column, hcolumn, h⟩ := h
  split at h
  · cases h
  obtain ⟨row, hrow, h⟩ := Option.bind_eq_some_iff.mp h
  split at h
  · cases h
  obtain rfl := Option.some.inj h
  unfold parseSgrMouseReport at hreport
  simp only [Option.bind_eq_bind, Option.bind_eq_some_iff] at hreport
  obtain ⟨body, hbody, final, hfinal, hreport⟩ := hreport
  split at hreport
  · cases hreport
  next hkind =>
    split at hreport
    next cb x y hpieces =>
      obtain ⟨button, hcb, hreport⟩ := Option.bind_eq_some_iff.mp hreport
      split at hreport
      · cases hreport
      next hsmall =>
        simp only [Option.bind_eq_some_iff] at hreport
        obtain ⟨xValue, hx, yValue, hy, kind, hbutton, hreport⟩ := hreport
        obtain rfl := Option.some.inj hreport
        obtain ⟨hcbNumber, rfl⟩ := parseReportNumber_eq_some hcb
        obtain ⟨hxNumber, rfl⟩ := parseReportNumber_eq_some hx
        obtain ⟨hyNumber, rfl⟩ := parseReportNumber_eq_some hy
        refine ⟨cb, x, y, final, ?_, by tauto, hcbNumber, hxNumber, hyNumber, by omega,
          Option.isSome_iff_exists.mpr ⟨kind, hbutton⟩, checkedSub_eq_some hcolumn,
          checkedSub_eq_some hrow⟩
        have hpayload : body.dropLast = payload cb x y := by
          have hjoin : [0x3b].intercalate (body.dropLast.splitOn 0x3b) = body.dropLast :=
            List.intercalate_splitOn 0x3b
          rw [← hjoin, hpieces]
          simp [payload, List.intercalate]
        rw [stripStart_eq_some hbody, ← hpayload, List.append_assoc,
          List.dropLast_append_getLast? final hfinal]
        rfl
    next => cases hreport

/-! ### Plausible starts -/

theorem semicolon_not_mem (h : digits.all isAsciiDigit = true) : (0x3b : UInt8) ∉ digits := by
  intro hmem
  have hdigit := List.all_eq_true.mp h _ hmem
  exact absurd hdigit (by decide)

theorem plausibleSgrMouseStart_eq (body : Bytes) :
    plausibleSgrMouseStart (introducer ++ body)
      = plausibleSgrMouseFields 0 (body.splitOn 0x3b) := by
  have hstrip : stripStart [esc, 0x5b, 0x3c] (introducer ++ body) = some body :=
    stripStart_append introducer body
  unfold plausibleSgrMouseStart
  rw [hstrip]

/-- The last field may be empty or cut off. -/
theorem plausibleFields_last (hfield : field ≤ 2) (hdigits : digits.all isAsciiDigit = true)
    (hvalue : digitsValue 10 digits ≤ 65535) (hbutton : field = 0 → digitsValue 10 digits ≤ 255) :
    plausibleSgrMouseFields field [digits] = true := by
  unfold plausibleSgrMouseFields
  rw [if_neg (by omega)]
  cases digits with
  | nil => rfl
  | cons byte more =>
    rw [if_neg (by simp), if_neg (by simp [hdigits]),
      parseUnsigned_digits (List.cons_ne_nil byte more) hdigits, if_pos hvalue]
    dsimp only
    rw [if_neg (by omega), if_neg (by simp)]
    rfl

/-- A field with another behind it. -/
theorem plausibleFields_cons {next : Bytes} {rest : List Bytes} (hfield : field ≤ 2)
    (hnumber : Number digits) (hvalue : digitsValue 10 digits ≤ 65535)
    (hbutton : field = 0 → digitsValue 10 digits ≤ 255
      ∧ (parseMouseCb (UInt8.ofNat (digitsValue 10 digits))).isSome = true)
    (hcolumn : field = 1 → 0 < digitsValue 10 digits) :
    plausibleSgrMouseFields field (digits :: next :: rest)
      = plausibleSgrMouseFields (field + 1) (next :: rest) := by
  rw [plausibleSgrMouseFields]
  rw [if_neg (by omega), if_neg (by simp [hnumber.ne_nil]), if_neg (by simp [hnumber.digits_all]),
    parseUnsigned_digits hnumber.ne_nil hnumber.digits_all, if_pos hvalue]
  dsimp only
  rw [if_neg (by rintro ⟨hzero, hlarge⟩; exact absurd (hbutton hzero).1 (by omega)), if_neg]
  simp only [List.isEmpty_cons, Bool.not_false, Bool.true_and, Bool.or_eq_true, Bool.and_eq_true,
    decide_eq_true_eq, Option.isNone_iff_eq_none]
  rintro (⟨hzero, hnone⟩ | ⟨hone, hvalue⟩)
  · have hsome := (hbutton hzero).2
    rw [hnone] at hsome
    cases hsome
  · exact absurd (hcolumn hone) (by omega)

/-- Whatever a report with coordinates in a machine word begins with is plausible. -/
theorem plausible_of_report (h : Report sequence event cb x y final)
    (hcolumn : event.column < 65535) (hrow : event.row < 65535) (hbody : body <+: payload cb x y) :
    plausibleSgrMouseStart (introducer ++ body) = true := by
  have hxColumn := h.column
  have hyRow := h.row
  have hcb := h.cb_le
  have hcbFree := semicolon_not_mem h.cb_number.digits_all
  have hxFree := semicolon_not_mem h.x_number.digits_all
  rw [plausibleSgrMouseStart_eq]
  -- The cut is in the first, the second or the third number.
  rcases append_cons_cases hbody with hfirst | ⟨second, rfl, hsecond⟩
  · have hdigits := all_of_prefix hfirst h.cb_number.digits_all
    have hvalue := digitsValue_le_of_prefix hfirst
    rw [List.splitOn_eq_singleton (semicolon_not_mem hdigits)]
    exact plausibleFields_last (by omega) hdigits (by omega) fun _ => by omega
  rw [List.splitOn_append_cons_self_of_not_mem hcbFree]
  rcases append_cons_cases hsecond with hsecond | ⟨third, rfl, hthird⟩
  · have hdigits := all_of_prefix hsecond h.x_number.digits_all
    have hvalue := digitsValue_le_of_prefix hsecond
    rw [List.splitOn_eq_singleton (semicolon_not_mem hdigits),
      plausibleFields_cons (by omega) h.cb_number (by omega) (fun _ => ⟨hcb, h.cb_button⟩)
        (by omega)]
    exact plausibleFields_last (by omega) hdigits (by omega) fun _ => by omega
  · have hdigits := all_of_prefix hthird h.y_number.digits_all
    have hvalue := digitsValue_le_of_prefix hthird
    rw [List.splitOn_append_cons_self_of_not_mem hxFree,
      List.splitOn_eq_singleton (semicolon_not_mem hdigits),
      plausibleFields_cons (by omega) h.cb_number (by omega) (fun _ => ⟨hcb, h.cb_button⟩)
        (by omega),
      plausibleFields_cons (by omega) h.x_number (by omega) (by omega) (by omega)]
    exact plausibleFields_last (by omega) hdigits (by omega) fun _ => by omega

theorem plausibleFields_number {rest : List Bytes} (hnumber : Number digits)
    (h : plausibleSgrMouseFields field (digits :: rest) = true) :
    digitsValue 10 digits ≤ 65535 ∧ plausibleSgrMouseFields (field + 1) rest = true := by
  rw [plausibleSgrMouseFields] at h
  split at h
  · cases h
  rw [if_neg (by simp [hnumber.ne_nil]), if_neg (by simp [hnumber.digits_all]),
    parseUnsigned_digits hnumber.ne_nil hnumber.digits_all] at h
  by_cases hvalue : digitsValue 10 digits ≤ 65535
  · rw [if_pos hvalue] at h
    dsimp only at h
    split at h
    · cases h
    split at h
    · cases h
    · exact ⟨hvalue, h⟩
  · rw [if_neg hvalue] at h
    cases h

/-- Plausible fields are digits. -/
theorem plausibleFields_digits {fields : List Bytes}
    (h : plausibleSgrMouseFields field fields = true) (hmem : digits ∈ fields) :
    digits.all isAsciiDigit = true := by
  induction fields generalizing field with
  | nil => cases hmem
  | cons first rest ih =>
    by_cases hempty : first = []
    · -- An empty field is the last one.
      rw [plausibleSgrMouseFields, hempty] at h
      split at h
      · cases h
      · have hrest : rest = [] := by simpa using h
        rw [hrest, hempty, List.mem_singleton] at hmem
        rw [hmem]
        rfl
    · by_cases hdigits : first.all isAsciiDigit = true
      · rcases List.mem_cons.mp hmem with rfl | hmem
        · exact hdigits
        · exact ih (plausibleFields_number ⟨hempty, hdigits⟩ h).2 hmem
      · rw [plausibleSgrMouseFields] at h
        split at h
        · cases h
        rw [if_neg (by simp [hempty]), if_pos (by simp [hdigits])] at h
        cases h

/-- The numbers of a plausible report fit in a machine word. -/
theorem coordinates_of_plausible (hcb : Number cb) (hx : Number x) (hy : Number y)
    (h : plausibleSgrMouseStart (introducer ++ payload cb x y) = true) :
    digitsValue 10 x ≤ 65535 ∧ digitsValue 10 y ≤ 65535 := by
  rw [plausibleSgrMouseStart_eq] at h
  unfold payload at h
  rw [List.splitOn_append_cons_self_of_not_mem (semicolon_not_mem hcb.digits_all),
    List.splitOn_append_cons_self_of_not_mem (semicolon_not_mem hx.digits_all),
    List.splitOn_eq_singleton (semicolon_not_mem hy.digits_all)] at h
  have hrest := (plausibleFields_number hcb h).2
  have hlast := plausibleFields_number hx hrest
  exact ⟨hlast.1, (plausibleFields_number hy hlast.2).1⟩

/-- A plausible start is digits and semicolons behind the introducer. -/
theorem bytes_of_plausible (h : plausibleSgrMouseStart start = true) :
    ∃ body, start = introducer ++ body ∧ body.all isReportByte = true := by
  unfold plausibleSgrMouseStart at h
  split at h
  · cases h
  next body hbody =>
    refine ⟨body, stripStart_eq_some hbody, List.all_eq_true.mpr fun byte hbyte => ?_⟩
    unfold isReportByte
    rcases mem_piece_of_mem 0x3b hbyte with rfl | ⟨piece, hpiece, hmem⟩
    · rfl
    · rw [List.all_eq_true.mp (plausibleFields_digits h hpiece) byte hmem]
      rfl

/-! ### Cuts -/

theorem final_not_reportByte (h : final = 0x4d ∨ final = 0x6d) : isReportByte final = false := by
  rcases h with rfl | rfl
  · rfl
  · rfl

/-- A start that is not plausible is the start of no report with coordinates in a machine word,
unless the introducer is cut or the report is whole. -/
theorem not_report_of_implausible (hunlikely : plausibleSgrMouseStart start = false)
    (hparse : parseSgrMouse (start ++ rest) = some event) :
    start <+: [esc, 0x5b] ∨ rest = [] ∨ 65535 ≤ event.column ∨ 65535 ≤ event.row := by
  obtain ⟨cb, x, y, final, hreport⟩ := parseSgrMouse_eq_some hparse
  have hsequence := hreport.sequence_eq
  rw [List.append_assoc] at hsequence
  have hstart : start <+: [esc, 0x5b] ++ 0x3c :: (payload cb x y ++ [final]) := ⟨rest, hsequence⟩
  rcases append_cons_cases hstart with hcut | ⟨body, rfl, hbody⟩
  · exact .inl hcut
  right
  rw [or_iff_not_imp_left]
  intro hrest
  have hpayload : body <+: payload cb x y := by
    rcases append_cons_cases hbody with hpayload | ⟨more, rfl, hmore⟩
    · exact hpayload
    · -- The final byte is in the start, so nothing is behind it.
      rw [List.prefix_nil] at hmore
      have hlengths := congrArg List.length hsequence
      simp only [hmore, introducer, List.length_append, List.length_cons, List.length_nil]
        at hlengths
      exact absurd (List.length_eq_zero_iff.mp (by omega)) hrest
  by_contra hcoordinates
  rw [not_or, Nat.not_le, Nat.not_le] at hcoordinates
  have hlikely := plausible_of_report hreport hcoordinates.1 hcoordinates.2 hpayload
  have hsame : introducer ++ body = [esc, 0x5b] ++ 0x3c :: body := rfl
  rw [hsame, hunlikely] at hlikely
  cases hlikely

/-! ### Continuations -/

theorem isUtf8_of_ascii (h : ∀ byte ∈ bytes, byte < 0x80) : isUtf8 bytes = true := by
  induction bytes with
  | nil => rfl
  | cons first rest ih =>
    unfold isUtf8
    rw [if_pos (h first (by simp))]
    exact ih fun byte hmem => h byte (by simp [hmem])

theorem lt_of_isReportByte {byte : UInt8} (h : isReportByte byte = true) : byte < 0x80 := by
  unfold isReportByte isAsciiDigit at h
  simp only [Bool.or_eq_true, Bool.and_eq_true, decide_eq_true_eq] at h
  rcases h with ⟨-, hle⟩ | rfl
  · exact UInt8.lt_of_le_of_lt hle (by decide)
  · decide

theorem payload_all (hcb : Number cb) (hx : Number x) (hy : Number y) :
    (payload cb x y).all isReportByte = true := by
  have hdigits : ∀ {digits : Bytes}, digits.all isAsciiDigit = true →
      ∀ byte ∈ digits, isReportByte byte = true := by
    intro digits hall byte hmem
    unfold isReportByte
    rw [List.all_eq_true.mp hall byte hmem]
    rfl
  rw [List.all_eq_true]
  intro byte hmem
  unfold payload at hmem
  simp only [List.mem_append, List.mem_cons] at hmem
  rcases hmem with hmem | rfl | hmem | rfl | hmem
  · exact hdigits hcb.digits_all byte hmem
  · rfl
  · exact hdigits hx.digits_all byte hmem
  · rfl
  · exact hdigits hy.digits_all byte hmem

theorem fromUtf8_of_report (h : Report sequence event cb x y final) :
    fromUtf8 sequence = some sequence := by
  unfold fromUtf8
  rw [if_pos]
  apply isUtf8_of_ascii
  intro byte hmem
  rw [h.sequence_eq] at hmem
  simp only [List.mem_append, List.mem_singleton] at hmem
  rcases hmem with (hmem | hmem) | rfl
  · unfold introducer at hmem
    simp only [List.mem_cons, List.not_mem_nil, or_false] at hmem
    rcases hmem with rfl | rfl | rfl
    · decide
    · decide
    · decide
  · exact lt_of_isReportByte
      (List.all_eq_true.mp (payload_all h.cb_number h.x_number h.y_number) byte hmem)
  · rcases h.final_eq with rfl | rfl
    · decide
    · decide

/-- The part of the new bytes that may belong to the report. -/
def window (start tail : Bytes) : Bytes :=
  tail.take (min tail.length (maxDiscardedControlTailBytes - start.length))

theorem length_window (start tail : Bytes) :
    (window start tail).length = min tail.length (128 - start.length) := by
  unfold window
  rw [List.length_take]
  simp only [maxDiscardedControlTailBytes]
  omega

theorem window_isPrefix (start tail : Bytes) : window start tail <+: tail := List.take_prefix _ _

/-- The first bytes of the window are the first new bytes. -/
theorem take_window (h : n ≤ (window start tail).length) :
    (window start tail).take n = tail.take n := by
  have hwindow := List.prefix_iff_eq_take.mp (window_isPrefix start tail)
  rw [hwindow, List.take_take, Nat.min_eq_left h]

/-- A continuation is complete at the first byte that is no digit and no semicolon, if a report
ends there. -/
theorem classify_eq_complete : classifySgrMouseContinuation start tail = .complete n ↔
      ∃ index, (window start tail).findIdx? (fun byte => !isReportByte byte) = some index
        ∧ n = index + 1
        ∧ plausibleSgrMouseStart (start ++ tail.take index) = true
        ∧ ((fromUtf8 (start ++ tail.take (index + 1))).bind parseSgrMouse).isSome = true := by
  have htest : (fun byte => !isAsciiDigit byte && decide (byte ≠ 0x3b))
      = fun byte => !isReportByte byte := by
    funext byte
    simp [isReportByte]
  have hwindow : tail.take (min tail.length (maxDiscardedControlTailBytes - start.length))
      = window start tail := rfl
  unfold classifySgrMouseContinuation
  dsimp only
  rw [htest, hwindow]
  cases hindex : (window start tail).findIdx? fun byte => !isReportByte byte with
  | none =>
    dsimp only
    constructor
    · intro h
      split at h
      · cases h
      · split at h
        · cases h
        · cases h
    · rintro ⟨index, hsome, -⟩
      cases hsome
  | some index =>
    have hlt : index < (window start tail).length :=
      (List.findIdx?_eq_some_iff_getElem.mp hindex).1
    have hreport : start ++ (window start tail).take index
        ++ ((window start tail).drop index).take 1 = start ++ tail.take (index + 1) := by
      rw [List.append_assoc, ← List.take_add, take_window hlt]
    simp only [Option.getD_some, hreport]
    rw [take_window (Nat.le_of_lt hlt)]
    constructor
    · intro h
      split at h
      · cases h
      next hlikely =>
        split at h
        next hvalid =>
          cases h
          exact ⟨index, rfl, rfl, by simpa using hlikely, hvalid⟩
        next => cases h
    · rintro ⟨found, hfound, rfl, hlikely, hvalid⟩
      obtain rfl := Option.some.inj hfound
      rw [if_neg (by simp [hlikely]), if_pos hvalid]

/-- A report that ends with the new byte at `k` has its payload before it. -/
theorem payload_of_report {k : Nat} (hk : k < tail.length)
    (h : Report (introducer ++ body ++ tail.take (k + 1)) event cb x y final) :
    body ++ tail.take k = payload cb x y ∧ tail[k] = final := by
  have hsequence := h.sequence_eq
  rw [List.append_assoc, List.append_assoc, List.take_succ_eq_append_getElem hk,
    ← List.append_assoc body] at hsequence
  have hbytes := List.append_inj' (List.append_cancel_left hsequence) rfl
  exact ⟨hbytes.1, List.cons.inj hbytes.2 |>.1⟩

/-- For a start that is kept, a continuation is complete with `n` exactly when the start and the
first `n` of the new bytes are a report with coordinates in a machine word and within the bound. -/
theorem classify_complete_iff (hlength : start.length < 128)
    (hstart : plausibleSgrMouseStart start = true) (n : Nat) :
    classifySgrMouseContinuation start tail = .complete n
      ↔ n ≤ tail.length ∧ start.length + n ≤ 128 ∧ ∃ event,
        parseSgrMouse (start ++ tail.take n) = some event
          ∧ event.column < 65535 ∧ event.row < 65535 := by
  obtain ⟨body, rfl, hbody⟩ := bytes_of_plausible hstart
  have hwindow := length_window (introducer ++ body) tail
  rw [classify_eq_complete]
  constructor
  · rintro ⟨index, hindex, rfl, hlikely, hvalid⟩
    obtain ⟨hlt, -, -⟩ := List.findIdx?_eq_some_iff_getElem.mp hindex
    obtain ⟨event, hevent⟩ := Option.isSome_iff_exists.mp hvalid
    obtain ⟨text, htext, hparse⟩ := Option.bind_eq_some_iff.mp hevent
    obtain rfl := fromUtf8_eq_some htext
    obtain ⟨cb, x, y, final, hreport⟩ := parseSgrMouse_eq_some hparse
    obtain ⟨hpayload, -⟩ := payload_of_report (by omega) hreport
    rw [List.append_assoc, hpayload] at hlikely
    have hcoordinates := coordinates_of_plausible hreport.cb_number hreport.x_number
      hreport.y_number hlikely
    have hcolumn := hreport.column
    have hrow := hreport.row
    exact ⟨by omega, by omega, event, hparse, by omega, by omega⟩
  · rintro ⟨hn, hbound, event, hparse, hcolumn, hrow⟩
    obtain ⟨cb, x, y, final, hreport⟩ := parseSgrMouse_eq_some hparse
    have hfinal := final_not_reportByte hreport.final_eq
    cases n with
    | zero =>
      -- The start has no final byte.
      have hsequence := hreport.sequence_eq
      rw [List.take_zero, List.append_nil, List.append_assoc] at hsequence
      have hmem : final ∈ body := by
        rw [List.append_cancel_left hsequence]
        simp
      rw [List.all_eq_true.mp hbody final hmem] at hfinal
      cases hfinal
    | succ k =>
      obtain ⟨hpayload, hbyte⟩ := payload_of_report (by omega) hreport
      have hall := payload_all hreport.cb_number hreport.x_number hreport.y_number
      refine ⟨k, ?_, rfl, ?_, ?_⟩
      · have hget : ∀ {j : Nat} (hj : j < (window (introducer ++ body) tail).length),
            (window (introducer ++ body) tail)[j] = tail[j] :=
          fun hj => List.getElem_take
        refine List.findIdx?_eq_some_iff_getElem.mpr ⟨by omega, ?_, fun j hj => ?_⟩
        · rw [hget, hbyte, hfinal]
          rfl
        · have hmem : tail[j] ∈ body ++ tail.take k :=
            List.mem_append_right _ (List.mem_take_iff_getElem.mpr ⟨j, by omega, rfl⟩)
          rw [hpayload] at hmem
          rw [hget, List.all_eq_true.mp hall _ hmem]
          decide
      · rw [List.append_assoc, hpayload]
        exact plausible_of_report hreport hcolumn hrow (List.prefix_refl _)
      · rw [fromUtf8_of_report hreport, Option.bind_some, hparse]
        rfl

/-! ### Invalid continuations -/

/-- An invalid continuation is read as if nothing had timed out. -/
theorem drainTurn_of_invalid (hstart : framer.timedOutMousePrefix = some start)
    (hinvalid : classifySgrMouseContinuation start framer.buffer = .invalid) :
    framer.drainTurn keys now
      = { framer with timedOutMousePrefix := none }.drainTurn keys now := by
  unfold RawInputByteFramer.drainTurn
  rw [hstart]
  dsimp only
  rw [hinvalid]

theorem recover_of_invalid (hstart : framer.timedOutMousePrefix = some start)
    (hinvalid : classifySgrMouseContinuation start framer.buffer = .invalid) :
    framer.recover = { framer with timedOutMousePrefix := none }.recover := by
  unfold RawInputByteFramer.recover RawInputByteFramer.afterTimedOutMouse
  rw [hstart]
  dsimp only
  rw [hinvalid]

/-- The loop goes on with all new bytes. -/
theorem drainAvailableChunks_of_invalid (hstart : framer.timedOutMousePrefix = some start)
    (hinvalid : classifySgrMouseContinuation start framer.buffer = .invalid) :
    framer.drainAvailableChunks keys now
      = { framer with timedOutMousePrefix := none }.drainAvailableChunks keys now := by
  unfold RawInputByteFramer.drainAvailableChunks
  dsimp only
  rw [RawInputByteFramer.drainLoop, drainTurn_of_invalid hstart hinvalid,
    RawInputByteFramer.drainLoop]

/-- The loop of the Windows build goes on with all new bytes. -/
theorem windows_drainAvailableChunks_of_invalid {framer : WindowsFramer}
    (hstart : framer.framer.timedOutMousePrefix = some start)
    (hinvalid : classifySgrMouseContinuation start framer.framer.buffer = .invalid) :
    framer.drainAvailableChunks keys now
      = { framer with framer := { framer.framer with timedOutMousePrefix := none }
        }.drainAvailableChunks keys now := by
  unfold WindowsFramer.drainAvailableChunks
  dsimp only
  rw [WindowsFramer.drainLoop, WindowsFramer.drainLoop]
  unfold WindowsFramer.drainTurn
  rw [recover_of_invalid hstart hinvalid]
  rfl

/-! ### The recovery -/

/-- What is not plausible begins no report with coordinates in a machine word, once the introducer
is whole and the report is not. A kept start is completed by exactly the bytes that make it such a
report within the bound. An invalid continuation is read in full, as if nothing had been kept. -/
theorem mouse_continuation_exact (keys : KeyParser) (now : Nat) :
    (∀ (start rest : Bytes) (event : MouseEvent), plausibleSgrMouseStart start = false →
        parseSgrMouse (start ++ rest) = some event →
        start <+: [esc, 0x5b] ∨ rest = [] ∨ 65535 ≤ event.column ∨ 65535 ≤ event.row)
      ∧ (∀ (framer : RawInputByteFramer) (pending start tail : Bytes) (n : Nat),
        (framer.retainTimedOutMousePrefix pending).timedOutMousePrefix = some start →
        (classifySgrMouseContinuation start tail = .complete n
          ↔ n ≤ tail.length ∧ start.length + n ≤ 128 ∧ ∃ event,
            parseSgrMouse (start ++ tail.take n) = some event
              ∧ event.column < 65535 ∧ event.row < 65535))
      ∧ (∀ (framer : RawInputByteFramer) (start : Bytes),
        framer.timedOutMousePrefix = some start →
        classifySgrMouseContinuation start framer.buffer = .invalid →
        framer.drainAvailableChunks keys now
          = { framer with timedOutMousePrefix := none }.drainAvailableChunks keys now)
      ∧ (∀ (framer : WindowsFramer) (start : Bytes),
        framer.framer.timedOutMousePrefix = some start →
        classifySgrMouseContinuation start framer.framer.buffer = .invalid →
        framer.drainAvailableChunks keys now
          = { framer with framer := { framer.framer with timedOutMousePrefix := none }
            }.drainAvailableChunks keys now) := by
  refine ⟨?_, ?_, ?_, ?_⟩
  · intro start rest event hunlikely hparse
    exact not_report_of_implausible hunlikely hparse
  · intro framer pending start tail n hkept
    unfold RawInputByteFramer.retainTimedOutMousePrefix at hkept
    dsimp only at hkept
    split at hkept
    next hlikely =>
      obtain rfl := Option.some.inj hkept
      rw [Bool.and_eq_true, decide_eq_true_eq] at hlikely
      exact classify_complete_iff hlikely.1 hlikely.2 n
    next => cases hkept
  · intro framer start hstart hinvalid
    exact drainAvailableChunks_of_invalid hstart hinvalid
  · intro framer start hstart hinvalid
    exact windows_drainAvailableChunks_of_invalid hstart hinvalid

/-- `ESC [ < 3 5 ;`. -/
def motionStart : Bytes := introducer ++ [0x33, 0x35, 0x3b]

/-- A framer that waits for the rest of `motionStart` and reads an `x`. -/
def awaitingMotion : RawInputByteFramer :=
  { RawInputByteFramer.withHostInputPolicy true with
    buffer := [0x78], timedOutMousePrefix := some motionStart }

theorem mouse_continuation_exact_motion :
    (introducer ++ [0x30, 0x3b, 0x36, 0x35, 0x35, 0x33, 0x36] <+: [esc, 0x5b]
        ∨ ([0x3b, 0x31, 0x4d] : Bytes) = [] ∨ 65535 ≤ 65535 ∨ 65535 ≤ 0)
      ∧ classifySgrMouseContinuation motionStart [0x32, 0x3b, 0x33, 0x4d, 0x78] = .complete 4
      ∧ awaitingMotion.drainAvailableChunks bellKeys 0
        = { awaitingMotion with timedOutMousePrefix := none }.drainAvailableChunks bellKeys 0 := by
  obtain ⟨hnarrow, hexact, hinvalid, -⟩ := mouse_continuation_exact bellKeys 0
  refine ⟨?_, ?_, ?_⟩
  · exact hnarrow _ _ ⟨.down .left, 65535, 0, ⟨0⟩⟩ (by decide +kernel) (by decide +kernel)
  · have hkept : (awaitingMotion.retainTimedOutMousePrefix motionStart).timedOutMousePrefix
        = some motionStart := by decide +kernel
    exact (hexact _ _ _ _ 4 hkept).mpr ⟨by decide, by decide, ⟨.moved, 1, 2, ⟨0⟩⟩,
      by decide +kernel, by decide, by decide⟩
  · exact hinvalid awaitingMotion motionStart rfl (by decide +kernel)

/-- A report is not plausible itself, nor is a cut introducer; `65536` is not plausible, though the
parser takes it; and a report may be too long to be recognised. -/
theorem plausible_start_is_narrower :
    (plausibleSgrMouseStart [] = false
        ∧ (parseSgrMouse ([] ++ introducer ++ [0x30, 0x3b, 0x31, 0x3b, 0x31, 0x4d])).isSome = true)
      ∧ (plausibleSgrMouseStart (introducer ++ [0x30, 0x3b, 0x31, 0x3b, 0x31, 0x4d]) = false
        ∧ (parseSgrMouse (introducer ++ [0x30, 0x3b, 0x31, 0x3b, 0x31, 0x4d])).isSome = true)
      ∧ (plausibleSgrMouseStart (introducer ++ [0x30, 0x3b, 0x36, 0x35, 0x35, 0x33, 0x36]) = false
        ∧ (parseSgrMouse (introducer ++ [0x30, 0x3b, 0x36, 0x35, 0x35, 0x33, 0x36]
          ++ [0x3b, 0x31, 0x4d])).isSome = true)
      ∧ (classifySgrMouseContinuation motionStart
            ([0x31, 0x3b] ++ List.replicate 121 0x30 ++ [0x31, 0x4d]) = .invalid
        ∧ (parseSgrMouse (motionStart
          ++ ([0x31, 0x3b] ++ List.replicate 121 0x30 ++ [0x31, 0x4d]))).isSome = true) := by
  decide +kernel

end Herden.Proofs.RawInput.Mouse
