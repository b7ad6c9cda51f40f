import Herden.Lib.Text
import Mathlib.Algebra.GroupWithZero.Nat

/-!
# `Herden.Lib.Str`: slices of a text at byte offsets

A slice is a part of a text together with the byte at which it begins. Slicing at a byte inside a
character, behind the end or before its own start is a panic, `none` here (`Str.slice?`). `lines`
are the lines without their ends, each at its offset. A block of whole lines begins where its first
line does and ends where the line behind its last one begins (`Str.block`), and it is the slice
between these two offsets and no others (`slice?_eq_block_iff`).

Counting one byte for each line end gives the offset of a line if no line before it ends in two
bytes (`countedOffset_eq_iff`).
-/

namespace Herden.Lib

/-- The length in UTF-8. -/
def byteLen (text : Text) : Nat := (text.map Char.utf8Size).sum

@[simp] theorem byteLen_nil : byteLen [] = 0 := rfl

@[simp] theorem byteLen_cons (c : Char) (text : Text) :
    byteLen (c :: text) = c.utf8Size + byteLen text := by
  simp [byteLen]

@[simp] theorem byteLen_append (a b : Text) : byteLen (a ++ b) = byteLen a + byteLen b := by
  simp [byteLen]

variable {text line : Text} {index : Nat}

theorem byteLen_eq_zero (h : byteLen text = 0) : text = [] := by
  cases text with
  | nil => rfl
  | cons c rest =>
    have hpos := c.utf8Size_pos
    rw [byteLen_cons] at h
    omega

/-- The text before a byte and from it on. -/
def splitAtByte : Text → Nat → Option (Text × Text)
  | text, 0 => some ([], text)
  | [], _ + 1 => none
  | c :: rest, n + 1 =>
      if c.utf8Size ≤ n + 1 then
        (splitAtByte rest (n + 1 - c.utf8Size)).map fun (before, after) => (c :: before, after)
      else none

/-- A text is split at the end of its front. -/
theorem splitAtByte_append (before after : Text) :
    splitAtByte (before ++ after) (byteLen before) = some (before, after) := by
  induction before with
  | nil =>
    cases after <;> rfl
  | cons c before ih =>
    have hpos := c.utf8Size_pos
    obtain ⟨n, hn⟩ : ∃ n, byteLen (c :: before) = n + 1 :=
      ⟨byteLen (c :: before) - 1, by rw [byteLen_cons]; omega⟩
    have hrest : n + 1 - c.utf8Size = byteLen before := by
      rw [← hn, byteLen_cons]
      omega
    rw [hn, List.cons_append, splitAtByte, if_pos, hrest, ih]
    · rfl
    · rw [← hn, byteLen_cons]
      omega

theorem splitAtByte_spec {before after : Text} {n : Nat}
    (h : splitAtByte text n = some (before, after)) :
    text = before ++ after ∧ byteLen before = n := by
  induction text generalizing n before with
  | nil =>
    cases n with
    | zero =>
      cases h
      exact ⟨rfl, rfl⟩
    | succ n => cases h
  | cons c rest ih =>
    cases n with
    | zero =>
      cases h
      exact ⟨rfl, rfl⟩
    | succ n =>
      rw [splitAtByte] at h
      split at h
      next hle =>
        obtain ⟨⟨front, back⟩, hrest, hpair⟩ := Option.map_eq_some_iff.mp h
        cases hpair
        obtain ⟨rfl, hlen⟩ := ih hrest
        refine ⟨rfl, ?_⟩
        rw [byteLen_cons, hlen]
        omega
      next => cases h

/-! ### Lines -/

/-- The lines with their ends. -/
def rawLines : Text → List Text
  | [] => []
  | c :: rest =>
      if c = '\n' then ['\n'] :: rawLines rest
      else
        match rawLines rest with
        | [] => [[c]]
        | line :: more => (c :: line) :: more

/-- The line ends in a line feed. -/
def isEnded (raw : Text) : Bool := raw.getLast? = some '\n'

/-- The line ends in a carriage return and a line feed. -/
def isCrlf (raw : Text) : Bool := isEnded raw && raw.dropLast.getLast? = some '\r'

/-- The line without its end. -/
def lineText (raw : Text) : Text := if isEnded raw then Text.stripReturn raw.dropLast else raw

theorem rawLines_ended (h : '\n' ∉ line) (rest : Text) :
    rawLines (line ++ '\n' :: rest) = (line ++ ['\n']) :: rawLines rest := by
  induction line with
  | nil => rfl
  | cons c line ih =>
    have hc : c ≠ '\n' := fun heq => h (heq ▸ List.mem_cons_self)
    rw [List.cons_append, rawLines, if_neg hc, ih fun hmem => h (List.mem_cons_of_mem _ hmem)]
    rfl

theorem rawLines_open (h : '\n' ∉ line) (hne : line ≠ []) : rawLines line = [line] := by
  induction line with
  | nil => exact absurd rfl hne
  | cons c line ih =>
    have hc : c ≠ '\n' := fun heq => h (heq ▸ List.mem_cons_self)
    rw [rawLines, if_neg hc]
    cases line with
    | nil => rfl
    | cons d line =>
      rw [ih (fun hmem => h (List.mem_cons_of_mem _ hmem)) (List.cons_ne_nil _ _)]

/-- A text is empty, a line without an end, or a line with its end and a text. -/
theorem rawLines_induct {P : Text → List Text → Prop} (empty : P [] [])
    (opened : ∀ line, '\n' ∉ line → line ≠ [] → P line [line])
    (ended : ∀ line rest, '\n' ∉ line → P rest (rawLines rest) →
      P (line ++ '\n' :: rest) ((line ++ ['\n']) :: rawLines rest))
    (text : Text) : P text (rawLines text) := by
  induction hsize : text.length using Nat.strongRecOn generalizing text with
  | ind size ih =>
    by_cases hmem : '\n' ∈ text
    · obtain ⟨line, rest, rfl, hline⟩ := List.eq_append_cons_of_mem hmem
      rw [rawLines_ended hline]
      refine ended line rest hline (ih rest.length ?_ rest rfl)
      rw [← hsize, List.length_append, List.length_cons]
      omega
    · cases text with
      | nil => exact empty
      | cons c rest =>
        rw [rawLines_open hmem (List.cons_ne_nil _ _)]
        exact opened _ hmem (List.cons_ne_nil _ _)

theorem flatten_rawLines (text : Text) : (rawLines text).flatten = text := by
  refine rawLines_induct (P := fun text raws => raws.flatten = text) rfl ?_ ?_ text
  · intro line _ _
    exact List.append_nil line
  · intro line rest _ ih
    rw [List.flatten_cons, ih, List.append_assoc]
    rfl

/-- Lines with an end, and a line without one at most at the end of the text. -/
theorem rawLines_spec (text : Text) :
    ∃ lines : List Text, ∃ last : Option Text,
      rawLines text = lines.map (· ++ ['\n']) ++ last.toList
      ∧ (∀ line ∈ lines, '\n' ∉ line) ∧ ∀ line ∈ last, '\n' ∉ line ∧ line ≠ [] := by
  refine rawLines_induct (P := fun _ raws => ∃ lines : List Text, ∃ last : Option Text,
    raws = lines.map (· ++ ['\n']) ++ last.toList
      ∧ (∀ line ∈ lines, '\n' ∉ line) ∧ ∀ line ∈ last, '\n' ∉ line ∧ line ≠ []) ?_ ?_ ?_ text
  · exact ⟨[], none, rfl, by simp, by simp⟩
  · intro line hline hne
    exact ⟨[], some line, rfl, by simp, by simp [hline, hne]⟩
  · rintro line rest hline ⟨lines, last, hrest, hlines, hlast⟩
    refine ⟨line :: lines, last, by rw [hrest]; rfl, ?_, hlast⟩
    intro other hother
    rcases List.mem_cons.mp hother with rfl | hmem
    · exact hline
    · exact hlines other hmem

/-- Lines with an end stay as they are in front of another text. -/
theorem rawLines_append {lines : List Text} (h : ∀ line ∈ lines, '\n' ∉ line) (rest : Text) :
    rawLines ((lines.map (· ++ ['\n'])).flatten ++ rest)
      = lines.map (· ++ ['\n']) ++ rawLines rest := by
  induction lines with
  | nil => rfl
  | cons line lines ih =>
    rw [List.map_cons, List.flatten_cons, List.append_assoc, List.append_assoc,
      List.singleton_append, rawLines_ended (h line List.mem_cons_self),
      ih fun other hother => h other (List.mem_cons_of_mem _ hother)]
    rfl

theorem lineText_ended (line : Text) : lineText (line ++ ['\n']) = Text.stripReturn line := by
  unfold lineText isEnded
  rw [List.getLast?_concat, decide_eq_true rfl, if_pos rfl, List.dropLast_concat]

theorem lineText_open (h : '\n' ∉ line) : lineText line = line := by
  unfold lineText isEnded
  rw [if_neg]
  rw [decide_eq_true_eq]
  exact fun hlast => h (List.mem_of_getLast? hlast)

/-! ### Offsets -/

/-- Counting one byte for the end of a line leaves out one of two bytes and adds one where there is
none. -/
theorem counted_line (raw : Text) :
    byteLen (lineText raw) + 1 + (if isCrlf raw then 1 else 0)
      = byteLen raw + (if isEnded raw then 0 else 1) := by
  unfold lineText isCrlf
  cases hended : isEnded raw with
  | false => rfl
  | true =>
    obtain ⟨line, rfl⟩ := List.getLast?_eq_some_iff.mp (of_decide_eq_true hended)
    rw [if_pos rfl, if_pos rfl, List.dropLast_concat, Bool.true_and, byteLen_append,
      Text.stripReturn]
    have hfeed : byteLen ['\n'] = 1 := rfl
    by_cases hreturn : line.getLast? = some '\r'
    · obtain ⟨front, rfl⟩ := List.getLast?_eq_some_iff.mp hreturn
      have hone : byteLen ['\r'] = 1 := rfl
      rw [if_pos hreturn, decide_eq_true hreturn, if_pos rfl, List.dropLast_concat, byteLen_append]
      omega
    · rw [if_neg hreturn, decide_eq_false hreturn, if_neg Bool.false_ne_true]
      omega

theorem counted_lines (raws : List Text) :
    ((raws.map lineText).map (byteLen · + 1)).sum + raws.countP isCrlf
      = byteLen raws.flatten + raws.countP (!isEnded ·) := by
  induction raws with
  | nil => rfl
  | cons raw raws ih =>
    have hline := counted_line raw
    have hopen : (if (!isEnded raw) = true then 1 else 0) = if isEnded raw then 0 else 1 := by
      cases isEnded raw <;> rfl
    rw [List.map_cons, List.map_cons, List.sum_cons, List.flatten_cons, byteLen_append,
      List.countP_cons, List.countP_cons, hopen]
    omega

/-- Where the line of an index begins. -/
def lineStart (text : Text) (index : Nat) : Nat := byteLen ((rawLines text).take index).flatten

/-- No more lines before the index end in two bytes than end without a line feed. -/
def Straight (text : Text) (index : Nat) : Prop :=
  ((rawLines text).take index).countP isCrlf ≤ ((rawLines text).take index).countP (!isEnded ·)

instance (text : Text) (index : Nat) : Decidable (Straight text index) :=
  inferInstanceAs (Decidable (_ ≤ _))

theorem lineStart_mono {i j : Nat} (h : i ≤ j) : lineStart text i ≤ lineStart text j := by
  unfold lineStart
  obtain ⟨k, rfl⟩ := Nat.exists_eq_add_of_le h
  rw [List.take_add, List.flatten_append, byteLen_append]
  omega

theorem lineStart_of_length_le (h : (rawLines text).length ≤ index) :
    lineStart text index = byteLen text := by
  rw [lineStart, List.take_of_length_le h, flatten_rawLines]

theorem lineStart_le (text : Text) (index : Nat) : lineStart text index ≤ byteLen text := by
  by_cases h : (rawLines text).length ≤ index
  · exact Nat.le_of_eq (lineStart_of_length_le h)
  · have hmono : lineStart text index ≤ lineStart text (rawLines text).length :=
      lineStart_mono (Nat.le_of_not_le h)
    rwa [lineStart_of_length_le (Nat.le_refl _)] at hmono

theorem lineStart_succ {raw : Text} (h : (rawLines text)[index]? = some raw) :
    lineStart text (index + 1) = lineStart text index + byteLen raw := by
  unfold lineStart
  rw [List.take_add_one, h, List.flatten_append, byteLen_append]
  simp

/-- A line without an end is the last one. -/
theorem countP_open (text : Text) (index : Nat) :
    ((rawLines text).take index).countP (!isEnded ·) = 0
      ∨ ((rawLines text).take index).countP (!isEnded ·) = 1
        ∧ (rawLines text).length ≤ index := by
  obtain ⟨lines, last, hraws, hlines, hlast⟩ := rawLines_spec text
  have hended : (lines.map (· ++ ['\n'])).countP (!isEnded ·) = 0 := by
    rw [List.countP_eq_zero]
    intro raw hraw
    obtain ⟨line, -, rfl⟩ := List.mem_map.mp hraw
    simp [isEnded]
  by_cases hindex : (rawLines text).length ≤ index
  · rw [List.take_of_length_le hindex, hraws, List.countP_append, hended, Nat.zero_add]
    cases last with
    | none => exact Or.inl rfl
    | some last =>
      obtain ⟨hfeed, -⟩ := hlast last rfl
      have hopen : isEnded last = false :=
        decide_eq_false fun hend => hfeed (List.mem_of_getLast? hend)
      refine Or.inr ⟨?_, hraws ▸ hindex⟩
      simp [hopen]
  · left
    have htake : (rawLines text).take index = (lines.map (· ++ ['\n'])).take index := by
      rw [hraws] at hindex ⊢
      rw [List.length_append] at hindex
      have hshort : last.toList.length ≤ 1 := by cases last <;> simp
      exact List.take_append_of_le_length (by omega)
    rw [htake]
    exact Nat.le_zero.mp (hended ▸ (List.take_sublist _ _).countP_le)

/-- Counting one byte for each line end finds where a line begins exactly when it is straight. -/
theorem counted_eq_lineStart_iff (text : Text) (index : Nat) :
    min ((((rawLines text).map lineText).take index).map (byteLen · + 1)).sum (byteLen text)
        = lineStart text index
      ↔ Straight text index := by
  have hcounted := counted_lines ((rawLines text).take index)
  rw [List.map_take] at hcounted
  have hle := lineStart_le text index
  unfold Straight
  unfold lineStart at hle ⊢
  rcases countP_open text index with hzero | ⟨hone, hlast⟩
  · omega
  · have hall := lineStart_of_length_le hlast
    unfold lineStart at hall
    omega

/-- Before a line that is there, a byte is missing for each line end of two. -/
theorem counted_of_lt (h : index < (rawLines text).length) :
    min ((((rawLines text).map lineText).take index).map (byteLen · + 1)).sum (byteLen text)
      = lineStart text index - ((rawLines text).take index).countP isCrlf := by
  have hcounted := counted_lines ((rawLines text).take index)
  rw [List.map_take] at hcounted
  have hle := lineStart_le text index
  unfold lineStart at hle ⊢
  rcases countP_open text index with hzero | ⟨-, hlast⟩
  · omega
  · exact absurd h (Nat.not_lt.mpr hlast)

/-- The front of lines with their ends is some of these lines and a part of the next one. -/
theorem prefix_of_lines {lines : List Text} {front : Text}
    (h : front <+: (lines.map (· ++ ['\n'])).flatten) :
    ∃ count rest, count ≤ lines.length
      ∧ front = ((lines.take count).map (· ++ ['\n'])).flatten ++ rest
      ∧ (rest = [] ∨ ∃ line, lines[count]? = some line ∧ rest <+: line) := by
  induction lines generalizing front with
  | nil => exact ⟨0, [], Nat.le_refl _, List.prefix_nil.mp h, Or.inl rfl⟩
  | cons line lines ih =>
    rw [List.map_cons, List.flatten_cons] at h
    by_cases hshort : front.length ≤ line.length
    · have hline : front <+: line := by
        refine List.prefix_of_prefix_length_le h ?_ hshort
        rw [List.append_assoc]
        exact List.prefix_append _ _
      exact ⟨0, front, Nat.zero_le _, rfl, Or.inr ⟨line, rfl, hline⟩⟩
    · have hlong : line ++ ['\n'] <+: front := by
        refine List.prefix_of_prefix_length_le (List.prefix_append _ _) h ?_
        rw [List.length_append, List.length_singleton]
        omega
      obtain ⟨more, rfl⟩ := hlong
      obtain ⟨count, rest, hcount, rfl, hrest⟩ := ih ((List.prefix_append_right_inj _).mp h)
      refine ⟨count + 1, rest, Nat.succ_le_succ hcount, ?_, hrest⟩
      rw [List.take_succ_cons, List.map_cons, List.flatten_cons, List.append_assoc,
        List.append_assoc]
      simp

/-! ### Slices -/

/-- A part of a text that begins at a byte. -/
structure Str where
  offset : Nat
  text : Text
deriving DecidableEq

namespace Str

/-- `&self[start..stop]`. -/
def slice? (self : Str) (start stop : Nat) : Option Str := do
  let (front, _) ← splitAtByte self.text stop
  let (_, text) ← splitAtByte front start
  return ⟨self.offset + start, text⟩

/-- Lines that begin at an offset. -/
def linesFrom : Nat → List Text → List Str
  | _, [] => []
  | offset, raw :: raws => ⟨offset, lineText raw⟩ :: linesFrom (offset + byteLen raw) raws

/-- `self.lines()`. -/
def lines (self : Str) : List Str := linesFrom self.offset (rawLines self.text)

/-- The lines from one index on and before another. -/
def block (self : Str) (start stop : Nat) : Str :=
  ⟨self.offset + lineStart self.text start,
    (((rawLines self.text).take stop).drop start).flatten⟩

variable {start stop : Nat}

theorem slice?_eq_some_iff {self slice : Str} : self.slice? start stop = some slice
      ↔ ∃ before after, self.text = before ++ (slice.text ++ after) ∧ byteLen before = start
        ∧ start + byteLen slice.text = stop ∧ slice.offset = self.offset + start := by
  unfold slice?
  simp only [Option.bind_eq_bind, Option.bind_eq_some_iff, Option.pure_def, Option.some_inj]
  constructor
  · rintro ⟨⟨front, after⟩, hstop, ⟨before, text⟩, hstart, rfl⟩
    obtain ⟨htext, rfl⟩ := splitAtByte_spec hstop
    obtain ⟨rfl, rfl⟩ := splitAtByte_spec hstart
    exact ⟨before, after, by rw [htext, List.append_assoc], rfl, (byteLen_append _ _).symm, rfl⟩
  · rintro ⟨before, after, htext, rfl, rfl, hoffset⟩
    refine ⟨(before ++ slice.text, after), ?_, (before, slice.text), ?_, ?_⟩
    · rw [htext, ← List.append_assoc, ← byteLen_append]
      exact splitAtByte_append _ _
    · exact splitAtByte_append _ _
    · rw [← hoffset]

theorem block_split (self : Str) (h : start ≤ stop) :
    self.text = ((rawLines self.text).take start).flatten
      ++ ((self.block start stop).text ++ ((rawLines self.text).drop stop).flatten) := by
  conv_lhs => rw [← flatten_rawLines self.text, ← List.take_append_drop stop (rawLines self.text)]
  have htake : ((rawLines self.text).take stop).take start = (rawLines self.text).take start := by
    rw [List.take_take, Nat.min_eq_left h]
  rw [List.flatten_append, ← List.append_assoc, block]
  conv_lhs => rw [← List.take_append_drop start ((rawLines self.text).take stop), htake]
  rw [List.flatten_append]

theorem byteLen_block (self : Str) (h : start ≤ stop) :
    lineStart self.text start + byteLen (self.block start stop).text
      = lineStart self.text stop := by
  have htake : ((rawLines self.text).take stop).take start = (rawLines self.text).take start := by
    rw [List.take_take, Nat.min_eq_left h]
  unfold lineStart block
  rw [← htake, ← byteLen_append, ← List.flatten_append, List.take_append_drop]

/-- A slice is a block exactly when it lies between the starts of two lines. -/
theorem slice?_eq_block_iff (self : Str) {a b : Nat} (h : start ≤ stop) :
    self.slice? a b = some (self.block start stop)
      ↔ a = lineStart self.text start ∧ b = lineStart self.text stop := by
  have hlen := self.byteLen_block h
  rw [slice?_eq_some_iff]
  constructor
  · rintro ⟨before, after, -, -, hstop, hoffset⟩
    have hstart : a = lineStart self.text start := (Nat.add_left_cancel hoffset).symm
    refine ⟨hstart, ?_⟩
    rw [← hstop, hstart, hlen]
  · rintro ⟨rfl, rfl⟩
    exact ⟨_, _, self.block_split h, rfl, hlen, rfl⟩

theorem map_text_linesFrom (offset : Nat) (raws : List Text) :
    (linesFrom offset raws).map (·.text) = raws.map lineText := by
  induction raws generalizing offset with
  | nil => rfl
  | cons raw raws ih => rw [linesFrom, List.map_cons, ih, List.map_cons]

theorem length_lines (self : Str) : self.lines.length = (rawLines self.text).length := by
  have hlength := congrArg List.length (map_text_linesFrom self.offset (rawLines self.text))
  rwa [List.length_map, List.length_map] at hlength

theorem slice?_zero (self : Str) (stop : Nat) :
    self.slice? 0 stop
      = (splitAtByte self.text stop).map fun (front, _) => ⟨self.offset, front⟩ := by
  unfold slice?
  cases splitAtByte self.text stop with
  | none => rfl
  | some parts =>
    obtain ⟨front, rest⟩ := parts
    cases front <;> rfl

theorem linesFrom_append (offset : Nat) (raws more : List Text) :
    linesFrom offset (raws ++ more)
      = linesFrom offset raws ++ linesFrom (offset + byteLen raws.flatten) more := by
  induction raws generalizing offset with
  | nil => rfl
  | cons raw raws ih =>
    rw [List.cons_append, linesFrom, ih, linesFrom, List.cons_append, List.flatten_cons,
      byteLen_append, Nat.add_assoc]

theorem linesFrom_take (offset count : Nat) (raws : List Text) :
    linesFrom offset (raws.take count) = (linesFrom offset raws).take count := by
  induction raws generalizing offset count with
  | nil => simp [linesFrom]
  | cons raw raws ih =>
    cases count with
    | zero => rfl
    | succ count => rw [List.take_succ_cons, linesFrom, ih, linesFrom, List.take_succ_cons]

/-- Where the lines are. -/
theorem getElem?_lines (self : Str) (index : Nat) :
    self.lines[index]? = ((rawLines self.text)[index]?).map fun raw =>
      ⟨self.offset + lineStart self.text index, lineText raw⟩ := by
  unfold lines lineStart
  generalize self.offset = offset
  generalize rawLines self.text = raws
  induction raws generalizing offset index with
  | nil => rfl
  | cons raw raws ih =>
    cases index with
    | zero => rfl
    | succ index =>
      rw [linesFrom, List.getElem?_cons_succ, ih, List.getElem?_cons_succ, List.take_succ_cons,
        List.flatten_cons, byteLen_append, Nat.add_assoc]

end Str

end Herden.Lib
