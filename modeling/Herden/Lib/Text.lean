import Mathlib.Data.List.DropRight
import Mathlib.Data.String.Basic
import Mathlib.Tactic.Common

/-!
# `Herden.Lib.Text`: text as a list of characters

A text is a list of Unicode scalar values. White space is the property `White_Space` of Unicode:
`trim` removes it at both ends and `splitWhitespace` gives the words between it. `lines` are the
pieces before line feeds, without a carriage return in front of one, and `unlines` writes each
line with a line feed. Writing lines and reading them again removes one carriage return at the
end of a line (`lines_unlines`) and changes nothing else. `utf8` is the encoding of a text as
bytes, which `fromUtf8` reads back.
-/

namespace Herden.Lib

abbrev Text := List Char

namespace Text

/-- The property `White_Space`. -/
def isWhitespace (c : Char) : Bool :=
  (9 ≤ c.toNat && c.toNat ≤ 13) || c.toNat = 0x20 || c.toNat = 0x85 || c.toNat = 0xa0 ||
    c.toNat = 0x1680 || (0x2000 ≤ c.toNat && c.toNat ≤ 0x200a) || c.toNat = 0x2028 ||
    c.toNat = 0x2029 || c.toNat = 0x202f || c.toNat = 0x205f || c.toNat = 0x3000

def trim (text : Text) : Text := (text.dropWhile isWhitespace).rdropWhile isWhitespace

/-- The characters after a prefix, if it is there. -/
def afterPrefix (start text : Text) : Option Text :=
  if start.isPrefixOf text then some (text.drop start.length) else none

theorem afterPrefix_append (start rest : Text) : afterPrefix start (start ++ rest) = some rest := by
  rw [afterPrefix, if_pos (List.isPrefixOf_iff_prefix.mpr (List.prefix_append start rest)),
    List.drop_left]

/-- The characters before a suffix, if it is there. -/
def beforeSuffix (stop text : Text) : Option Text :=
  if stop.isSuffixOf text then some (text.take (text.length - stop.length)) else none

/-- `str::parse` to an unsigned number below `bound`, where a plus sign may come first. -/
def parseBelow (bound : Nat) (text : Text) : Option Nat :=
  let digits := (afterPrefix ['+'] text).getD text
  if !digits.isEmpty && digits.all Char.isDigit then
    let value := Nat.ofDigitChars 10 digits 0
    if value < bound then some value else none
  else none

variable {text line : Text} {c : Char}

/-- A digit is not a plus sign. -/
theorem afterPrefix_plus (h : text.all Char.isDigit = true) : afterPrefix ['+'] text = none := by
  unfold afterPrefix
  cases text with
  | nil => rfl
  | cons c rest =>
    rw [if_neg]
    rw [List.isPrefixOf_cons_cons, Bool.and_eq_true]
    rintro ⟨hplus, -⟩
    rw [List.all_cons, Bool.and_eq_true, ← eq_of_beq hplus] at h
    exact absurd h.1 (by decide)

/-- Digits are read as their number. -/
theorem parseBelow_digits (hne : text ≠ []) (h : text.all Char.isDigit = true) (bound : Nat) :
    parseBelow bound text
      = if Nat.ofDigitChars 10 text 0 < bound then some (Nat.ofDigitChars 10 text 0)
        else none := by
  have hempty : text.isEmpty = false := by
    rw [Bool.eq_false_iff, ne_eq, List.isEmpty_iff]
    exact hne
  unfold parseBelow
  rw [afterPrefix_plus h, Option.getD_none]
  dsimp only
  rw [hempty, h]
  rfl

/-- A number is read as it is written. -/
theorem parseBelow_toDigits {n bound : Nat} (h : n < bound) :
    parseBelow bound (Nat.toDigits 10 n) = some n := by
  have hdigits : (Nat.toDigits 10 n).all Char.isDigit = true :=
    List.all_eq_true.mpr fun _ hc => Nat.isDigit_of_mem_toDigits (by omega) (by omega) hc
  rw [parseBelow_digits Nat.toDigits_ne_nil hdigits, Nat.ofDigitChars_ten_toDigits, if_pos h]

/-- The two sides of the last occurrence of `separator`. -/
def rsplitOnce (separator : Text) : Text → Option (Text × Text)
  | [] => (afterPrefix separator []).map ([], ·)
  | c :: rest =>
      match rsplitOnce separator rest with
      | some (before, after) => some (c :: before, after)
      | none => (afterPrefix separator (c :: rest)).map ([], ·)

/-- The words between white space. -/
def splitWhitespace (text : Text) : List Text :=
  (text.splitOnP isWhitespace).filter (!·.isEmpty)

/-- The line without a carriage return at its end. -/
def stripReturn (line : Text) : Text :=
  if line.getLast? = some '\r' then line.dropLast else line

def lines (text : Text) : List Text :=
  let pieces := text.splitOn '\n'
  let last := pieces.getLast (List.splitOn_ne_nil _ _)
  pieces.dropLast.map stripReturn ++ if last.isEmpty then [] else [last]

def unlines (lines : List Text) : Text := lines.flatMap (· ++ ['\n'])

theorem trim_eq_nil_iff : trim text = [] ↔ ∀ c ∈ text, isWhitespace c = true := by
  rw [trim, List.rdropWhile_eq_nil_iff]
  constructor
  · intro h c hc
    rw [← List.takeWhile_append_dropWhile (p := isWhitespace) (l := text)] at hc
    cases List.mem_append.mp hc with
    | inl hmem => exact List.mem_takeWhile_imp hmem
    | inr hmem => exact h c hmem
  · intro h c hc
    exact h c ((List.dropWhile_sublist _).subset hc)

/-- What is left after trimming still has something else than white space. -/
theorem trim_trim_ne_nil (h : trim text ≠ []) : trim (trim text) ≠ [] := by
  intro hnil
  have hlast : ¬ isWhitespace ((trim text).getLast h) = true := List.rdropWhile_last_not _ _ h
  exact hlast (trim_eq_nil_iff.mp hnil _ (List.getLast_mem h))

/-! ### Lines -/

theorem lines_append_cons (h : '\n' ∉ line) (rest : Text) :
    lines (line ++ '\n' :: rest) = stripReturn line :: lines rest := by
  have hsplit : (line ++ '\n' :: rest).splitOn '\n' = line :: rest.splitOn '\n' :=
    List.splitOn_append_cons_self_of_not_mem h rest
  have hne := List.splitOn_ne_nil '\n' rest
  simp only [lines, hsplit, List.dropLast_cons_of_ne_nil hne, List.map_cons, List.cons_append,
    List.getLast_cons hne]

/-- What is read after lines were written. -/
theorem lines_unlines {texts : List Text} (h : ∀ line ∈ texts, '\n' ∉ line) :
    lines (unlines texts) = texts.map stripReturn := by
  induction texts with
  | nil => rfl
  | cons line texts ih =>
    have hcons : unlines (line :: texts) = line ++ '\n' :: unlines texts := by
      simp [unlines]
    rw [hcons, lines_append_cons (h line List.mem_cons_self),
      ih fun other hother => h other (List.mem_cons_of_mem _ hother), List.map_cons]

theorem mem_of_mem_stripReturn (h : c ∈ stripReturn line) : c ∈ line := by
  rw [stripReturn] at h
  split at h
  · exact List.dropLast_subset _ h
  · exact h

theorem not_mem_splitOn {piece : Text} (h : piece ∈ text.splitOn c) : c ∉ piece := by
  induction text generalizing piece with
  | nil =>
    rw [List.splitOn_nil, List.mem_singleton] at h
    rw [h]
    exact List.not_mem_nil
  | cons first text ih =>
    rw [List.splitOn_cons_eq_if_modifyHead] at h
    split at h
    · cases List.mem_cons.mp h with
      | inl hnil => rw [hnil]; exact List.not_mem_nil
      | inr hmem => exact ih hmem
    next hne =>
      cases hpieces : text.splitOn c with
      | nil => exact absurd hpieces (List.splitOn_ne_nil c text)
      | cons head tail =>
        rw [hpieces, List.modifyHead_cons] at h
        have hmem : ∀ other ∈ head :: tail, c ∉ other := by
          intro other hother
          exact ih (hpieces ▸ hother)
        cases List.mem_cons.mp h with
        | inl heq =>
          rw [heq, List.mem_cons, not_or]
          exact ⟨fun hc => hne (by simp [hc]), hmem head List.mem_cons_self⟩
        | inr htail => exact hmem piece (List.mem_cons_of_mem _ htail)

theorem not_mem_lines (h : line ∈ lines text) : '\n' ∉ line := by
  rw [lines] at h
  cases List.mem_append.mp h with
  | inl hmem =>
    obtain ⟨piece, hpiece, rfl⟩ := List.mem_map.mp hmem
    intro hc
    exact not_mem_splitOn (List.dropLast_subset _ hpiece) (mem_of_mem_stripReturn hc)
  | inr hmem =>
    split at hmem
    · cases hmem
    · rw [List.mem_singleton.mp hmem]
      exact not_mem_splitOn (List.getLast_mem _)

/-! ### Words -/

/-- White space at the end adds no word. -/
theorem splitWhitespace_concat (text : Text) (h : isWhitespace c = true) :
    splitWhitespace (text ++ [c]) = splitWhitespace text := by
  rw [splitWhitespace, List.splitOnP_append_cons text [] h, List.splitOnP_nil, List.filter_append]
  simp [splitWhitespace]

/-- A carriage return at the end adds none either. -/
theorem splitWhitespace_stripReturn (line : Text) :
    splitWhitespace (stripReturn line) = splitWhitespace line := by
  rw [stripReturn]
  split
  next hlast =>
    obtain ⟨init, rfl⟩ := List.getLast?_eq_some_iff.mp hlast
    rw [List.dropLast_concat, splitWhitespace_concat init (by decide)]
  next => rfl

/-! ### UTF-8 -/

def utf8 (text : Text) : List UInt8 := (String.ofList text).toByteArray.data.toList

def fromUtf8 (bytes : List UInt8) : Option Text :=
  (String.fromUTF8? ⟨bytes.toArray⟩).map String.toList

theorem fromUtf8_utf8 (text : Text) : fromUtf8 (utf8 text) = some text := by
  have hvalid : String.fromUTF8? ⟨(String.ofList text).toByteArray.data.toList.toArray⟩
      = some (String.ofList text) := by
    rw [Array.toArray_toList]
    exact dif_pos (String.ofList text).isValidUTF8
  rw [fromUtf8, utf8, hvalid, Option.map_some, String.toList_ofList]

end Text

end Herden.Lib
