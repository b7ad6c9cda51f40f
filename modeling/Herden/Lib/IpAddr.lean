import Mathlib.Data.List.Basic
import Mathlib.Data.Vector.Basic
import Mathlib.Tactic.Common

/-!
# `Herden.Lib.IpAddr`: addresses and their text

The text forms of IPv4 and IPv6 addresses, read as the standard library of Rust reads them: four
decimal numbers without leading zeros, or up to eight groups of hexadecimal digits where `::`
stands for missing zeros and the last two groups may be written as an IPv4 address. Each reader
returns what is left of its input, so a reader that fails has consumed nothing.

`readNumber_toDigits` is the basic fact: a number that was written in base 10 or 16 is read back,
up to the next character that is no digit. From it follow `parseIpAddr_dotted` for IPv4 and
`parseIpAddr_groups` and `parseIpAddr_compressed` for IPv6.
-/

namespace Herden.Lib

/-- An address. The groups of an IPv6 address are in the order they are written. -/
inductive IpAddr where
  | v4 (octets : Vector UInt8 4)
  | v6 (segments : Vector UInt16 8)

namespace IpAddr

abbrev Text := List Char

/-! ### Reading -/

/-- The value of a character as a digit, letters above nine. -/
def toDigit (radix : Nat) (c : Char) : Option Nat :=
  let digit :=
    if '0' ≤ c ∧ c ≤ '9' then some (c.toNat - '0'.toNat)
    else if 'a' ≤ c ∧ c ≤ 'z' then some (c.toNat - 'a'.toNat + 10)
    else if 'A' ≤ c ∧ c ≤ 'Z' then some (c.toNat - 'A'.toNat + 10)
    else none
  digit.filter (· < radix)

/-- The digits at the front: their value, how many they are, and the rest. -/
def readDigits (radix maxDigits : Nat) : Text → Nat → Nat → Option (Nat × Nat × Text)
  | [], result, count => some (result, count, [])
  | c :: rest, result, count =>
      match toDigit radix c with
      | none => some (result, count, c :: rest)
      | some digit =>
          if count + 1 > maxDigits then none
          else readDigits radix maxDigits rest (result * radix + digit) (count + 1)

def readNumber (radix maxDigits : Nat) (allowZeroPrefix : Bool) (bound : Nat) (text : Text) :
    Option (Nat × Text) :=
  match readDigits radix maxDigits text 0 0 with
  | none => none
  | some (result, count, rest) =>
      if count = 0 then none
      else if !allowZeroPrefix && text.head? = some '0' && count > 1 then none
      else if result < bound then some (result, rest) else none

def readGivenChar (given : Char) : Text → Option Text
  | [] => none
  | c :: rest => if c = given then some rest else none

/-- Everything but the first item comes after a separator. -/
def readSeparator {α : Type} (separator : Char) (first : Bool) (inner : Text → Option (α × Text))
    (text : Text) : Option (α × Text) :=
  if first then inner text else (readGivenChar separator text).bind inner

def readOctet : Text → Option (Nat × Text) := readNumber 10 3 false 256

def readIpv4Addr (text : Text) : Option (Vector UInt8 4 × Text) := do
  let (a, text) ← readSeparator '.' true readOctet text
  let (b, text) ← readSeparator '.' false readOctet text
  let (c, text) ← readSeparator '.' false readOctet text
  let (d, text) ← readSeparator '.' false readOctet text
  return (#v[UInt8.ofNat a, UInt8.ofNat b, UInt8.ofNat c, UInt8.ofNat d], text)

def readGroup : Text → Option (Nat × Text) := readNumber 16 4 true (2 ^ 16)

/-- Two octets as one group. -/
def segment (high low : UInt8) : UInt16 := UInt16.ofNat (high.toNat * 256 + low.toNat)

/-- At most `limit` groups, and whether the last two were an IPv4 address. -/
def readGroups (first : Bool) : Nat → Text → List UInt16 × Bool × Text
  | 0, text => ([], false, text)
  | limit + 1, text =>
      -- an embedded address needs two groups
      match if limit = 0 then none else readSeparator ':' first readIpv4Addr text with
      | some (octets, rest) =>
          ([segment octets[0] octets[1], segment octets[2] octets[3]], true, rest)
      | none =>
          match readSeparator ':' first readGroup text with
          | none => ([], false, text)
          | some (group, rest) =>
              let (groups, ipv4, rest) := readGroups false limit rest
              (UInt16.ofNat group :: groups, ipv4, rest)

/-- Eight groups. -/
def ofGroups (groups : List UInt16) : Vector UInt16 8 :=
  Vector.ofFn fun index : Fin 8 => groups.getD index 0

def readIpv6Addr (text : Text) : Option (Vector UInt16 8 × Text) :=
  let (head, headIpv4, rest) := readGroups true 8 text
  if head.length = 8 then some (ofGroups head, rest)
  else if headIpv4 then none
  else do
    let rest ← readGivenChar ':' rest
    let rest ← readGivenChar ':' rest
    let (tail, _, rest) := readGroups true (8 - (head.length + 1)) rest
    return (ofGroups (head ++ List.replicate (8 - tail.length - head.length) 0 ++ tail), rest)

/-- The whole text as an address. -/
def parseIpAddr (text : Text) : Option IpAddr :=
  match readIpv4Addr text with
  | some (octets, rest) => if rest.isEmpty then some (.v4 octets) else none
  | none =>
      match readIpv6Addr text with
      | some (segments, rest) => if rest.isEmpty then some (.v6 segments) else none
      | none => none

/-! ### Octets -/

/-- Its two octets, the high one first. -/
def segmentOctets (group : UInt16) : List UInt8 :=
  [UInt8.ofNat (group.toNat / 256), UInt8.ofNat (group.toNat % 256)]

def octets : IpAddr → List UInt8
  | .v4 octets => octets.toList
  | .v6 segments => segments.toList.flatMap segmentOctets

theorem segment_segmentOctets (group : UInt16) :
    segment (UInt8.ofNat (group.toNat / 256)) (UInt8.ofNat (group.toNat % 256)) = group := by
  apply UInt16.toNat.inj
  have hlt := group.toNat_lt
  simp only [segment, UInt16.toNat_ofNat', UInt8.toNat_ofNat']
  omega

/-! ### Numbers -/

variable {b maxDigits radix n : Nat} {rest text : Text}

/-- A property of all digits holds of the characters of a number. -/
theorem forall_mem_toDigits {P : Char → Prop} (hb : 1 < b) (h : ∀ d, d < b → P d.digitChar)
    (n : Nat) : ∀ c ∈ Nat.toDigits b n, P c := by
  induction n using Nat.strongRecOn with
  | ind n ih =>
    intro c hc
    rw [Nat.toDigits_eq_if hb] at hc
    split at hc
    next hlt =>
      rw [List.mem_singleton.mp hc]
      exact h n hlt
    next hle =>
      cases List.mem_append.mp hc with
      | inl hmem => exact ih (n / b) (Nat.div_lt_self (by omega) hb) c hmem
      | inr hmem =>
        rw [List.mem_singleton.mp hmem]
        exact h _ (Nat.mod_lt _ (by omega))

/-- The value of some digits, after a value in front of them. -/
def digitsValue (radix : Nat) (digits : Text) (result : Nat) : Nat :=
  digits.foldl (fun result c => result * radix + (toDigit radix c).getD 0) result

theorem digitsValue_toDigits (hb : 1 < b) (h : ∀ d, d < b → toDigit b d.digitChar = some d)
    (n : Nat) : digitsValue b (Nat.toDigits b n) 0 = n := by
  induction n using Nat.strongRecOn with
  | ind n ih =>
    rw [Nat.toDigits_eq_if hb]
    split
    next hlt => simp [digitsValue, h n hlt]
    next hle =>
      have hdiv := ih (n / b) (Nat.div_lt_self (by omega) hb)
      rw [digitsValue] at hdiv ⊢
      rw [List.foldl_append, hdiv, List.foldl_cons, List.foldl_nil, h _ (Nat.mod_lt _ (by omega)),
        Option.getD_some]
      exact Nat.div_add_mod' n b

/-- A text that does not go on with a digit. -/
def NoDigit (radix : Nat) (text : Text) : Prop :=
  ∀ c rest, text = c :: rest → toDigit radix c = none

theorem readDigits_append {digits : Text} (hrest : NoDigit radix rest)
    (hdigits : ∀ c ∈ digits, (toDigit radix c).isSome = true) (result count : Nat)
    (hmax : count + digits.length ≤ maxDigits) :
    readDigits radix maxDigits (digits ++ rest) result count
      = some (digitsValue radix digits result, count + digits.length, rest) := by
  induction digits generalizing result count with
  | nil =>
    cases rest with
    | nil => rfl
    | cons c rest =>
      rw [List.nil_append, readDigits, hrest c rest rfl]
      rfl
  | cons c digits ih =>
    obtain ⟨digit, hdigit⟩ := Option.isSome_iff_exists.mp (hdigits c List.mem_cons_self)
    rw [List.length_cons] at hmax
    rw [List.cons_append, readDigits, hdigit]
    dsimp only
    rw [if_neg (by omega),
      ih (fun other hother => hdigits other (List.mem_cons_of_mem _ hother)) _ _ (by omega)]
    rw [digitsValue, digitsValue, List.foldl_cons, hdigit, Option.getD_some, List.length_cons]
    congr 3
    omega

theorem readNumber_toDigits {bound : Nat} (hb : 1 < b) {allowZeroPrefix : Bool}
    (hdigit : ∀ d, d < b → toDigit b d.digitChar = some d) (hn : n < bound) (hmax : 0 < maxDigits)
    (hlength : n < b ^ maxDigits) (hzero : allowZeroPrefix = true ∨
      ((Nat.toDigits b n).head? = some '0' → (Nat.toDigits b n).length ≤ 1))
    (hrest : NoDigit b rest) :
    readNumber b maxDigits allowZeroPrefix bound (Nat.toDigits b n ++ rest) = some (n, rest) := by
  have hpos : 0 < (Nat.toDigits b n).length := Nat.length_toDigits_pos
  have hle : (Nat.toDigits b n).length ≤ maxDigits :=
    (Nat.length_toDigits_le_iff hb hmax).mpr hlength
  have hsome : ∀ c ∈ Nat.toDigits b n, (toDigit b c).isSome = true := by
    refine forall_mem_toDigits (P := fun c => (toDigit b c).isSome = true) hb ?_ n
    intro d hd
    rw [hdigit d hd]
    rfl
  have hhead : (Nat.toDigits b n ++ rest).head? = (Nat.toDigits b n).head? :=
    List.head?_append_of_ne_nil _ (List.ne_nil_of_length_pos hpos)
  rw [readNumber, readDigits_append hrest hsome 0 0 (by omega), digitsValue_toDigits hb hdigit]
  dsimp only
  rw [if_neg (by omega), hhead, if_neg, if_pos hn]
  -- a zero in front is allowed, or there is none
  simp only [Bool.and_eq_true, Bool.not_eq_true', decide_eq_true_eq, not_and]
  intro hfalse hfirst
  cases hzero with
  | inl htrue =>
    rw [htrue] at hfalse
    cases hfalse.1
  | inr hshort => have := hshort hfalse.2; omega

/-- A number in base 10. -/
def decimal (n : Nat) : Text := Nat.toDigits 10 n

/-- A number in base 16. -/
def hexadecimal (n : Nat) : Text := Nat.toDigits 16 n

theorem readOctet_decimal (hn : n < 256) (hrest : NoDigit 10 rest) :
    readOctet (decimal n ++ rest) = some (n, rest) := by
  have hdigit : ∀ d, d < 10 → toDigit 10 d.digitChar = some d := by decide
  have hzero : ∀ n < 256, (Nat.toDigits 10 n).head? = some '0' →
      (Nat.toDigits 10 n).length ≤ 1 := by decide +kernel
  exact readNumber_toDigits (by omega) hdigit hn (by omega) (by omega) (Or.inr (hzero n hn)) hrest

theorem readGroup_hexadecimal (group : UInt16) (hrest : NoDigit 16 rest) :
    readGroup (hexadecimal group.toNat ++ rest) = some (group.toNat, rest) := by
  have hdigit : ∀ d, d < 16 → toDigit 16 d.digitChar = some d := by decide
  have hlt := group.toNat_lt
  exact readNumber_toDigits (by omega) hdigit hlt (by omega) (by omega) (Or.inl rfl) hrest

theorem noDigit_nil (radix : Nat) : NoDigit radix [] := fun _ _ h => (by cases h)

theorem noDigit_cons {c : Char} (h : toDigit radix c = none) (rest : Text) :
    NoDigit radix (c :: rest) := by
  intro other rest' heq
  cases heq
  exact h

/-! ### IPv4 -/

theorem readGivenChar_cons (c : Char) (rest : Text) : readGivenChar c (c :: rest) = some rest := by
  rw [readGivenChar, if_pos rfl]

/-- Four decimal numbers with dots between them. -/
def dotted (a b c d : UInt8) : Text :=
  decimal a.toNat ++ '.' :: (decimal b.toNat ++ '.' :: (decimal c.toNat ++ '.' :: decimal d.toNat))

theorem readIpv4Addr_dotted (a b c d : UInt8) :
    readIpv4Addr (dotted a b c d) = some (#v[a, b, c, d], []) := by
  have hoctet : ∀ (octet : UInt8) (rest : Text),
      readOctet (decimal octet.toNat ++ '.' :: rest) = some (octet.toNat, '.' :: rest) :=
    fun octet rest => readOctet_decimal octet.toNat_lt (noDigit_cons (by decide) rest)
  have hlast : readOctet (decimal d.toNat) = some (d.toNat, []) := by
    have h := readOctet_decimal d.toNat_lt (noDigit_nil 10)
    rwa [List.append_nil] at h
  simp only [readIpv4Addr, dotted, readSeparator, if_pos, if_neg Bool.false_ne_true,
    readGivenChar_cons, Option.bind_eq_bind, Option.bind_some, hoctet, hlast, Option.pure_def,
    UInt8.ofNat_toNat]

theorem parseIpAddr_dotted (a b c d : UInt8) :
    parseIpAddr (dotted a b c d) = some (.v4 #v[a, b, c, d]) := by
  rw [parseIpAddr, readIpv4Addr_dotted]
  rfl

/-- What is left is the end of the text. -/
theorem readDigits_suffix {result count value found : Nat}
    (h : readDigits radix maxDigits text result count = some (value, found, rest)) :
    rest <:+ text := by
  induction text generalizing result count with
  | nil =>
    cases h
    exact List.suffix_refl _
  | cons c text ih =>
    rw [readDigits] at h
    split at h
    · cases h
      exact List.suffix_refl _
    · split at h
      · cases h
      · exact (ih h).trans (List.suffix_cons c text)

theorem readOctet_suffix (h : readOctet text = some (n, rest)) : rest <:+ text := by
  rw [readOctet, readNumber] at h
  split at h
  · cases h
  next result count left hdigits =>
    split at h
    · cases h
    · split at h
      · cases h
      · split at h
        · cases h
          exact readDigits_suffix hdigits
        · cases h

/-- A text without a dot has no IPv4 address in front. -/
theorem readIpv4Addr_of_not_mem (h : '.' ∉ text) : readIpv4Addr text = none := by
  rw [readIpv4Addr, readSeparator, if_pos rfl]
  cases hoctet : readOctet text with
  | none => rfl
  | some found =>
    obtain ⟨n, rest⟩ := found
    have hrest : '.' ∉ rest := fun hmem => h ((readOctet_suffix hoctet).mem hmem)
    rw [Option.bind_eq_bind, Option.bind_some]
    dsimp only
    rw [readSeparator, if_neg Bool.false_ne_true]
    cases rest with
    | nil => rfl
    | cons c rest =>
      have hne : c ≠ '.' := fun heq => hrest (heq ▸ List.mem_cons_self)
      rw [readGivenChar, if_neg hne]
      rfl

/-! ### IPv6 -/

/-- Groups, each after a colon. -/
def colonGroups (groups : List UInt16) : Text :=
  groups.flatMap fun group => ':' :: hexadecimal group.toNat

/-- Groups with colons between them. -/
def joinGroups : List UInt16 → Text
  | [] => []
  | group :: groups => hexadecimal group.toNat ++ colonGroups groups

/-- A text at which the groups end: nothing more, or a double colon. -/
def GroupsEnd (text : Text) : Prop := text = [] ∨ ∃ rest, text = ':' :: ':' :: rest

theorem GroupsEnd.noDigit (h : GroupsEnd text) : NoDigit 16 text := by
  rcases h with rfl | ⟨rest, rfl⟩
  · exact noDigit_nil 16
  · exact noDigit_cons (by decide) _

theorem dot_not_mem_hexadecimal (n : Nat) : '.' ∉ hexadecimal n := by
  intro hmem
  exact forall_mem_toDigits (P := fun c => c ≠ '.') (by omega) (by decide) n '.' hmem rfl

theorem dot_not_mem_colonGroups (groups : List UInt16) : '.' ∉ colonGroups groups := by
  intro hmem
  obtain ⟨group, _, hgroup⟩ := List.mem_flatMap.mp hmem
  cases List.mem_cons.mp hgroup with
  | inl h => exact absurd h (by decide)
  | inr h => exact dot_not_mem_hexadecimal _ h

theorem dot_not_mem_joinGroups (groups : List UInt16) : '.' ∉ joinGroups groups := by
  cases groups with
  | nil => exact List.not_mem_nil
  | cons group groups =>
    intro hmem
    cases List.mem_append.mp hmem with
    | inl h => exact dot_not_mem_hexadecimal _ h
    | inr h => exact dot_not_mem_colonGroups _ h

/-- No IPv4 address is found among groups. -/
theorem readSeparator_ipv4_of_not_mem (h : '.' ∉ text) (first : Bool) :
    readSeparator ':' first readIpv4Addr text = none := by
  rw [readSeparator]
  split
  · exact readIpv4Addr_of_not_mem h
  · cases text with
    | nil => rfl
    | cons c rest =>
      rw [readGivenChar]
      split
      · exact readIpv4Addr_of_not_mem fun hmem => h (List.mem_cons_of_mem _ hmem)
      · rfl

theorem readGroup_groupsEnd (h : GroupsEnd text) (first : Bool) :
    readSeparator ':' first readGroup text = none := by
  rcases h with rfl | ⟨rest, rfl⟩
  · cases first <;> rfl
  · cases first <;> rfl

/-- Where the groups end, no more are read. -/
theorem readGroups_groupsEnd (h : GroupsEnd text) (hdot : '.' ∉ text) (first : Bool) (limit : Nat) :
    readGroups first limit text = ([], false, text) := by
  cases limit with
  | zero => rfl
  | succ limit =>
    rw [readGroups, readSeparator_ipv4_of_not_mem hdot, readGroup_groupsEnd h]
    simp

theorem noDigit_colonGroups (groups : List UInt16) (h : GroupsEnd rest) :
    NoDigit 16 (colonGroups groups ++ rest) := by
  cases groups with
  | nil => exact h.noDigit
  | cons group groups => exact noDigit_cons (by decide) _

variable {groups : List UInt16} {limit : Nat}

/-- Groups after colons are read up to their end. -/
theorem readGroups_colonGroups (hlimit : groups.length ≤ limit) (hrest : GroupsEnd rest)
    (hdot : '.' ∉ rest) :
    readGroups false limit (colonGroups groups ++ rest) = (groups, false, rest) := by
  induction groups generalizing limit with
  | nil => exact readGroups_groupsEnd hrest hdot false limit
  | cons group groups ih =>
    obtain ⟨limit, rfl⟩ : ∃ left, limit = left + 1 := ⟨limit - 1, by simp at hlimit; omega⟩
    have hnone : '.' ∉ colonGroups (group :: groups) ++ rest := by
      intro hmem
      cases List.mem_append.mp hmem with
      | inl h => exact dot_not_mem_colonGroups _ h
      | inr h => exact hdot h
    have htext : colonGroups (group :: groups) ++ rest
        = ':' :: (hexadecimal group.toNat ++ (colonGroups groups ++ rest)) := by
      simp [colonGroups]
    have hread : readSeparator ':' false readGroup (colonGroups (group :: groups) ++ rest)
        = some (group.toNat, colonGroups groups ++ rest) := by
      rw [htext, readSeparator, if_neg Bool.false_ne_true, readGivenChar_cons, Option.bind_some,
        readGroup_hexadecimal group (noDigit_colonGroups groups hrest)]
    rw [readGroups, readSeparator_ipv4_of_not_mem hnone, hread]
    rw [List.length_cons] at hlimit
    simp [ih (by omega : groups.length ≤ limit)]

theorem readGroups_joinGroups (hlimit : groups.length ≤ limit) (hrest : GroupsEnd rest)
    (hdot : '.' ∉ rest) :
    readGroups true limit (joinGroups groups ++ rest) = (groups, false, rest) := by
  cases groups with
  | nil => exact readGroups_groupsEnd hrest hdot true limit
  | cons group groups =>
    obtain ⟨limit, rfl⟩ : ∃ left, limit = left + 1 := ⟨limit - 1, by simp at hlimit; omega⟩
    have hnone : '.' ∉ joinGroups (group :: groups) ++ rest := by
      intro hmem
      cases List.mem_append.mp hmem with
      | inl h => exact dot_not_mem_joinGroups _ h
      | inr h => exact hdot h
    have hread : readSeparator ':' true readGroup (joinGroups (group :: groups) ++ rest)
        = some (group.toNat, colonGroups groups ++ rest) := by
      rw [joinGroups, List.append_assoc, readSeparator, if_pos rfl,
        readGroup_hexadecimal group (noDigit_colonGroups groups hrest)]
    rw [readGroups, readSeparator_ipv4_of_not_mem hnone, hread]
    rw [List.length_cons] at hlimit
    simp [readGroups_colonGroups (by omega : groups.length ≤ limit) hrest hdot]

theorem ofGroups_toList (segments : Vector UInt16 8) : ofGroups segments.toList = segments := by
  ext index hindex
  simp [ofGroups, List.getD_eq_getElem?_getD]

/-- All eight groups, written out. -/
theorem parseIpAddr_groups (segments : Vector UInt16 8) :
    parseIpAddr (joinGroups segments.toList) = some (.v6 segments) := by
  have hread : readGroups true 8 (joinGroups segments.toList ++ []) =
      (segments.toList, false, []) :=
    readGroups_joinGroups (Nat.le_of_eq segments.length_toList) (Or.inl rfl) List.not_mem_nil
  rw [List.append_nil] at hread
  rw [parseIpAddr, readIpv4Addr_of_not_mem (dot_not_mem_joinGroups _), readIpv6Addr, hread]
  dsimp only
  rw [if_pos segments.length_toList, ofGroups_toList]
  rfl

/-- A run of zeros written as a double colon. -/
theorem parseIpAddr_compressed {segments : Vector UInt16 8} {before after : List UInt16}
    {zeros : Nat} (hsegments : segments.toList = before ++ List.replicate zeros 0 ++ after)
    (hzeros : 0 < zeros) :
    parseIpAddr (joinGroups before ++ ':' :: ':' :: joinGroups after) = some (.v6 segments) := by
  have hlength : before.length + zeros + after.length = 8 := by
    have h := congrArg List.length hsegments
    simp only [Vector.length_toList, List.length_append, List.length_replicate] at h
    omega
  have hdot : '.' ∉ ':' :: ':' :: joinGroups after := by
    simp [dot_not_mem_joinGroups]
  have hnone : '.' ∉ joinGroups before ++ ':' :: ':' :: joinGroups after := by
    intro hmem
    cases List.mem_append.mp hmem with
    | inl h => exact dot_not_mem_joinGroups _ h
    | inr h => exact hdot h
  have hhead := readGroups_joinGroups (by omega : before.length ≤ 8) (Or.inr ⟨_, rfl⟩) hdot
  have htail : readGroups true (8 - (before.length + 1)) (joinGroups after ++ [])
      = (after, false, []) :=
    readGroups_joinGroups (by omega) (Or.inl rfl) List.not_mem_nil
  rw [List.append_nil] at htail
  rw [parseIpAddr, readIpv4Addr_of_not_mem hnone, readIpv6Addr, hhead]
  dsimp only
  rw [if_neg (by omega), if_neg Bool.false_ne_true, readGivenChar_cons, Option.bind_eq_bind,
    Option.bind_some, readGivenChar_cons, Option.bind_some, htail]
  have hmiddle : 8 - after.length - before.length = zeros := by omega
  dsimp only
  rw [hmiddle, ← hsegments, ofGroups_toList]
  rfl

end IpAddr

end Herden.Lib
