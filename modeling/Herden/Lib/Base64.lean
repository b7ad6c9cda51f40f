import Mathlib.Data.List.DropRight
import Mathlib.Data.String.Basic
import Mathlib.Tactic.Common

/-!
# `Herden.Lib.Base64`: the standard alphabet without padding

The encoding of byte strings as text that RFC 4648 calls base 64, in the form that writes no
padding. Three bytes become four characters. Of a rest of one or two bytes the last character
holds unused bits, and the decoder rejects an input in which they are not zero.

`decode_of_encode` is the round trip, and `length_encode` says how long the text is. The text has
one byte for each character (`utf8ByteSize_encode`), so that length is also its size.
-/

namespace Herden.Lib.Base64

def alphabet : List Char :=
  "ABCDEFGHIJKLMNOPQRSTUVWXYZabcdefghijklmnopqrstuvwxyz0123456789+/".toList

/-- The character of six bits. -/
def symbol (sextet : Nat) : Char := alphabet.getD sextet 'A'

/-- The six bits of a character of the alphabet. -/
def sextet (char : Char) : Option Nat := alphabet.findIdx? (· = char)

theorem sextet_symbol : ∀ bits < 64, sextet (symbol bits) = some bits := by
  decide +kernel

/-! ### Encoding -/

def encodeChars : List UInt8 → List Char
  | [] => []
  | [a] => [symbol (a.toNat / 4), symbol (a.toNat % 4 * 16)]
  | [a, b] =>
      [symbol (a.toNat / 4), symbol (a.toNat % 4 * 16 + b.toNat / 16),
        symbol (b.toNat % 16 * 4)]
  | a :: b :: c :: rest =>
      symbol (a.toNat / 4) :: symbol (a.toNat % 4 * 16 + b.toNat / 16)
        :: symbol (b.toNat % 16 * 4 + c.toNat / 64) :: symbol (c.toNat % 64)
        :: encodeChars rest

def encode (bytes : List UInt8) : String := String.ofList (encodeChars bytes)

/-- The length of the text for so many bytes, where it is a machine word. -/
def encodedLen (bytesLen : Nat) : Option Nat :=
  let complete := bytesLen / 3 * 4
  let length := match bytesLen % 3 with
    | 0 => complete
    | 1 => complete + 2
    | _ => complete + 3
  if length < 2 ^ 64 then some length else none

/-! ### Decoding -/

def decodeChars : List Char → Option (List UInt8)
  | [] => some []
  | [_] => none
  | [p, q] => do
      let p ← sextet p
      let q ← sextet q
      -- The last character's unused bits must be zero.
      if q % 16 = 0 then some [UInt8.ofNat (p * 4 + q / 16)] else none
  | [p, q, r] => do
      let p ← sextet p
      let q ← sextet q
      let r ← sextet r
      if r % 4 = 0 then
        some [UInt8.ofNat (p * 4 + q / 16), UInt8.ofNat (q % 16 * 16 + r / 4)]
      else none
  | p :: q :: r :: s :: rest => do
      let p ← sextet p
      let q ← sextet q
      let r ← sextet r
      let s ← sextet s
      let rest ← decodeChars rest
      some (UInt8.ofNat (p * 4 + q / 16) :: UInt8.ofNat (q % 16 * 16 + r / 4)
        :: UInt8.ofNat (r % 4 * 64 + s) :: rest)

def decode (data : String) : Option (List UInt8) := decodeChars data.toList

/-! ### With padding -/

/-- Equals signs fill the last group of four. -/
def encodePadded (bytes : List UInt8) : List Char :=
  let chars := encodeChars bytes
  chars ++ List.replicate ((4 - chars.length % 4) % 4) '='

/-- The padding must be there, and no more than it. -/
def decodePadded (chars : List Char) : Option (List UInt8) :=
  let body := chars.rdropWhile (· = '=')
  if chars.length % 4 = 0 ∧ chars.length - body.length ≤ 2 then decodeChars body else none

/-! ### The round trip -/

variable {n len : Nat}

/-- A byte is put together again from its parts. -/
theorem ofNat_eq_of_toNat {byte : UInt8} (h : n = byte.toNat) : UInt8.ofNat n = byte := by
  rw [h]
  exact UInt8.ofNat_toNat

theorem decodeChars_encodeChars (bytes : List UInt8) :
    decodeChars (encodeChars bytes) = some bytes := by
  induction bytes using encodeChars.induct with
  | case1 => rfl
  | case2 a =>
    have ha := a.toNat_lt
    simp only [encodeChars, decodeChars, sextet_symbol _ (show a.toNat / 4 < 64 by omega),
      sextet_symbol _ (show a.toNat % 4 * 16 < 64 by omega), Option.bind_eq_bind, Option.bind_some]
    rw [if_pos (by omega), ofNat_eq_of_toNat (show _ = a.toNat by omega)]
  | case3 a b =>
    have ha := a.toNat_lt
    have hb := b.toNat_lt
    simp only [encodeChars, decodeChars, sextet_symbol _ (show a.toNat / 4 < 64 by omega),
      sextet_symbol _ (show a.toNat % 4 * 16 + b.toNat / 16 < 64 by omega),
      sextet_symbol _ (show b.toNat % 16 * 4 < 64 by omega), Option.bind_eq_bind,
      Option.bind_some]
    rw [if_pos (by omega), ofNat_eq_of_toNat (show _ = a.toNat by omega),
      ofNat_eq_of_toNat (show _ = b.toNat by omega)]
  | case4 a b c rest ih =>
    have ha := a.toNat_lt
    have hb := b.toNat_lt
    have hc := c.toNat_lt
    simp only [encodeChars, decodeChars, sextet_symbol _ (show a.toNat / 4 < 64 by omega),
      sextet_symbol _ (show a.toNat % 4 * 16 + b.toNat / 16 < 64 by omega),
      sextet_symbol _ (show b.toNat % 16 * 4 + c.toNat / 64 < 64 by omega),
      sextet_symbol _ (show c.toNat % 64 < 64 by omega), ih, Option.bind_eq_bind,
      Option.bind_some]
    rw [ofNat_eq_of_toNat (show _ = a.toNat by omega),
      ofNat_eq_of_toNat (show _ = b.toNat by omega), ofNat_eq_of_toNat (show _ = c.toNat by omega)]

/-- What was encoded is decoded. -/
@[simp] theorem decode_of_encode (bytes : List UInt8) : decode (encode bytes) = some bytes := by
  rw [decode, encode, String.toList_ofList, decodeChars_encodeChars]

/-! ### The length of the text -/

/-- The length as one sum. -/
def textLen (n : Nat) : Nat := n / 3 * 4 + (if n % 3 = 0 then 0 else n % 3 + 1)

theorem encodedLen_eq_some : encodedLen n = some len ↔ textLen n < 2 ^ 64 ∧ textLen n = len := by
  have hlen : encodedLen n = if textLen n < 2 ^ 64 then some (textLen n) else none := by
    have hmod := Nat.mod_lt n (show 0 < 3 by omega)
    unfold encodedLen textLen
    obtain h0 | h1 | h2 : n % 3 = 0 ∨ n % 3 = 1 ∨ n % 3 = 2 := by omega
    · simp only [h0, if_true, Nat.add_zero]
    · simp only [h1]
      rfl
    · simp only [h2]
      rfl
  rw [hlen]
  by_cases hlt : textLen n < 2 ^ 64
  · rw [if_pos hlt, Option.some.injEq]
    exact ⟨fun heq => ⟨hlt, heq⟩, fun h => h.2⟩
  · rw [if_neg hlt]
    exact ⟨fun h => (by cases h), fun h => absurd h.1 hlt⟩

/-- Fewer bytes make a text that is not longer. -/
theorem encodedLen_mono {m : Nat} (hle : m ≤ n) (h : encodedLen n = some len) :
    ∃ shorter, encodedLen m = some shorter ∧ shorter ≤ len := by
  obtain ⟨hlt, rfl⟩ := encodedLen_eq_some.mp h
  have hshorter : textLen m ≤ textLen n := by
    unfold textLen
    split <;> split <;> omega
  exact ⟨_, encodedLen_eq_some.mpr ⟨by omega, rfl⟩, hshorter⟩

/-- A length that is a machine word is that of fewer bytes. -/
theorem lt_of_encodedLen (h : encodedLen n = some len) : n < 3 * 2 ^ 62 := by
  obtain ⟨hlt, -⟩ := encodedLen_eq_some.mp h
  unfold textLen at hlt
  omega

theorem length_encodeChars (bytes : List UInt8) :
    (encodeChars bytes).length
      = bytes.length / 3 * 4 + (if bytes.length % 3 = 0 then 0 else bytes.length % 3 + 1) := by
  induction bytes using encodeChars.induct with
  | case1 => rfl
  | case2 a => simp [encodeChars]
  | case3 a b => simp [encodeChars]
  | case4 a b c rest ih =>
    simp only [encodeChars, List.length_cons, ih]
    have hdiv : (rest.length + 1 + 1 + 1) / 3 = rest.length / 3 + 1 := by omega
    have hmod : (rest.length + 1 + 1 + 1) % 3 = rest.length % 3 := by omega
    rw [hdiv, hmod]
    omega

theorem symbol_mem_alphabet (bits : Nat) : symbol bits ∈ alphabet := by
  rw [symbol, List.getD_eq_getElem?_getD]
  cases h : alphabet[bits]? with
  | none => decide +kernel
  | some char => exact List.mem_of_getElem? h

theorem mem_alphabet_of_mem_encodeChars (bytes : List UInt8) :
    ∀ char ∈ encodeChars bytes, char ∈ alphabet := by
  induction bytes using encodeChars.induct with
  | case1 => simp [encodeChars]
  | case2 a => simp [encodeChars, symbol_mem_alphabet]
  | case3 a b => simp [encodeChars, symbol_mem_alphabet]
  | case4 a b c rest ih => simpa [encodeChars, symbol_mem_alphabet] using ih

theorem utf8Size_of_mem_encodeChars (bytes : List UInt8) :
    ∀ char ∈ encodeChars bytes, char.utf8Size = 1 := by
  have halphabet : alphabet.all (fun char => char.utf8Size = 1) = true := by decide +kernel
  intro char hmem
  have hone := List.all_eq_true.mp halphabet char (mem_alphabet_of_mem_encodeChars bytes char hmem)
  exact of_decide_eq_true hone

/-- The text takes one byte for each character. -/
theorem utf8ByteSize_encode (bytes : List UInt8) :
    (encode bytes).utf8ByteSize = (encodeChars bytes).length := by
  rw [encode, String.utf8ByteSize_ofList]
  have hsize := utf8Size_of_mem_encodeChars bytes
  generalize encodeChars bytes = chars at hsize
  induction chars with
  | nil => rfl
  | cons char rest ih =>
    rw [String.utf8Len_cons, ih fun other hmem => hsize other (by simp [hmem]),
      hsize char (by simp), List.length_cons]

/-- The text is not shorter than the bytes. -/
theorem length_le_utf8ByteSize_encode (bytes : List UInt8) :
    bytes.length ≤ (encode bytes).utf8ByteSize := by
  rw [utf8ByteSize_encode, length_encodeChars]
  split <;> omega

end Herden.Lib.Base64
