import Mathlib.Tactic.Common
import Mathlib.Algebra.BigOperators.Group.List.Basic
import Mathlib.Algebra.Order.Group.Int
import Mathlib.Algebra.GroupWithZero.Nat

/-!
# `Herden.Lib.Bincode`: a byte format read under a limit

A value is written as a list of tokens: fixed-width integers, lengths and raw bytes. Integers
take one byte up to 250 and are otherwise a marker byte and two, four or eight bytes, least
significant byte first. Signed integers are folded onto the naturals first.

A decoder reads the tokens again under a limit. It counts against the limit the width of each
integer's type, however few bytes the integer took on the wire, eight bytes for each length,
and the length of raw bytes. `claims` is that count for a list of tokens.

`Reads d tokens value` says that `d` reads `value` from the tokens, leaves what follows them,
and fails exactly when the limit is below their count. It composes along `do` blocks
(`Reads.bind`), which is all that the decoders of particular types need.
-/

namespace Herden.Lib.Bincode

abbrev Bytes := List UInt8

/-! ### Integers as bytes -/

/-- The lowest bytes of a number, least significant first. -/
def leBytes : Nat → Nat → Bytes
  | 0, _ => []
  | count + 1, n => UInt8.ofNat n :: leBytes count (n / 256)

def ofLeBytes : Bytes → Nat
  | [] => 0
  | byte :: rest => byte.toNat + 256 * ofLeBytes rest

@[simp] theorem length_leBytes (count n : Nat) : (leBytes count n).length = count := by
  induction count generalizing n with
  | zero => rfl
  | succ count ih => rw [leBytes, List.length_cons, ih]

variable {n : Nat}

theorem ofLeBytes_leBytes {count : Nat} (h : n < 256 ^ count) :
    ofLeBytes (leBytes count n) = n := by
  induction count generalizing n with
  | zero =>
    rw [Nat.pow_zero] at h
    show 0 = n
    omega
  | succ count ih =>
    rw [leBytes, ofLeBytes, ih (Nat.div_lt_of_lt_mul (by rwa [Nat.pow_succ, Nat.mul_comm] at h)),
      UInt8.toNat_ofNat']
    show n % 256 + 256 * (n / 256) = n
    omega

/-- An integer in as few bytes as its size allows. -/
def varint (n : Nat) : Bytes :=
  if n < 251 then [UInt8.ofNat n]
  else if n < 2 ^ 16 then 251 :: leBytes 2 n
  else if n < 2 ^ 32 then 252 :: leBytes 4 n
  else 253 :: leBytes 8 n

theorem length_varint_pos (n : Nat) : 0 < (varint n).length := by
  unfold varint
  repeat' split
  all_goals simp

theorem length_varint_le (n : Nat) : (varint n).length ≤ 9 := by
  unfold varint
  repeat' split
  all_goals simp

/-- The signed integers, folded onto the naturals. -/
def zigzag (i : Int) : Nat := if i < 0 then 2 * i.natAbs - 1 else 2 * i.natAbs

def unzigzag (n : Nat) : Int := if n % 2 = 0 then (n / 2 : Nat) else -((n / 2 : Nat) : Int) - 1

/-! ### Tokens -/

inductive Token where
  | u8 (value : UInt8)
  | u16 (value : UInt16)
  | u32 (value : UInt32)
  | u64 (value : UInt64)
  | i32 (value : Int32)
  | len (count : Nat)
  | raw (bytes : Bytes)

def Token.encode : Token → Bytes
  | .u8 value => [value]
  | .u16 value => varint value.toNat
  | .u32 value => varint value.toNat
  | .u64 value => varint value.toNat
  | .i32 value => varint (zigzag value.toInt)
  | .len count => varint count
  | .raw bytes => bytes

/-- What a token counts against the limit of a decoder. -/
def Token.claim : Token → Nat
  | .u8 _ => 1
  | .u16 _ => 2
  | .u32 _ => 4
  | .u64 _ => 8
  | .i32 _ => 4
  | .len _ => 8
  | .raw bytes => bytes.length

def encode (tokens : List Token) : Bytes := tokens.flatMap Token.encode

def claims (tokens : List Token) : Nat := (tokens.map Token.claim).sum

@[simp] theorem encode_nil : encode [] = [] := rfl

@[simp] theorem encode_cons (token : Token) (tokens : List Token) :
    encode (token :: tokens) = token.encode ++ encode tokens := rfl

@[simp] theorem encode_append (tokens more : List Token) :
    encode (tokens ++ more) = encode tokens ++ encode more := List.flatMap_append ..

@[simp] theorem claims_nil : claims [] = 0 := rfl

@[simp] theorem claims_cons (token : Token) (tokens : List Token) :
    claims (token :: tokens) = token.claim + claims tokens := by
  simp [claims]

@[simp] theorem claims_append (tokens more : List Token) :
    claims (tokens ++ more) = claims tokens + claims more := by
  simp [claims]

/-- An integer takes at least one byte. -/
theorem length_encode_pos {token : Token} (h : token.encode = varint n) (tokens : List Token) :
    0 < (encode (token :: tokens)).length := by
  have hpos := length_varint_pos n
  rw [encode_cons, h, List.length_append]
  omega

def strTokens (text : String) : List Token :=
  [.len text.utf8ByteSize, .raw text.toByteArray.data.toList]

def boolTokens (value : Bool) : List Token := [.u8 (if value then 1 else 0)]

section

variable {α β : Type}

def optionTokens (tokens : α → List Token) : Option α → List Token
  | none => [.u8 0]
  | some value => .u8 1 :: tokens value

def seqTokens (tokens : α → List Token) (items : List α) : List Token :=
  .len items.length :: items.flatMap tokens

/-! ### Decoders -/

inductive DecodeError where
  | limitExceeded
  | unexpectedEnd
  | invalidIntegerType
  | invalidBooleanValue
  | unexpectedVariant
  | utf8
  | other (message : String)
  deriving DecidableEq

/-- The input that is left, and how much of the limit. -/
structure Reader where
  bytes : Bytes
  limit : Option Nat

abbrev Decoder := StateT Reader (Except DecodeError)

/-- Count `n` against the limit, if there is one. -/
def spend (limit : Option Nat) (n : Nat) : Except DecodeError (Option Nat) :=
  match limit with
  | none => .ok none
  | some remaining => if n ≤ remaining then .ok (some (remaining - n)) else .error .limitExceeded

def claimBytesRead (n : Nat) : Decoder Unit := fun reader =>
  (spend reader.limit n).map fun limit => ((), { reader with limit })

def readBytes (n : Nat) : Decoder Bytes := fun reader =>
  if n ≤ reader.bytes.length then
    .ok (reader.bytes.take n, { reader with bytes := reader.bytes.drop n })
  else .error .unexpectedEnd

/-- Read an integer whose type has `width` bytes. -/
def readVarint (width : Nat) : Decoder Nat := do
  let first := ofLeBytes (← readBytes 1)
  if first < 251 then return first
  if first = 251 then return ofLeBytes (← readBytes 2)
  if first = 252 ∧ 4 ≤ width then return ofLeBytes (← readBytes 4)
  if first = 253 ∧ 8 ≤ width then return ofLeBytes (← readBytes 8)
  throw .invalidIntegerType

def decodeU8 : Decoder UInt8 := do
  claimBytesRead 1
  return UInt8.ofNat (ofLeBytes (← readBytes 1))

def decodeU16 : Decoder UInt16 := do
  claimBytesRead 2
  return UInt16.ofNat (← readVarint 2)

def decodeU32 : Decoder UInt32 := do
  claimBytesRead 4
  return UInt32.ofNat (← readVarint 4)

def decodeU64 : Decoder UInt64 := do
  claimBytesRead 8
  return UInt64.ofNat (← readVarint 8)

def decodeI32 : Decoder Int32 := do
  claimBytesRead 4
  return Int32.ofInt (unzigzag (← readVarint 4))

/-- The length of a sequence, on a machine with words of 64 bits. -/
def decodeLen : Decoder Nat := do
  claimBytesRead 8
  readVarint 8

def decodeBool : Decoder Bool := do
  match ← decodeU8 with
  | 0 => return false
  | 1 => return true
  | _ => throw .invalidBooleanValue

def decodeOption (item : Decoder α) : Decoder (Option α) := do
  match ← decodeU8 with
  | 0 => return none
  | 1 => return some (← item)
  | _ => throw .unexpectedVariant

/-- Raw bytes of a known length, counted against the limit before they are read. -/
def decodeRaw (n : Nat) : Decoder Bytes := do
  claimBytesRead n
  readBytes n

def decodeString : Decoder String := do
  let bytes ← decodeRaw (← decodeLen)
  match String.fromUTF8? ⟨bytes.toArray⟩ with
  | some text => return text
  | none => throw .utf8

/-- So many items, one after the other. -/
def decodeMany (item : Decoder α) : Nat → Decoder (List α)
  | 0 => return []
  | count + 1 => do
      let first ← item
      let rest ← decodeMany item count
      return first :: rest

def decodeSeq (item : Decoder α) : Decoder (List α) := do
  decodeMany item (← decodeLen)

/-! ### Reading what was written -/

/-- The decoder reads the value from the tokens, leaves what follows, and fails exactly when
the tokens count for more than the limit. -/
def Reads (d : Decoder α) (tokens : List Token) (value : α) : Prop :=
  (encode tokens).length < 2 ^ 64 → ∀ rest limit,
    d ⟨encode tokens ++ rest, limit⟩
      = (spend limit (claims tokens)).map fun limit => (value, ⟨rest, limit⟩)

theorem spend_zero (limit : Option Nat) : spend limit 0 = .ok limit := by
  cases limit with
  | none => rfl
  | some remaining => simp [spend]

theorem spend_add (limit : Option Nat) (m n : Nat) :
    spend limit (m + n) = (spend limit m).bind fun limit => spend limit n := by
  cases limit with
  | none => rfl
  | some remaining =>
    by_cases hm : m ≤ remaining
    · simp only [spend, hm, if_true, Except.bind]
      by_cases hn : n ≤ remaining - m
      · rw [if_pos (by omega), if_pos hn]
        congr 2
        omega
      · rw [if_neg (by omega), if_neg hn]
    · simp only [spend, hm, if_false, Except.bind]
      rw [if_neg (by omega)]

variable {d item : Decoder α} {value : α} {tokens : List Token} {n : Nat}

variable {f : α → Decoder β} {width count : Nat}

theorem run_bind {reader next : Reader} (h : d reader = .ok (value, next)) :
    (d >>= f) reader = f value next := by
  show Except.bind (d reader) _ = _
  rw [h]
  rfl

theorem Reads.pure (value : α) : Reads (pure value) [] value := by
  intro _ rest limit
  rw [claims_nil, spend_zero]
  rfl

/-- Two decoders in a row read two lists of tokens in a row. -/
theorem Reads.bind {more : List Token} {result : β} (h : Reads d tokens value)
    (hf : Reads (f value) more result) : Reads (d >>= f) (tokens ++ more) result := by
  intro hsize rest limit
  rw [encode_append, List.length_append] at hsize
  show Except.bind (d ⟨encode (tokens ++ more) ++ rest, limit⟩) _ = _
  rw [encode_append, List.append_assoc, h (by omega), claims_append, spend_add]
  cases hspend : spend limit (claims tokens) with
  | error error => rfl
  | ok remaining =>
    show f value ⟨encode more ++ rest, remaining⟩ = _
    rw [hf (by omega)]
    rfl

/-- The same tokens, put together differently. -/
theorem Reads.of_eq {others : List Token} (h : Reads d tokens value) (heq : others = tokens) :
    Reads d others value := by
  rw [heq]
  exact h

theorem Reads.map (h : Reads d tokens value) (f : α → β) :
    Reads (d >>= fun found => Pure.pure (f found)) tokens (f value) := by
  have hbind := h.bind (f := fun found => Pure.pure (f found)) (Reads.pure (f value))
  rwa [List.append_nil] at hbind

/-- A check that succeeds reads nothing. -/
theorem reads_ok {check : Except DecodeError α} (h : check = .ok value) :
    Reads (liftM check) [] value := by
  subst h
  exact .pure value

/-! ### Integers -/

theorem readBytes_append (bytes rest : Bytes) (limit : Option Nat) :
    readBytes bytes.length ⟨bytes ++ rest, limit⟩ = .ok (bytes, ⟨rest, limit⟩) := by
  simp [readBytes]

theorem readBytes_leBytes (count n : Nat) (rest : Bytes) (limit : Option Nat) :
    readBytes count ⟨leBytes count n ++ rest, limit⟩ = .ok (leBytes count n, ⟨rest, limit⟩) := by
  have h := readBytes_append (leBytes count n) rest limit
  rwa [length_leBytes] at h

theorem readVarint_varint (hwidth : width = 2 ∨ width = 4 ∨ width = 8) (h : n < 256 ^ width)
    (rest : Bytes) (limit : Option Nat) :
    readVarint width ⟨varint n ++ rest, limit⟩ = .ok (n, ⟨rest, limit⟩) := by
  -- The marker is one byte, read first; what it stands for decides how many follow.
  have hmarker : ∀ (byte : UInt8) (more : Bytes),
      readBytes 1 ⟨byte :: more, limit⟩ = .ok ([byte], ⟨more, limit⟩) := fun byte more =>
    readBytes_append [byte] more limit
  have hmore : ∀ count, n < 256 ^ count →
      (readBytes count >>= fun bytes => (pure (ofLeBytes bytes) : Decoder Nat))
        ⟨leBytes count n ++ rest, limit⟩ = .ok (n, ⟨rest, limit⟩) := by
    intro count hcount
    rw [run_bind (readBytes_leBytes count n rest limit), ofLeBytes_leBytes hcount]
    rfl
  unfold readVarint varint
  by_cases h1 : n < 251
  · have hbyte : ofLeBytes [UInt8.ofNat n] = n := by
      show (UInt8.ofNat n).toNat + 256 * 0 = n
      rw [UInt8.toNat_ofNat']
      omega
    rw [if_pos h1, List.cons_append, List.nil_append, run_bind (hmarker _ _)]
    rw [hbyte, if_pos h1]
    rfl
  by_cases h2 : n < 2 ^ 16
  · rw [if_neg h1, if_pos h2, List.cons_append, run_bind (hmarker _ _)]
    rw [if_neg (by decide), if_pos (by decide), hmore 2 (by omega)]
  by_cases h4 : n < 2 ^ 32
  · have hfour : 4 ≤ width := by
      rcases hwidth with rfl | rfl | rfl <;> omega
    rw [if_neg h1, if_neg h2, if_pos h4, List.cons_append, run_bind (hmarker _ _)]
    rw [if_neg (by decide), if_neg (by decide), if_pos ⟨by decide, hfour⟩, hmore 4 (by omega)]
  · have height : 8 ≤ width ∧ n < 256 ^ 8 := by
      rcases hwidth with rfl | rfl | rfl <;> omega
    rw [if_neg h1, if_neg h2, if_neg h4, List.cons_append, run_bind (hmarker _ _)]
    rw [if_neg (by decide), if_neg (by decide), if_neg fun hand => absurd hand.1 (by decide),
      if_pos ⟨by decide, height.1⟩, hmore 8 height.2]

/-- A decoder that counts `n` and then reads the value without counting more. -/
theorem Reads.of_claim (hclaims : claims tokens = n)
    (h : (encode tokens).length < 2 ^ 64 → ∀ rest limit,
      d ⟨encode tokens ++ rest, limit⟩ = .ok (value, ⟨rest, limit⟩)) :
    Reads (claimBytesRead n >>= fun _ => d) tokens value := by
  intro hsize rest limit
  show Except.bind (claimBytesRead n ⟨encode tokens ++ rest, limit⟩) _ = _
  unfold claimBytesRead
  rw [hclaims]
  cases hspend : spend limit n with
  | error error => rfl
  | ok remaining => exact h hsize rest remaining

/-- An integer's decoder: it counts the width of the type and reads the number. -/
theorem reads_varint (hwidth : width = 2 ∨ width = 4 ∨ width = 8) (h : n < 256 ^ width)
    {token : Token} (hencode : token.encode = varint n) (hclaim : token.claim = width)
    (convert : Nat → α) (hvalue : convert n = value) :
    Reads (claimBytesRead width >>= fun _ => readVarint width >>= fun n => pure (convert n))
      [token] value := by
  refine .of_claim (by simpa using hclaim) fun _ rest limit => ?_
  rw [encode_cons, encode_nil, List.append_nil, hencode,
    run_bind (readVarint_varint hwidth h rest limit), hvalue]
  rfl

theorem reads_u8 (value : UInt8) : Reads decodeU8 [.u8 value] value := by
  refine .of_claim (by simp [Token.claim]) fun _ rest limit => ?_
  show (readBytes [value].length >>= _) ⟨[value] ++ rest, limit⟩ = _
  rw [run_bind (readBytes_append [value] rest limit)]
  show Except.ok (UInt8.ofNat (value.toNat + 256 * 0), _) = _
  rw [Nat.mul_zero, Nat.add_zero, UInt8.ofNat_toNat]

theorem reads_u16 (value : UInt16) : Reads decodeU16 [.u16 value] value :=
  reads_varint (.inl rfl) value.toNat_lt rfl rfl UInt16.ofNat UInt16.ofNat_toNat

theorem reads_u32 (value : UInt32) : Reads decodeU32 [.u32 value] value :=
  reads_varint (.inr (.inl rfl)) value.toNat_lt rfl rfl UInt32.ofNat UInt32.ofNat_toNat

theorem reads_u64 (value : UInt64) : Reads decodeU64 [.u64 value] value :=
  reads_varint (.inr (.inr rfl)) value.toNat_lt rfl rfl UInt64.ofNat UInt64.ofNat_toNat

theorem reads_len (h : count < 2 ^ 64) : Reads decodeLen [.len count] count := by
  refine .of_claim (by simp [Token.claim]) fun _ rest limit => ?_
  rw [encode_cons, encode_nil, List.append_nil]
  exact readVarint_varint (.inr (.inr rfl)) h rest limit

/-! ### Composite values -/

theorem reads_bool (value : Bool) : Reads decodeBool (boolTokens value) value := by
  show Reads _ ([.u8 (if value then 1 else 0)] ++ []) _
  refine (reads_u8 _).bind ?_
  cases value with
  | false => exact .pure false
  | true => exact .pure true

theorem reads_option {tokens : α → List Token} {value : Option α}
    (h : ∀ found, value = some found → Reads item (tokens found) found) :
    Reads (decodeOption item) (optionTokens tokens value) value := by
  cases value with
  | none =>
    show Reads _ ([.u8 0] ++ []) _
    exact (reads_u8 0).bind (.pure none)
  | some found =>
    show Reads _ ([.u8 1] ++ tokens found) _
    exact (reads_u8 1).bind ((h found rfl).map some)

theorem reads_raw (bytes : Bytes) : Reads (decodeRaw bytes.length) [.raw bytes] bytes := by
  refine .of_claim (by simp [Token.claim]) fun _ rest limit => ?_
  rw [encode_cons, encode_nil, List.append_nil]
  exact readBytes_append bytes rest limit

/-- A length that is written in front of its bytes is a machine word. -/
theorem Reads.of_len (hcount : count ≤ (encode tokens).length)
    (h : count < 2 ^ 64 → Reads d (.len count :: tokens) value) :
    Reads d (.len count :: tokens) value := by
  intro hsize
  refine h ?_ hsize
  rw [encode_cons, List.length_append] at hsize
  omega

theorem reads_string (text : String) : Reads decodeString (strTokens text) text := by
  have hbytes : text.toByteArray.data.toList.length = text.utf8ByteSize := by
    rw [Array.length_toList]
    rfl
  have htext : String.fromUTF8? ⟨text.toByteArray.data.toList.toArray⟩ = some text := by
    rw [Array.toArray_toList]
    exact dif_pos text.isValidUTF8
  unfold strTokens
  refine .of_len ?_ fun hlen => ?_
  · rw [encode_cons, encode_nil, List.append_nil]
    exact Nat.le_of_eq hbytes.symm
  show Reads _ ([.len text.utf8ByteSize] ++ [.raw text.toByteArray.data.toList]) _
  refine (reads_len hlen).bind ?_
  rw [← hbytes]
  show Reads _ ([.raw text.toByteArray.data.toList] ++ []) _
  refine (reads_raw _).bind ?_
  rw [htext]
  exact .pure text

theorem reads_many {tokens : α → List Token} (items : List α)
    (h : ∀ found ∈ items, Reads item (tokens found) found) :
    Reads (decodeMany item items.length) (items.flatMap tokens) items := by
  induction items with
  | nil => exact .pure []
  | cons first rest ih =>
    have hrest := ih fun found hmem => h found (by simp [hmem])
    rw [List.flatMap_cons]
    exact (h first (by simp)).bind (hrest.map (first :: ·))

/-- A sequence is no longer than its encoding. -/
theorem length_le_encode_flatMap {tokens : α → List Token} (items : List α)
    (h : ∀ found ∈ items, 0 < (encode (tokens found)).length) :
    items.length ≤ (encode (items.flatMap tokens)).length := by
  induction items with
  | nil => exact Nat.zero_le _
  | cons first rest ih =>
    have hfirst := h first (by simp)
    have hrest := ih fun found hmem => h found (by simp [hmem])
    rw [List.flatMap_cons, encode_append, List.length_append, List.length_cons]
    omega

theorem reads_seq {tokens : α → List Token} {items : List α}
    (hpos : ∀ found ∈ items, 0 < (encode (tokens found)).length)
    (h : ∀ found ∈ items, Reads item (tokens found) found) :
    Reads (decodeSeq item) (seqTokens tokens items) items := by
  refine .of_len (length_le_encode_flatMap items hpos) fun hlen => ?_
  show Reads _ ([.len items.length] ++ items.flatMap tokens) _
  exact (reads_len hlen).bind (reads_many items h)

end

/-! ### What was read -/

/-- Every result of the decoder has the property. -/
def Ensures {α : Type} (d : Decoder α) (property : α → Prop) : Prop :=
  ∀ reader value next, d reader = .ok (value, next) → property value

section

variable {α β : Type} {d : Decoder α} {property : α → Prop}

theorem Ensures.bind {f : α → Decoder β} {result : β → Prop} (h : Ensures d property)
    (hf : ∀ value, property value → Ensures (f value) result) : Ensures (d >>= f) result := by
  intro reader value next hrun
  have hrun : Except.bind (d reader) (fun read => f read.1 read.2) = .ok (value, next) := hrun
  cases hread : d reader with
  | error error =>
    rw [hread] at hrun
    cases hrun
  | ok read =>
    rw [hread] at hrun
    exact hf read.1 (h reader read.1 read.2 hread) read.2 value next hrun

/-- A step whose result does not matter. -/
theorem Ensures.skip {f : α → Decoder β} {result : β → Prop}
    (hf : ∀ value, Ensures (f value) result) : Ensures (d >>= f) result := by
  have hany : Ensures d fun _ => True := fun _ _ _ _ => trivial
  exact hany.bind fun value _ => hf value

theorem ensures_pure {value : α} (h : property value) : Ensures (pure value) property := by
  intro reader found next hrun
  obtain ⟨rfl, -⟩ := Prod.mk.inj (Except.ok.inj hrun)
  exact h

theorem ensures_throw (error : DecodeError) :
    Ensures (throw error : Decoder α) property := by
  intro reader value next hrun
  cases hrun

theorem ensures_check {check : Except DecodeError α}
    (h : ∀ value, check = .ok value → property value) : Ensures (liftM check) property := by
  intro reader value next hrun
  cases check with
  | error error => cases hrun
  | ok found =>
    obtain ⟨rfl, -⟩ := Prod.mk.inj (Except.ok.inj hrun)
    exact h found rfl

theorem ensures_decodeMany (item : Decoder α) (count : Nat) :
    Ensures (decodeMany item count) fun items => items.length = count := by
  induction count with
  | zero => exact ensures_pure rfl
  | succ count ih =>
    refine .skip fun first => ih.bind fun rest hrest => ensures_pure ?_
    rw [List.length_cons, hrest]

end

end Herden.Lib.Bincode
