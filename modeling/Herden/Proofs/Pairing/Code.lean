import Herden.App.PairingCode
import Herden.Lib.Fallible
import Herden.Runtime.Pairing.Code

/-!
# `Herden.Proofs.Pairing.Code`: the app reads what the host writes

The host writes a Pairing Code in Rust and the app reads it in Swift. `decode_encode` is the round
trip across the two: every payload that `encode` accepts, with a port the app allows, comes back
with the same data. Addresses come back as the same address, not always as the same text: the
host writes an IP address as its octets and the app formats these.

Base 45 is an exact correspondence (`decodeBase45_base45Encode`, `base45Encode_decodeBase45`).
`Reads` says that a reader takes exactly some bytes from the front, and composes along `readBody`
in the order in which the host wrote the fields.
-/

namespace Herden.Proofs.Pairing.Code

open Herden.Lib (Text IpAddr bind_eq_ok)
open Herden.Lib.Text (isWhitespace trim utf8 fromUtf8_utf8)
open Herden.Lib.IpAddr (parseIpAddr)
open Herden.Runtime.Pairing.Code
open Herden.App.Pairing (decodeValues decodeBase45 groupsOf longestZeros joinHex formatIPv6 Reader
  readByte readBytes beValue readUInt16 readUInt32 readString readAddress readAddresses
  readHostName readBody decodeV2 decode containsWhitespace)

/-! ### Base 45 -/

theorem findIdx_base45Symbol :
    ∀ value < 45, App.Pairing.alphabet.findIdx? (· = base45Symbol value) = some value := by
  decide +kernel

variable {value count : Nat} {payload : PairingPayload} {reason : Text} {test : Bool}

theorem base45Symbol_of_findIdx {c : Char}
    (h : App.Pairing.alphabet.findIdx? (· = c) = some value) :
    value < 45 ∧ base45Symbol value = c := by
  obtain ⟨hlt, heq, _⟩ := List.findIdx?_eq_some_iff_getElem.mp h
  refine ⟨hlt, ?_⟩
  have hchar : App.Pairing.alphabet[value] = c := of_decide_eq_true heq
  rw [← hchar, base45Symbol, List.getD_eq_getElem?_getD]
  exact congrArg (Option.getD · '0') (List.getElem?_eq_getElem hlt)

/-- The values whose symbols `base45Encode` writes. -/
def encodeValues : List UInt8 → List Nat
  | [] => []
  | [last] => [last.toNat % 45, last.toNat / 45]
  | high :: low :: rest =>
      let value := high.toNat * 256 + low.toNat
      value % 45 :: value / 45 % 45 :: value / (45 * 45) :: encodeValues rest

theorem base45Encode_eq (bytes : List UInt8) :
    base45Encode bytes = (encodeValues bytes).map base45Symbol := by
  fun_induction encodeValues bytes with
  | case1 => rfl
  | case2 last => rfl
  | case3 high low rest value ih => simp [base45Encode, ih, value]

theorem encodeValues_lt (bytes : List UInt8) : ∀ value ∈ encodeValues bytes, value < 45 := by
  fun_induction encodeValues bytes with
  | case1 => simp
  | case2 last =>
    have := last.toNat_lt
    simp only [List.mem_cons, List.not_mem_nil, or_false, forall_eq_or_imp, forall_eq]
    omega
  | case3 high low rest value ih =>
    have hhigh := high.toNat_lt
    have hlow := low.toNat_lt
    simp only [List.mem_cons, forall_eq_or_imp]
    exact ⟨by omega, by omega, by omega, ih⟩

theorem length_encodeValues (bytes : List UInt8) : (encodeValues bytes).length % 3 ≠ 1 := by
  fun_induction encodeValues bytes with
  | case1 => simp
  | case2 last => simp
  | case3 high low rest value ih =>
    simp only [List.length_cons]
    omega

theorem decodeValues_encodeValues (bytes : List UInt8) :
    decodeValues (encodeValues bytes) = some bytes := by
  fun_induction encodeValues bytes with
  | case1 => rfl
  | case2 last =>
    have hlt := last.toNat_lt
    have hvalue : last.toNat % 45 + last.toNat / 45 * 45 = last.toNat := by omega
    rw [decodeValues, hvalue, if_pos (by omega), UInt8.ofNat_toNat]
  | case3 high low rest value ih =>
    have hhigh := high.toNat_lt
    have hlow := low.toNat_lt
    have hvalue : value % 45 + value / 45 % 45 * 45 + value / (45 * 45) * 2025 = value := by omega
    rw [decodeValues, hvalue, if_pos (by omega), ih]
    have hfirst : value / 256 = high.toNat := by omega
    have hsecond : value % 256 = low.toNat := by omega
    rw [hfirst, hsecond, UInt8.ofNat_toNat, UInt8.ofNat_toNat]
    rfl

variable {values : List Nat} {text : Text} {bytes : List UInt8}

theorem mapM_map_base45Symbol (h : ∀ value ∈ values, value < 45) :
    (values.map base45Symbol).mapM (fun c => App.Pairing.alphabet.findIdx? (· = c))
      = some values := by
  induction values with
  | nil => rfl
  | cons value rest ih =>
    rw [List.map_cons, List.mapM_cons, findIdx_base45Symbol value (h value List.mem_cons_self),
      ih fun other hother => h other (List.mem_cons_of_mem _ hother)]
    rfl

/-- Decoding undoes encoding. -/
theorem decodeBase45_base45Encode (bytes : List UInt8) :
    decodeBase45 (base45Encode bytes) = some bytes := by
  rw [decodeBase45, base45Encode_eq, mapM_map_base45Symbol (encodeValues_lt bytes),
    Option.bind_eq_bind, Option.bind_some, if_neg (length_encodeValues bytes),
    decodeValues_encodeValues]

theorem map_base45Symbol_of_mapM
    (h : text.mapM (fun c => App.Pairing.alphabet.findIdx? (· = c)) = some values) :
    (∀ value ∈ values, value < 45) ∧ values.map base45Symbol = text := by
  induction text generalizing values with
  | nil =>
    cases h
    simp
  | cons c rest ih =>
    rw [List.mapM_cons, Option.bind_eq_bind, Option.bind_eq_some_iff] at h
    obtain ⟨value, hvalue, h⟩ := h
    rw [Option.bind_eq_bind, Option.bind_eq_some_iff] at h
    obtain ⟨others, hothers, h⟩ := h
    cases h
    obtain ⟨hlt, hsymbol⟩ := base45Symbol_of_findIdx hvalue
    obtain ⟨hall, hrest⟩ := ih hothers
    exact ⟨by simpa [hlt] using hall, by rw [List.map_cons, hsymbol, hrest]⟩

theorem encodeValues_decodeValues (hlt : ∀ value ∈ values, value < 45)
    (h : decodeValues values = some bytes) : encodeValues bytes = values := by
  fun_induction decodeValues values generalizing bytes with
  | case1 =>
    cases h
    rfl
  | case2 value => cases h
  | case3 low high hle =>
    cases h
    have hlow := hlt low (by simp)
    have hvalue : (UInt8.ofNat (low + high * 45)).toNat = low + high * 45 := by
      rw [UInt8.toNat_ofNat', Nat.mod_eq_of_lt (by omega)]
    rw [encodeValues, hvalue]
    have hfirst : (low + high * 45) % 45 = low := by omega
    have hsecond : (low + high * 45) / 45 = high := by omega
    rw [hfirst, hsecond]
  | case4 low high hgt => cases h
  | case5 low middle high rest value hle =>
    rename_i ih
    rw [Option.bind_eq_bind, Option.bind_eq_some_iff] at h
    obtain ⟨others, hothers, h⟩ := h
    have hlow := hlt low (by simp)
    have hmiddle := hlt middle (by simp)
    have hvalue : value = low + middle * 45 + high * 2025 := rfl
    clear_value value
    cases h
    have hfirst : (UInt8.ofNat (value / 256)).toNat = value / 256 := by
      rw [UInt8.toNat_ofNat', Nat.mod_eq_of_lt (by omega)]
    have hsecond : (UInt8.ofNat (value % 256)).toNat = value % 256 := by
      rw [UInt8.toNat_ofNat', Nat.mod_eq_of_lt (by omega)]
    rw [encodeValues, hfirst, hsecond, ih (fun v hv => hlt v (by simp [hv])) hothers]
    have hboth : value / 256 * 256 + value % 256 = value := by omega
    rw [hboth]
    have h1 : value % 45 = low := by omega
    have h2 : value / 45 % 45 = middle := by omega
    have h3 : value / (45 * 45) = high := by omega
    rw [h1, h2, h3]
  | case6 low middle high rest hgt => cases h

/-- Encoding undoes decoding, on every text that is accepted. -/
theorem base45Encode_decodeBase45 (h : decodeBase45 text = some bytes) :
    base45Encode bytes = text := by
  rw [decodeBase45, Option.bind_eq_bind, Option.bind_eq_some_iff] at h
  obtain ⟨values, hvalues, h⟩ := h
  split at h
  · cases h
  · obtain ⟨hlt, htext⟩ := map_base45Symbol_of_mapM hvalues
    rw [base45Encode_eq, encodeValues_decodeValues hlt h, htext]

/-! ### Addresses -/

theorem groupsOf_segmentOctets (groups : List UInt16) :
    groupsOf (groups.flatMap IpAddr.segmentOctets) = groups := by
  induction groups with
  | nil => rfl
  | cons group groups ih =>
    rw [List.flatMap_cons, IpAddr.segmentOctets]
    show IpAddr.segment _ _ :: groupsOf (groups.flatMap IpAddr.segmentOctets) = _
    rw [IpAddr.segment_segmentOctets, ih]

theorem joinHex_eq (groups : List UInt16) : joinHex groups = IpAddr.joinGroups groups := by
  cases groups with
  | nil => rfl
  | cons group groups =>
    induction groups generalizing group with
    | nil => simp [joinHex, IpAddr.joinGroups, IpAddr.colonGroups, IpAddr.hexadecimal]
    | cons other groups ih =>
      have hcons : joinHex (group :: other :: groups)
          = IpAddr.hexadecimal group.toNat ++ ':' :: joinHex (other :: groups) := by
        simp [joinHex, List.intercalate, IpAddr.hexadecimal]
      rw [hcons, ih]
      simp [IpAddr.joinGroups, IpAddr.colonGroups]

/-- At `start`, there are `count` zeros. -/
def ZerosAt (groups : List UInt16) (start count : Nat) : Prop :=
  groups = groups.take start ++ List.replicate count 0 ++ groups.drop (start + count) ∧ 0 < count

/-- Whatever run is found is a run of zeros. -/
theorem zerosAt_longestZeros (all : List UInt16) {groups : List UInt16} {index start : Nat}
    {longest : Option (Nat × Nat)} (hall : all.drop index = groups)
    (hlongest : ∀ start count, longest = some (start, count) → ZerosAt all start count)
    (h : longestZeros groups index longest = some (start, count)) : ZerosAt all start count := by
  fun_induction longestZeros groups index longest with
  | case1 index longest => exact hlongest start count h
  | case2 index longest group rest hne ih =>
    refine ih ?_ hlongest h
    rw [← List.drop_drop, hall]
    rfl
  | case3 index longest group rest heq run ih =>
    obtain rfl : group = 0 := by simpa using heq
    have hrun : List.replicate run (0 : UInt16) = 0 :: rest.takeWhile (· = 0) := by
      have hzeros : rest.takeWhile (· = 0) = List.replicate (rest.takeWhile (· = 0)).length 0 := by
        rw [List.eq_replicate_iff]
        refine ⟨rfl, fun group hgroup => ?_⟩
        simpa using List.mem_takeWhile_imp hgroup
      show List.replicate (1 + (rest.takeWhile (· = 0)).length) (0 : UInt16) = _
      rw [Nat.add_comm, List.replicate_succ, ← hzeros]
    have hrest : all.drop (index + run) = rest.dropWhile (· = 0) := by
      rw [← List.drop_drop, hall]
      show (0 :: rest).drop (1 + (rest.takeWhile (· = 0)).length) = _
      rw [Nat.add_comm, List.drop_succ_cons]
      calc rest.drop (rest.takeWhile (· = 0)).length
          = (rest.takeWhile (· = 0) ++ rest.dropWhile (· = 0)).drop
            (rest.takeWhile (· = 0)).length := by rw [List.takeWhile_append_dropWhile]
        _ = rest.dropWhile (· = 0) := List.drop_left
    refine ih hrest ?_ h
    intro start' count' hsome
    split at hsome
    · -- the run that starts here
      cases hsome
      refine ⟨?_, by omega⟩
      calc all = all.take index ++ all.drop index := (List.take_append_drop index all).symm
        _ = all.take index ++ (0 :: (rest.takeWhile (· = 0) ++ rest.dropWhile (· = 0))) := by
          rw [hall, List.takeWhile_append_dropWhile]
        _ = all.take index ++ List.replicate run 0 ++ all.drop (index + run) := by
          rw [hrun, hrest, List.append_assoc, List.cons_append]
    · exact hlongest start' count' hsome

/-- The formatted octets of an IPv6 address are its text. -/
theorem parseIpAddr_formatIPv6 (segments : Vector UInt16 8) :
    parseIpAddr (formatIPv6 (IpAddr.v6 segments).octets) = some (.v6 segments) := by
  rw [formatIPv6, IpAddr.octets, groupsOf_segmentOctets]
  split
  next => rw [joinHex_eq, IpAddr.parseIpAddr_groups]
  next start count hlongest =>
    obtain ⟨hsegments, hcount⟩ := zerosAt_longestZeros segments.toList List.drop_zero
      (fun _ _ h => (by cases h)) hlongest
    rw [joinHex_eq, joinHex_eq, List.append_assoc]
    exact IpAddr.parseIpAddr_compressed hsegments hcount

theorem formatIPv4_eq (octets : Vector UInt8 4) :
    ['.'].intercalate ((IpAddr.v4 octets).octets.map fun byte => Nat.toDigits 10 byte.toNat)
      = IpAddr.dotted (octets.get 0) (octets.get 1) (octets.get 2) (octets.get 3) := by
  have hoctets : octets.toList = [octets.get 0, octets.get 1, octets.get 2, octets.get 3] := by
    apply List.ext_getElem
    · simp
    · intro index hindex _
      have hlt : index < 4 := octets.length_toList ▸ hindex
      obtain rfl | rfl | rfl | rfl : index = 0 ∨ index = 1 ∨ index = 2 ∨ index = 3 := by omega
      all_goals rfl
  rw [IpAddr.octets, hoctets]
  simp [List.intercalate, IpAddr.dotted, IpAddr.decimal]

theorem parseIpAddr_formatIPv4 (octets : Vector UInt8 4) :
    parseIpAddr (['.'].intercalate ((IpAddr.v4 octets).octets.map fun byte =>
      Nat.toDigits 10 byte.toNat)) = some (.v4 octets) := by
  rw [formatIPv4_eq, IpAddr.parseIpAddr_dotted]
  congr 2
  ext index hindex
  obtain rfl | rfl | rfl | rfl : index = 0 ∨ index = 1 ∨ index = 2 ∨ index = 3 := by omega
  all_goals rfl

theorem parseIpAddr_nil : parseIpAddr [] = none := by decide +kernel

/-- A text without white space. -/
def Solid (text : Text) : Prop := ∀ c ∈ text, isWhitespace c = false

theorem Solid.of_all (h : text.all (fun c => !isWhitespace c) = true) : Solid text :=
  fun c hc => Bool.not_eq_true' _ ▸ List.all_eq_true.mp h c hc

theorem Solid.append {a b : Text} (ha : Solid a) (hb : Solid b) : Solid (a ++ b) := by
  intro c hc
  cases List.mem_append.mp hc with
  | inl h => exact ha c h
  | inr h => exact hb c h

theorem Solid.cons {c : Char} {text : Text} (hc : isWhitespace c = false) (h : Solid text) :
    Solid (c :: text) := by
  intro other hother
  cases List.mem_cons.mp hother with
  | inl heq => rw [heq]; exact hc
  | inr hmem => exact h other hmem

theorem solid_decimal (n : Nat) : Solid (IpAddr.decimal n) :=
  IpAddr.forall_mem_toDigits (P := fun c => isWhitespace c = false) (by omega) (by decide +kernel) n

theorem solid_hexadecimal (n : Nat) : Solid (IpAddr.hexadecimal n) :=
  IpAddr.forall_mem_toDigits (P := fun c => isWhitespace c = false) (by omega) (by decide +kernel) n

theorem solid_joinGroups (groups : List UInt16) : Solid (IpAddr.joinGroups groups) := by
  have hcolon : Solid (IpAddr.colonGroups groups) := by
    intro c hc
    obtain ⟨group, _, hmem⟩ := List.mem_flatMap.mp hc
    exact Solid.cons (by decide) (solid_hexadecimal group.toNat) c hmem
  cases groups with
  | nil => exact fun c hc => absurd hc List.not_mem_nil
  | cons group groups =>
    refine (solid_hexadecimal group.toNat).append fun c hc => hcolon c ?_
    rw [IpAddr.colonGroups, List.flatMap_cons]
    exact List.mem_append_right _ hc

theorem solid_formatIPv6 (bytes : List UInt8) : Solid (formatIPv6 bytes) := by
  dsimp only [formatIPv6]
  split
  · rw [joinHex_eq]
    exact solid_joinGroups _
  · rw [joinHex_eq, joinHex_eq]
    exact ((solid_joinGroups _).append (.of_all (by decide +kernel))).append (solid_joinGroups _)

theorem solid_formatIPv4 (octets : Vector UInt8 4) :
    Solid (['.'].intercalate ((IpAddr.v4 octets).octets.map fun byte =>
      Nat.toDigits 10 byte.toNat)) := by
  have hdot : isWhitespace '.' = false := by decide
  rw [formatIPv4_eq]
  exact (solid_decimal _).append (.cons hdot ((solid_decimal _).append (.cons hdot
    ((solid_decimal _).append (.cons hdot (solid_decimal _))))))

/-! ### What the host accepts -/

/-- What `validate` has checked. -/
structure Valid (payload : PairingPayload) : Prop where
  addresses : payload.addresses ≠ []
  address : ∀ address ∈ payload.addresses, address ≠ [] ∧ Solid address
  username : payload.username ≠ [] ∧ Solid payload.username
  hostName : ∀ name, payload.hostName = some name → trim name ≠ []
  expiresAt : payload.expiresAt ≠ 0

theorem solid_iff : text.any isWhitespace = false ↔ Solid text := by
  rw [List.any_eq_false]
  constructor
  · intro h c hc
    rw [← Bool.not_eq_true]
    exact h c hc
  · intro h c hc
    rw [h c hc]
    exact Bool.false_ne_true

theorem of_reject {bad : Bool} {message : String} (h : reject bad message = .ok ()) :
    bad = false := by
  cases bad with
  | false => rfl
  | true => cases h

theorem valid_of_validate (h : validate payload = .ok ()) : Valid payload := by
  unfold validate at h
  simp only [bind_eq_ok] at h
  obtain ⟨_, haddresses, _, haddress, _, husername, _, hname, _, _, hexpiry⟩ := h
  have hnonempty : ∀ text : Text, text.isEmpty = false ↔ text ≠
      [] := fun _ => List.isEmpty_eq_false_iff
  constructor
  · exact List.isEmpty_eq_false_iff.mp (of_reject haddresses)
  · intro address hmem
    have h := List.any_eq_false.mp (of_reject haddress) address hmem
    rw [Bool.not_eq_true, Bool.or_eq_false_iff, hnonempty, solid_iff] at h
    exact h
  · have h := of_reject husername
    rw [Bool.or_eq_false_iff, hnonempty, solid_iff] at h
    exact h
  · intro name hsome
    have h := of_reject hname
    rw [hsome, Option.any_some, hnonempty] at h
    exact h
  · exact of_decide_eq_false (of_reject hexpiry)

/-! ### Reading back -/

/-- The reader takes exactly these bytes from the front. -/
def Reads {α : Type} (reader : Reader α) (bytes : List UInt8) (value : α) : Prop :=
  ∀ rest, reader (bytes ++ rest) = .ok (value, rest)

theorem Reads.bind {α β : Type} {reader : Reader α} {next : α → Reader β} {others : List UInt8}
    {value : α} {result : β} (h : Reads reader bytes value)
    (h' : Reads (next value) others result) :
    Reads (reader >>= next) (bytes ++ others) result := by
  intro rest
  show (reader (bytes ++ others ++ rest) >>= fun found => next found.1 found.2) = _
  rw [List.append_assoc, h]
  exact h' rest

theorem Reads.pure {α : Type} (value : α) : Reads (Pure.pure value : Reader α) [] value :=
  fun _ => rfl

theorem Reads.map {α β : Type} {reader : Reader α} {value : α} (f : α → β)
    (h : Reads reader bytes value) :
    Reads (reader >>= fun found => Pure.pure (f found)) bytes (f value) := by
  intro rest
  show (reader (bytes ++ rest) >>= fun found => .ok (f found.1, found.2)) = _
  rw [h]
  rfl

theorem reads_ensure {β : Type} {next : Unit → Reader β} {result : β} (htest : test = true)
    (h : Reads (next ()) bytes result) :
    Reads (App.Pairing.ensure test reason >>= next) bytes result := by
  have hensure : Reads (App.Pairing.ensure test reason) [] () := by
    intro rest
    rw [htest]
    rfl
  exact hensure.bind h

theorem reads_byte (byte : UInt8) : Reads readByte [byte] byte := fun _ => rfl

theorem reads_bytes (h : bytes.length = count) : Reads (readBytes count) bytes bytes := by
  intro rest
  subst h
  rw [readBytes, if_pos (by rw [List.length_append]; omega), List.take_left, List.drop_left]

theorem beValue_toBeBytes (count value : Nat) :
    beValue (toBeBytes count value) = value % 256 ^ count := by
  induction count generalizing value with
  | zero => simp [toBeBytes, beValue, Nat.mod_one]
  | succ count ih =>
    have hbyte : (UInt8.ofNat (value % 256)).toNat = value % 256 := by
      rw [UInt8.toNat_ofNat', Nat.mod_mod]
    have h := ih (value / 256)
    rw [beValue] at h ⊢
    rw [toBeBytes, List.foldl_append, h, List.foldl_cons, List.foldl_nil, hbyte, Nat.pow_succ,
      Nat.mul_comm (256 ^ count), Nat.mod_mul]
    omega

theorem length_toBeBytes (count value : Nat) : (toBeBytes count value).length = count := by
  induction count generalizing value with
  | zero => rfl
  | succ count ih => rw [toBeBytes, List.length_append, ih]; rfl

theorem reads_beValue (count : Nat) (h : value < 256 ^ count) :
    Reads (do return beValue (← readBytes count)) (toBeBytes count value) value := by
  have hread := (reads_bytes (length_toBeBytes count value)).map beValue
  rwa [beValue_toBeBytes, Nat.mod_eq_of_lt h] at hread

theorem reads_string {value : Text} {tooLong : String} (h : pushString value tooLong = .ok bytes) :
    Reads readString bytes value := by
  rw [pushString] at h
  split at h
  next hlength =>
    cases h
    have hcount : (UInt8.ofNat (utf8 value).length).toNat = (utf8 value).length := by
      rw [UInt8.toNat_ofNat', Nat.mod_eq_of_lt (by omega)]
    show Reads readString ([UInt8.ofNat (utf8 value).length] ++ utf8 value) value
    apply (reads_byte _).bind
    rw [hcount, ← List.append_nil (utf8 value)]
    apply (reads_bytes (by rw [List.append_nil])).bind
    rw [fromUtf8_utf8]
    exact Reads.pure value
  next => cases h

/-- What a written address stands for: an IP address, or else a name. -/
inductive Endpoint where
  | address (address : IpAddr)
  | name (name : Text)

def endpoint (text : Text) : Endpoint :=
  match parseIpAddr text with
  | some address => .address address
  | none => .name text

/-- A text that stands for an address is not empty. -/
theorem ne_nil_of_parseIpAddr {address : IpAddr} (h : parseIpAddr text = some address) :
    text ≠ [] := by
  rintro rfl
  rw [parseIpAddr_nil] at h
  cases h

theorem reads_address {address : Text} (hne : address ≠ []) (hsolid : Solid address)
    (h : pushAddress address = .ok bytes) :
    ∃ text, Reads readAddress bytes text ∧ endpoint text = endpoint address := by
  -- the checks after the text was read
  have hread : ∀ kind body text, Reads (App.Pairing.readAddressText kind) body text → text ≠ [] →
      Solid text → Reads readAddress (kind :: body) text := by
    intro kind body text htext hne hsolid
    show Reads readAddress ([kind] ++ body) text
    apply (reads_byte kind).bind
    rw [← List.append_nil body]
    apply htext.bind
    apply reads_ensure
    · rw [List.isEmpty_eq_false_iff.mpr hne, containsWhitespace, solid_iff.mpr hsolid]
      rfl
    · exact Reads.pure text
  rw [pushAddress] at h
  split at h
  next octets hparse =>
    cases h
    have hfound := parseIpAddr_formatIPv4 octets
    refine ⟨_, hread _ _ _ ?_ (ne_nil_of_parseIpAddr hfound) (solid_formatIPv4 octets), ?_⟩
    · exact (reads_bytes Vector.length_toList).map _
    · rw [endpoint, endpoint, hfound, hparse]
  next segments hparse =>
    cases h
    have hfound := parseIpAddr_formatIPv6 segments
    refine ⟨_, hread _ _ _ ?_ (ne_nil_of_parseIpAddr hfound) (solid_formatIPv6 _), ?_⟩
    · refine (reads_bytes ?_).map formatIPv6
      rw [IpAddr.octets, List.length_flatMap]
      simp [IpAddr.segmentOctets]
    · rw [endpoint, endpoint, hfound, hparse]
  next hparse =>
    obtain ⟨body, hbody, h⟩ := bind_eq_ok.mp h
    cases h
    refine ⟨address, hread _ _ _ ?_ hne hsolid, rfl⟩
    exact reads_string hbody

theorem reads_addresses {addresses : List Text}
    (haddress : ∀ address ∈ addresses, address ≠ [] ∧ Solid address)
    (h : pushAddresses addresses = .ok bytes) :
    ∃ texts, Reads (readAddresses addresses.length) bytes texts ∧
      texts.map endpoint = addresses.map endpoint := by
  induction addresses generalizing bytes with
  | nil =>
    cases h
    exact ⟨[], Reads.pure [], rfl⟩
  | cons address rest ih =>
    obtain ⟨first, hfirst, h⟩ := bind_eq_ok.mp h
    obtain ⟨others, hothers, h⟩ := bind_eq_ok.mp h
    cases h
    obtain ⟨hne, hsolid⟩ := haddress address List.mem_cons_self
    obtain ⟨text, htext, hsame⟩ := reads_address hne hsolid hfirst
    obtain ⟨texts, htexts, hsames⟩ :=
      ih (fun other hother => haddress other (List.mem_cons_of_mem _ hother)) hothers
    refine ⟨text :: texts, ?_, by rw [List.map_cons, List.map_cons, hsame, hsames]⟩
    exact htext.bind (htexts.map _)

/-! ### The whole code -/

/-- A reader at the front of a program. -/
theorem Reads.run {α β : Type} {reader : Reader α} {value : α} (h : Reads reader bytes value)
    (next : α → Reader β) (others : List UInt8) :
    (reader >>= next) (bytes ++ others) = next value others := by
  show (reader (bytes ++ others) >>= fun found => next found.1 found.2) = _
  rw [h]
  rfl

theorem ensure_run {β : Type} (h : test = true) (next : Unit → Reader β) (bytes : List UInt8) :
    (App.Pairing.ensure test reason >>= next) bytes = next () bytes := by
  rw [h]
  rfl

theorem reads_hostName {hostName : Option Text} (h : pushHostName hostName = .ok bytes) :
    Reads (readHostName (if hostName.isSome then flagHostName else 0)) bytes hostName := by
  cases hostName with
  | none =>
    cases h
    exact Reads.pure none
  | some name =>
    show Reads (readHostName flagHostName) bytes (some name)
    rw [readHostName, if_pos (by decide)]
    exact (reads_string h).map some

/-- What the app reads from the bytes of a payload. -/
structure SameCode (payload : PairingPayload) (code : App.Pairing.PairingCode) : Prop where
  port : code.port = payload.port.toNat
  username : code.username = payload.username
  hostName : code.hostName = payload.hostName.map trim
  hostKeyFingerprint : fingerprintDigest payload.hostKeyFingerprint = .ok code.hostKeyFingerprint
  bootstrap : code.bootstrap = some ⟨payload.bootstrapSeed.toList, payload.expiresAt.toNat⟩
  addresses : code.addresses.map endpoint = payload.addresses.map endpoint

theorem readBody_wireBytes {wire : List UInt8} (hport : 1 ≤ payload.port.toNat)
    (h : wireBytes payload = .ok wire) :
    ∃ code, readBody wire = .ok (code, []) ∧ SameCode payload code := by
  simp only [wireBytes, bind_eq_ok] at h
  obtain ⟨_, hvalid, expiry, hexpiry, digest, hdigest, username, husername, name, hname, count,
    hcount, bytes, hbytes, h⟩ := h
  cases h
  have hvalid := valid_of_validate hvalid
  obtain ⟨texts, htexts, hsame⟩ := reads_addresses hvalid.address hbytes
  rw [expiryBytes] at hexpiry
  split at hexpiry
  next hrange =>
    cases hexpiry
    rw [countByte] at hcount
    split at hcount
    next hfew =>
      cases hcount
      have hlength : digest.length = 32 := by
        rw [fingerprintDigest] at hdigest
        split at hdigest
        · split at hdigest
          next hlength => cases hdigest; exact hlength
          next => cases hdigest
        · cases hdigest
      have hexpires : 0 < payload.expiresAt.toNat := by
        rw [Nat.pos_iff_ne_zero]
        intro hzero
        exact hvalid.expiresAt (UInt64.toNat.inj hzero)
      have hcount : (UInt8.ofNat payload.addresses.length).toNat = payload.addresses.length := by
        rw [UInt8.toNat_ofNat', Nat.mod_eq_of_lt (by omega)]
      have hpositive : 0 < payload.addresses.length := List.length_pos_iff.mpr hvalid.addresses
      refine ⟨⟨texts, payload.port.toNat, payload.username, payload.hostName.map trim, digest,
        some ⟨payload.bootstrapSeed.toList, payload.expiresAt.toNat⟩⟩, ?_,
        ⟨rfl, rfl, rfl, hdigest, rfl, hsame⟩⟩
      unfold readBody
      refine ((reads_byte _).run _ _).trans ?_
      refine (ensure_run ?_ _ _).trans ?_
      · cases payload.hostName with
        | none => decide
        | some name =>
          show decide (flagHostName &&& ~~~App.Pairing.hostNameFlag = 0) = true
          decide
      have hportLt := payload.port.toNat_lt
      refine ((reads_beValue 2 (by omega)).run _ _).trans ?_
      refine (ensure_run (by simp; omega) _ _).trans ?_
      refine ((reads_beValue 4 (by omega)).run _ _).trans ?_
      refine (ensure_run (decide_eq_true hexpires) _ _).trans ?_
      refine ((reads_bytes hlength).run _ _).trans ?_
      refine ((reads_bytes Vector.length_toList).run _ _).trans ?_
      refine ((reads_string husername).run _ _).trans ?_
      refine (ensure_run ?_ _ _).trans ?_
      · rw [List.isEmpty_eq_false_iff.mpr hvalid.username.1, containsWhitespace,
          solid_iff.mpr hvalid.username.2]
        rfl
      refine ((reads_hostName hname).run _ _).trans ?_
      refine (ensure_run ?_ _ _).trans ?_
      · cases hhost : payload.hostName with
        | none => rfl
        | some name =>
          have hne := Lib.Text.trim_trim_ne_nil (hvalid.hostName name hhost)
          simpa using hne
      refine ((reads_byte _).run _ _).trans ?_
      refine (ensure_run ?_ _ _).trans ?_
      · rw [decide_eq_true_iff, gt_iff_lt, UInt8.lt_iff_toNat_lt, hcount]
        exact hpositive
      rw [hcount, ← List.append_nil bytes]
      refine (htexts.run _ _).trans ?_
      rfl
    next => cases hcount
  next => cases hexpiry

/-- The app takes the body of the second version out of what the host emits. -/
theorem decode_envelope
    (decodeV1 : Text → Except App.Pairing.PairingCodeError App.Pairing.PairingCode)
    (body : Text) :
    decode decodeV1 (pairingCodePrefix ++
      ':' :: (Nat.toDigits 10 pairingCodeVersion ++ ':' :: body)) = decodeV2 body := by
  have hversion : Nat.toDigits 10 pairingCodeVersion = ['2'] := by decide
  have htext : pairingCodePrefix ++ ':' :: (['2'] ++ ':' :: body)
      = ("HERDR-PAIR".toList ++ [':']) ++ ('2' :: ':' :: body) := by
    unfold pairingCodePrefix
    generalize "HERDR-PAIR".toList = start
    simp
  rw [hversion, htext, decode, Text.afterPrefix_append]
  rfl

/-- Every payload that the host accepts, with a port from 1 on, is read by the app with the same
data; base 45 is read back for all bytes, and written back for every text that is accepted. -/
theorem decode_encode :
    (∀ (payload : PairingPayload) (text : Text)
      (decodeV1 : Text → Except App.Pairing.PairingCodeError App.Pairing.PairingCode),
      1 ≤ payload.port.toNat → encode payload = .ok text →
        ∃ code, decode decodeV1 text = .ok code ∧ SameCode payload code) ∧
    (∀ bytes, decodeBase45 (base45Encode bytes) = some bytes) ∧
    ∀ text bytes, decodeBase45 text = some bytes → base45Encode bytes = text := by
  refine ⟨?_, decodeBase45_base45Encode, fun _ _ => base45Encode_decodeBase45⟩
  intro payload text decodeV1 hport h
  obtain ⟨wire, hwire, h⟩ := bind_eq_ok.mp h
  cases h
  obtain ⟨code, hread, hsame⟩ := readBody_wireBytes hport hwire
  refine ⟨code, ?_, hsame⟩
  rw [decode_envelope, decodeV2, decodeBase45_base45Encode]
  dsimp only
  rw [hread]
  rfl

/-- A payload with an address of each kind. -/
def sample : PairingPayload where
  addresses := ["100.64.1.2".toList, "fe80::1:0:0:2".toList, "buildbox.local".toList]
  port := 22
  username := "developer".toList
  hostName := some " buildbox ".toList
  hostKeyFingerprint := "SHA256:".toList ++ List.replicate 43 'A'
  bootstrapSeed := Vector.replicate 32 0
  expiresAt := 1800000000

theorem decode_encode_sample :
    ∃ text code, encode sample = .ok text ∧
      decode (fun _ => .error .badPrefix) text = .ok code ∧ SameCode sample code := by
  have hok : (encode sample).toOption.isSome = true := by decide +kernel
  cases hencode : encode sample with
  | error err =>
    rw [hencode] at hok
    cases hok
  | ok text =>
    obtain ⟨code, hcode, hsame⟩ :=
      decode_encode.1 sample text (fun _ => .error .badPrefix) (by decide) hencode
    exact ⟨text, code, rfl, hcode, hsame⟩

end Herden.Proofs.Pairing.Code
