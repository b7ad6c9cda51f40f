import Herden.Lib.Text

/-!
# `Herden.App.PairingCode`: reading a Pairing Code

Embedding of `Sources/Herden/Pairing/PairingCode.swift`. A `Reader` takes bytes from the front of
the body and throws when they run out. The first version of the format is JSON and not read here:
`decode` gets its reader as an argument. Both of the code's white space sets are `isWhitespace`.
-/

namespace Herden.App.Pairing

open Herden.Lib (Text)
open Herden.Lib.Text (isWhitespace trim fromUtf8)

structure Bootstrap where
  seed : List UInt8
  /-- Seconds since the epoch. -/
  expiresAt : Nat

structure PairingCode where
  addresses : List Text
  port : Nat
  username : Text
  hostName : Option Text
  hostKeyFingerprint : List UInt8
  bootstrap : Option Bootstrap

inductive PairingCodeError where
  | badPrefix
  | unsupportedVersion (found : Text)
  | badEncoding
  | badPayload (reason : Text)

/-! ### Base 45 -/

def alphabet : List Char := "0123456789ABCDEFGHIJKLMNOPQRSTUVWXYZ $%*+-./:".toList

/-- The loop over the values. A single value left over is ruled out before. -/
def decodeValues : List Nat → Option (List UInt8)
  | [] => some []
  | [_] => none
  | [low, high] =>
      let value := low + high * 45
      if value ≤ 255 then some [UInt8.ofNat value] else none
  | low :: middle :: high :: rest =>
      let value := low + middle * 45 + high * 2025
      if value ≤ 65535 then do
        let others ← decodeValues rest
        return UInt8.ofNat (value / 256) :: UInt8.ofNat (value % 256) :: others
      else none

def decodeBase45 (text : Text) : Option (List UInt8) := do
  let values ← text.mapM fun c => alphabet.findIdx? (· = c)
  if values.length % 3 = 1 then none else decodeValues values

/-! ### IPv6 -/

/-- Two bytes at a time. -/
def groupsOf : List UInt8 → List UInt16
  | high :: low :: rest => UInt16.ofNat (high.toNat * 256 + low.toNat) :: groupsOf rest
  | _ => []

/-- The start and the length of the longest run of zeros, from `index` on. -/
def longestZeros (groups : List UInt16) (index : Nat) (longest : Option (Nat × Nat)) :
    Option (Nat × Nat) :=
  match groups with
  | [] => longest
  | group :: rest =>
      if group ≠ 0 then longestZeros rest (index + 1) longest
      else
        let count := 1 + (rest.takeWhile (· = 0)).length
        longestZeros (rest.dropWhile (· = 0)) (index + count)
          (if count > (longest.map Prod.snd).getD 0 && count ≥ 2 then some (index, count)
            else longest)
termination_by groups.length
decreasing_by
  · simp
  · have := (List.dropWhile_sublist (l := rest) (· = 0)).length_le
    simp only [List.length_cons]
    omega

def joinHex (groups : List UInt16) : Text :=
  [':'].intercalate (groups.map fun group => Nat.toDigits 16 group.toNat)

def formatIPv6 (bytes : List UInt8) : Text :=
  let groups := groupsOf bytes
  match longestZeros groups 0 none with
  | none => joinHex groups
  | some (start, count) =>
      joinHex (groups.take start) ++ "::".toList ++ joinHex (groups.drop (start + count))

/-! ### The body -/

/-- `BinaryReader`: the bytes that are left. -/
abbrev Reader (α : Type) := StateT (List UInt8) (Except PairingCodeError) α

def badPayload {α : Type} (reason : Text) : Reader α := fun _ => .error (.badPayload reason)

/-- `guard .. else { throw .. }`: throw when the test fails. -/
def ensure (test : Bool) (reason : Text) : Reader Unit :=
  if test then pure () else badPayload reason

def readByte : Reader UInt8 := fun bytes =>
  match bytes with
  | [] => badPayload "compact payload is truncated".toList bytes
  | byte :: rest => .ok (byte, rest)

def readBytes (count : Nat) : Reader (List UInt8) := fun bytes =>
  if count ≤ bytes.length then .ok (bytes.take count, bytes.drop count)
  else badPayload "compact payload is truncated".toList bytes

/-- Shifting by eight and adding the next byte. -/
def beValue (bytes : List UInt8) : Nat := bytes.foldl (fun value byte => value * 256 + byte.toNat) 0

def readUInt16 : Reader Nat := do return beValue (← readBytes 2)

def readUInt32 : Reader Nat := do return beValue (← readBytes 4)

def readString : Reader Text := do
  let count ← readByte
  let value ← readBytes count.toNat
  match fromUtf8 value with
  | some text => return text
  | none => badPayload "compact string is not UTF-8".toList

def hostNameFlag : UInt8 := 1

def addressIPv4 : UInt8 := 0

def addressIPv6 : UInt8 := 1

def addressName : UInt8 := 2

def containsWhitespace (text : Text) : Bool := text.any isWhitespace

/-- The text of an address of this kind. -/
def readAddressText (kind : UInt8) : Reader Text :=
  if kind = addressIPv4 then do
    let bytes ← readBytes 4
    return ['.'].intercalate (bytes.map fun byte => Nat.toDigits 10 byte.toNat)
  else if kind = addressIPv6 then do
    let bytes ← readBytes 16
    return formatIPv6 bytes
  else if kind = addressName then readString
  else badPayload "unknown compact address kind".toList

def readAddress : Reader Text := do
  let kind ← readByte
  let address ← readAddressText kind
  ensure (!address.isEmpty && !containsWhitespace address) ("invalid address: ".toList ++ address)
  return address

def readAddresses : Nat → Reader (List Text)
  | 0 => return []
  | count + 1 => do
      let first ← readAddress
      let rest ← readAddresses count
      return first :: rest

def readHostName (flags : UInt8) : Reader (Option Text) :=
  if flags &&& hostNameFlag ≠ 0 then do return some (← readString) else return none

def isAtEnd : Reader Bool := fun bytes => .ok (bytes.isEmpty, bytes)

def readBody : Reader PairingCode := do
  let flags ← readByte
  ensure (flags &&& ~~~hostNameFlag = 0) "unsupported compact payload flags".toList
  let port ← readUInt16
  ensure (1 ≤ port && port ≤ 65535) "port must be an integer in 1..65535".toList
  let expiresAt ← readUInt32
  ensure (expiresAt > 0) "exp must be a positive unix-seconds integer".toList
  let fingerprint ← readBytes 32
  let seed ← readBytes 32
  let username ← readString
  ensure (!username.isEmpty && !containsWhitespace username)
    "username must be a non-empty string without whitespace".toList
  let hostName ← readHostName flags
  ensure (hostName.all fun name => !(trim name).isEmpty) "Host name must not be empty".toList
  let addressCount ← readByte
  ensure (addressCount > 0) "addresses must be a non-empty array".toList
  let addresses ← readAddresses addressCount.toNat
  ensure (← isAtEnd) "unexpected trailing compact payload data".toList
  return ⟨addresses, port, username, hostName, fingerprint, some ⟨seed, expiresAt⟩⟩

def decodeV2 (encodedBody : Text) : Except PairingCodeError PairingCode :=
  match decodeBase45 encodedBody with
  | none => .error .badEncoding
  | some body => (readBody body).map Prod.fst

/-- `decodeV1` reads the first version of the format. -/
def decode (decodeV1 : Text → Except PairingCodeError PairingCode) (scanned : Text) :
    Except PairingCodeError PairingCode :=
  match Text.afterPrefix ("HERDR-PAIR".toList ++ [':']) scanned with
  | none => .error .badPrefix
  | some rest =>
      match rest.dropWhile (· ≠ ':') with
      | [] => .error .badPrefix
      | _ :: encodedBody =>
          let foundVersion := rest.takeWhile (· ≠ ':')
          if foundVersion = ['1'] then decodeV1 encodedBody
          else if foundVersion = ['2'] then decodeV2 encodedBody
          else .error (.unsupportedVersion foundVersion)

end Herden.App.Pairing
