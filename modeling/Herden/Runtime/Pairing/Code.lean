import Herden.Lib.Base64
import Herden.Lib.IpAddr
import Herden.Lib.Text

/-!
# `Herden.Runtime.Pairing.Code`: writing a Pairing Code

Embedding of `runtime/src/pairing/code.rs`. The payload is written as bytes and these in base 45,
whose alphabet a QR code holds in its alphanumeric mode.
-/

namespace Herden.Runtime.Pairing.Code

open Herden.Lib (Text IpAddr)
open Herden.Lib.Text (isWhitespace trim utf8)

def pairingCodePrefix : Text := "HERDR-PAIR".toList

def pairingCodeVersion : Nat := 2

def flagHostName : UInt8 := 1

def addressIpv4 : UInt8 := 0

def addressIpv6 : UInt8 := 1

def addressName : UInt8 := 2

structure PairingPayload where
  addresses : List Text
  port : UInt16
  username : Text
  hostName : Option Text
  hostKeyFingerprint : Text
  bootstrapSeed : Vector UInt8 32
  expiresAt : UInt64

structure PairingCodeError where
  message : String

/-- A string after a byte with its length. -/
def pushString (value : Text) (tooLong : String) : Except PairingCodeError (List UInt8) :=
  if (utf8 value).length < 256 then .ok (UInt8.ofNat (utf8 value).length :: utf8 value)
  else .error ⟨tooLong⟩

def fingerprintDigest (value : Text) : Except PairingCodeError (List UInt8) :=
  match (Text.afterPrefix "SHA256:".toList value).bind Herden.Lib.Base64.decodeChars with
  | some digest =>
      if digest.length = 32 then .ok digest
      else .error ⟨"SSH Host fingerprint must use OpenSSH SHA256 form"⟩
  | none => .error ⟨"SSH Host fingerprint must use OpenSSH SHA256 form"⟩

def base45Alphabet : List Char := "0123456789ABCDEFGHIJKLMNOPQRSTUVWXYZ $%*+-./:".toList

/-- `ALPHABET[value] as char`. -/
def base45Symbol (value : Nat) : Char := base45Alphabet.getD value '0'

def base45Encode : List UInt8 → Text
  | [] => []
  | [last] => [base45Symbol (last.toNat % 45), base45Symbol (last.toNat / 45)]
  | high :: low :: rest =>
      let value := high.toNat * 256 + low.toNat
      base45Symbol (value % 45) :: base45Symbol (value / 45 % 45)
        :: base45Symbol (value / (45 * 45)) :: base45Encode rest

/-- `return Err(..)` when the test holds. -/
def reject (bad : Bool) (message : String) : Except PairingCodeError Unit :=
  if bad then .error ⟨message⟩ else .ok ()

def validate (payload : PairingPayload) : Except PairingCodeError Unit := do
  reject payload.addresses.isEmpty "at least one Host address is required"
  reject (payload.addresses.any fun address => address.isEmpty || address.any isWhitespace)
    "Host addresses must be non-empty and contain no whitespace"
  reject (payload.username.isEmpty || payload.username.any isWhitespace)
    "SSH username must be non-empty and contain no whitespace"
  reject (payload.hostName.any fun name => (trim name).isEmpty) "Host name must not be empty"
  let _ ← fingerprintDigest payload.hostKeyFingerprint
  reject (payload.expiresAt = 0) "Pairing Code expiry must be positive"

/-- The bytes of a number, the highest first. -/
def toBeBytes : Nat → Nat → List UInt8
  | 0, _ => []
  | count + 1, value => toBeBytes count (value / 256) ++ [UInt8.ofNat (value % 256)]

def pushAddress (address : Text) : Except PairingCodeError (List UInt8) :=
  match IpAddr.parseIpAddr address with
  | some (.v4 octets) => .ok (addressIpv4 :: (IpAddr.v4 octets).octets)
  | some (.v6 segments) => .ok (addressIpv6 :: (IpAddr.v6 segments).octets)
  | none => do
      return addressName :: (← pushString address "Host address is too long")

def pushAddresses : List Text → Except PairingCodeError (List UInt8)
  | [] => .ok []
  | address :: rest => do
      let first ← pushAddress address
      let others ← pushAddresses rest
      return first ++ others

def pushHostName : Option Text → Except PairingCodeError (List UInt8)
  | none => .ok []
  | some name => pushString name "Host name is too long"

/-- `u32::try_from(..)`. -/
def expiryBytes (expiresAt : UInt64) : Except PairingCodeError (List UInt8) :=
  if expiresAt.toNat < 2 ^ 32 then .ok (toBeBytes 4 expiresAt.toNat)
  else .error ⟨"Pairing Code expiry is out of range"⟩

def countByte (count : Nat) : Except PairingCodeError (List UInt8) :=
  if count < 256 then .ok [UInt8.ofNat count] else .error ⟨"too many Host addresses"⟩

/-- The bytes of a payload. -/
def wireBytes (payload : PairingPayload) : Except PairingCodeError (List UInt8) := do
  validate payload
  let hostName := payload.hostName.map trim
  let flags := if hostName.isSome then flagHostName else 0
  let expiry ← expiryBytes payload.expiresAt
  let digest ← fingerprintDigest payload.hostKeyFingerprint
  let username ← pushString payload.username "SSH username is too long"
  let name ← pushHostName hostName
  let count ← countByte payload.addresses.length
  let addresses ← pushAddresses payload.addresses
  return flags :: (toBeBytes 2 payload.port.toNat ++ (expiry ++ (digest ++
    (payload.bootstrapSeed.toList ++ (username ++ (name ++ (count ++ addresses)))))))

def encode (payload : PairingPayload) : Except PairingCodeError Text := do
  let wire ← wireBytes payload
  return pairingCodePrefix ++ ':' ::
      (Nat.toDigits 10 pairingCodeVersion ++ ':' :: base45Encode wire)

end Herden.Runtime.Pairing.Code
