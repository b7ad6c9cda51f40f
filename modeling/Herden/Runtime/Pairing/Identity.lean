import Herden.Lib.Base64
import Herden.Lib.Text

/-!
# `Herden.Runtime.Pairing.Identity`: lines of public keys

Embedding of the parts of `runtime/src/pairing/identity.rs` that read and write the lines of
`authorized_keys`. The hash of a fingerprint is a parameter.
-/

namespace Herden.Runtime.Pairing.Identity

open Herden.Lib (Text)
open Herden.Lib.Base64 (encodePadded decodePadded)
open Herden.Lib.Text (trim splitWhitespace utf8)

def keyType : Text := "ssh-ed25519".toList

structure DeviceKey where
  line : Text
  fingerprint : Text
deriving DecidableEq

/-- `u32::from_be_bytes`. -/
def beValue (bytes : List UInt8) : Nat := bytes.foldl (fun value byte => value * 256 + byte.toNat) 0

/-- A string after its length, and the rest. -/
def readSshString (input : List UInt8) : Option (List UInt8 × List UInt8) :=
  if input.length < 4 then none
  else
    let size := beValue (input.take 4)
    if 4 + size ≤ input.length then
      some ((input.drop 4).take size, input.drop (4 + size))
    else none

def writeSshString (value : List UInt8) : List UInt8 :=
  [UInt8.ofNat (value.length / 2 ^ 24), UInt8.ofNat (value.length / 2 ^ 16),
    UInt8.ofNat (value.length / 2 ^ 8), UInt8.ofNat value.length] ++ value

def publicLineFromRaw (publicKey : Vector UInt8 32) : Text :=
  keyType ++ ' ' :: encodePadded (writeSshString (utf8 keyType) ++ writeSshString publicKey.toList)

section

variable (sha256 : List UInt8 → List UInt8)

def fingerprintPublicLine (line : Text) : Option Text := do
  let blobText ← (splitWhitespace line)[1]?
  let blob ← decodePadded blobText
  return "SHA256:".toList ++ (encodePadded (sha256 blob)).rdropWhile (· = '=')

/-- A byte from the space to the tilde. -/
def isPrintable (c : Char) : Bool := ' ' ≤ c && c ≤ '~'

/-- `return Err(..)` when the test holds. -/
def reject (bad : Bool) (message : String) : Except String Unit :=
  if bad then .error message else .ok ()

/-- `ok_or(..)`. -/
def okOr {α : Type} (value : Option α) (message : String) : Except String α :=
  match value with
  | some value => .ok value
  | none => .error message

def canonicalLine (blob : List UInt8) (comment : Text) : Text :=
  if comment.isEmpty then keyType ++ ' ' :: encodePadded blob
  else keyType ++ ' ' :: (encodePadded blob ++ ' ' :: comment)

def parseDeviceKey (input : Text) : Except String DeviceKey := do
  reject ((utf8 input).length > 1024) "submission exceeds 1024 characters"
  let line := trim input
  reject line.isEmpty "submission is empty"
  reject (line.any fun c => c = '\n' || c = '\r') "submission must be a single line"
  let words := line.splitOn ' '
  reject (words.head? ≠ some keyType) "key type must be ssh-ed25519"
  let blobText ← okOr words[1]? "key blob is missing"
  let blob ← okOr (decodePadded blobText) "key blob is not base64"
  let (wireType, rest) ← okOr (readSshString blob) "truncated key blob"
  reject (wireType ≠ utf8 keyType) "key blob type disagrees with the line type"
  let (publicKey, trailing) ← okOr (readSshString rest) "truncated key blob"
  reject (publicKey.length ≠ 32) "Ed25519 public key must be 32 bytes"
  reject (!trailing.isEmpty) "key blob has trailing bytes"
  let comment := [' '].intercalate (words.drop 2)
  reject (!comment.all isPrintable) "comment must be printable ASCII"
  let fingerprint ← okOr (fingerprintPublicLine sha256 (canonicalLine blob comment))
    "could not fingerprint Device Key"
  return ⟨canonicalLine blob comment, fingerprint⟩

end

/-- The type and the blob of a line, without its options and its comment. -/
def keyIdentity (line : Text) : Option Text :=
  match splitWhitespace line with
  | [] => none
  | first :: words =>
      let named := "ssh-".toList.isPrefixOf first || "ecdsa-".toList.isPrefixOf first
      match if named then first :: words else words with
      | type :: blob :: _ => some (type ++ ' ' :: blob)
      | _ => none

end Herden.Runtime.Pairing.Identity
