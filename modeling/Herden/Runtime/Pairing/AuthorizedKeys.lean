import Herden.Runtime.Pairing.Identity

/-!
# `Herden.Runtime.Pairing.AuthorizedKeys`: edits of `authorized_keys`

Embedding of `runtime/src/pairing/authorized_keys.rs`. The file is its text, or `none` when it is
missing. An edit reads the lines, and writes them back if it has changed something. The lock makes
edits exclusive, so each is one function of the file; `enroll` is also given in its parts, for
what other processes do while one holds the lock.
-/

namespace Herden.Runtime.Pairing.AuthorizedKeys

open Herden.Lib (Text)
open Herden.Lib.Text (splitWhitespace afterPrefix rsplitOnce lines unlines)
open Herden.Runtime.Pairing.Identity (keyIdentity)

def markerStart : Text := "herden-pairing:".toList

structure Marker where
  id : Text
  expiresAt : Nat

/-- A letter or digit of ASCII, or a hyphen. -/
def isIdChar (c : Char) : Bool := c.isAlphanum || c = '-'

def isPairingId (id : Text) : Bool := !id.isEmpty && id.all isIdChar

/-- `str::parse::<u64>`, where a plus sign may come first. -/
def parseU64 (text : Text) : Option Nat :=
  let digits := (afterPrefix ['+'] text).getD text
  if !digits.isEmpty && digits.all Char.isDigit then
    let value := Nat.ofDigitChars 10 digits 0
    if value < 2 ^ 64 then some value else none
  else none

def marker (line : Text) : Option Marker := do
  let word ← (splitWhitespace line).getLast?
  let value ← afterPrefix markerStart word
  let (id, expiry) ← rsplitOnce ":exp:".toList value
  if isPairingId id then
    return ⟨id, ← parseU64 expiry⟩
  else none

def bootstrapLine (publicLine pairingId : Text) (expiresAt : Nat) (command : Text) :
    Except String Text :=
  if !isPairingId pairingId then .error "pairing id must be alphanumeric or hyphenated"
  else if command.any fun c => c = '"' || c = '\n' || c = '\r' then
    .error "forced command must not contain quotes or newlines"
  else
    .ok ("restrict,command=\"".toList ++ (command ++ ('"' :: ' ' :: (publicLine ++
      (' ' :: (markerStart ++ (pairingId ++ (":exp:".toList ++ Nat.toDigits 10 expiresAt))))))))

/-! ### Edits -/

/-- The lines of the file. A missing file has none. -/
def readLines (file : Option Text) : List Text := (file.map lines).getD []

def edit (file : Option Text) (body : List Text → Option (List Text)) : Option Text :=
  match body (readLines file) with
  | none => file
  | some edited => some (unlines edited)

/-- The line has no marker of this pairing. -/
def keeps (pairingId line : Text) : Bool := (marker line).all (·.id ≠ pairingId)

/-- The line has no marker that has expired. -/
def outlives (now : Nat) (line : Text) : Bool := (marker line).all (·.expiresAt > now)

def appendBootstrap (line : Text) (file : Option Text) : Option Text :=
  edit file fun lines => some (lines ++ [line])

/-- Remove the lines that fail a test, if there are any. -/
def retain (test : Text → Bool) (file : Option Text) : Option Text :=
  edit file fun lines =>
    let kept := lines.filter test
    if kept.length ≠ lines.length then some kept else none

def removeBootstrap (pairingId : Text) : Option Text → Option Text := retain (keeps pairingId)

def sweepExpired (now : Nat) : Option Text → Option Text := retain (outlives now)

inductive EnrollResult where
  | enrolled
  | alreadyUsed
  | expired
deriving DecidableEq

/-- The line of the device, unless its key is there. -/
def pushDevice (kept : List Text) (deviceLine : Text) : List Text :=
  if kept.any fun line => keyIdentity line = keyIdentity deviceLine then kept
  else kept ++ [deviceLine]

/-- What `enroll` asks its caller: whether the pairing is pending, whether it has expired, and
whether the enrolment could be recorded. -/
structure EnrollCalls where
  pendingExists : Bool
  expired : Bool
  recorded : Bool

/-- `none` when the enrolment could not be recorded. -/
def enroll (pairingId deviceLine : Text) (calls : EnrollCalls) (file : Option Text) :
    Option EnrollResult × Option Text :=
  if !calls.pendingExists then (some .alreadyUsed, file)
  else
    let kept := (readLines file).filter (keeps pairingId)
    if calls.expired then (some .expired, some (unlines kept))
    else if calls.recorded then (some .enrolled, some (unlines (pushDevice kept deviceLine)))
    else (none, file)

end Herden.Runtime.Pairing.AuthorizedKeys
