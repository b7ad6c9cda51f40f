import Herden.Lib.Concurrent
import Herden.Runtime.Pairing.AuthorizedKeys

/-!
# `Herden.Runtime.Pairing.Ceremony`: a `pair` process and its `accept` processes

Embedding of `display` (from the first record it writes), `PairingCleanup` and `accept`
(`runtime/src/pairing/mod.rs`), with the two records of `runtime/src/pairing/session.rs`.
`advancePair` and `advanceAccept` take a process from one access of shared state to the next: the
records, the clock, `authorized_keys` and its lock.

Nobody else edits the file while a process holds the lock. So an edit that looks at nothing else
is one step, which waits until the lock is free. `enroll` looks at the records and the clock while
it holds the lock, and is taken apart. Reads, writes, renames and removals succeed, and a process
waits for the lock as long as it takes. All processes are about one pairing id, so the records are
those of this id. The private state of the `pair` process is a field of the shared state: there is
one such process.
-/

namespace Herden.Runtime.Pairing.Ceremony

open Herden.Lib (Text System)
open Herden.Lib.Text (trim unlines)
open Herden.Runtime.Pairing.Identity (DeviceKey parseDeviceKey)
open Herden.Runtime.Pairing.AuthorizedKeys

structure PendingPairing where
  pairingId : Text
  expiresAt : Nat
  publicLine : Text

structure Enrollment where
  pairingId : Text
  expiresAt : Nat
  fingerprint : Text
  line : Text

/-- What `display` has made up before it writes its first record. -/
structure Setup where
  pairingId : Text
  expiresAt : Nat
  publicLine : Text
  command : Text
  authorizedLine : Text
  authorizedLine_eq : bootstrapLine publicLine pairingId expiresAt command = .ok authorizedLine

/-! ### Phases of the processes -/

/-- How the loop of `display` ends. -/
inductive Verdict where
  | paired (fingerprint : Text)
  | cancelled (status : Nat)
  | expired
deriving DecidableEq

/-- The exit status and the message. -/
def Verdict.report : Verdict → Nat × Text
  | .paired fingerprint => (0, "Paired successfully: ".toList ++ fingerprint)
  | .cancelled status => (status, "Pairing cancelled.".toList)
  | .expired => (1, "Pairing Code expired. Run `herden pair` to generate another.".toList)

inductive PairPhase where
  | ready
  | written
  /-- About to read the enrolment record. -/
  | polling
  /-- There was no record; about to look at the signal. -/
  | looked
  | unsignalled
  | waiting
  /-- About to read the record once more, after the expiry. -/
  | rechecking
  | decided (verdict : Verdict)
  /-- The bootstrap line is removed. -/
  | removed (verdict : Verdict)
  | cleared (verdict : Verdict)
  | done (verdict : Verdict)
deriving DecidableEq

/-- What the first checks of `accept` find. -/
inductive Refusal where
  | unknownPairing
  | expired

/-- How `accept` ends. -/
inductive Answer where
  | refused (refusal : Refusal)
  | noInput
  | invalidKey (message : String)
  | result (key : DeviceKey) (result : EnrollResult)

/-- The line that `accept` prints. -/
def Answer.report : Answer → Text
  | .refused .unknownPairing | .result _ .alreadyUsed => "HERDR-ENROLL:ERR:unknown_pairing".toList
  | .refused .expired | .result _ .expired => "HERDR-ENROLL:ERR:expired".toList
  | .noInput => "HERDR-ENROLL:ERR:no_input".toList
  | .invalidKey _ => "HERDR-ENROLL:ERR:invalid_key".toList
  | .result key .enrolled => "HERDR-ENROLL:OK:".toList ++ key.fingerprint

inductive AcceptPhase where
  | absent
  | started
  /-- The first checks have failed, and the pairing is about to be cleaned up. -/
  | failing (refusal : Refusal)
  | clearingPending (refusal : Refusal)
  | clearingEnrolled (refusal : Refusal)
  | read (pending : PendingPairing)
  | waiting (pending : PendingPairing)
  | submitted (pending : PendingPairing) (key : DeviceKey)
  /-- In `enroll` from here on, with the lock. -/
  | checking (pending : PendingPairing) (key : DeviceKey) (lines : List Text)
  | consuming (pending : PendingPairing) (key : DeviceKey) (kept : List Text)
  | consumed (pending : PendingPairing) (key : DeviceKey) (kept : List Text)
  | recording (pending : PendingPairing) (key : DeviceKey) (kept : List Text)
  | writing (key : DeviceKey) (result : EnrollResult) (kept : List Text)
  | releasing (key : DeviceKey) (result : EnrollResult)
  | ended (answer : Answer)

structure Shared where
  authorizedKeys : Option Text
  pending : Option PendingPairing
  enrolled : Option Enrollment
  /-- `unix_seconds()`. -/
  clock : Nat
  /-- The `accept` process that holds the lock. -/
  lock : Option Nat
  pair : PairPhase
  /-- `cancelled`. -/
  signalled : Bool

/-! ### Steps -/

section

variable (setup : Setup) (sha256 : List UInt8 → List UInt8)

/-- `none` while the process waits for the lock or the terminal, and when it is done. -/
def advancePair (shared : Shared) : Option Shared :=
  match shared.pair with
  | .ready =>
      some { shared with
        pending := some ⟨setup.pairingId, setup.expiresAt, setup.publicLine⟩
        pair := .written }
  | .written =>
      if shared.lock.isNone then
        some { shared with
          authorizedKeys := appendBootstrap setup.authorizedLine shared.authorizedKeys
          pair := .polling }
      else none
  | .polling =>
      match shared.enrolled with
      | some enrollment => some { shared with pair := .decided (.paired enrollment.fingerprint) }
      | none => some { shared with pair := .looked }
  | .looked =>
      if shared.signalled then some { shared with pair := .decided (.cancelled 130) }
      else some { shared with pair := .unsignalled }
  | .unsignalled =>
      if shared.clock > setup.expiresAt then some { shared with pair := .rechecking }
      else some { shared with pair := .waiting }
  | .waiting => none
  | .rechecking =>
      match shared.enrolled with
      | some enrollment => some { shared with pair := .decided (.paired enrollment.fingerprint) }
      | none => some { shared with pair := .decided .expired }
  | .decided verdict =>
      if shared.lock.isNone then
        some { shared with
          authorizedKeys := removeBootstrap setup.pairingId shared.authorizedKeys
          pair := .removed verdict }
      else none
  | .removed verdict => some { shared with pending := none, pair := .cleared verdict }
  | .cleared verdict => some { shared with enrolled := none, pair := .done verdict }
  | .done _ => none

/-- `poll_cancel`, when it returns. -/
def pollCancel (status : Option Nat) (shared : Shared) : Option Shared :=
  match shared.pair, status with
  | .waiting, none => some { shared with pair := .polling }
  | .waiting, some status => some { shared with pair := .decided (.cancelled status) }
  | _, _ => none

/-- `none` while the process waits for the lock or its input, and when it has ended. -/
def advanceAccept (process : Nat) (shared : Shared) : AcceptPhase → Option (Shared × AcceptPhase)
  | .absent => none
  | .started =>
      match shared.pending with
      | none => some (shared, .failing .unknownPairing)
      | some pending => some (shared, .read pending)
  | .failing refusal =>
      if shared.lock.isNone then
        some ({ shared with
          authorizedKeys := removeBootstrap setup.pairingId shared.authorizedKeys },
          .clearingPending refusal)
      else none
  | .clearingPending refusal => some ({ shared with pending := none }, .clearingEnrolled refusal)
  | .clearingEnrolled refusal =>
      some ({ shared with enrolled := none }, .ended (.refused refusal))
  | .read pending =>
      if shared.clock > pending.expiresAt then some (shared, .failing .expired)
      else some (shared, .waiting pending)
  | .waiting _ => none
  | .submitted pending key =>
      if shared.lock.isNone then
        some ({ shared with lock := some process },
          .checking pending key (readLines shared.authorizedKeys))
      else none
  | .checking pending key lines =>
      if shared.pending.isSome then
        some (shared, .consuming pending key (lines.filter (keeps setup.pairingId)))
      else some (shared, .releasing key .alreadyUsed)
  | .consuming pending key kept =>
      some ({ shared with pending := none }, .consumed pending key kept)
  | .consumed pending key kept =>
      if shared.clock > pending.expiresAt then some (shared, .writing key .expired kept)
      else some (shared, .recording pending key (pushDevice kept key.line))
  | .recording pending key kept =>
      some ({ shared with
        enrolled := some ⟨setup.pairingId, pending.expiresAt, key.fingerprint, key.line⟩ },
        .writing key .enrolled kept)
  | .writing key result kept =>
      some ({ shared with authorizedKeys := some (unlines kept) }, .releasing key result)
  | .releasing key result => some ({ shared with lock := none }, .ended (.result key result))
  | .ended _ => none

/-- What `accept` makes of the line it has read, or of a timeout. -/
def takeSubmission (pending : PendingPairing) : Option Text → AcceptPhase
  | none => .ended .noInput
  | some submission =>
      if (trim submission).isEmpty then .ended .noInput
      else
        match parseDeviceKey sha256 submission with
        | .error message => .ended (.invalidKey message)
        | .ok key => .submitted pending key

abbrev State := System Shared Nat AcceptPhase

inductive Op where
  | tick (now : Nat)
  /-- Ctrl-C. -/
  | signal
  | input (status : Option Nat)
  | pair
  | start (process : Nat)
  | submit (process : Nat) (submission : Option Text)
  | accept (process : Nat)

/-- A step of the pair process or of the world around the processes. -/
def stepShared (shared : Shared) : Op → Option Shared
  | .tick now => some { shared with clock := now }
  | .signal => some { shared with signalled := true }
  | .input status => pollCancel status shared
  | .pair => advancePair setup shared
  | _ => none

def step (state : State) : Op → Option (State × Unit)
  | .start process =>
      match state.process process with
      | .absent => some (state.set process state.shared .started, ())
      | _ => none
  | .submit process submission =>
      match state.process process with
      | .waiting pending =>
          some (state.set process state.shared (takeSubmission sha256 pending submission), ())
      | _ => none
  | .accept process =>
      (advanceAccept setup process state.shared (state.process process)).map fun next =>
        (state.set process next.1 next.2, ())
  | op => (stepShared setup state.shared op).map fun shared => ({ state with shared }, ())

end

end Herden.Runtime.Pairing.Ceremony
