import Mathlib.Data.Char
import Mathlib.Data.List.Lex
import Herden.Lib.Fallible
import Herden.Lib.HashMap
import Mathlib.Algebra.Group.Nat.Defs

/-!
# `Herden.Runtime.SessionWriter`: saving, clearing and the recovery copies

Embedding of `runtime/src/persist/writer.rs` and of `save_json_to_path` and `clear_path`
(`runtime/src/persist/io.rs`). Every call into the file system goes through `attempt`, which
asks the `World` whether the call fails. A failed call has no effect, except that a copy may
leave part of its bytes behind. A missing file and an existing one are told by the state of the
disk, never by a failure, so `NotFound` and `AlreadyExists` mean what they say.

`Disk` is what the calls touch: the session file, the history file and the two directories of
recovery copies, with the writer's flag next to them. `published` is the moment a file got its
name. The temporary file of a save is not there: it has no reader. Reading a session snapshot
from its bytes is a parameter, since only its version, whether it has workspaces and its
fingerprint are looked at.
-/

namespace Herden.Runtime.SessionWriter

open Herden.Lib (Fallible HashMap)
open Herden.Lib.Fallible (get modify throw observe)

abbrev Bytes := List UInt8

/-- The name of a file in a directory. -/
abbrev Name := List Char

/-- `io::ErrorKind`, as far as the code looks at it. -/
inductive IoError where
  | notFound
  | alreadyExists
  | other
deriving DecidableEq

structure File where
  bytes : Bytes
  modified : Nat
  published : Nat

/-- A regular file, or something else under a file name. -/
inductive Entry where
  | file (file : File)
  | other

abbrev Dir := HashMap Name Entry

/-- The two directories of recovery copies. -/
inductive DirName where
  | sessionBackups
  | sessionSnapshots
deriving DecidableEq

/-- What stands at the path of the session or of its history. -/
inductive Node where
  | file (bytes : Bytes)
  | other
deriving DecidableEq

structure Disk where
  protectUnloaded : Bool
  session : Option Node
  history : Option Node
  backups : Option Dir
  snapshots : Option Dir
  /-- The calls made so far. -/
  tick : Nat

def Disk.dir (self : Disk) : DirName → Option Dir
  | .sessionBackups => self.backups
  | .sessionSnapshots => self.snapshots

def Disk.setDir (self : Disk) (name : DirName) (dir : Dir) : Disk :=
  match name with
  | .sessionBackups => { self with backups := some dir }
  | .sessionSnapshots => { self with snapshots := some dir }

/-- What `serde_json::from_slice::<SessionSnapshot>` finds. -/
structure SnapshotView where
  version : Nat
  hasWorkspaces : Bool
  layoutFingerprint : Option (List UInt8)

/-- Everything the program does not decide: which calls fail, the clock, what a failed copy
leaves behind, the process id, and how a snapshot is read. -/
structure World where
  fails : Nat → Bool
  clock : Nat → Fin (2 ^ 128)
  torn : Nat → Bytes
  pid : Nat
  decode : Bytes → Option SnapshotView

abbrev Io (α : Type) := Fallible Disk IoError α

section

variable (world : World)

/-! ### Calls into the file system -/

/-- One call into the file system: its moment, or a failure. -/
def attempt : Io Nat := fun disk =>
  (if world.fails disk.tick then .error .other else .ok disk.tick,
    { disk with tick := disk.tick + 1 })

/-- `SystemTime::now`, in nanoseconds since the epoch. -/
def systemTimeNow : Io Nat := fun disk =>
  (.ok (world.clock disk.tick).val, { disk with tick := disk.tick + 1 })

/-- Open the session file: what stands there, or nothing. -/
def openSession : Io (Option Node) := do
  let _ ← attempt world
  return (← get).session

def createDirAll (directory : DirName) : Io Unit := do
  let _ ← attempt world
  modify fun disk =>
    match disk.dir directory with
    | some _ => disk
    | none => disk.setDir directory ∅

/-- The entry of a name, or `NotFound`. -/
def symlinkMetadata (directory : DirName) (name : Name) : Io Entry := do
  let _ ← attempt world
  match (← get).dir directory with
  | none => throw .notFound
  | some dir =>
      match dir.get name with
      | none => throw .notFound
      | some entry => return entry

def removeFile (directory : DirName) (name : Name) : Io Unit := do
  let _ ← attempt world
  match (← get).dir directory with
  | none => throw .notFound
  | some dir =>
      match dir.get name with
      | none => throw .notFound
      | some _ => modify (·.setDir directory (dir.remove name))

/-- `create_config_temporary`: a new empty file. -/
def createNew (directory : DirName) (name : Name) : Io Unit := do
  let moment ← attempt world
  match (← get).dir directory with
  | none => throw .notFound
  | some dir =>
      match dir.get name with
      | some _ => throw .alreadyExists
      | none =>
          modify (·.setDir directory
            (dir.insert name (.file ⟨[], (world.clock moment).val, moment⟩)))

/-- The bytes of the open file `name`. -/
def writeFile (directory : DirName) (name : Name) (bytes : Bytes) (moment : Nat) (disk : Disk) :
    Disk :=
  match disk.dir directory with
  | none => disk
  | some dir =>
      disk.setDir directory
        (dir.insert name (.file ⟨bytes, (world.clock moment).val, moment⟩))

/-- `io::copy` into the open file `name`. A failure leaves some bytes there. -/
def ioCopy (directory : DirName) (name : Name) (source : Bytes) : Io Unit := fun disk =>
  let moment := disk.tick
  let next := { disk with tick := moment + 1 }
  if world.fails moment then
    (.error .other, writeFile world directory name (world.torn moment) moment next)
  else (.ok (), writeFile world directory name source moment next)

/-- `std::fs::rename` inside a directory. -/
def rename (directory : DirName) (source target : Name) : Io Unit := do
  let moment ← attempt world
  match (← get).dir directory with
  | none => throw .notFound
  | some dir =>
      match dir.get source with
      | none => throw .notFound
      | some (.file file) =>
          modify (·.setDir directory
            ((dir.remove source).insert target (.file { file with published := moment })))
      | some .other => modify (·.setDir directory ((dir.remove source).insert target .other))

/-! ### Names of recovery copies -/

def decimal (n : Nat) : List Char := Nat.toDigits 10 n

/-- `{timestamp:039}`. -/
def paddedTimestamp (timestamp : Nat) : List Char :=
  List.replicate (39 - (decimal timestamp).length) '0' ++ decimal timestamp

def backupStem (timestamp pid sequence : Nat) : List Char :=
  "session-".toList ++ paddedTimestamp timestamp ++ '-' :: decimal pid ++ '-' :: decimal sequence

def backupName (timestamp pid sequence : Nat) : Name :=
  backupStem timestamp pid sequence ++ ".json".toList

/-- `backup.with_extension("pending")`. -/
def pendingName (timestamp pid sequence : Nat) : Name :=
  backupStem timestamp pid sequence ++ ".pending".toList

end

def stripPrefixOf (start text : List Char) : Option (List Char) :=
  if start.isPrefixOf text then some (text.drop start.length) else none

def stripSuffixOf (ending text : List Char) : Option (List Char) :=
  (stripPrefixOf ending.reverse text.reverse).map List.reverse

/-- `str::parse::<u128>`, on digits. -/
def parseU128 (digits : List Char) : Option Nat :=
  let value := Nat.ofDigitChars 10 digits 0
  if value < 2 ^ 128 then some value else none

def recoveryTimestamp (name : Name) : Option Nat := do
  let rest ← stripPrefixOf "session-".toList name
  let rest ← stripSuffixOf ".json".toList rest
  match rest.splitOn '-' with
  | [timestamp, pid, sequence] =>
      if timestamp.length = 39 ∧
          [timestamp, pid, sequence].all
              (fun field => !field.isEmpty && field.all Char.isDigit) then
        parseU128 timestamp
      else none
  | _ => none

/-- The order of `files.sort()`: by number, then by name. -/
def recoveryLe (a b : Nat × Name) : Bool := a.1 < b.1 || a.1 = b.1 && decide (a.2 ≤ b.2)

/-- The regular files of a directory that are recovery copies, with their numbers. -/
def recoveryEntries (dir : Dir) : List (Nat × Name) :=
  dir.entries.filterMap fun entry =>
    match entry.2 with
    | .file _ => (recoveryTimestamp entry.1).map (·, entry.1)
    | .other => none

section

variable (world : World)

/-! ### Recovery copies -/

/-- A failure to read any entry fails the whole listing. -/
def recoveryFiles (directory : DirName) : Io (List (Nat × Name)) := do
  let _ ← attempt world
  match (← get).dir directory with
  | none => throw .notFound
  | some dir =>
      let _ ← attempt world
      return (recoveryEntries dir).mergeSort recoveryLe

/-- The loop of `prune_backups`. -/
def pruneLoop (directory : DirName) : List (Nat × Name) → Nat → Option IoError → Io Unit
  | [], remaining, failure =>
      match failure with
      | some err => if remaining > 0 then throw err else pure ()
      | none => pure ()
  | (_, path) :: rest, remaining, failure =>
      if remaining = 0 then pure ()
      else do
        match ← observe (removeFile world directory path) with
        | .ok () => pruneLoop directory rest (remaining - 1) failure
        | .error err => pruneLoop directory rest remaining (some err)

def pruneBackups (directory : DirName) (older : List (Nat × Name)) (keep : Nat) : Io Unit :=
  pruneLoop world directory older (older.length - (keep - 1)) none

/-- The part of `copy_recovery` after the pending file is there: the result, what is left to
read of the source, and whether the copy got its name. -/
def publishRecovery (directory : DirName) (pending backup : Name) (source : Bytes) :
    Io (Except IoError Unit × Bytes × Bool) := do
  match ← observe (symlinkMetadata world directory backup) with
  | .ok _ => return (.error .alreadyExists, source, false)
  | .error .notFound =>
      match ← observe (ioCopy world directory pending source) with
      | .error err => return (.error err, [], false)
      | .ok () =>
          let renamed : Io Unit := do
            let _ ← attempt world
            rename world directory pending backup
          match ← observe renamed with
          | .error err => return (.error err, [], false)
          | .ok () =>
              -- the directory and its parent are synced
              let synced : Io Unit := do
                let _ ← attempt world
                let _ ← attempt world
              return (← observe synced, [], true)
  | .error err => return (.error err, source, false)

/-- The result, and what is left to read of the source. -/
def copyRecovery (directory : DirName) (pending backup : Name) (source : Bytes) :
    Io (Except IoError Unit × Bytes) := do
  match ← observe (createNew world directory pending) with
  | .error err => return (.error err, source)
  | .ok () =>
      let (result, source, published) ← publishRecovery world directory pending backup source
      match result with
      | .ok () => return (.ok (), source)
      | .error err =>
          let _ ← observe (removeFile world directory pending)
          if published then
            let _ ← observe (removeFile world directory backup)
          return (.error err, source)

/-- The loop over the sequence numbers. -/
def copyAttempts (directory : DirName) (keep : Nat) (older : List (Nat × Name))
    (timestamp : Nat) : Nat → Nat → Bytes → Io Bool
  | 0, _, _ => throw .alreadyExists
  | rounds + 1, sequence, source => do
      let backup := backupName timestamp world.pid sequence
      let pending := pendingName timestamp world.pid sequence
      let (result, source) ← copyRecovery world directory pending backup source
      match result with
      | .error .alreadyExists =>
          copyAttempts directory keep older timestamp rounds (sequence + 1) source
      | .error err => throw err
      | .ok () =>
          match ← observe (pruneBackups world directory older keep) with
          | .ok () => return true
          | .error err =>
              if directory = .sessionSnapshots then do
                removeFile world directory backup
                throw err
              else return true

/-- Keep creation order even when the wall clock moves backwards. -/
def nextTimestamp (older : List (Nat × Name)) (now : Nat) : Io Nat :=
  match older.getLast? with
  | some (previous, _) =>
      if previous + 1 < 2 ^ 128 then pure (max now (previous + 1)) else throw .other
  | none => pure now

/-- Whether there was a session file to preserve. -/
def preserveExistingIn (directory : DirName) (keep : Nat) : Io Bool := do
  match ← openSession world with
  | none => return false
  | some node =>
      let _ ← attempt world
      match node with
      | .other => throw .other
      | .file source =>
          createDirAll world directory
          let older ← recoveryFiles world directory
          let now ← systemTimeNow world
          let timestamp ← nextTimestamp older now
          copyAttempts world directory keep older timestamp 128 0 source

def preserveExisting : Io Bool := preserveExistingIn world .sessionBackups 3

/-! ### The history of snapshots -/

def snapshotInterval : Nat := 15 * 60 * 1000000000

def snapshotLimit : Nat := 48

def snapshotVersion : Nat := 3

/-- The latest snapshot is younger than the interval. -/
def latestIsRecent (latest : Name) : Io Bool := do
  match ← symlinkMetadata world .sessionSnapshots latest with
  | .other => throw .other
  | .file file =>
      let now ← systemTimeNow world
      return file.modified ≤ now && now - file.modified < snapshotInterval

/-- The latest snapshot has the layout of this one. -/
def latestIsSame (latest : Name) (snapshot : SnapshotView) : Io Bool := do
  match ← symlinkMetadata world .sessionSnapshots latest with
  | .other => throw .other
  | .file file =>
      match world.decode file.bytes with
      | none => return false
      | some previous =>
          return snapshot.layoutFingerprint.isSome &&
            previous.layoutFingerprint == snapshot.layoutFingerprint

/-- The part of `preserve_snapshot_history` after the check of the interval. -/
def preserveSnapshot (latest : Option (Nat × Name)) : Io Unit := do
  match ← openSession world with
  | none => return ()
  | some .other => throw .other
  | some (.file bytes) =>
      match world.decode bytes with
      | none => return ()
      | some snapshot =>
          if snapshot.version > snapshotVersion || !snapshot.hasWorkspaces then return ()
          else
            match latest with
            | none =>
                let _ ← preserveExistingIn world .sessionSnapshots snapshotLimit
            | some (_, latest) =>
                if ← latestIsSame world latest snapshot then return ()
                else
                  let _ ← preserveExistingIn world .sessionSnapshots snapshotLimit

def preserveSnapshotHistory : Io Unit := do
  match ← observe (recoveryFiles world .sessionSnapshots) with
  | .error .notFound => preserveSnapshot world none
  | .error err => throw err
  | .ok existing =>
      match existing.getLast? with
      | none => preserveSnapshot world none
      | some latest =>
          if ← latestIsRecent world latest.2 then return ()
          else preserveSnapshot world (some latest)

/-! ### Saving and clearing -/

/-- Write to the path of the session or of its history. -/
inductive Target where
  | session
  | history

def Target.set (target : Target) (node : Option Node) (disk : Disk) : Disk :=
  match target with
  | .session => { disk with session := node }
  | .history => { disk with history := node }

def Target.get (target : Target) (disk : Disk) : Option Node :=
  match target with
  | .session => disk.session
  | .history => disk.history

/-- `json` is the text of the value, unless it could not be written as one. The file is
replaced at once; syncing the directory may still fail after that. -/
def saveJsonToPath (target : Target) (json : Option Bytes) : Io Unit := do
  let _ ← attempt world -- the links to the target
  let _ ← attempt world -- its directory
  match json with
  | none => throw .other
  | some bytes =>
      let _ ← attempt world -- the temporary file
      let replaced : Io Unit := do
        let _ ← attempt world -- its bytes
        let _ ← attempt world -- its sync
        let _ ← attempt world -- the rename
        modify (target.set (some (.file bytes)))
      match ← observe replaced with
      | .error err =>
          let _ ← observe (attempt world)
          throw err
      | .ok () =>
          let _ ← attempt world

def clearPath (target : Target) : Io Unit := do
  let _ ← attempt world
  modify (target.set none)

def saveHistoryToPath : Option (Option Bytes) → Io Unit
  | some history => saveJsonToPath world .history history
  | none => clearPath world .history

def preserveUnloaded : Io Unit := do
  if (← get).protectUnloaded then
    if ← preserveExisting world then
      modify ({ · with protectUnloaded := false })

/-- The part of `save` and `clear` that must succeed. A failure of the snapshot history is
only logged. -/
def mutate (mutation : Io Unit) : Io Unit := do
  preserveUnloaded world
  let _ ← observe (preserveSnapshotHistory world)
  mutation

def save (snapshot : Option Bytes) (history : Option (Option Bytes)) : Io Unit := do
  match ← observe (mutate world (saveJsonToPath world .session snapshot)) with
  | .error _ => return ()
  | .ok () =>
      modify ({ · with protectUnloaded := false })
      let _ ← observe (preserveSnapshotHistory world)
      let _ ← observe (saveHistoryToPath world history)

def clear : Io Unit := do
  match ← observe (mutate world (clearPath world .session)) with
  | .error _ => return ()
  | .ok () =>
      let _ ← observe (clearPath world .history)

/-! ### The calls as one machine -/

inductive Op where
  | save (snapshot : Option Bytes) (history : Option (Option Bytes))
  | clear

def run : Op → Io Unit
  | .save snapshot history => save world snapshot history
  | .clear => clear world

def step (disk : Disk) (op : Op) : Option (Disk × Unit) := some ((run world op disk).2, ())

end

end Herden.Runtime.SessionWriter
