import Herden.Proofs.Pairing.AuthorizedKeys
import Herden.Runtime.Pairing.Ceremony

/-!
# `Herden.Proofs.Pairing.Ceremony`: a pairing is used once

`Facts` says what an `accept` process knows in each of its phases, and `Rely` what the others leave
alone while it is there: the file and the lock as long as it holds the lock, and a record that is
gone. Each step keeps the facts of its own process and the reliance of the others, so all facts
hold in every run (`Inv`). A process that has found the record in `enroll` (`Entered`) is the only
one: it holds the lock until it has consumed the record, and nobody writes a second record.

The last word of a device key may be the marker of its own pairing. Such a line stays if the
process enters between the two halves of the cleanup (`marked_key_left`); `Spared` leaves out
these steps, and then the pairing is used once (`used_once`).
-/

namespace Herden.Proofs.Pairing.Ceremony

open Herden.Lib
open Herden.Lib.Text (unlines stripReturn)
open Herden.Runtime.Pairing.Identity (DeviceKey keyIdentity)
open Herden.Runtime.Pairing.AuthorizedKeys
open Herden.Runtime.Pairing.Ceremony
open Herden.Proofs.Pairing.AuthorizedKeys (readLines_unlines_map retain_cases not_mem_readLines
  unbroken_parseDeviceKey)

/-! ### Lines with the marker -/

/-- No line of the file has a marker of this pairing. -/
def Unmarked (pairingId : Text) (file : Option Text) : Prop :=
  ∀ line ∈ readLines file, keeps pairingId line = true

-- words do not hold a carriage return at their end
theorem keeps_stripReturn (pairingId line : Text) :
    keeps pairingId (stripReturn line) = keeps pairingId line := by
  rw [keeps, keeps, marker, marker, Text.splitWhitespace_stripReturn]

theorem keyIdentity_stripReturn (line : Text) :
    keyIdentity (stripReturn line) = keyIdentity line := by
  rw [keyIdentity, keyIdentity, Text.splitWhitespace_stripReturn]

variable {kept : List Text}

/-- The lines of a file that was just written, up to their ends. -/
theorem exists_of_mem_readLines {line : Text} (hkept : ∀ line ∈ kept, '\n' ∉ line)
    (h : line ∈ readLines (some (unlines kept))) : ∃ source ∈ kept, stripReturn source = line := by
  rw [readLines_unlines_map hkept] at h
  exact List.mem_map.mp h

theorem unmarked_unlines {pairingId : Text} (hkept : ∀ line ∈ kept, '\n' ∉ line)
    (h : ∀ line ∈ kept, keeps pairingId line = true) :
    Unmarked pairingId (some (unlines kept)) := by
  intro line hline
  obtain ⟨source, hsource, rfl⟩ := exists_of_mem_readLines hkept hline
  rw [keeps_stripReturn]
  exact h source hsource

theorem not_mem_filter_readLines {test : Text → Bool} {file : Option Text} :
    ∀ line ∈ (readLines file).filter test, '\n' ∉ line :=
  fun _ hline => not_mem_readLines (List.mem_filter.mp hline).1

theorem unmarked_removeBootstrap (pairingId : Text) (file : Option Text) :
    Unmarked pairingId (removeBootstrap pairingId file) := by
  rw [removeBootstrap]
  cases retain_cases (keeps pairingId) file with
  | inl hsame =>
    rw [hsame.1]
    exact hsame.2
  | inr hwritten =>
    rw [hwritten]
    exact unmarked_unlines not_mem_filter_readLines fun line hline => (List.mem_filter.mp hline).2

/-! ### New keys -/

/-- Some line has a key that no line had before. -/
def addsKey (before after : Option Text) : Bool :=
  (readLines after).any fun line =>
    (readLines before).all fun old => keyIdentity old ≠ keyIdentity line

theorem addsKey_self (file : Option Text) : addsKey file file = false := by
  rw [addsKey, List.any_eq_false]
  intro line hline hnew
  exact of_decide_eq_true (List.all_eq_true.mp hnew line hline) rfl

theorem addsKey_filter (test : Text → Bool) (file : Option Text) :
    addsKey file (some (unlines ((readLines file).filter test))) = false := by
  rw [addsKey, List.any_eq_false]
  intro line hline hnew
  obtain ⟨source, hsource, rfl⟩ := exists_of_mem_readLines not_mem_filter_readLines hline
  have hold := List.all_eq_true.mp hnew source (List.mem_filter.mp hsource).1
  rw [keyIdentity_stripReturn] at hold
  exact of_decide_eq_true hold rfl

theorem addsKey_removeBootstrap (pairingId : Text) (file : Option Text) :
    addsKey file (removeBootstrap pairingId file) = false := by
  rw [removeBootstrap]
  cases retain_cases (keeps pairingId) file with
  | inl hsame => rw [hsame.1, addsKey_self]
  | inr hwritten => rw [hwritten, addsKey_filter]

/-! ### Runs -/

/-- The state, the `accept` processes that have added a key, and whether one of them had ended
with an enrolment when the `pair` process last read the record. -/
structure Traced where
  state : State
  added : List Nat
  seen : Prop

/-- The `pair` process is about to read the enrolment record. -/
def reads : PairPhase → Bool
  | .polling | .rechecking => true
  | _ => false

def SomeEnrolled (state : State) : Prop :=
  ∃ process key, state.process process = .ended (.result key .enrolled)

section

variable (setup : Setup) (sha256 : List UInt8 → List UInt8)

def tracedStep (traced : Traced) (op : Op) : Option (Traced × Unit) :=
  (step setup sha256 traced.state op).map fun next =>
    ({ state := next.1
       added :=
         match op with
         | .accept process =>
             if addsKey traced.state.shared.authorizedKeys next.1.shared.authorizedKeys then
               process :: traced.added
             else traced.added
         | _ => traced.added
       seen :=
         match op with
         | .pair =>
             if reads traced.state.shared.pair then SomeEnrolled traced.state else traced.seen
         | _ => traced.seen }, ())

end

/-- No process has started, and there is no record of this pairing. -/
structure Init (traced : Traced) : Prop where
  pair : traced.state.shared.pair = .ready
  accepts : ∀ process, traced.state.process process = .absent
  pending : traced.state.shared.pending = none
  enrolled : traced.state.shared.enrolled = none
  lock : traced.state.shared.lock = none
  added : traced.added = []
  seen : ¬ traced.seen

/-! ### What a process knows -/

/-- The cleanup has removed the lines of the pairing. -/
def hasRemoved : PairPhase → Bool
  | .removed _ | .cleared _ | .done _ => true
  | _ => false

/-- The process has found the pairing pending in `enroll`, and has not ended otherwise. -/
def Entered : AcceptPhase → Prop
  | .consuming _ _ _ | .consumed _ _ _ | .recording _ _ _ => True
  | .writing _ .enrolled _ | .releasing _ .enrolled | .ended (.result _ .enrolled) => True
  | _ => False

/-- The pairing was pending, and will not be again. -/
def Gone (shared : Shared) : Prop := shared.pending = none ∧ shared.pair ≠ .ready

section

variable (setup : Setup)

def keptLines (shared : Shared) : List Text :=
  (readLines shared.authorizedKeys).filter (keeps setup.pairingId)

/-- The process holds the lock and has passed the check, with a key that leaves no marker behind. -/
structure Holds (shared : Shared) (process : Nat) (key : DeviceKey) : Prop where
  lock : shared.lock = some process
  begun : shared.pair ≠ .ready
  line : '\n' ∉ key.line
  unmarked : hasRemoved shared.pair = true → keeps setup.pairingId key.line = true

/-- What the process knows in each phase. -/
def Facts (shared : Shared) (process : Nat) : AcceptPhase → Prop
  | .submitted _ key => '\n' ∉ key.line
  | .checking _ key lines =>
      shared.lock = some process ∧ '\n' ∉ key.line ∧ lines = readLines shared.authorizedKeys
  | .consuming _ key kept => Holds setup shared process key ∧ kept = keptLines setup shared
  | .consumed _ key kept =>
      Holds setup shared process key ∧ Gone shared ∧ kept = keptLines setup shared
  | .recording _ key kept =>
      Holds setup shared process key ∧ Gone shared ∧
        kept = pushDevice (keptLines setup shared) key.line
  | .writing key .enrolled kept =>
      Holds setup shared process key ∧ Gone shared ∧
        kept = pushDevice (keptLines setup shared) key.line
  | .writing _ .expired kept => shared.lock = some process ∧ kept = keptLines setup shared
  | .writing _ .alreadyUsed _ => False
  | .releasing _ .enrolled => shared.lock = some process ∧ Gone shared
  | .releasing _ _ => shared.lock = some process
  | .ended (.result _ .enrolled) => Gone shared
  | _ => True

end

/-- What a step of another process leaves alone. -/
structure Rely (process : Nat) (before after : Shared) : Prop where
  lock : before.lock = some process → after.lock = some process
  file : before.lock = some process → after.authorizedKeys = before.authorizedKeys
  removed : before.lock = some process → hasRemoved after.pair = hasRemoved before.pair
  begun : before.pair ≠ .ready → after.pair ≠ .ready
  gone : Gone before → Gone after

section

variable {setup : Setup} {before after : Shared} {process : Nat}

theorem Holds.stable {key : DeviceKey} (h : Holds setup before process key)
    (hrely : Rely process before after) : Holds setup after process key where
  lock := hrely.lock h.lock
  begun := hrely.begun h.begun
  line := h.line
  unmarked := by
    rw [hrely.removed h.lock]
    exact h.unmarked

theorem keptLines_stable (hlock : before.lock = some process) (hrely : Rely process before after) :
    keptLines setup after = keptLines setup before := by
  rw [keptLines, keptLines, hrely.file hlock]

/-- What a process knows survives the steps of the others. -/
theorem Facts.stable {phase : AcceptPhase} (h : Facts setup before process phase)
    (hrely : Rely process before after) : Facts setup after process phase := by
  cases phase with
  | absent | started | failing _ | clearingPending _ | clearingEnrolled _ | read _ | waiting _ =>
    exact trivial
  | submitted _ _ => exact h
  | checking _ _ _ =>
    refine ⟨hrely.lock h.1, h.2.1, ?_⟩
    rw [hrely.file h.1]
    exact h.2.2
  | consuming _ _ _ =>
    refine ⟨h.1.stable hrely, ?_⟩
    rw [keptLines_stable h.1.lock hrely]
    exact h.2
  | consumed _ _ _ =>
    refine ⟨h.1.stable hrely, hrely.gone h.2.1, ?_⟩
    rw [keptLines_stable h.1.lock hrely]
    exact h.2.2
  | recording _ _ _ =>
    refine ⟨h.1.stable hrely, hrely.gone h.2.1, ?_⟩
    rw [keptLines_stable h.1.lock hrely]
    exact h.2.2
  | writing _ result _ =>
    cases result with
    | enrolled =>
      refine ⟨h.1.stable hrely, hrely.gone h.2.1, ?_⟩
      rw [keptLines_stable h.1.lock hrely]
      exact h.2.2
    | alreadyUsed => exact h
    | expired =>
      refine ⟨hrely.lock h.1, ?_⟩
      rw [keptLines_stable h.1 hrely]
      exact h.2
  | releasing _ result =>
    cases result with
    | enrolled => exact ⟨hrely.lock h.1, hrely.gone h.2⟩
    | alreadyUsed => exact hrely.lock h
    | expired => exact hrely.lock h
  | ended answer =>
    cases answer with
    | result _ result =>
      cases result with
      | enrolled => exact hrely.gone h
      | alreadyUsed => exact trivial
      | expired => exact trivial
    | _ => exact trivial

end

/-! ### Steps of one `accept` process -/

section

variable (setup : Setup) (process : Nat) (before : Shared)

/-- The steps of `advanceAccept`, one by one. -/
inductive Moves : AcceptPhase → Shared → AcceptPhase → Prop
  | unknown : Moves .started before (.failing .unknownPairing)
  | found {pending : PendingPairing} : Moves .started before (.read pending)
  | remove {refusal : Refusal} (hlock : before.lock = none) :
      Moves (.failing refusal)
        { before with authorizedKeys := removeBootstrap setup.pairingId before.authorizedKeys }
        (.clearingPending refusal)
  | clearPending {refusal : Refusal} :
      Moves (.clearingPending refusal) { before with pending := none } (.clearingEnrolled refusal)
  | clearEnrolled {refusal : Refusal} :
      Moves (.clearingEnrolled refusal) { before with enrolled := none }
        (.ended (.refused refusal))
  | late {pending : PendingPairing} : Moves (.read pending) before (.failing .expired)
  | wait {pending : PendingPairing} : Moves (.read pending) before (.waiting pending)
  | lock {pending : PendingPairing} {key : DeviceKey} (hlock : before.lock = none) :
      Moves (.submitted pending key) { before with lock := some process }
        (.checking pending key (readLines before.authorizedKeys))
  | enter {pending : PendingPairing} {key : DeviceKey} {lines : List Text}
      (hpending : before.pending.isSome = true) :
      Moves (.checking pending key lines) before
        (.consuming pending key (lines.filter (keeps setup.pairingId)))
  | used {pending : PendingPairing} {key : DeviceKey} {lines : List Text} :
      Moves (.checking pending key lines) before (.releasing key .alreadyUsed)
  | consume {pending : PendingPairing} {key : DeviceKey} {kept : List Text} :
      Moves (.consuming pending key kept) { before with pending := none }
        (.consumed pending key kept)
  | expire {pending : PendingPairing} {key : DeviceKey} {kept : List Text} :
      Moves (.consumed pending key kept) before (.writing key .expired kept)
  | push {pending : PendingPairing} {key : DeviceKey} {kept : List Text} :
      Moves (.consumed pending key kept) before
        (.recording pending key (pushDevice kept key.line))
  | record {pending : PendingPairing} {key : DeviceKey} {kept : List Text}
      (enrollment : Enrollment) :
      Moves (.recording pending key kept) { before with enrolled := some enrollment }
        (.writing key .enrolled kept)
  | write {key : DeviceKey} {result : EnrollResult} {kept : List Text} :
      Moves (.writing key result kept) { before with authorizedKeys := some (unlines kept) }
        (.releasing key result)
  | release {key : DeviceKey} {result : EnrollResult} :
      Moves (.releasing key result) { before with lock := none } (.ended (.result key result))

end

section

variable {setup : Setup} {process : Nat} {before after : Shared} {phase next : AcceptPhase}

theorem moves_of_advanceAccept
    (h : advanceAccept setup process before phase = some (after, next)) :
    Moves setup process before phase after next := by
  unfold advanceAccept at h
  split at h
  · cases h
  · split at h
    · cases h; exact .unknown
    · cases h; exact .found
  · split at h
    next hlock => cases h; exact .remove (Option.isNone_iff_eq_none.mp hlock)
    · cases h
  · cases h; exact .clearPending
  · cases h; exact .clearEnrolled
  · split at h
    · cases h; exact .late
    · cases h; exact .wait
  · cases h
  · split at h
    next hlock => cases h; exact .lock (Option.isNone_iff_eq_none.mp hlock)
    · cases h
  · split at h
    next hpending => cases h; exact .enter hpending
    · cases h; exact .used
  · cases h; exact .consume
  · split at h
    · cases h; exact .expire
    · cases h; exact .push
  · cases h; exact .record _
  · cases h; exact .write
  · cases h; exact .release
  · cases h

/-- The steps keep what the process knows, as long as a key that it enters with after the cleanup
has no marker. -/
theorem Facts.moves (h : Facts setup before process phase)
    (hready : before.pair = .ready → before.pending = none)
    (hspared : ∀ pending key lines, phase = .checking pending key lines →
      hasRemoved before.pair = true → before.pending.isSome = true →
        keeps setup.pairingId key.line = true)
    (hmoves : Moves setup process before phase after next) : Facts setup after process next := by
  cases hmoves with
  | unknown | late | found | wait | remove _ | clearPending | clearEnrolled => exact trivial
  | lock _ => exact ⟨rfl, h, rfl⟩
  | @enter pending key lines hpending =>
    obtain ⟨hlock, hline, rfl⟩ := h
    refine ⟨⟨hlock, ?_, hline, ?_⟩, rfl⟩
    · intro hpair
      rw [hready hpair] at hpending
      cases hpending
    · intro hremoved
      exact hspared pending key _ rfl hremoved hpending
  | used => exact h.1
  | consume => exact ⟨⟨h.1.lock, h.1.begun, h.1.line, h.1.unmarked⟩, ⟨rfl, h.1.begun⟩, h.2⟩
  | expire => exact ⟨h.1.lock, h.2.2⟩
  | push =>
    refine ⟨h.1, h.2.1, ?_⟩
    rw [h.2.2]
  | record _ => exact ⟨⟨h.1.lock, h.1.begun, h.1.line, h.1.unmarked⟩, h.2.1, h.2.2⟩
  | @write _ result _ =>
    cases result with
    | enrolled => exact ⟨h.1.lock, h.2.1⟩
    | alreadyUsed => exact absurd h id
    | expired => exact h.1
  | @release _ result =>
    cases result with
    | enrolled => exact h.2
    | alreadyUsed => exact trivial
    | expired => exact trivial

variable {kept : List Text} {key : DeviceKey} {result : EnrollResult}

theorem Facts.lock_of_writing (h : Facts setup before process (.writing key result kept)) :
    before.lock = some process := by
  cases result with
  | enrolled => exact h.1.lock
  | alreadyUsed => exact absurd h id
  | expired => exact h.1

theorem Facts.lock_of_releasing (h : Facts setup before process (.releasing key result)) :
    before.lock = some process := by
  cases result with
  | enrolled => exact h.1
  | alreadyUsed => exact h
  | expired => exact h

theorem Rely.refl (other : Nat) (shared : Shared) : Rely other shared shared :=
  ⟨id, fun _ => rfl, fun _ => rfl, id, id⟩

/-- What the step changes is nothing that another process knows. -/
theorem Moves.rely {other : Nat} (hmoves : Moves setup process before phase after next)
    (h : Facts setup before process phase) (hne : other ≠ process) : Rely other before after := by
  have hheld : before.lock = some process → before.lock ≠ some other := by
    intro hlock hother
    rw [hlock] at hother
    exact hne (Option.some.inj hother).symm
  cases hmoves with
  | unknown | found | late | wait | enter _ | used | expire | push => exact Rely.refl _ _
  | clearEnrolled | record _ => exact ⟨id, fun _ => rfl, fun _ => rfl, id, id⟩
  | clearPending | consume =>
    exact ⟨id, fun _ => rfl, fun _ => rfl, id, fun hgone => ⟨rfl, hgone.2⟩⟩
  | remove hlock =>
    refine ⟨id, fun hother => ?_, fun _ => rfl, id, id⟩
    rw [hlock] at hother
    cases hother
  | lock hlock =>
    refine ⟨fun hother => ?_, fun _ => rfl, fun _ => rfl, id, id⟩
    rw [hlock] at hother
    cases hother
  | write =>
    exact ⟨id, fun hother => absurd hother (hheld h.lock_of_writing), fun _ => rfl, id, id⟩
  | release =>
    exact ⟨fun hother => absurd hother (hheld h.lock_of_releasing), fun _ => rfl, fun _ => rfl,
      id, id⟩

/-- A process that has entered holds the lock, or has consumed the record. -/
theorem Facts.lock_or_gone (h : Facts setup before process phase) (hentered : Entered phase) :
    before.lock = some process ∨ Gone before := by
  cases phase with
  | consuming _ _ _ => exact Or.inl h.1.lock
  | consumed _ _ _ | recording _ _ _ => exact Or.inr h.2.1
  | writing _ result _ =>
    cases result with
    | enrolled => exact Or.inr h.2.1
    | _ => exact absurd hentered id
  | releasing _ result =>
    cases result with
    | enrolled => exact Or.inr h.2
    | _ => exact absurd hentered id
  | ended answer =>
    cases answer with
    | result _ result =>
      cases result with
      | enrolled => exact Or.inr h
      | _ => exact absurd hentered id
    | _ => exact absurd hentered id
  | _ => exact absurd hentered id

/-- A process enters where it finds the record, with the lock. -/
theorem Moves.entered (hmoves : Moves setup process before phase after next)
    (h : Facts setup before process phase) (hentered : Entered next) :
    Entered phase ∨ before.lock = some process ∧ before.pending.isSome = true := by
  cases hmoves with
  | enter hpending => exact Or.inr ⟨h.1, hpending⟩
  | consume | push | record _ => exact Or.inl trivial
  | @write _ result _ | @release _ result =>
    cases result with
    | enrolled => exact Or.inl trivial
    | _ => exact absurd hentered id
  | _ => exact absurd hentered id

/-- An `accept` process changes the file in two of its steps. -/
theorem Moves.file (hmoves : Moves setup process before phase after next) :
    after.authorizedKeys = before.authorizedKeys ∨
      after.authorizedKeys = removeBootstrap setup.pairingId before.authorizedKeys ∨
      ∃ key result kept, phase = .writing key result kept ∧ next = .releasing key result ∧
        after.authorizedKeys = some (unlines kept) := by
  cases hmoves with
  | remove _ => exact Or.inr (Or.inl rfl)
  | write => exact Or.inr (Or.inr ⟨_, _, _, rfl, rfl, rfl⟩)
  | _ => exact Or.inl rfl

theorem Moves.pair (hmoves : Moves setup process before phase after next) :
    after.pair = before.pair := by
  cases hmoves <;> rfl

theorem Moves.pending (hmoves : Moves setup process before phase after next) :
    after.pending = before.pending ∨ after.pending = none := by
  cases hmoves with
  | clearPending | consume => exact Or.inr rfl
  | _ => exact Or.inl rfl

theorem mem_pushDevice {deviceLine line : Text} (h : line ∈ pushDevice kept deviceLine) :
    line ∈ kept ∨ line = deviceLine := by
  unfold pushDevice at h
  split at h
  · exact Or.inl h
  · cases List.mem_append.mp h with
    | inl hmem => exact Or.inl hmem
    | inr hmem => exact Or.inr (List.mem_singleton.mp hmem)

/-- The lines that a process writes after the cleanup have no marker. -/
theorem Facts.unmarked_writing (h : Facts setup before process (.writing key result kept))
    (hremoved : hasRemoved before.pair = true) :
    Unmarked setup.pairingId (some (unlines kept)) := by
  have hold : ∀ line ∈ keptLines setup before,
      '\n' ∉ line ∧ keeps setup.pairingId line = true := fun line hline =>
    ⟨not_mem_filter_readLines line hline, (List.mem_filter.mp hline).2⟩
  have hkept : ∀ line ∈ kept, '\n' ∉ line ∧ keeps setup.pairingId line = true := by
    intro line hline
    cases result with
    | alreadyUsed => exact absurd h id
    | expired =>
      rw [h.2] at hline
      exact hold line hline
    | enrolled =>
      rw [h.2.2] at hline
      cases mem_pushDevice hline with
      | inl hmem => exact hold line hmem
      | inr heq =>
        rw [heq]
        exact ⟨h.1.line, h.1.unmarked hremoved⟩
  exact unmarked_unlines (fun line hline => (hkept line hline).1)
    (fun line hline => (hkept line hline).2)

/-- A process that writes without an enrolment adds no key. -/
theorem Facts.enrolled_of_addsKey (h : Facts setup before process (.writing key result kept))
    (hadds : addsKey before.authorizedKeys (some (unlines kept)) = true) : result = .enrolled := by
  cases result with
  | enrolled => rfl
  | alreadyUsed => exact absurd h id
  | expired =>
    rw [h.2, keptLines, addsKey_filter] at hadds
    cases hadds

/-- The process has written a key for its enrolment. -/
def Written : AcceptPhase → Prop
  | .releasing _ .enrolled | .ended (.result _ .enrolled) => True
  | _ => False

theorem Written.entered (h : Written phase) : Entered phase := by
  cases phase with
  | releasing _ result =>
    cases result with
    | enrolled => exact trivial
    | _ => exact absurd h id
  | ended answer =>
    cases answer with
    | result _ result =>
      cases result with
      | enrolled => exact trivial
      | _ => exact absurd h id
    | _ => exact absurd h id
  | _ => exact absurd h id

theorem Moves.written (hmoves : Moves setup process before phase after next) (h : Written phase) :
    Written next := by
  cases hmoves with
  | @release _ result =>
    cases result with
    | enrolled => exact trivial
    | _ => exact absurd h id
  | _ => exact absurd h id

theorem Moves.written_of_addsKey (hmoves : Moves setup process before phase after next)
    (h : Facts setup before process phase)
    (hadds : addsKey before.authorizedKeys after.authorizedKeys = true) : Written next := by
  rcases hmoves.file with hsame | hremoved | ⟨key, result, kept, rfl, rfl, hwritten⟩
  · rw [hsame, addsKey_self] at hadds
    cases hadds
  · rw [hremoved, addsKey_removeBootstrap] at hadds
    cases hadds
  · rw [hwritten] at hadds
    rw [h.enrolled_of_addsKey hadds]
    exact trivial

end

/-! ### Steps of the `pair` process -/

section

variable {setup : Setup} {before after : Shared}

/-- The cleanup has removed both records, or only the first. -/
def hasCleared : PairPhase → Bool
  | .cleared _ | .done _ => true
  | _ => false

/-- What the steps of the `pair` process and of the world do. -/
structure PairMoves (setup : Setup) (before after : Shared) : Prop where
  lock : after.lock = before.lock
  file : before.lock.isSome = true → after.authorizedKeys = before.authorizedKeys
  removed : before.lock.isSome = true → hasRemoved after.pair = hasRemoved before.pair
  ready : after.pair = .ready → before.pair = .ready ∧ after.pending = before.pending
  pending : before.pair ≠ .ready → after.pending = before.pending ∨ after.pending = none
  cleared : hasCleared after.pair = true → after.pending = none ∨ hasCleared before.pair = true
  unmarked : hasRemoved after.pair = true →
    Unmarked setup.pairingId after.authorizedKeys ∨
      after.authorizedKeys = before.authorizedKeys ∧ hasRemoved before.pair = true

variable {phase : PairPhase}

theorem hasRemoved_of_hasCleared (h : hasCleared phase = true) : hasRemoved phase = true := by
  cases phase with
  | cleared _ | done _ => rfl
  | _ => cases h

theorem PairMoves.world {clock : Nat} {signalled : Bool} :
    PairMoves setup before { before with clock := clock, signalled := signalled } where
  lock := rfl
  file _ := rfl
  removed _ := rfl
  ready h := ⟨h, rfl⟩
  pending _ := Or.inl rfl
  cleared h := Or.inr h
  unmarked h := Or.inr ⟨rfl, h⟩

/-- The process moves on in its loop. -/
theorem PairMoves.loop (hbefore : hasRemoved before.pair = false) (hready : phase ≠ .ready)
    (hremoved : hasRemoved phase = false) :
    PairMoves setup before { before with pair := phase } where
  lock := rfl
  file _ := rfl
  removed _ := by rw [hbefore]; exact hremoved
  ready h := absurd h hready
  pending _ := Or.inl rfl
  cleared h := by
    rw [hasRemoved_of_hasCleared h] at hremoved
    cases hremoved
  unmarked h := by
    rw [show hasRemoved phase = true from h] at hremoved
    cases hremoved

theorem pairMoves_of_advancePair (h : advancePair setup before = some after) :
    PairMoves setup before after := by
  unfold advancePair at h
  split at h
  next hpair =>
    cases h
    refine ⟨rfl, fun _ => rfl, fun _ => by rw [hpair]; rfl, fun hready => (by cases hready),
      fun hbegun => absurd hpair hbegun, fun hcleared => (by cases hcleared),
      fun hremoved => (by cases hremoved)⟩
  next hpair =>
    split at h
    next hlock =>
      cases h
      rw [Option.isNone_iff_eq_none] at hlock
      refine ⟨rfl, fun hheld => ?_, fun _ => by rw [hpair]; rfl, fun hready => (by cases hready),
        fun _ => Or.inl rfl, fun hcleared => (by cases hcleared),
        fun hremoved => (by cases hremoved)⟩
      rw [hlock] at hheld
      cases hheld
    · cases h
  next hpair =>
    split at h
    · cases h
      exact .loop (by rw [hpair]; rfl) (by simp) rfl
    · cases h
      exact .loop (by rw [hpair]; rfl) (by simp) rfl
  next hpair =>
    split at h
    · cases h
      exact .loop (by rw [hpair]; rfl) (by simp) rfl
    · cases h
      exact .loop (by rw [hpair]; rfl) (by simp) rfl
  next hpair =>
    split at h
    · cases h
      exact .loop (by rw [hpair]; rfl) (by simp) rfl
    · cases h
      exact .loop (by rw [hpair]; rfl) (by simp) rfl
  · cases h
  next hpair =>
    split at h
    · cases h
      exact .loop (by rw [hpair]; rfl) (by simp) rfl
    · cases h
      exact .loop (by rw [hpair]; rfl) (by simp) rfl
  next hpair =>
    -- the lock is free, so nobody is in the middle of an edit
    split at h
    next hlock =>
      cases h
      rw [Option.isNone_iff_eq_none] at hlock
      have hfree : before.lock.isSome ≠ true := by
        rw [hlock]
        exact Bool.false_ne_true
      exact ⟨rfl, fun hheld => absurd hheld hfree, fun hheld => absurd hheld hfree,
        fun hready => (by cases hready), fun _ => Or.inl rfl, fun hcleared => (by cases hcleared),
        fun _ => Or.inl (unmarked_removeBootstrap _ _)⟩
    · cases h
  next hpair =>
    cases h
    exact ⟨rfl, fun _ => rfl, fun _ => by rw [hpair]; rfl, fun hready => (by cases hready),
      fun _ => Or.inr rfl, fun _ => Or.inl rfl, fun _ => Or.inr ⟨rfl, by rw [hpair]; rfl⟩⟩
  next hpair =>
    cases h
    exact ⟨rfl, fun _ => rfl, fun _ => by rw [hpair]; rfl, fun hready => (by cases hready),
      fun _ => Or.inl rfl, fun _ => Or.inr (by rw [hpair]; rfl),
      fun _ => Or.inr ⟨rfl, by rw [hpair]; rfl⟩⟩
  · cases h

theorem pairMoves_of_stepShared {op : Op} (h : stepShared setup before op = some after) :
    PairMoves setup before after := by
  cases op with
  | tick now =>
    cases h
    exact .world
  | signal =>
    cases h
    exact .world
  | input status =>
    simp only [stepShared, pollCancel] at h
    split at h
    next hpair =>
      cases h
      exact .loop (by rw [hpair]; rfl) (by simp) rfl
    next hpair =>
      cases h
      exact .loop (by rw [hpair]; rfl) (by simp) rfl
    · cases h
  | pair => exact pairMoves_of_advancePair h
  | start _ => cases h
  | submit _ _ => cases h
  | accept _ => cases h

theorem PairMoves.rely (h : PairMoves setup before after) (process : Nat) :
    Rely process before after where
  lock hlock := by rw [h.lock]; exact hlock
  file hlock := h.file (by rw [hlock]; rfl)
  removed hlock := h.removed (by rw [hlock]; rfl)
  begun hbegun hafter := hbegun (h.ready hafter).1
  gone hgone := by
    refine ⟨?_, fun hafter => hgone.2 (h.ready hafter).1⟩
    cases h.pending hgone.2 with
    | inl hsame => rw [hsame]; exact hgone.1
    | inr hnone => exact hnone

end

/-! ### The invariant of single use -/

/-- After the cleanup has removed the lines, no process enters with a key that has the marker. -/
def Spared (setup : Setup) (traced : Traced) : Op → Prop
  | .accept process =>
      match traced.state.process process with
      | .checking _ key _ =>
          hasRemoved traced.state.shared.pair = true →
            traced.state.shared.pending.isSome = true → keeps setup.pairingId key.line = true
      | _ => True
  | _ => True

structure Inv (setup : Setup) (traced : Traced) : Prop where
  ready : traced.state.shared.pair = .ready → traced.state.shared.pending = none
  facts : ∀ process, Facts setup traced.state.shared process (traced.state.process process)
  one : ∀ process other, Entered (traced.state.process process) →
    Entered (traced.state.process other) → process = other
  unmarked : hasRemoved traced.state.shared.pair = true →
    Unmarked setup.pairingId traced.state.shared.authorizedKeys
  cleared : hasCleared traced.state.shared.pair = true → traced.state.shared.pending = none
  added : ∀ process ∈ traced.added, Written (traced.state.process process)

section

variable {setup : Setup} {sha256 : List UInt8 → List UInt8} {traced : Traced}

theorem Inv.init (h : Init traced) : Inv setup traced where
  ready _ := h.pending
  facts process := by
    rw [h.accepts process]
    exact trivial
  one process _ hentered := by
    rw [h.accepts process] at hentered
    exact absurd hentered id
  unmarked hremoved := by
    rw [h.pair] at hremoved
    cases hremoved
  cleared _ := h.pending
  added process hadded := by
    rw [h.added] at hadded
    cases hadded

variable {after : Shared} {seen : Prop} {next : AcceptPhase} {process : Nat}

/-- A step of the `pair` process or of the world. -/
theorem Inv.shared (h : Inv setup traced) (hmoves : PairMoves setup traced.state.shared after) :
    Inv setup ⟨{ traced.state with shared := after }, traced.added, seen⟩ where
  ready hready := by
    obtain ⟨hbefore, hpending⟩ := hmoves.ready hready
    show after.pending = none
    rw [hpending]
    exact h.ready hbefore
  facts process := (h.facts process).stable (hmoves.rely process)
  one := h.one
  unmarked hremoved := by
    cases hmoves.unmarked hremoved with
    | inl hunmarked => exact hunmarked
    | inr hsame =>
      show Unmarked setup.pairingId after.authorizedKeys
      rw [hsame.1]
      exact h.unmarked hsame.2
  cleared hcleared := by
    cases hmoves.cleared hcleared with
    | inl hnone => exact hnone
    | inr hbefore =>
      -- the record is not written again
      have hbegun : traced.state.shared.pair ≠ .ready := by
        intro hready
        rw [hready] at hbefore
        cases hbefore
      cases hmoves.pending hbegun with
      | inl hsame =>
        show after.pending = none
        rw [hsame]
        exact h.cleared hbefore
      | inr hnone => exact hnone
  added := h.added

variable {added : List Nat}

/-- A step of one `accept` process, from what it does to the shared state and to itself. -/
theorem Inv.set (h : Inv setup traced) (hfacts : Facts setup after process next)
    (hrely : ∀ other, other ≠ process → Rely other traced.state.shared after)
    (hpair : after.pair = traced.state.shared.pair)
    (hpending : after.pending = traced.state.shared.pending ∨ after.pending = none)
    (hone : Entered next → ∀ other, other ≠ process → ¬ Entered (traced.state.process other))
    (hunmarked : hasRemoved traced.state.shared.pair = true →
      Unmarked setup.pairingId after.authorizedKeys)
    (hadded : ∀ other ∈ added, if other = process then Written next else other ∈ traced.added) :
    Inv setup ⟨traced.state.set process after next, added, seen⟩ where
  ready hready := by
    show after.pending = none
    cases hpending with
    | inl hsame =>
      rw [hsame]
      exact h.ready (hpair.symm.trans hready)
    | inr hnone => exact hnone
  facts := by
    apply System.forall_set (Q := Facts setup after)
    · exact hfacts
    · intro other hother
      exact (h.facts other).stable (hrely other hother)
  one first second hfirst hsecond := by
    by_cases hf : first = process
    · by_cases hs : second = process
      · rw [hf, hs]
      · rw [hf, System.process_set_self] at hfirst
        rw [System.process_set_of_ne _ hs] at hsecond
        exact absurd hsecond (hone hfirst second hs)
    · rw [System.process_set_of_ne _ hf] at hfirst
      by_cases hs : second = process
      · rw [hs, System.process_set_self] at hsecond
        exact absurd hfirst (hone hsecond first hf)
      · rw [System.process_set_of_ne _ hs] at hsecond
        exact h.one first second hfirst hsecond
  unmarked hremoved := hunmarked (by rw [← hpair]; exact hremoved)
  cleared hcleared := by
    show after.pending = none
    cases hpending with
    | inl hsame =>
      rw [hsame]
      exact h.cleared (by rw [← hpair]; exact hcleared)
    | inr hnone => exact hnone
  added other hother := by
    have hcase := hadded other hother
    split at hcase
    next heq =>
      rw [heq, System.process_set_self]
      exact hcase
    next hne =>
      rw [System.process_set_of_ne _ hne]
      exact h.added other hcase

/-- A process that starts or takes its submission changes nothing but itself. -/
theorem Inv.quiet (h : Inv setup traced) (hfacts : Facts setup traced.state.shared process next)
    (hnext : ¬ Entered next) (hphase : ¬ Written (traced.state.process process)) :
    Inv setup ⟨traced.state.set process traced.state.shared next, traced.added, seen⟩ := by
  apply h.set hfacts (fun other _ => Rely.refl other _) rfl (Or.inl rfl)
  · intro hentered
    exact absurd hentered hnext
  · exact h.unmarked
  · intro other hother
    split
    next heq =>
      rw [heq] at hother
      exact absurd (h.added process hother) hphase
    · exact hother

theorem Inv.accept (h : Inv setup traced) (hspared : Spared setup traced (.accept process))
    (hmoves : Moves setup process traced.state.shared (traced.state.process process) after next) :
    Inv setup ⟨traced.state.set process after next,
      if addsKey traced.state.shared.authorizedKeys after.authorizedKeys then
        process :: traced.added
      else traced.added, seen⟩ := by
  have hfacts := h.facts process
  have hchecked : ∀ pending key lines,
      traced.state.process process = .checking pending key lines →
      hasRemoved traced.state.shared.pair = true → traced.state.shared.pending.isSome = true →
        keeps setup.pairingId key.line = true := by
    intro pending key lines hphase
    simp only [Spared, hphase] at hspared
    exact hspared
  apply h.set (hfacts.moves h.ready hchecked hmoves)
    (fun other hother => hmoves.rely hfacts hother) hmoves.pair hmoves.pending
  · intro hentered other hother hentered'
    cases hmoves.entered hfacts hentered with
    | inl hbefore => exact hother (h.one other process hentered' hbefore)
    | inr hlocked =>
      -- the record is still there, so no process has consumed it
      cases (h.facts other).lock_or_gone hentered' with
      | inl hlock =>
        rw [hlocked.1] at hlock
        exact hother (Option.some.inj hlock).symm
      | inr hgone =>
        rw [hgone.1] at hlocked
        cases hlocked.2
  · intro hremoved
    rcases hmoves.file with hsame | hedited | ⟨key, result, kept, hphase, _, hwritten⟩
    · rw [hsame]
      exact h.unmarked hremoved
    · rw [hedited]
      exact unmarked_removeBootstrap _ _
    · rw [hwritten]
      rw [hphase] at hfacts
      exact hfacts.unmarked_writing hremoved
  · intro other hother
    split
    next heq =>
      rw [heq] at hother
      split at hother
      next hadds => exact hmoves.written_of_addsKey hfacts hadds
      · exact hmoves.written (h.added process hother)
    next hne =>
      split at hother
      · cases List.mem_cons.mp hother with
        | inl heq => exact absurd heq hne
        | inr hmem => exact hmem
      · exact hother

theorem facts_takeSubmission (setup : Setup) (sha256 : List UInt8 → List UInt8) (shared : Shared)
    (process : Nat) (pending : PendingPairing) (submission : Option Text) :
    Facts setup shared process (takeSubmission sha256 pending submission) ∧
      ¬ Entered (takeSubmission sha256 pending submission) := by
  unfold takeSubmission
  split
  · exact ⟨trivial, id⟩
  · split
    · exact ⟨trivial, id⟩
    · split
      · exact ⟨trivial, id⟩
      next hkey => exact ⟨fun hmem => (unbroken_parseDeviceKey hkey _ hmem).1 rfl, id⟩

theorem Inv.step {next : Traced} {op : Op} {answer : Unit} (h : Inv setup traced)
    (hspared : Spared setup traced op)
    (hstep : tracedStep setup sha256 traced op = some (next, answer)) : Inv setup next := by
  obtain ⟨⟨state, _⟩, hstate, hnext⟩ := Option.map_eq_some_iff.mp hstep
  cases hnext
  cases op with
  | start process =>
    simp only [Herden.Runtime.Pairing.Ceremony.step] at hstate
    split at hstate
    next hphase =>
      cases hstate
      exact h.quiet trivial id (by rw [hphase]; exact id)
    · cases hstate
  | submit process submission =>
    simp only [Herden.Runtime.Pairing.Ceremony.step] at hstate
    split at hstate
    next hphase =>
      cases hstate
      obtain ⟨hfacts, hentered⟩ := facts_takeSubmission setup sha256
        traced.state.shared process _ submission
      exact h.quiet hfacts hentered (by rw [hphase]; exact id)
    · cases hstate
  | accept process =>
    obtain ⟨⟨after, phase⟩, hadvance, hset⟩ := Option.map_eq_some_iff.mp hstate
    cases hset
    exact h.accept hspared (moves_of_advanceAccept hadvance)
  | tick now | signal | input status | pair =>
    simp only [Herden.Runtime.Pairing.Ceremony.step, Option.map_eq_some_iff] at hstate
    obtain ⟨after, hafter, hset⟩ := hstate
    cases hset
    exact h.shared (pairMoves_of_stepShared hafter)

/-- The record is gone, and the process has not entered. -/
structure Late (process : Nat) (traced : Traced) : Prop where
  gone : Gone traced.state.shared
  out : ¬ Entered (traced.state.process process)

theorem Late.set {other : Nat} (h : Late process traced) (hgone : Gone after)
    (hnext : ¬ Entered (traced.state.process other) → ¬ Entered next) :
    Late process ⟨traced.state.set other after next, added, seen⟩ := by
  refine ⟨hgone, ?_⟩
  by_cases heq : process = other
  · rw [heq, System.process_set_self]
    apply hnext
    rw [← heq]
    exact h.out
  · rw [System.process_set_of_ne _ heq]
    exact h.out

theorem Moves.gone {before : Shared} {phase : AcceptPhase}
    (hmoves : Moves setup process before phase after next) (h : Gone before) : Gone after := by
  refine ⟨?_, by rw [hmoves.pair]; exact h.2⟩
  cases hmoves.pending with
  | inl hsame => rw [hsame]; exact h.1
  | inr hnone => exact hnone

theorem Late.step {process : Nat} {next : Traced} {op : Op} {answer : Unit}
    (h : Late process traced) (hinv : Inv setup traced)
    (hstep : tracedStep setup sha256 traced op = some (next, answer)) : Late process next := by
  obtain ⟨⟨state, _⟩, hstate, hnext⟩ := Option.map_eq_some_iff.mp hstep
  cases hnext
  cases op with
  | start other =>
    simp only [Herden.Runtime.Pairing.Ceremony.step] at hstate
    split at hstate
    · cases hstate
      exact h.set h.gone (fun _ => id)
    · cases hstate
  | submit other submission =>
    simp only [Herden.Runtime.Pairing.Ceremony.step] at hstate
    split at hstate
    · cases hstate
      obtain
          ⟨_, hentered⟩ := facts_takeSubmission setup sha256 traced.state.shared other _ submission
      exact h.set h.gone (fun _ => hentered)
    · cases hstate
  | accept other =>
    obtain ⟨⟨after, phase⟩, hadvance, hset⟩ := Option.map_eq_some_iff.mp hstate
    cases hset
    have hmoves := moves_of_advanceAccept hadvance
    apply h.set (hmoves.gone h.gone)
    intro hout hentered
    cases hmoves.entered (hinv.facts other) hentered with
    | inl hbefore => exact hout hbefore
    | inr hlocked =>
      rw [h.gone.1] at hlocked
      cases hlocked.2
  | tick now | signal | input status | pair =>
    simp only [Herden.Runtime.Pairing.Ceremony.step, Option.map_eq_some_iff] at hstate
    obtain ⟨after, hafter, hset⟩ := hstate
    cases hset
    exact ⟨((pairMoves_of_stepShared hafter).rely 0).gone h.gone, h.out⟩

end

/-! ### Single use -/

/-- At most one process ends with an enrolment, and no other adds a key. Once the cleanup is
done, no line has the marker, and in no later state has a process added a key that had not
entered by then. -/
structure UsedOnce (setup : Setup) (sha256 : List UInt8 → List UInt8) (allowed : Traced → Op → Prop)
    (traced : Traced) : Prop where
  one : ∀ process other key otherKey,
    traced.state.process process = .ended (.result key .enrolled) →
      traced.state.process other = .ended (.result otherKey .enrolled) → process = other
  added : ∀ process ∈ traced.added, ∀ answer, traced.state.process process = .ended answer →
    ∃ key, answer = .result key .enrolled
  unmarked : ∀ verdict, traced.state.shared.pair = .done verdict →
    Unmarked setup.pairingId traced.state.shared.authorizedKeys
  late : ∀ verdict, traced.state.shared.pair = .done verdict →
    ∀ later, Reachable (fun first => first = traced) allowed (tracedStep setup sha256) later →
      ∀ process, ¬ Entered (traced.state.process process) → process ∉ later.added

theorem Written.enrolled {answer : Answer} (h : Written (.ended answer)) :
    ∃ key, answer = .result key .enrolled := by
  cases answer with
  | result key result =>
    cases result with
    | enrolled => exact ⟨key, rfl⟩
    | _ => exact absurd h id
  | _ => exact absurd h id

/-- In a run where no process enters with a marked key after the cleanup has removed the lines,
the pairing is used once. -/
theorem used_once (setup : Setup) (sha256 : List UInt8 → List UInt8) {traced : Traced}
    (h : Reachable Init (Spared setup) (tracedStep setup sha256) traced) :
    UsedOnce setup sha256 (Spared setup) traced := by
  have hinv : Inv setup traced := h.invariant (Inv setup) (fun _ hinit => Inv.init hinit)
    (fun _ _ _ _ hspared hstep hbefore => hbefore.step hspared hstep)
  constructor
  · intro process other key otherKey hprocess hother
    apply hinv.one process other
    · rw [hprocess]
      exact trivial
    · rw [hother]
      exact trivial
  · intro process hadded answer hended
    have hwritten := hinv.added process hadded
    rw [hended] at hwritten
    exact hwritten.enrolled
  · intro verdict hdone
    exact hinv.unmarked (by rw [hdone]; rfl)
  · intro verdict hdone later hlater process hout
    have hgone : Gone traced.state.shared :=
      ⟨hinv.cleared (by rw [hdone]; rfl), by rw [hdone]; exact fun hready => (by cases hready)⟩
    -- both the invariant and the lateness of the process hold from this state on
    have hboth := hlater.invariant (fun state => Inv setup state ∧ Late process state)
      (by
        rintro first rfl
        exact ⟨hinv, hgone, hout⟩)
      (by
        intro before op after answer hspared hstep hbefore
        exact ⟨hbefore.1.step hspared hstep, hbefore.2.step hbefore.1 hstep⟩)
    intro hadded
    exact hboth.2.out (hboth.1.added process hadded).entered

/-! ### A pairing with a marked key -/

def sample : Setup where
  pairingId := "abc".toList
  expiresAt := 120
  publicLine := "ssh-ed25519 AAAA".toList
  command := "'/usr/bin/herden' pair accept --pairing-id abc".toList
  authorizedLine := ("restrict,command=\"'/usr/bin/herden' pair accept --pairing-id abc\" " ++
    "ssh-ed25519 AAAA herden-pairing:abc:exp:120").toList
  authorizedLine_eq := by decide +kernel

def sampleKey : Text :=
  "ssh-ed25519 AAAAC3NzaC1lZDI1NTE5AAAAIAABAgMEBQYHCAkKCwwNDg8QERITFBUWFxgZGhscHR4f".toList

/-- The SHA-256 digest of the blob of `sampleKey`. -/
def sampleHash (_ : List UInt8) : List UInt8 :=
  [102, 64, 44, 148, 104, 197, 137, 65, 221, 25, 255, 214, 80, 191, 43, 66, 249, 34, 111, 131,
    211, 189, 6, 173, 81, 93, 14, 81, 4, 167, 112, 32]

def fresh : Traced where
  state := ⟨⟨none, none, none, 0, none, .ready, false⟩, fun _ => .absent⟩
  added := []
  seen := False

theorem init_fresh : Init fresh := ⟨rfl, fun _ => rfl, rfl, rfl, rfl, rfl, id⟩

/-- The key is submitted, the user cancels, and the process enters between the two halves of the
cleanup. -/
def cancelledRun (comment : Text) : List Op :=
  [.pair, .pair, .start 1, .accept 1, .accept 1, .submit 1 (some (sampleKey ++ comment)),
    .signal, .pair, .pair, .pair,
    .accept 1, .accept 1, .accept 1, .accept 1, .accept 1, .accept 1, .accept 1, .pair, .pair]

/-- A test that is at least as strict as `Spared`. -/
def sparedTest (traced : Traced) : Op → Bool
  | .accept process =>
      match traced.state.process process with
      | .checking _ key _ => keeps sample.pairingId key.line
      | _ => true
  | _ => true

theorem spared_of_sparedTest (traced : Traced) (op : Op) (h : sparedTest traced op = true) :
    Spared sample traced op := by
  cases op with
  | accept process =>
    unfold sparedTest at h
    unfold Spared
    dsimp only at h ⊢
    split
    next hphase =>
      rw [hphase] at h
      exact fun _ _ => h
    · exact trivial
  | _ => exact trivial

/-- The run of a key without a marker. -/
theorem used_once_cancelled : ∃ traced : Traced,
    (traced.state.shared.pair = .done (.cancelled 130) ∧ traced.added = [1]) ∧
      UsedOnce sample sampleHash (Spared sample) traced := by
  have hrun : (runAll (guarded sparedTest (tracedStep sample sampleHash)) fresh
      (cancelledRun " phone".toList)).any (fun traced =>
        traced.state.shared.pair = .done (.cancelled 130) && traced.added = [1]) = true := by
    decide +kernel
  obtain ⟨traced, hsome, hends⟩ := (Option.any_eq_true _ _).mp hrun
  rw [Bool.and_eq_true, decide_eq_true_eq, decide_eq_true_eq] at hends
  exact ⟨traced, hends, used_once sample sampleHash
    (Reachable.runAll spared_of_sparedTest (.start init_fresh) hsome)⟩

/-- A key with the marker of its own pairing stays after the cleanup. -/
theorem marked_key_left : ¬ ∀ traced,
    Reachable Init (fun _ _ => True) (tracedStep sample sampleHash) traced →
      UsedOnce sample sampleHash (fun _ _ => True) traced := by
  intro hall
  have hrun : (runAll (guarded (fun _ _ => true) (tracedStep sample sampleHash)) fresh
      (cancelledRun " herden-pairing:abc:exp:120".toList)).any (fun traced =>
        traced.state.shared.pair = .done (.cancelled 130) &&
          !(readLines traced.state.shared.authorizedKeys).all (keeps sample.pairingId)) = true := by
    decide +kernel
  obtain ⟨traced, hsome, hends⟩ := (Option.any_eq_true _ _).mp hrun
  rw [Bool.and_eq_true, decide_eq_true_eq, Bool.not_eq_true'] at hends
  have honce := hall traced (Reachable.runAll (fun _ _ _ => trivial) (.start init_fresh) hsome)
  have hunmarked := List.all_eq_true.mpr (honce.unmarked _ hends.1)
  rw [hends.2] at hunmarked
  cases hunmarked

end Herden.Proofs.Pairing.Ceremony
