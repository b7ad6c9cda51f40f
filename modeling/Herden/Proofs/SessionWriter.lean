import Mathlib.Data.List.Basic
import Mathlib.Order.Lattice
import Herden.Lib.Run
import Herden.Runtime.SessionWriter

/-!
# `Herden.Proofs.SessionWriter`: an unloaded session file is never lost

A writer that protects an unloaded session copies it to the backups before its first change.
Any call into the file system may fail, so each function has one `Ends` lemma that says what
the disk looks like after a success and after a failure. `Copied` and `Published` tell the ways
an attempt to copy can end, and `Grown` that it leaves at most one new copy behind.

`Ordered` is the invariant of a directory: numbers grow with the moment of publication. It
survives a clock that goes back, since the number of a new copy is above all that are listed.
`Kept` is the invariant of the writer, and `session_kept` follows from the two over every run.
-/

namespace Herden.Proofs.SessionWriter

open Herden.Lib
open Herden.Lib.Fallible
open Herden.Runtime.SessionWriter

/-! ### Names of recovery copies -/

theorem stripPrefixOf_append (start rest : List Char) :
    stripPrefixOf start (start ++ rest) = some rest := by
  rw [stripPrefixOf, if_pos (List.isPrefixOf_iff_prefix.mpr (List.prefix_append start rest)),
    List.drop_left]

theorem stripSuffixOf_append (rest ending : List Char) :
    stripSuffixOf ending (rest ++ ending) = some rest := by
  rw [stripSuffixOf, List.reverse_append, stripPrefixOf_append, Option.map_some,
    List.reverse_reverse]

theorem isDigit_decimal (n : Nat) : (decimal n).all Char.isDigit = true := by
  rw [List.all_eq_true]
  intro c hc
  exact Nat.isDigit_of_mem_toDigits (by omega) (by omega) hc

theorem dash_not_mem_of_isDigit {text : List Char} (h : text.all Char.isDigit = true) :
    '-' ∉ text := by
  intro hmem
  have hdigit := List.all_eq_true.mp h '-' hmem
  revert hdigit
  decide

theorem isDigit_paddedTimestamp (timestamp : Nat) :
    (paddedTimestamp timestamp).all Char.isDigit = true := by
  rw [paddedTimestamp, List.all_append, isDigit_decimal, Bool.and_true, List.all_eq_true]
  intro c hc
  rw [List.eq_of_mem_replicate hc]
  rfl

/-- A number of 128 bits has at most 39 digits. -/
theorem length_paddedTimestamp {timestamp : Nat} (h : timestamp < 2 ^ 128) :
    (paddedTimestamp timestamp).length = 39 := by
  have hlength : (decimal timestamp).length ≤ 39 := by
    rw [decimal, Nat.length_toDigits_le_iff (by omega) (by omega)]
    omega
  rw [paddedTimestamp, List.length_append, List.length_replicate]
  omega

theorem ofDigitChars_paddedTimestamp (timestamp : Nat) :
    Nat.ofDigitChars 10 (paddedTimestamp timestamp) 0 = timestamp := by
  rw [paddedTimestamp, Nat.ofDigitChars_append, Nat.ofDigitChars_replicate_zero, Nat.mul_zero]
  exact Nat.ofDigitChars_ten_toDigits

/-- The number of a recovery copy is read back from its name. -/
theorem recoveryTimestamp_backupName {timestamp : Nat} (h : timestamp < 2 ^ 128)
    (pid sequence : Nat) :
    recoveryTimestamp (backupName timestamp pid sequence) = some timestamp := by
  have hstem : backupName timestamp pid sequence = "session-".toList ++
      ((paddedTimestamp timestamp ++ '-' :: (decimal pid ++ '-' :: decimal sequence)) ++
        ".json".toList) := by
    unfold backupName backupStem
    generalize "session-".toList = start
    generalize ".json".toList = ending
    simp only [List.append_assoc, List.cons_append]
  have hsplit :
      (paddedTimestamp timestamp ++ '-' :: (decimal pid ++ '-' :: decimal sequence)).splitOn
      '-' = [paddedTimestamp timestamp, decimal pid, decimal sequence] := by
    rw [List.splitOn_append_cons_self_of_not_mem
        (dash_not_mem_of_isDigit (isDigit_paddedTimestamp timestamp)),
      List.splitOn_append_cons_self_of_not_mem (dash_not_mem_of_isDigit (isDigit_decimal pid)),
      List.splitOn_eq_singleton (dash_not_mem_of_isDigit (isDigit_decimal sequence))]
  have hlength := length_paddedTimestamp h
  have hnonempty : ∀ n, (decimal n).isEmpty = false := by
    intro n
    rw [List.isEmpty_eq_false_iff]
    exact Nat.toDigits_ne_nil
  have hpadded : (paddedTimestamp timestamp).isEmpty = false := by
    rw [List.isEmpty_eq_false_iff]
    apply List.ne_nil_of_length_pos
    omega
  rw [recoveryTimestamp, hstem, stripPrefixOf_append, Option.bind_eq_bind, Option.bind_some,
    stripSuffixOf_append, Option.bind_some, hsplit]
  have hparse : parseU128 (paddedTimestamp timestamp) = some timestamp := by
    rw [parseU128, ofDigitChars_paddedTimestamp]
    exact if_pos h
  simp [hlength, hpadded, hnonempty, isDigit_decimal, isDigit_paddedTimestamp, hparse]

/-- A file that is still being copied is not a recovery copy. -/
theorem recoveryTimestamp_pendingName (timestamp pid sequence : Nat) :
    recoveryTimestamp (pendingName timestamp pid sequence) = none := by
  have hstem : pendingName timestamp pid sequence = "session-".toList ++
      ((paddedTimestamp timestamp ++ '-' :: (decimal pid ++ '-' :: decimal sequence)) ++
        ".pending".toList) := by
    unfold pendingName backupStem
    generalize "session-".toList = start
    generalize ".pending".toList = ending
    simp only [List.append_assoc, List.cons_append]
  have hsuffix : ∀ rest : List Char, stripSuffixOf ".json".toList (rest ++ ".pending".toList)
      = none := by
    intro rest
    rw [stripSuffixOf, List.reverse_append]
    rfl
  rw [recoveryTimestamp, hstem, stripPrefixOf_append, Option.bind_eq_bind, Option.bind_some,
    hsuffix]
  rfl

/-! ### What a call may touch -/

/-- From `before` to `after`, nothing changed but one directory, and time passed. -/
structure Within (directory : DirName) (before after : Disk) : Prop where
  protectUnloaded : after.protectUnloaded = before.protectUnloaded
  session : after.session = before.session
  history : after.history = before.history
  others : ∀ other, other ≠ directory → after.dir other = before.dir other
  tick_le : before.tick ≤ after.tick

theorem Within.refl (directory : DirName) (disk : Disk) : Within directory disk disk :=
  ⟨rfl, rfl, rfl, fun _ _ => rfl, le_refl _⟩

variable {c : Disk} {directory : DirName} {a b : Dir} {backup : Name}

theorem Within.trans {a b : Disk} (h : Within directory a b) (h' : Within directory b c) :
    Within directory a c where
  protectUnloaded := h'.protectUnloaded.trans h.protectUnloaded
  session := h'.session.trans h.session
  history := h'.history.trans h.history
  others other hne := (h'.others other hne).trans (h.others other hne)
  tick_le := h.tick_le.trans h'.tick_le

/-- The directory is there with these entries, and nothing else changed since `before`. -/
structure At (directory : DirName) (dir : Dir) (before after : Disk) : Prop where
  dir : after.dir directory = some dir
  within : Within directory before after

theorem At.trans {dir dir' : Dir} {a b : Disk} (h : At directory dir a b)
    (h' : At directory dir' b c) : At directory dir' a c := ⟨h'.dir, h.within.trans h'.within⟩

/-- A moment later. -/
def later (disk : Disk) : Disk := { disk with tick := disk.tick + 1 }

theorem within_later (directory : DirName) (disk : Disk) : Within directory disk (later disk) where
  protectUnloaded := rfl
  session := rfl
  history := rfl
  others other _ := by cases other <;> rfl
  tick_le := Nat.le_succ _

theorem dir_later (disk : Disk) (directory : DirName) :
    (later disk).dir directory = disk.dir directory := by
  cases directory <;> rfl

theorem dir_setDir (disk : Disk) (directory : DirName) (dir : Dir) :
    (disk.setDir directory dir).dir directory = some dir := by
  cases directory <;> rfl

theorem within_setDir (disk : Disk) (directory : DirName) (dir : Dir) :
    Within directory disk (disk.setDir directory dir) := by
  cases directory with
  | sessionBackups =>
    refine ⟨rfl, rfl, rfl, fun other hne => ?_, le_refl _⟩
    cases other with
    | sessionBackups => exact absurd rfl hne
    | sessionSnapshots => rfl
  | sessionSnapshots =>
    refine ⟨rfl, rfl, rfl, fun other hne => ?_, le_refl _⟩
    cases other with
    | sessionBackups => rfl
    | sessionSnapshots => exact absurd rfl hne

theorem at_later {dir : Dir} {disk : Disk} (h : disk.dir directory = some dir) :
    At directory dir disk (later disk) :=
  ⟨(dir_later disk directory).trans h, within_later directory disk⟩

theorem at_setDir (disk : Disk) (directory : DirName) (dir : Dir) :
    At directory dir disk ((later disk).setDir directory dir) :=
  ⟨dir_setDir _ _ _, (within_later directory disk).trans (within_setDir _ directory dir)⟩

/-! ### The calls -/

section Calls

variable {world : World} {disk : Disk}

/-- The rule for a call into the file system: it fails with no effect, or its moment is now. -/
theorem ends_attempt {Q : Nat → Disk → Prop} {E : IoError → Disk → Prop}
    (hQ : Q disk.tick (later disk)) (hE : E .other (later disk)) :
    (attempt world).Ends disk Q E := by
  unfold Fallible.Ends attempt
  split
  next heq =>
    split at heq
    · cases heq
    · cases heq
      exact hQ
  next heq =>
    split at heq
    · cases heq
      exact hE
    · cases heq

/-- The same before a continuation. -/
theorem ends_attempt_bind {β : Type} {f : Nat → Io β} {Q : β → Disk → Prop}
    {E : IoError → Disk → Prop} (hQ : (f disk.tick).Ends (later disk) Q E)
    (hE : E .other (later disk)) : (attempt world >>= f).Ends disk Q E :=
  ends_bind.mpr (ends_attempt hQ hE)

variable {directory : DirName} {dir : Dir}

theorem removeFile_ends (hdir : disk.dir directory = some dir) (name : Name) :
    (removeFile world directory name).Ends disk
      (fun _ after => At directory (dir.remove name) disk after)
      (fun _ after => At directory dir disk after) := by
  apply ends_attempt_bind
  · rw [ends_bind, ends_get, dir_later, hdir]
    dsimp only
    cases dir.get name with
    | none => exact at_later hdir
    | some _ => exact at_setDir disk directory _
  · exact at_later hdir

theorem createNew_ends (hdir : disk.dir directory = some dir) (name : Name) :
    (createNew world directory name).Ends disk
      (fun _ after => ∃ file, At directory (dir.insert name (.file file)) disk after)
      (fun _ after => At directory dir disk after) := by
  apply ends_attempt_bind
  · rw [ends_bind, ends_get, dir_later, hdir]
    dsimp only
    cases dir.get name with
    | none => exact ⟨_, at_setDir disk directory _⟩
    | some _ => exact at_later hdir
  · exact at_later hdir

theorem symlinkMetadata_ends (hdir : disk.dir directory = some dir) (name : Name) :
    (symlinkMetadata world directory name).Ends disk
      (fun _ after => At directory dir disk after)
      (fun err after => At directory dir disk after ∧
        (err = .notFound → dir.get name = none) ∧ err ≠ .alreadyExists) := by
  apply ends_attempt_bind
  · rw [ends_bind, ends_get, dir_later, hdir]
    dsimp only
    cases hname : dir.get name with
    | none => exact ⟨at_later hdir, fun _ => rfl, fun h => (by cases h)⟩
    | some _ => exact at_later hdir
  · exact ⟨at_later hdir, fun h => (by cases h), fun h => (by cases h)⟩

theorem ioCopy_ends (hdir : disk.dir directory = some dir) (name : Name) (source : Bytes) :
    (ioCopy world directory name source).Ends disk
      (fun _ after => ∃ file, file.bytes = source ∧
        At directory (dir.insert name (.file file)) disk after)
      (fun err after => err ≠ .alreadyExists ∧
        ∃ file, At directory (dir.insert name (.file file)) disk after) := by
  have hwrite : ∀ bytes, writeFile world directory name bytes disk.tick (later disk)
      = (later disk).setDir directory
        (dir.insert name (.file ⟨bytes, (world.clock disk.tick).val, disk.tick⟩)) := by
    intro bytes
    rw [writeFile, dir_later, hdir]
  unfold Fallible.Ends ioCopy
  dsimp only
  split
  next heq =>
    split at heq
    · cases heq
    · cases heq
      refine ⟨⟨source, (world.clock disk.tick).val, disk.tick⟩, rfl, ?_⟩
      show At directory _ disk (writeFile world directory name source disk.tick (later disk))
      rw [hwrite]
      exact at_setDir disk directory _
  next heq =>
    split at heq
    · cases heq
      refine ⟨fun h => (by cases h),
        ⟨world.torn disk.tick, (world.clock disk.tick).val, disk.tick⟩, ?_⟩
      show At directory _ disk
        (writeFile world directory name (world.torn disk.tick) disk.tick (later disk))
      rw [hwrite]
      exact at_setDir disk directory _
    · cases heq

theorem rename_ends (hdir : disk.dir directory = some dir) {source target : Name} {file : File}
    (hsource : dir.get source = some (.file file)) :
    (rename world directory source target).Ends disk
      (fun _ after => ∃ renamed, renamed.bytes = file.bytes ∧ disk.tick ≤ renamed.published ∧
        renamed.published < after.tick ∧
        At directory ((dir.remove source).insert target (.file renamed)) disk after)
      (fun err after => err ≠ .alreadyExists ∧ At directory dir disk after) := by
  apply ends_attempt_bind
  · rw [ends_bind, ends_get, dir_later, hdir]
    dsimp only
    rw [hsource]
    refine ⟨{ file with published := disk.tick }, rfl, le_refl _, ?_, at_setDir disk directory _⟩
    cases directory <;> exact Nat.lt_succ_self _
  · exact ⟨fun h => (by cases h), at_later hdir⟩

end Calls

/-! ### Copies of a directory -/

/-- A recovery copy: a regular file whose name has a number. -/
structure IsCopy (dir : Dir) (name : Name) (number : Nat) (file : File) : Prop where
  entry : dir.get name = some (.file file)
  number : recoveryTimestamp name = some number

/-- Every copy of `after` is one of `before`. -/
def CopiesIn (before after : Dir) : Prop :=
  ∀ name number file, IsCopy after name number file → IsCopy before name number file

/-- The copies of `after` are those of `before`, and perhaps one under the name `backup` that
was published between the two moments. -/
def Grown (before : Dir) (backup : Name) (start stop : Nat) (after : Dir) : Prop :=
  ∀ name number file, IsCopy after name number file →
    IsCopy before name number file ∨
      name = backup ∧ start ≤ file.published ∧ file.published < stop

theorem CopiesIn.refl (dir : Dir) : CopiesIn dir dir := fun _ _ _ h => h

theorem CopiesIn.trans {c : Dir} (h : CopiesIn a b) (h' : CopiesIn b c) : CopiesIn a c :=
  fun _ _ _ hcopy => h _ _ _ (h' _ _ _ hcopy)

theorem copiesIn_remove (dir : Dir) (name : Name) : CopiesIn dir (dir.remove name) := by
  intro other number file h
  refine ⟨?_, h.number⟩
  have hentry := h.entry
  rw [HashMap.get_remove] at hentry
  split at hentry
  · cases hentry
  · exact hentry

/-- A file under a name without a number is not a copy. -/
theorem copiesIn_insert (dir : Dir) {name : Name} (hname : recoveryTimestamp name = none)
    (entry : Entry) : CopiesIn dir (dir.insert name entry) := by
  intro other number file h
  refine ⟨?_, h.number⟩
  have hne : other ≠ name := by
    intro heq
    have hnumber := h.number
    rw [heq, hname] at hnumber
    cases hnumber
  have hentry := h.entry
  rwa [HashMap.get_insert_of_ne _ hne] at hentry

theorem CopiesIn.grown {before after : Dir} (h : CopiesIn before after) (backup : Name)
    (start stop : Nat) : Grown before backup start stop after :=
  fun _ _ _ hcopy => Or.inl (h _ _ _ hcopy)

theorem grown_insert (dir : Dir) (backup : Name) {file : File} {start stop : Nat}
    (hstart : start ≤ file.published) (hstop : file.published < stop) :
    Grown dir backup start stop (dir.insert backup (.file file)) := by
  intro other number new h
  have hentry := h.entry
  rw [HashMap.get_insert] at hentry
  split at hentry
  next heq =>
    cases hentry
    exact Or.inr ⟨heq, hstart, hstop⟩
  next => exact Or.inl ⟨hentry, h.number⟩

theorem Grown.before {c : Dir} {start stop : Nat} (h : CopiesIn a b)
    (h' : Grown b backup start stop c) : Grown a backup start stop c := by
  intro name number file hcopy
  cases h' _ _ _ hcopy with
  | inl hold => exact Or.inl (h _ _ _ hold)
  | inr hnew => exact Or.inr hnew

theorem Grown.after {c : Dir} {start stop : Nat} (h : Grown a backup start stop b)
    (h' : CopiesIn b c) : Grown a backup start stop c :=
  fun _ _ _ hcopy => h _ _ _ (h' _ _ _ hcopy)

theorem Grown.widen {start start' stop stop' : Nat} (h : Grown a backup start stop b)
    (hstart : start' ≤ start) (hstop : stop ≤ stop') : Grown a backup start' stop' b := by
  intro name number file hcopy
  cases h _ _ _ hcopy with
  | inl hold => exact Or.inl hold
  | inr hnew => exact Or.inr ⟨hnew.1, by omega, by omega⟩

/-! ### Copies in creation order -/

/-- All copies were published before `now`, and a copy published since `start` has a greater
number than every copy published before it. -/
structure Ordered (start now : Nat) (dir : Dir) : Prop where
  past : ∀ name number file, IsCopy dir name number file → file.published < now
  numbered : ∀ name number file name' number' file', IsCopy dir name number file →
    IsCopy dir name' number' file' → file.published < file'.published →
    start ≤ file'.published → number < number'

theorem ordered_empty (start now : Nat) : Ordered start now ∅ where
  past _ _ _ h := by cases h.entry
  numbered _ _ _ _ _ _ h := by cases h.entry

theorem Ordered.later {start now now' : Nat} {dir : Dir} (h : Ordered start now dir)
    (hnow : now ≤ now') : Ordered start now' dir where
  past name number file hcopy := by
    have := h.past name number file hcopy
    omega
  numbered := h.numbered

/-- A copy with a number above all others keeps the order. -/
theorem Ordered.grown {start now stop : Nat} {before after : Dir} {number : Nat}
    (h : Ordered start now before) (hgrown : Grown before backup now stop after)
    (hbackup : recoveryTimestamp backup = some number)
    (hnewest : ∀ name old file, IsCopy before name old file → old < number) (hstop : now ≤ stop) :
    Ordered start stop after where
  past name old file hcopy := by
    cases hgrown _ _ _ hcopy with
    | inl hold =>
      have := h.past _ _ _ hold
      omega
    | inr hnew => exact hnew.2.2
  numbered name n file name' n' file' hcopy hcopy' hlt hstart := by
    cases hgrown _ _ _ hcopy with
    | inl hold =>
      cases hgrown _ _ _ hcopy' with
      | inl hold' => exact h.numbered _ _ _ _ _ _ hold hold' hlt hstart
      | inr hnew' =>
        have hnumber := hcopy'.number
        rw [hnew'.1, hbackup] at hnumber
        cases hnumber
        exact hnewest _ _ _ hold
    | inr hnew =>
      cases hgrown _ _ _ hcopy' with
      | inl hold' =>
        -- an old copy was published before the new one
        have := h.past _ _ _ hold'
        omega
      | inr hnew' =>
        -- there is one new copy
        have hentry := hcopy.entry
        rw [hnew.1, ← hnew'.1, hcopy'.entry] at hentry
        cases hentry
        omega

/-! ### The list of copies -/

theorem mem_recoveryEntries {dir : Dir} {number : Nat} {name : Name} :
    (number, name) ∈ recoveryEntries dir ↔ ∃ file, IsCopy dir name number file := by
  rw [recoveryEntries, List.mem_filterMap]
  constructor
  · rintro ⟨⟨other, entry⟩, hmem, heq⟩
    cases entry with
    | other => cases heq
    | file file =>
      obtain ⟨n, hnumber, hpair⟩ := Option.map_eq_some_iff.mp heq
      cases hpair
      exact ⟨file, HashMap.get_eq_some_iff.mpr hmem, hnumber⟩
  · rintro ⟨file, hcopy⟩
    refine ⟨⟨name, .file file⟩, HashMap.get_eq_some_iff.mp hcopy.entry, ?_⟩
    show (recoveryTimestamp name).map (·, name) = _
    rw [hcopy.number]
    rfl

theorem le_of_recoveryLe {a b : Nat × Name} (h : recoveryLe a b = true) : a.1 ≤ b.1 := by
  rw [recoveryLe, Bool.or_eq_true, Bool.and_eq_true] at h
  cases h with
  | inl hlt => exact Nat.le_of_lt (of_decide_eq_true hlt)
  | inr heq => exact Nat.le_of_eq (of_decide_eq_true heq.1)

theorem recoveryLe_refl (a : Nat × Name) : recoveryLe a a = true := by
  simp [recoveryLe]

theorem recoveryLe_trans (a b c : Nat × Name) (hab : recoveryLe a b = true)
    (hbc : recoveryLe b c = true) : recoveryLe a c = true := by
  simp only [recoveryLe, Bool.or_eq_true, Bool.and_eq_true, decide_eq_true_eq] at hab hbc ⊢
  rcases hab with hab | ⟨hab, hab'⟩
  · rcases hbc with hbc | ⟨hbc, _⟩
    · exact Or.inl (by omega)
    · exact Or.inl (by omega)
  · rcases hbc with hbc | ⟨hbc, hbc'⟩
    · exact Or.inl (by omega)
    · exact Or.inr ⟨by omega, le_trans hab' hbc'⟩

theorem recoveryLe_total (a b : Nat × Name) : (recoveryLe a b || recoveryLe b a) = true := by
  simp only [recoveryLe, Bool.or_eq_true, Bool.and_eq_true, decide_eq_true_eq]
  rcases Nat.lt_trichotomy a.1 b.1 with h | h | h
  · exact Or.inl (Or.inl h)
  · rcases le_total a.2 b.2 with h' | h'
    · exact Or.inl (Or.inr ⟨h, h'⟩)
    · exact Or.inr (Or.inr ⟨h.symm, h'⟩)
  · exact Or.inr (Or.inl h)

/-- The last entry of a sorted listing has the greatest number. -/
theorem le_getLast {entries : List (Nat × Name)} {last : Nat × Name}
    (hlast : (entries.mergeSort recoveryLe).getLast? = some last) {entry : Nat × Name}
    (hentry : entry ∈ entries) : entry.1 ≤ last.1 := by
  obtain ⟨init, hinit⟩ := List.getLast?_eq_some_iff.mp hlast
  have hsorted := List.pairwise_mergeSort recoveryLe_trans recoveryLe_total entries
  have hmem : entry ∈ entries.mergeSort recoveryLe := List.mem_mergeSort.mpr hentry
  rw [hinit] at hsorted hmem
  cases List.mem_append.mp hmem with
  | inl hmem =>
    exact le_of_recoveryLe
        ((List.pairwise_append.mp hsorted).2.2 _ hmem _ (List.mem_singleton_self _))
  | inr hmem =>
    rw [List.mem_singleton.mp hmem]

section Preserve

variable {world : World} {disk : Disk} {directory : DirName} {dir : Dir}

theorem recoveryFiles_ends (hdir : disk.dir directory = some dir) :
    (recoveryFiles world directory).Ends disk
      (fun older after => older = (recoveryEntries dir).mergeSort recoveryLe ∧
        At directory dir disk after)
      (fun _ after => At directory dir disk after) := by
  apply ends_attempt_bind
  · rw [ends_bind, ends_get, dir_later, hdir]
    dsimp only
    have hlater := (at_later hdir).trans (at_later ((at_later hdir).dir))
    exact ends_attempt_bind ⟨rfl, hlater⟩ hlater
  · exact at_later hdir

/-- The number of a new copy is above all others, whatever the clock says. -/
theorem nextTimestamp_ends {now : Nat} (hnow : now < 2 ^ 128) (disk : Disk) :
    (nextTimestamp ((recoveryEntries dir).mergeSort recoveryLe) now).Ends disk
      (fun number after => after = disk ∧ number < 2 ^ 128 ∧
        ∀ name old file, IsCopy dir name old file → old < number)
      (fun _ after => after = disk) := by
  unfold nextTimestamp
  split
  next previous name hlast =>
    have hle : ∀ name old file, IsCopy dir name old file → old < previous + 1 := by
      intro name old file hcopy
      have := le_getLast hlast (mem_recoveryEntries.mpr ⟨file, hcopy⟩)
      exact Nat.lt_succ_of_le this
    split
    next hlt =>
      refine ⟨rfl, max_lt hnow hlt, fun name old file hcopy => ?_⟩
      exact lt_of_lt_of_le (hle _ _ _ hcopy) (le_max_right _ _)
    next => exact (rfl : disk = disk)
  next hlast =>
    refine ⟨rfl, hnow, fun name old file hcopy => ?_⟩
    have hmem : (old, name) ∈ (recoveryEntries dir).mergeSort recoveryLe :=
      List.mem_mergeSort.mpr (mem_recoveryEntries.mpr ⟨file, hcopy⟩)
    rw [List.getLast?_eq_none_iff.mp hlast] at hmem
    cases hmem

/-- Pruning removes some of the names it is given and touches nothing else. -/
theorem pruneLoop_ends (older : List (Nat × Name)) (remaining : Nat) (failure : Option IoError)
    (hdir : disk.dir directory = some dir) :
    (pruneLoop world directory older remaining failure).Ends disk
      (fun _ after => ∃ dir', At directory dir' disk after ∧ CopiesIn dir dir' ∧
        ∀ name, name ∉ older.map Prod.snd → dir'.get name = dir.get name)
      (fun _ after => ∃ dir', At directory dir' disk after ∧ CopiesIn dir dir' ∧
        ∀ name, name ∉ older.map Prod.snd → dir'.get name = dir.get name) := by
  induction older generalizing disk dir remaining failure with
  | nil =>
    have hsame : ∃ dir', At directory dir' disk disk ∧ CopiesIn dir dir' ∧
        ∀ name, name ∉ ([] : List (Nat × Name)).map Prod.snd → dir'.get name = dir.get name :=
      ⟨dir, ⟨hdir, Within.refl directory disk⟩, CopiesIn.refl dir, fun _ _ => rfl⟩
    unfold pruneLoop
    split
    · split
      · exact hsame
      · exact hsame
    · exact hsame
  | cons entry rest ih =>
    obtain ⟨number, path⟩ := entry
    unfold pruneLoop
    split
    · exact ⟨dir, ⟨hdir, Within.refl directory disk⟩, CopiesIn.refl dir, fun _ _ => rfl⟩
    · rw [ends_bind, ends_observe]
      apply (removeFile_ends hdir path).mono
      · intro _ mid hmid
        -- what the rest of the loop does comes after this removal
        have hafter : ∀ after, (∃ dir', At directory dir' mid after ∧
            CopiesIn (dir.remove path) dir' ∧ ∀ name, name ∉ rest.map Prod.snd →
              dir'.get name = (dir.remove path).get name) →
            ∃ dir', At directory dir' disk after ∧ CopiesIn dir dir' ∧
              ∀ name, name ∉ ((number, path) :: rest).map Prod.snd →
                dir'.get name = dir.get name := by
          rintro after ⟨dir', hat, hcopies, hothers⟩
          refine ⟨dir', hmid.trans hat, (copiesIn_remove dir path).trans hcopies, ?_⟩
          intro name hname
          rw [List.map_cons, List.mem_cons, not_or] at hname
          rw [hothers name hname.2, HashMap.get_remove_of_ne _ hname.1]
        exact (ih (remaining - 1) failure hmid.dir).mono (fun _ => hafter) (fun _ => hafter)
      · intro err mid hmid
        have hafter : ∀ after, (∃ dir', At directory dir' mid after ∧
            CopiesIn dir dir' ∧ ∀ name, name ∉ rest.map Prod.snd →
              dir'.get name = dir.get name) →
            ∃ dir', At directory dir' disk after ∧ CopiesIn dir dir' ∧
              ∀ name, name ∉ ((number, path) :: rest).map Prod.snd →
                dir'.get name = dir.get name := by
          rintro after ⟨dir', hat, hcopies, hothers⟩
          refine ⟨dir', hmid.trans hat, hcopies, ?_⟩
          intro name hname
          rw [List.map_cons, List.mem_cons, not_or] at hname
          exact hothers name hname.2
        exact (ih remaining (some err) hmid.dir).mono (fun _ => hafter) (fun _ => hafter)

/-- How the attempt to publish a copy ends: the name is taken and nothing was read, it failed
and there is no copy, or the copy has its name. -/
inductive Published (directory : DirName) (dir : Dir) (backup : Name) (source : Bytes)
    (before : Disk) : Except IoError Unit × Bytes × Bool → Disk → Prop
  | taken {dir' : Dir} {after : Disk} (hat : At directory dir' before after)
      (hcopies : CopiesIn dir dir') :
      Published directory dir backup source before (.error .alreadyExists, source, false) after
  | failed {err : IoError} {rest : Bytes} {dir' : Dir} {after : Disk} (herr : err ≠ .alreadyExists)
      (hat : At directory dir' before after) (hcopies : CopiesIn dir dir') :
      Published directory dir backup source before (.error err, rest, false) after
  | named {result : Except IoError Unit} {rest : Bytes} {dir' : Dir} {file : File} {after : Disk}
      (hresult : result ≠ .error .alreadyExists) (hat : At directory dir' before after)
      (hgrown : Grown dir backup before.tick after.tick dir')
      (hfile : dir'.get backup = some (.file file)) (hbytes : file.bytes = source) :
      Published directory dir backup source before (result, rest, true) after

/-- The directory and its parent are synced: nothing changes. -/
theorem synced_ends (hdir : disk.dir directory = some dir) :
    (do let _ ← attempt world; let _ ← attempt world : Io Unit).Ends disk
      (fun _ after => At directory dir disk after)
      (fun err after => err ≠ .alreadyExists ∧ At directory dir disk after) := by
  have hfirst := at_later hdir
  have hsecond := hfirst.trans (at_later hfirst.dir)
  refine ends_attempt_bind ?_ ⟨fun h => (by cases h), hfirst⟩
  exact ends_attempt_bind hsecond ⟨fun h => (by cases h), hsecond⟩

variable {backup : Name}

theorem publishRecovery_ends (hdir : disk.dir directory = some dir) {pending : Name}
    (hpending : recoveryTimestamp pending = none) (source : Bytes) :
    (publishRecovery world directory pending backup source).Ends disk
      (Published directory dir backup source disk) (fun _ _ => False) := by
  unfold publishRecovery
  rw [ends_bind, ends_observe]
  apply (symlinkMetadata_ends hdir backup).mono
  · intro entry mid hmid
    exact Published.taken hmid (CopiesIn.refl dir)
  · rintro err mid ⟨hmid, hnotFound, herr⟩
    cases err with
    | alreadyExists => exact absurd rfl herr
    | other => exact Published.failed herr hmid (CopiesIn.refl dir)
    | notFound =>
      dsimp only
      rw [ends_bind, ends_observe]
      apply (ioCopy_ends hmid.dir pending source).mono
      · rintro _ copied ⟨file, hbytes, hcopied⟩
        dsimp only
        rw [ends_bind, ends_observe]
        have hsource : (dir.insert pending (.file file)).get pending = some (.file file) :=
          HashMap.get_insert_self _ _ _
        have hcopies := copiesIn_insert dir hpending (.file file)
        have hsynced := at_later hcopied.dir
        have hreached := (hmid.trans hcopied).trans hsynced
        refine ends_attempt_bind ?_ (Published.failed (fun h => (by cases h)) hreached hcopies)
        apply (rename_ends hsynced.dir hsource).mono
        · rintro _ renamed ⟨new, hnew, hstart, hstop, hat⟩
          dsimp only
          rw [ends_bind, ends_observe]
          have hgrown : ∀ after : Disk, renamed.tick ≤ after.tick → Grown dir backup disk.tick
              after.tick (((dir.insert pending (.file file)).remove pending).insert backup
                (.file new)) := by
            intro after hle
            have hfirst := hreached.within.tick_le
            exact Grown.before (hcopies.trans (copiesIn_remove _ _))
              (grown_insert _ backup (by omega) (by omega))
          apply (synced_ends hat.dir).mono
          · intro _ after hafter
            exact Published.named (fun h => (by cases h)) ((hreached.trans hat).trans hafter)
              (hgrown after hafter.within.tick_le) (HashMap.get_insert_self _ _ _)
              (hnew.trans hbytes)
          · rintro err after ⟨herr, hafter⟩
            exact Published.named (fun h => herr (by cases h; rfl))
              ((hreached.trans hat).trans hafter) (hgrown after hafter.within.tick_le)
              (HashMap.get_insert_self _ _ _) (hnew.trans hbytes)
        · rintro err after ⟨herr, hat⟩
          exact Published.failed herr (hreached.trans hat) hcopies
      · rintro err after ⟨herr, file, hat⟩
        exact Published.failed herr (hmid.trans hat) (copiesIn_insert dir hpending _)

/-- How one attempt to copy ends: the name is taken and nothing was read, it failed and there
may be one more file, or the copy is there. -/
inductive Copied (directory : DirName) (dir : Dir) (backup : Name) (source : Bytes)
    (before : Disk) : Except IoError Unit × Bytes → Disk → Prop
  | taken {dir' : Dir} {after : Disk} (hat : At directory dir' before after)
      (hcopies : CopiesIn dir dir') :
      Copied directory dir backup source before (.error .alreadyExists, source) after
  | failed {err : IoError} {rest : Bytes} {dir' : Dir} {after : Disk} (herr : err ≠ .alreadyExists)
      (hat : At directory dir' before after)
      (hgrown : Grown dir backup before.tick after.tick dir') :
      Copied directory dir backup source before (.error err, rest) after
  | copied {rest : Bytes} {dir' : Dir} {file : File} {after : Disk}
      (hat : At directory dir' before after)
      (hgrown : Grown dir backup before.tick after.tick dir')
      (hfile : dir'.get backup = some (.file file)) (hbytes : file.bytes = source) :
      Copied directory dir backup source before (.ok (), rest) after

/-- A removal whose failure is ignored. -/
theorem observe_removeFile_ends (hdir : disk.dir directory = some dir) (name : Name) :
    (observe (removeFile world directory name)).Ends disk
      (fun _ after => ∃ dir', At directory dir' disk after ∧ CopiesIn dir dir')
      (fun _ _ => False) := by
  rw [ends_observe]
  apply (removeFile_ends hdir name).mono
  · intro _ after hafter
    exact ⟨_, hafter, copiesIn_remove dir name⟩
  · intro _ after hafter
    exact ⟨_, hafter, CopiesIn.refl dir⟩

theorem Copied.unread (err : IoError) {source : Bytes} {after : Disk}
    (hat : At directory dir disk after) :
    Copied directory dir backup source disk (.error err, source) after := by
  by_cases herr : err = .alreadyExists
  · subst herr
    exact Copied.taken hat (CopiesIn.refl dir)
  · exact Copied.failed herr hat ((CopiesIn.refl dir).grown _ _ _)

theorem copyRecovery_ends (hdir : disk.dir directory = some dir) {pending : Name}
    (hpending : recoveryTimestamp pending = none) (source : Bytes) :
    (copyRecovery world directory pending backup source).Ends disk
      (Copied directory dir backup source disk) (fun _ _ => False) := by
  unfold copyRecovery
  rw [ends_bind, ends_observe]
  apply (createNew_ends hdir pending).mono
  · rintro _ created ⟨empty, hcreated⟩
    dsimp only
    have hnew := copiesIn_insert dir hpending (.file empty)
    rw [ends_bind]
    refine (publishRecovery_ends hcreated.dir hpending source).mono ?_ (fun _ _ => False.elim)
    intro outcome after houtcome
    have hfirst := hcreated.within.tick_le
    cases houtcome with
    | taken hat hcopies =>
      dsimp only
      rw [ends_bind]
      refine (observe_removeFile_ends hat.dir pending).mono ?_ (fun _ _ => False.elim)
      rintro _ removed ⟨dir', hremoved, hcopies'⟩
      exact Copied.taken ((hcreated.trans hat).trans hremoved)
        ((hnew.trans hcopies).trans hcopies')
    | failed herr hat hcopies =>
      dsimp only
      rw [ends_bind]
      refine (observe_removeFile_ends hat.dir pending).mono ?_ (fun _ _ => False.elim)
      rintro _ removed ⟨dir', hremoved, hcopies'⟩
      exact Copied.failed herr ((hcreated.trans hat).trans hremoved)
        (((hnew.trans hcopies).trans hcopies').grown _ _ _)
    | named hresult hat hgrown hfile hbytes =>
      rename_i result rest dir' file
      cases result with
      | ok value =>
        exact Copied.copied (hcreated.trans hat)
          (Grown.before hnew (hgrown.widen hfirst (le_refl _))) hfile hbytes
      | error err =>
        dsimp only
        rw [ends_bind]
        refine (observe_removeFile_ends hat.dir pending).mono ?_ (fun _ _ => False.elim)
        rintro _ removed ⟨dir'', hremoved, hcopies'⟩
        rw [if_pos rfl, ends_bind]
        refine (observe_removeFile_ends hremoved.dir backup).mono ?_ (fun _ _ => False.elim)
        rintro _ cleared ⟨emptied, hcleared, hcopies''⟩
        have hlast := hremoved.within.tick_le.trans hcleared.within.tick_le
        exact Copied.failed (fun h => hresult (congrArg Except.error h))
          (((hcreated.trans hat).trans hremoved).trans hcleared)
          (Grown.before hnew
            (((hgrown.after hcopies').after hcopies'').widen hfirst hlast))
  · intro err after hat
    exact Copied.unread err hat

/-- Of the new names with this number, at most one has become a copy. -/
def LeftOver (directory : DirName) (dir : Dir) (number : Nat) (before after : Disk) : Prop :=
  ∃ dir' backup, At directory dir' before after ∧ recoveryTimestamp backup = some number ∧
    Grown dir backup before.tick after.tick dir'

/-- The bytes are in a new copy with this number. -/
def Preserved (directory : DirName) (dir : Dir) (number : Nat) (source : Bytes)
    (before after : Disk) : Prop :=
  ∃ dir' backup file, At directory dir' before after ∧ recoveryTimestamp backup = some number ∧
    Grown dir backup before.tick after.tick dir' ∧
    dir'.get backup = some (.file file) ∧ file.bytes = source

theorem copyAttempts_ends {number : Nat} (hnumber : number < 2 ^ 128) (keep : Nat)
    {older : List (Nat × Name)} (holder : ∀ entry ∈ older, recoveryTimestamp entry.2 ≠ some number)
    (rounds sequence : Nat) (source : Bytes) (hdir : disk.dir directory = some dir) :
    (copyAttempts world directory keep older number rounds sequence source).Ends disk
      (fun result after => result = true ∧ Preserved directory dir number source disk after)
      (fun _ after => LeftOver directory dir number disk after) := by
  induction rounds generalizing disk dir sequence with
  | zero =>
    exact ⟨dir, backupName number world.pid 0, ⟨hdir, Within.refl directory disk⟩,
      recoveryTimestamp_backupName hnumber _ _, (CopiesIn.refl dir).grown _ _ _⟩
  | succ rounds ih =>
    unfold copyAttempts
    have hname := recoveryTimestamp_backupName hnumber world.pid sequence
    have hpending := recoveryTimestamp_pendingName number world.pid sequence
    generalize backupName number world.pid sequence = backup at hname ⊢
    generalize pendingName number world.pid sequence = pending at hpending ⊢
    rw [ends_bind]
    refine (copyRecovery_ends hdir hpending source).mono ?_ (fun _ _ => False.elim)
    intro outcome mid houtcome
    cases houtcome with
    | taken hat hcopies =>
      -- the next number of the sequence is tried, with the source still unread
      have hfirst := hat.within.tick_le
      apply (ih (sequence + 1) hat.dir).mono
      · rintro result after ⟨hresult, dir', name, file, hat', hname', hgrown, hget, hbytes⟩
        exact ⟨hresult, dir', name, file, hat.trans hat', hname',
          (Grown.before hcopies hgrown).widen hfirst (le_refl _), hget, hbytes⟩
      · rintro err after ⟨dir', name, hat', hname', hgrown⟩
        exact ⟨dir', name, hat.trans hat', hname',
          (Grown.before hcopies hgrown).widen hfirst (le_refl _)⟩
    | @failed err rest dir' after herr hat hgrown =>
      cases err with
      | alreadyExists => exact absurd rfl herr
      | notFound => exact ⟨dir', backup, hat, hname, hgrown⟩
      | other => exact ⟨dir', backup, hat, hname, hgrown⟩
    | @copied rest dir' file after hat hgrown hget hbytes =>
      dsimp only
      rw [ends_bind, ends_observe]
      have hbackup : backup ∉ older.map Prod.snd := by
        intro hmem
        obtain ⟨entry, hentry, heq⟩ := List.mem_map.mp hmem
        exact holder entry hentry (heq ▸ hname)
      apply (pruneLoop_ends older (older.length - (keep - 1)) none hat.dir).mono
      · rintro _ pruned ⟨dir'', hat', hcopies, hothers⟩
        refine ⟨rfl, dir'', backup, file, hat.trans hat', hname, ?_, ?_, hbytes⟩
        · exact (hgrown.after hcopies).widen (le_refl _) hat'.within.tick_le
        · rw [hothers backup hbackup, hget]
      · rintro err pruned ⟨dir'', hat', hcopies, hothers⟩
        have hgrown' := (hgrown.after hcopies).widen (le_refl disk.tick) hat'.within.tick_le
        dsimp only
        split
        · -- a snapshot is taken back
          rw [ends_bind]
          apply (removeFile_ends hat'.dir backup).mono
          · intro _ removed hremoved
            exact ⟨_, backup, (hat.trans hat').trans hremoved, hname,
              (hgrown'.after (copiesIn_remove _ _)).widen (le_refl _) hremoved.within.tick_le⟩
          · intro _ removed hremoved
            exact ⟨_, backup, (hat.trans hat').trans hremoved, hname,
              hgrown'.widen (le_refl _) hremoved.within.tick_le⟩
        · refine ⟨rfl, dir'', backup, file, hat.trans hat', hname, hgrown', ?_, hbytes⟩
          rw [hothers backup hbackup, hget]

end Preserve

/-! ### Preserving the session -/

/-- Nothing changed but the time. -/
structure Idle (before after : Disk) : Prop where
  protectUnloaded : after.protectUnloaded = before.protectUnloaded
  session : after.session = before.session
  history : after.history = before.history
  dir : ∀ directory, after.dir directory = before.dir directory
  tick_le : before.tick ≤ after.tick

theorem Idle.refl (disk : Disk) : Idle disk disk := ⟨rfl, rfl, rfl, fun _ => rfl, le_refl _⟩

theorem Idle.trans {a b : Disk} (h : Idle a b) (h' : Idle b c) : Idle a c where
  protectUnloaded := h'.protectUnloaded.trans h.protectUnloaded
  session := h'.session.trans h.session
  history := h'.history.trans h.history
  dir directory := (h'.dir directory).trans (h.dir directory)
  tick_le := h.tick_le.trans h'.tick_le

theorem idle_later (disk : Disk) : Idle disk (later disk) :=
  ⟨rfl, rfl, rfl, dir_later disk, Nat.le_succ _⟩

theorem Idle.within {before after : Disk} (h : Idle before after) (directory : DirName) :
    Within directory before after :=
  ⟨h.protectUnloaded, h.session, h.history, fun other _ => h.dir other, h.tick_le⟩

/-- The copies of both directories are in creation order. -/
def InOrder (start : Nat) (disk : Disk) : Prop :=
  ∀ directory dir, disk.dir directory = some dir → Ordered start disk.tick dir

theorem InOrder.within {start : Nat} {before after : Disk} (h : InOrder start before)
    (hwithin : Within directory before after)
    (hdir : ∀ dir, after.dir directory = some dir → Ordered start after.tick dir) :
    InOrder start after := by
  intro other dir hother
  by_cases hne : other = directory
  · subst hne
    exact hdir dir hother
  · rw [hwithin.others other hne] at hother
    exact (h other dir hother).later hwithin.tick_le

/-- What leaves the directories alone keeps the order. -/
theorem InOrder.congr {start : Nat} {before after : Disk} (h : InOrder start before)
    (hdir : ∀ directory, after.dir directory = before.dir directory)
    (htick : before.tick ≤ after.tick) : InOrder start after := by
  intro directory dir hafter
  rw [hdir directory] at hafter
  exact (h directory dir hafter).later htick

theorem InOrder.idle {start : Nat} {before after : Disk} (h : InOrder start before)
    (hidle : Idle before after) : InOrder start after :=
  h.congr hidle.dir hidle.tick_le

/-- The copy with the greatest number has these bytes. -/
def NewestHas (dir : Dir) (bytes : Bytes) : Prop :=
  ∃ name number file, IsCopy dir name number file ∧ file.bytes = bytes ∧
    ∀ name' number' file', IsCopy dir name' number' file' → name' = name ∨ number' < number

section

variable {world : World} {disk : Disk} {directory : DirName} {dir : Dir}

theorem Preserved.newestHas {number : Nat} {source : Bytes} {after : Disk}
    (h : Preserved directory dir number source disk after)
    (hnewest : ∀ name old file, IsCopy dir name old file → old < number) :
    ∃ dir', after.dir directory = some dir' ∧ NewestHas dir' source := by
  obtain ⟨dir', backup, file, hat, hname, hgrown, hget, hbytes⟩ := h
  refine ⟨dir', hat.dir, backup, number, file, ⟨hget, hname⟩, hbytes, ?_⟩
  intro name' number' file' hcopy
  cases hgrown _ _ _ hcopy with
  | inl hold => exact Or.inr (hnewest _ _ _ hold)
  | inr hnew => exact Or.inl hnew.1

theorem Preserved.leftOver {number : Nat} {source : Bytes} {after : Disk}
    (h : Preserved directory dir number source disk after) :
    LeftOver directory dir number disk after := by
  obtain ⟨dir', backup, file, hat, hname, hgrown, _, _⟩ := h
  exact ⟨dir', backup, hat, hname, hgrown⟩

/-- An attempt to preserve, however it ended, keeps the order. -/
theorem LeftOver.inOrder {start number : Nat} {after : Disk}
    (h : LeftOver directory dir number disk after) (hdir : disk.dir directory = some dir)
    (hnewest : ∀ name old file, IsCopy dir name old file → old < number)
    (horder : InOrder start disk) : Within directory disk after ∧ InOrder start after := by
  obtain ⟨dir', backup, hat, hname, hgrown⟩ := h
  refine ⟨hat.within, horder.within hat.within ?_⟩
  intro dir'' hafter
  obtain rfl : dir' = dir'' := Option.some.inj (hat.dir.symm.trans hafter)
  exact (horder directory dir hdir).grown hgrown hname hnewest hat.within.tick_le

theorem openSession_ends :
    (openSession world).Ends disk
      (fun node after => node = disk.session ∧ Idle disk after)
      (fun _ after => Idle disk after) :=
  ends_attempt_bind ⟨rfl, idle_later disk⟩ (idle_later disk)

theorem createDirAll_ends {start : Nat} (horder : InOrder start disk) :
    (createDirAll world directory).Ends disk
      (fun _ after => (∃ dir, after.dir directory = some dir) ∧ Within directory disk after ∧
        InOrder start after)
      (fun _ after => Idle disk after) := by
  apply ends_attempt_bind
  · rw [ends_modify]
    have hlater := horder.idle (idle_later disk)
    split
    next dir hdir =>
      exact ⟨⟨dir, hdir⟩, (idle_later disk).within directory, hlater⟩
    next hdir =>
      have hat := at_setDir disk directory ∅
      refine ⟨⟨∅, hat.dir⟩, hat.within, horder.within hat.within ?_⟩
      intro dir hempty
      obtain rfl : ∅ = dir := Option.some.inj (hat.dir.symm.trans hempty)
      exact ordered_empty _ _
  · exact idle_later disk

/-- Preserving the session touches one directory and keeps its order; when it succeeds, the
newest copy there has the bytes of the session, or there was no session. -/
theorem preserveExistingIn_ends {start : Nat} (keep : Nat) (horder : InOrder start disk) :
    (preserveExistingIn world directory keep).Ends disk
      (fun result after => (Within directory disk after ∧ InOrder start after) ∧
        ((result = false ∧ disk.session = none) ∨
          ∃ bytes dir, disk.session = some (.file bytes) ∧
            after.dir directory = some dir ∧ NewestHas dir bytes ∧ result = true))
      (fun _ after => Within directory disk after ∧ InOrder start after) := by
  have hidle : ∀ after, Idle disk after → Within directory disk after ∧ InOrder start after :=
    fun after h => ⟨h.within directory, horder.idle h⟩
  unfold preserveExistingIn
  rw [ends_bind]
  apply openSession_ends.mono
  · rintro node opened ⟨hnode, hopened⟩
    cases node with
    | none => exact ⟨hidle _ hopened, Or.inl ⟨rfl, hnode.symm⟩⟩
    | some node =>
      have hmeta := hopened.trans (idle_later opened)
      apply ends_attempt_bind _ (hidle _ hmeta)
      cases node with
      | other => exact hidle _ hmeta
      | file source =>
        dsimp only
        rw [ends_bind]
        apply (createDirAll_ends (horder.idle hmeta)).mono
        · rintro _ created ⟨⟨dir, hdir⟩, hwithin, hcreated⟩
          have hstart := (hmeta.within directory).trans hwithin
          have hat : ∀ after, At directory dir created after →
              Within directory disk after ∧ InOrder start after := by
            intro after hafter
            refine ⟨hstart.trans hafter.within, hcreated.within hafter.within ?_⟩
            intro dir' hdir'
            obtain rfl : dir = dir' := Option.some.inj (hafter.dir.symm.trans hdir')
            exact (hcreated directory dir hdir).later hafter.within.tick_le
          rw [ends_bind]
          apply (recoveryFiles_ends hdir).mono
          · rintro older listed ⟨rfl, hlisted⟩
            rw [ends_bind]
            -- reading the clock cannot fail
            show Ends _ (later listed) _ _
            have hnow := hlisted.trans (at_later hlisted.dir)
            rw [ends_bind]
            apply (nextTimestamp_ends (world.clock listed.tick).isLt (later listed)).mono
            · rintro number after ⟨rfl, hnumber, hnewest⟩
              have hbefore := hat _ hnow
              have holder : ∀ entry ∈ (recoveryEntries dir).mergeSort recoveryLe,
                  recoveryTimestamp entry.2 ≠ some number := by
                intro entry hentry heq
                obtain ⟨file, hcopy⟩ := mem_recoveryEntries.mp (List.mem_mergeSort.mp hentry)
                have hlt := hnewest _ _ _ hcopy
                rw [hcopy.number] at heq
                cases heq
                omega
              apply (copyAttempts_ends hnumber keep holder 128 0 source hnow.dir).mono
              · rintro result after ⟨hresult, hpreserved⟩
                have hleft := hpreserved.leftOver.inOrder hnow.dir hnewest hbefore.2
                obtain ⟨dir', hdir', hbytes⟩ := hpreserved.newestHas hnewest
                exact ⟨⟨hbefore.1.trans hleft.1, hleft.2⟩,
                  Or.inr ⟨source, dir', hnode.symm, hdir', hbytes, hresult⟩⟩
              · intro err after hleft
                have hleft := hleft.inOrder hnow.dir hnewest hbefore.2
                exact ⟨hbefore.1.trans hleft.1, hleft.2⟩
            · rintro err after rfl
              exact hat _ hnow
          · intro err after hafter
            exact hat _ hafter
        · intro err after hafter
          exact hidle _ (hmeta.trans hafter)
  · intro err after hafter
    exact hidle _ hafter

/-! ### The history of snapshots -/

theorem recoveryFiles_idle :
    (recoveryFiles world directory).Ends disk (fun _ => Idle disk) (fun _ => Idle disk) := by
  apply ends_attempt_bind _ (idle_later disk)
  rw [ends_bind, ends_get]
  split
  · exact idle_later disk
  · have hlater := (idle_later disk).trans (idle_later (later disk))
    exact ends_attempt_bind hlater hlater

theorem symlinkMetadata_idle (name : Name) :
    (symlinkMetadata world directory name).Ends disk (fun _ => Idle disk) (fun _ => Idle disk) := by
  apply ends_attempt_bind _ (idle_later disk)
  rw [ends_bind, ends_get]
  split
  · exact idle_later disk
  · split
    · exact idle_later disk
    · exact idle_later disk

theorem latestIsRecent_idle (latest : Name) :
    (latestIsRecent world latest).Ends disk (fun _ => Idle disk) (fun _ => Idle disk) := by
  unfold latestIsRecent
  rw [ends_bind]
  apply (symlinkMetadata_idle latest).mono
  · intro entry after hafter
    cases entry with
    | other => exact hafter
    | file file => exact hafter.trans (idle_later after)
  · intro err after hafter
    exact hafter

theorem latestIsSame_idle (latest : Name) (snapshot : SnapshotView) :
    (latestIsSame world latest snapshot).Ends disk (fun _ => Idle disk) (fun _ => Idle disk) := by
  unfold latestIsSame
  rw [ends_bind]
  apply (symlinkMetadata_idle latest).mono
  · intro entry after hafter
    cases entry with
    | other => exact hafter
    | file file =>
      dsimp only
      split
      · exact hafter
      · exact hafter
  · intro err after hafter
    exact hafter

variable {start : Nat}

/-- Preserving a snapshot, with its result dropped. -/
theorem preserveExistingIn_snapshots (horder : InOrder start disk) :
    (do let _ ← preserveExistingIn world .sessionSnapshots snapshotLimit : Io Unit).Ends disk
      (fun _ after => Within .sessionSnapshots disk after ∧ InOrder start after)
      (fun _ after => Within .sessionSnapshots disk after ∧ InOrder start after) := by
  rw [ends_bind]
  exact (preserveExistingIn_ends snapshotLimit horder).mono (fun _ _ h => h.1) (fun _ _ h => h)

theorem preserveSnapshot_ends (latest : Option (Nat × Name)) (horder : InOrder start disk) :
    (preserveSnapshot world latest).Ends disk
      (fun _ after => Within .sessionSnapshots disk after ∧ InOrder start after)
      (fun _ after => Within .sessionSnapshots disk after ∧ InOrder start after) := by
  have hidle : ∀ after, Idle disk after →
      Within .sessionSnapshots disk after ∧ InOrder start after :=
    fun after h => ⟨h.within _, horder.idle h⟩
  -- the copy starts from a disk on which nothing has happened yet
  have hcopy : ∀ mid, Idle disk mid →
      (do let _ ← preserveExistingIn world .sessionSnapshots snapshotLimit : Io Unit).Ends mid
        (fun _ after => Within .sessionSnapshots disk after ∧ InOrder start after)
        (fun _ after => Within .sessionSnapshots disk after ∧ InOrder start after) := by
    intro mid hmid
    have hwithin := hmid.within .sessionSnapshots
    exact (preserveExistingIn_snapshots (horder.idle hmid)).mono
      (fun _ _ h => ⟨hwithin.trans h.1, h.2⟩) (fun _ _ h => ⟨hwithin.trans h.1, h.2⟩)
  unfold preserveSnapshot
  rw [ends_bind]
  apply openSession_ends.mono
  · rintro node opened ⟨_, hopened⟩
    rcases node with _ | _ | _
    · exact hidle _ hopened
    · dsimp only
      split
      · exact hidle _ hopened
      · split
        · exact hidle _ hopened
        · cases latest with
          | none => exact hcopy opened hopened
          | some latest =>
            dsimp only
            rw [ends_bind]
            apply (latestIsSame_idle latest.2 _).mono
            · intro same after hafter
              cases same with
              | true => exact hidle _ (hopened.trans hafter)
              | false => exact hcopy after (hopened.trans hafter)
            · intro err after hafter
              exact hidle _ (hopened.trans hafter)
    · exact hidle _ hopened
  · intro err after hafter
    exact hidle _ hafter

/-- The history of snapshots stays in its own directory. -/
theorem preserveSnapshotHistory_ends (horder : InOrder start disk) :
    (preserveSnapshotHistory world).Ends disk
      (fun _ after => Within .sessionSnapshots disk after ∧ InOrder start after)
      (fun _ after => Within .sessionSnapshots disk after ∧ InOrder start after) := by
  have hidle : ∀ after, Idle disk after →
      Within .sessionSnapshots disk after ∧ InOrder start after :=
    fun after h => ⟨h.within _, horder.idle h⟩
  have hsnapshot : ∀ latest mid, Idle disk mid → (preserveSnapshot world latest).Ends mid
      (fun _ after => Within .sessionSnapshots disk after ∧ InOrder start after)
      (fun _ after => Within .sessionSnapshots disk after ∧ InOrder start after) := by
    intro latest mid hmid
    have hwithin := hmid.within .sessionSnapshots
    exact (preserveSnapshot_ends latest (horder.idle hmid)).mono
      (fun _ _ h => ⟨hwithin.trans h.1, h.2⟩) (fun _ _ h => ⟨hwithin.trans h.1, h.2⟩)
  unfold preserveSnapshotHistory
  rw [ends_bind, ends_observe]
  apply recoveryFiles_idle.mono
  · intro existing listed hlisted
    dsimp only
    split
    · exact hsnapshot none listed hlisted
    next latest hlast =>
      rw [ends_bind]
      apply (latestIsRecent_idle latest.2).mono
      · intro recent after hafter
        cases recent with
        | true => exact hidle _ (hlisted.trans hafter)
        | false => exact hsnapshot (some latest) after (hlisted.trans hafter)
      · intro err after hafter
        exact hidle _ (hlisted.trans hafter)
  · intro err listed hlisted
    cases err with
    | notFound => exact hsnapshot none listed hlisted
    | alreadyExists => exact hidle _ hlisted
    | other => exact hidle _ hlisted

/-! ### Writing the session and its history -/

/-- Only the session and the history may have changed. -/
structure Elsewhere (before after : Disk) : Prop where
  protectUnloaded : after.protectUnloaded = before.protectUnloaded
  dir : ∀ directory, after.dir directory = before.dir directory
  tick_le : before.tick ≤ after.tick

theorem Elsewhere.trans {a b c : Disk} (h : Elsewhere a b) (h' : Elsewhere b c) :
    Elsewhere a c where
  protectUnloaded := h'.protectUnloaded.trans h.protectUnloaded
  dir directory := (h'.dir directory).trans (h.dir directory)
  tick_le := h.tick_le.trans h'.tick_le

theorem Idle.elsewhere {before after : Disk} (h : Idle before after) : Elsewhere before after :=
  ⟨h.protectUnloaded, h.dir, h.tick_le⟩

theorem elsewhere_set (target : Target) (node : Option Node) (disk : Disk) :
    Elsewhere disk (target.set node disk) := by
  cases target with
  | session => exact ⟨rfl, fun directory => (by cases directory <;> rfl), le_refl _⟩
  | history => exact ⟨rfl, fun directory => (by cases directory <;> rfl), le_refl _⟩

/-- A call that only takes time, before a continuation that stays elsewhere. -/
theorem elsewhere_attempt_bind {α : Type} {f : Nat → Io α}
    (hf : (f disk.tick).Ends (later disk) (fun _ => Elsewhere (later disk))
      (fun _ => Elsewhere (later disk))) :
    (attempt world >>= f).Ends disk (fun _ => Elsewhere disk) (fun _ => Elsewhere disk) := by
  have hlater := (idle_later disk).elsewhere
  apply ends_attempt_bind _ hlater
  exact hf.mono (fun _ _ h => hlater.trans h) (fun _ _ h => hlater.trans h)

theorem saveJsonToPath_ends (target : Target) (json : Option Bytes) :
    (saveJsonToPath world target json).Ends disk (fun _ => Elsewhere disk)
      (fun _ => Elsewhere disk) := by
  unfold saveJsonToPath
  apply elsewhere_attempt_bind
  apply elsewhere_attempt_bind
  cases json with
  | none => exact (Idle.refl _).elsewhere
  | some bytes =>
    apply elsewhere_attempt_bind
    generalize later (later (later disk)) = opened
    rw [ends_bind, ends_observe]
    refine Ends.mono (Q := fun _ => Elsewhere opened) (E := fun _ => Elsewhere opened) ?_ ?_ ?_
    · apply elsewhere_attempt_bind
      apply elsewhere_attempt_bind
      apply elsewhere_attempt_bind
      exact elsewhere_set target (some (.file bytes)) _
    · intro _ after hafter
      have hlater := hafter.trans (idle_later after).elsewhere
      exact ends_attempt_bind hlater hlater
    · intro err after hafter
      have hlater := hafter.trans (idle_later after).elsewhere
      dsimp only
      rw [ends_bind, ends_observe]
      exact ends_attempt hlater hlater

theorem clearPath_ends (target : Target) :
    (clearPath world target).Ends disk (fun _ => Elsewhere disk) (fun _ => Elsewhere disk) :=
  elsewhere_attempt_bind (elsewhere_set target none _)

theorem saveHistoryToPath_ends (history : Option (Option Bytes)) :
    (saveHistoryToPath world history).Ends disk (fun _ => Elsewhere disk)
      (fun _ => Elsewhere disk) := by
  cases history with
  | none => exact clearPath_ends .history
  | some history => exact saveJsonToPath_ends .history history

end

/-! ### Whole mutations -/

/-- The bytes are in the newest copy of the backups, and nothing more will be put there. -/
def Saved (bytes : Bytes) (disk : Disk) : Prop :=
  disk.protectUnloaded = false ∧ ∃ dir, disk.backups = some dir ∧ NewestHas dir bytes

/-- The bytes are still at the path of the session, and protected, or they are saved. -/
def Kept (bytes : Bytes) (disk : Disk) : Prop :=
  disk.protectUnloaded = true ∧ disk.session = some (.file bytes) ∨ Saved bytes disk

/-- What the flag and the backups do not see, `Saved` does not. -/
theorem Saved.congr {bytes : Bytes} {before after : Disk} (h : Saved bytes before)
    (hprotect : after.protectUnloaded = before.protectUnloaded)
    (hdir : after.dir .sessionBackups = before.dir .sessionBackups) : Saved bytes after := by
  obtain ⟨hflag, dir, hbackups, hnewest⟩ := h
  exact ⟨hprotect.trans hflag, dir, hdir.trans hbackups, hnewest⟩

theorem Saved.within {bytes : Bytes} {before after : Disk} (h : Saved bytes before)
    (hwithin : Within .sessionSnapshots before after) : Saved bytes after :=
  h.congr hwithin.protectUnloaded (hwithin.others _ (by decide))

section

variable {world : World} {disk : Disk} {start : Nat} {bytes : Bytes}

theorem preserveUnloaded_ends (hkept : Kept bytes disk) (horder : InOrder start disk) :
    (preserveUnloaded world).Ends disk
      (fun _ after => Saved bytes after ∧ InOrder start after)
      (fun _ after => Kept bytes after ∧ InOrder start after) := by
  unfold preserveUnloaded
  rw [ends_bind, ends_get]
  cases hkept with
  | inr hsaved =>
    rw [hsaved.1]
    exact ⟨hsaved, horder⟩
  | inl hprotected =>
    rw [hprotected.1, if_pos rfl, ends_bind]
    apply (@preserveExistingIn_ends world disk .sessionBackups start 3 horder).mono
    · rintro result after ⟨⟨hwithin, hafter⟩, hresult⟩
      cases hresult with
      | inl hnone =>
        rw [hprotected.2] at hnone
        cases hnone.2
      | inr hsome =>
        obtain ⟨held, dir, hheld, hdir, hnewest, rfl⟩ := hsome
        rw [hprotected.2] at hheld
        cases hheld
        refine ⟨⟨rfl, dir, hdir, hnewest⟩, hafter.congr ?_ (le_refl _)⟩
        intro directory
        cases directory <;> rfl
    · rintro err after ⟨hwithin, hafter⟩
      exact ⟨Or.inl ⟨hwithin.protectUnloaded.trans hprotected.1,
        hwithin.session.trans hprotected.2⟩, hafter⟩

/-- After the session was preserved, snapshots leave it saved. -/
theorem observe_preserveSnapshotHistory_ends (hsaved : Saved bytes disk)
    (horder : InOrder start disk) :
    (observe (preserveSnapshotHistory world)).Ends disk
      (fun _ after => Saved bytes after ∧ InOrder start after) (fun _ _ => False) := by
  rw [ends_observe]
  exact (preserveSnapshotHistory_ends horder).mono
    (fun _ _ h => ⟨hsaved.within h.1, h.2⟩) (fun _ _ h => ⟨hsaved.within h.1, h.2⟩)

/-- A write to the session or the history leaves it saved too. -/
theorem saved_of_elsewhere {α : Type} {m : Io α} (hsaved : Saved bytes disk)
    (horder : InOrder start disk)
    (hm : m.Ends disk (fun _ => Elsewhere disk) (fun _ => Elsewhere disk)) :
    m.Ends disk (fun _ after => Saved bytes after ∧ InOrder start after)
      (fun _ after => Saved bytes after ∧ InOrder start after) := by
  have hafter : ∀ after, Elsewhere disk after → Saved bytes after ∧ InOrder start after :=
    fun after h => ⟨hsaved.congr h.protectUnloaded (h.dir _), horder.congr h.dir h.tick_le⟩
  exact hm.mono (fun _ => hafter) (fun _ => hafter)

theorem mutate_ends {mutation : Io Unit} (hkept : Kept bytes disk) (horder : InOrder start disk)
    (hmutation : ∀ disk, mutation.Ends disk (fun _ => Elsewhere disk) (fun _ => Elsewhere disk)) :
    (mutate world mutation).Ends disk
      (fun _ after => Saved bytes after ∧ InOrder start after)
      (fun _ after => Kept bytes after ∧ InOrder start after) := by
  unfold mutate
  rw [ends_bind]
  refine (preserveUnloaded_ends hkept horder).mono ?_ (fun _ _ h => h)
  rintro _ preserved ⟨hsaved, hpreserved⟩
  rw [ends_bind]
  refine (observe_preserveSnapshotHistory_ends hsaved hpreserved).mono ?_ (fun _ _ => False.elim)
  rintro _ mid ⟨hsaved, hmid⟩
  exact (saved_of_elsewhere hsaved hmid (hmutation mid)).mono (fun _ _ h => h)
    (fun _ _ h => ⟨Or.inr h.1, h.2⟩)

theorem save_ends (snapshot : Option Bytes) (history : Option (Option Bytes))
    (hkept : Kept bytes disk) (horder : InOrder start disk) :
    (save world snapshot history).Ends disk
      (fun _ after => Kept bytes after ∧ InOrder start after) (fun _ _ => False) := by
  unfold save
  rw [ends_bind, ends_observe]
  refine (mutate_ends hkept horder fun _ => saveJsonToPath_ends .session snapshot).mono ?_
    (fun _ _ h => h)
  rintro _ saved ⟨hsaved, horder⟩
  dsimp only
  rw [ends_bind, ends_modify, ends_bind]
  have hflag : Saved bytes { saved with protectUnloaded := false } := ⟨rfl, hsaved.2⟩
  have horder : InOrder start { saved with protectUnloaded := false } :=
    horder.congr (fun directory => (by cases directory <;> rfl)) (le_refl _)
  refine (observe_preserveSnapshotHistory_ends hflag horder).mono ?_ (fun _ _ => False.elim)
  rintro _ mid ⟨hsaved, hmid⟩
  rw [ends_bind, ends_observe]
  exact (saved_of_elsewhere hsaved hmid (saveHistoryToPath_ends history)).mono
    (fun _ _ h => ⟨Or.inr h.1, h.2⟩) (fun _ _ h => ⟨Or.inr h.1, h.2⟩)

theorem clear_ends (hkept : Kept bytes disk) (horder : InOrder start disk) :
    (clear world).Ends disk
      (fun _ after => Kept bytes after ∧ InOrder start after) (fun _ _ => False) := by
  unfold clear
  rw [ends_bind, ends_observe]
  refine (mutate_ends hkept horder fun _ => clearPath_ends .session).mono ?_ (fun _ _ h => h)
  rintro _ cleared ⟨hsaved, horder⟩
  dsimp only
  rw [ends_bind, ends_observe]
  exact (saved_of_elsewhere hsaved horder (clearPath_ends .history)).mono
    (fun _ _ h => ⟨Or.inr h.1, h.2⟩) (fun _ _ h => ⟨Or.inr h.1, h.2⟩)

/-- Every call keeps the bytes and the order. -/
theorem run_kept (op : Op) (hkept : Kept bytes disk) (horder : InOrder start disk) :
    Kept bytes (run world op disk).2 ∧ InOrder start (run world op disk).2 := by
  apply Ends.state (P := fun after => Kept bytes after ∧ InOrder start after)
  cases op with
  | save snapshot history =>
    exact (save_ends snapshot history hkept horder).mono (fun _ _ h => h) (fun _ _ => False.elim)
  | clear => exact (clear_ends hkept horder).mono (fun _ _ h => h) (fun _ _ => False.elim)

/-- When the session could not be preserved, a call does nothing more. -/
theorem run_of_preserve_error (op : Op) {err : IoError}
    (herr : (preserveUnloaded world disk).1 = .error err) :
    (run world op disk).2 = (preserveUnloaded world disk).2 := by
  have hmutate : ∀ mutation, observe (mutate world mutation) disk
      = (.ok (.error err), (preserveUnloaded world disk).2) := by
    intro mutation
    rw [observe, mutate, bind_of_error herr]
  cases op with
  | save snapshot history =>
    have h := hmutate (saveJsonToPath world .session snapshot)
    rw [run, save, bind_of_ok (congrArg Prod.fst h), h]
    rfl
  | clear =>
    have h := hmutate (clearPath world .session)
    rw [run, clear, bind_of_ok (congrArg Prod.fst h), h]
    rfl

/-- Preserving changes neither the session nor its history. -/
theorem preserveUnloaded_session (horder : InOrder start disk) :
    (preserveUnloaded world disk).2.session = disk.session ∧
      (preserveUnloaded world disk).2.history = disk.history := by
  apply Ends.state (P := fun after : Disk =>
    after.session = disk.session ∧ after.history = disk.history)
  unfold preserveUnloaded
  rw [ends_bind, ends_get]
  split
  · rw [ends_bind]
    apply (@preserveExistingIn_ends world disk .sessionBackups start 3 horder).mono
    · rintro result after ⟨⟨hwithin, _⟩, _⟩
      cases result with
      | true => exact ⟨hwithin.session, hwithin.history⟩
      | false => exact ⟨hwithin.session, hwithin.history⟩
    · rintro err after ⟨hwithin, _⟩
      exact ⟨hwithin.session, hwithin.history⟩
  · exact ⟨rfl, rfl⟩

end

/-! ### Whole runs -/

/-- The copies that are pruned only after this one. -/
def newerCopies (dir : Dir) (number : Nat) (name : Name) : Nat :=
  (recoveryEntries dir).countP (fun entry => !recoveryLe entry (number, name))

/-- Nothing is newer than the newest copy. -/
theorem NewestHas.newerCopies {dir : Dir} {bytes : Bytes} (h : NewestHas dir bytes) :
    ∃ name number file, IsCopy dir name number file ∧ file.bytes = bytes ∧
      newerCopies dir number name = 0 := by
  obtain ⟨name, number, file, hcopy, hbytes, hnewest⟩ := h
  refine ⟨name, number, file, hcopy, hbytes, ?_⟩
  rw [SessionWriter.newerCopies, List.countP_eq_zero]
  rintro ⟨number', name'⟩ hmem
  obtain ⟨file', hcopy'⟩ := mem_recoveryEntries.mp hmem
  rw [Bool.not_eq_true, Bool.not_eq_false']
  cases hnewest _ _ _ hcopy' with
  | inl hname =>
    have hnumber := hcopy'.number
    rw [hname, hcopy.number] at hnumber
    cases hnumber
    rw [hname]
    exact recoveryLe_refl _
  | inr hlt =>
    rw [recoveryLe, Bool.or_eq_true]
    exact Or.inl (decide_eq_true hlt)

/-- The files that are there at the start were published before it. -/
def StartsAt (disk : Disk) : Prop :=
  ∀ directory dir name file, disk.dir directory = some dir → dir.get name = some (.file file) →
    file.published < disk.tick

theorem StartsAt.inOrder {disk : Disk} (h : StartsAt disk) : InOrder disk.tick disk := by
  intro directory dir hdir
  constructor
  · intro name number file hcopy
    exact h directory dir name file hdir hcopy.entry
  · intro name number file name' number' file' _ hcopy' _ hstart
    -- no copy of the first disk was published since then
    have := h directory dir name' file' hdir hcopy'.entry
    omega

/-- In a run of saves and clears from a protected session file, whatever fails, its bytes are
at the path of the session or in a recovery copy with at most two newer ones; a call that could
not preserve them changes neither the session nor the history; and the copies made since the
start are numbered in the order of their creation. -/
theorem session_kept {world : World} {first disk : Disk} {bytes : Bytes}
    (hprotect : first.protectUnloaded = true) (hsession : first.session = some (.file bytes))
    (hstart : StartsAt first)
    (h : Reachable (· = first) (fun _ _ => True) (step world) disk) :
    (disk.session = some (.file bytes) ∨
      ∃ dir name number file, disk.dir .sessionBackups = some dir ∧ IsCopy dir name number file ∧
        file.bytes = bytes ∧ newerCopies dir number name ≤ 3 - 1) ∧
    (∀ op err, (preserveUnloaded world disk).1 = .error err →
      (run world op disk).2.session = disk.session ∧
        (run world op disk).2.history = disk.history) ∧
    ∀ directory dir name number file name' number' file', disk.dir directory = some dir →
      IsCopy dir name number file → IsCopy dir name' number' file' →
      file.published < file'.published → first.tick ≤ file'.published → number < number' := by
  have hinv : Kept bytes disk ∧ InOrder first.tick disk := by
    apply h.invariant (fun disk => Kept bytes disk ∧ InOrder first.tick disk)
    · rintro disk rfl
      exact ⟨Or.inl ⟨hprotect, hsession⟩, hstart.inOrder⟩
    · rintro disk op next answer _ hstep ⟨hkept, horder⟩
      cases hstep
      exact run_kept op hkept horder
  refine ⟨?_, ?_, ?_⟩
  · cases hinv.1 with
    | inl hprotected => exact Or.inl hprotected.2
    | inr hsaved =>
      obtain ⟨_, dir, hdir, hnewest⟩ := hsaved
      obtain ⟨name, number, file, hcopy, hbytes, hnewer⟩ := hnewest.newerCopies
      exact Or.inr ⟨dir, name, number, file, hdir, hcopy, hbytes, by omega⟩
  · intro op err herr
    rw [run_of_preserve_error op herr]
    exact preserveUnloaded_session hinv.2
  · intro directory dir name number file name' number' file' hdir hcopy hcopy' hlt hsince
    exact (hinv.2 directory dir hdir).numbered _ _ _ _ _ _ hcopy hcopy' hlt hsince

/-- A disk on which every call succeeds. -/
def calm : World := ⟨fun _ => false, fun _ => 7, fun _ => [], 42, fun _ => none⟩

/-- A session that was not loaded. -/
def unloaded : Disk := ⟨true, some (.file [1, 2, 3]), none, none, none, 0⟩

/-- One save replaces an unloaded session, whose bytes are then in a recovery copy. -/
theorem session_kept_one_save :
    (run calm (.save (some [9]) none) unloaded).2.session = some (.file [9]) ∧
      ∃ dir name number file,
        (run calm (.save (some [9]) none) unloaded).2.dir .sessionBackups = some dir ∧
        IsCopy dir name number file ∧ file.bytes = [1, 2, 3] ∧
        newerCopies dir number name ≤ 3 - 1 := by
  have hsession : (run calm (.save (some [9]) none) unloaded).2.session = some (.file [9]) := by
    decide +kernel
  have hstart : StartsAt unloaded := by
    intro directory dir name file hdir
    cases directory with
    | sessionBackups => cases hdir
    | sessionSnapshots => cases hdir
  have hreach : Reachable (· = unloaded) (fun _ _ => True) (step calm)
      (run calm (.save (some [9]) none) unloaded).2 :=
    Reachable.next (Op.save (some [9]) none) (Reachable.start rfl) trivial rfl
  have hkept := (session_kept rfl rfl hstart hreach).1
  refine ⟨hsession, hkept.resolve_left ?_⟩
  rw [hsession]
  decide

end Herden.Proofs.SessionWriter
