import Herden.Lib.Ledger
import Herden.Lib.Run
import Herden.Runtime.Lease

/-!
# `Herden.Proofs.Lease`: every forwarded press is released once

An observer of the table's calls keeps a ledger (`Lib.Ledger`) of the presses recorded as
forwarded: the lease key, the target and the key. An entry is settled when a call releases
it (`remove`, `removeKeys`, `removeSource`, `removeTarget`, `removeSoleTextPress`) or when
its key is pressed anew by the same source before a release came.

`reachable_leases` proves along every run: the pending entries are the forwarded leases of
the table; the leases handed back are the released entries, each once, with the target and
the key of the press; a repeat is routed only to the target of the pending press; and a key
whose repeats were suppressed stays suppressed until it is released or pressed anew.

A host without release reports presses a held key again, so a new press replaces the old
lease (`normalize_press`, `complete_press`). `second_press_replaces_lease` is the run in
which the first press is never handed back.
-/

set_option linter.unusedSectionVars false

namespace Herden.Proofs.Lease

open Herden.Lib (Fate Ledger Reachable)
open Herden.Runtime.Key
open Herden.Runtime.Lease
open Herden.Runtime.Lease.InputLeaseTable (Op Answer)

variable {Source Context Target : Type}

/-! ### The forwarded leases of a table -/

/-- A forwarded press: the lease key it is recorded under, its target and its key. -/
abbrev Entry (Source Target : Type) := InputLeaseKey Source × ForwardedInputLease Target

/-- The forwarded lease of one table entry. -/
def forwardedEntry (entry : (_ : InputLeaseKey Source) × InputLease Context Target) :
    Option (Entry Source Target) :=
  match entry.2 with
  | .forwarded lease => some (entry.1, lease)
  | .consumed _ => none

def forwardedEntries (table : InputLeaseTable Source Context Target) :
    List (Entry Source Target) :=
  table.leases.entries.filterMap forwardedEntry

theorem forwardedEntry_eq_some
    {entry : (_ : InputLeaseKey Source) × InputLease Context Target}
    {found : Entry Source Target} :
    forwardedEntry entry = some found ↔ entry = ⟨found.1, .forwarded found.2⟩ := by
  obtain ⟨key, lease⟩ := entry
  obtain ⟨foundKey, foundLease⟩ := found
  cases lease <;> simp [forwardedEntry]

theorem kerase_eq_filter {κ : Type} {β : κ → Type} [DecidableEq κ] {entries : List (Sigma β)}
    (h : entries.NodupKeys) (key : κ) :
    entries.kerase key = entries.filter (fun entry => entry.1 ≠ key) := by
  induction entries with
  | nil => rfl
  | cons entry rest ih =>
    obtain ⟨hhead, hrest⟩ := List.nodupKeys_cons.mp h
    by_cases heq : key = entry.1
    · rw [List.kerase_cons_eq heq, List.filter_cons_of_neg (by simp [heq])]
      refine (List.filter_eq_self.mpr fun other hother => ?_).symm
      have hne : other.1 ≠ key := by
        rintro rfl
        exact hhead (heq ▸ List.mem_keys_of_mem hother)
      simpa using hne
    · rw [List.kerase_cons_ne heq, ih hrest,
        List.filter_cons_of_pos (by simpa using fun h => heq h.symm)]

/-- Filtering the table by key filters its forwarded leases by key. -/
theorem filterMap_forwardedEntry_filter
    (entries : List ((_ : InputLeaseKey Source) × InputLease Context Target))
    (p : InputLeaseKey Source → Bool) :
    (entries.filter (fun entry => p entry.1)).filterMap forwardedEntry
      = (entries.filterMap forwardedEntry).filter (fun entry => p entry.1) := by
  rw [List.filterMap_filter, List.filter_filterMap]
  congr 1
  funext entry
  obtain ⟨key, lease⟩ := entry
  cases lease <;> simp [forwardedEntry, Option.filter]

/-- The keys of the forwarded leases are distinct. -/
theorem nodup_forwardedEntries (table : InputLeaseTable Source Context Target) :
    ((forwardedEntries table).map Prod.fst).Nodup := by
  have hsub : ((forwardedEntries table).map Prod.fst).Sublist table.leases.keys := by
    rw [forwardedEntries, List.map_filterMap]
    show List.Sublist _ (table.leases.entries.map Sigma.fst)
    induction table.leases.entries with
    | nil => exact .slnil
    | cons entry rest ih =>
      obtain ⟨key, lease⟩ := entry
      cases lease with
      | forwarded lease => exact ih.cons_cons key
      | consumed lease => exact ih.cons key
  exact hsub.nodup table.leases.keys_nodup

section Table

variable [DecidableEq Source] (table : InputLeaseTable Source Context Target)

theorem mem_forwardedEntries {key : InputLeaseKey Source} {lease : ForwardedInputLease Target} :
    (key, lease) ∈ forwardedEntries table
      ↔ table.leases.lookup key = some (.forwarded lease) := by
  rw [forwardedEntries, List.mem_filterMap, ← Option.mem_def, AList.mem_lookup_iff]
  constructor
  · rintro ⟨entry, hmem, heq⟩
    rw [forwardedEntry_eq_some] at heq
    exact heq ▸ hmem
  · exact fun hmem => ⟨_, hmem, rfl⟩

theorem forwardedEntries_erase (key : InputLeaseKey Source) :
    forwardedEntries ⟨table.leases.erase key⟩
      = (forwardedEntries table).filter (fun entry => entry.1 ≠ key) := by
  show (table.leases.entries.kerase key).filterMap forwardedEntry = _
  rw [kerase_eq_filter table.leases.nodupKeys,
    filterMap_forwardedEntry_filter _ (fun k => decide (k ≠ key)), forwardedEntries]

theorem forwardedEntries_insertForwarded (key : InputLeaseKey Source) (target : Target)
    (original : TerminalKey) :
    forwardedEntries (table.insertForwarded key target original)
      = (key, ⟨target, original⟩) ::
        (forwardedEntries table).filter (fun entry => entry.1 ≠ key) := by
  rw [← forwardedEntries_erase]
  show (AList.insert key _ table.leases).entries.filterMap forwardedEntry = _
  rw [AList.entries_insert]
  rfl

/-- A consumed lease replaces no forwarded one when the key holds none. -/
theorem forwardedEntries_insertConsumed {key : InputLeaseKey Source}
    (h : ∀ lease, table.leases.lookup key ≠ some (.forwarded lease))
    (disposition : ConsumedInputLease Context) :
    forwardedEntries (table.insertConsumed key disposition) = forwardedEntries table := by
  have hfilter : (forwardedEntries table).filter (fun entry => entry.1 ≠ key)
      = forwardedEntries table := by
    refine List.filter_eq_self.mpr fun entry hentry => ?_
    have hne : entry.1 ≠ key := by
      rintro rfl
      exact h entry.2 ((mem_forwardedEntries table).mp hentry)
    simpa using hne
  rw [← hfilter, ← forwardedEntries_erase]
  show (AList.insert key _ table.leases).entries.filterMap forwardedEntry = _
  rw [AList.entries_insert]
  rfl

/-- The forwarded leases of one key: its lease, if that is a forwarded one. -/
theorem filter_forwardedEntries_key (key : InputLeaseKey Source) :
    (forwardedEntries table).filter (fun entry => entry.1 = key)
      = match table.leases.lookup key with
        | some (.forwarded lease) => [(key, lease)]
        | _ => [] := by
  have hmem : ∀ entry, entry ∈ (forwardedEntries table).filter (fun entry => entry.1 = key) ↔
      entry.1 = key ∧ table.leases.lookup key = some (.forwarded entry.2) := by
    rintro ⟨entryKey, lease⟩
    simp only [List.mem_filter, mem_forwardedEntries, decide_eq_true_eq]
    constructor
    · rintro ⟨h, rfl⟩
      exact ⟨rfl, h⟩
    · rintro ⟨rfl, h⟩
      exact ⟨h, rfl⟩
  split
  · rename_i lease hlookup
    have hnodup := (List.Nodup.of_map _ (nodup_forwardedEntries table)).filter
      (fun entry => entry.1 = key)
    refine List.perm_singleton.mp ((List.perm_ext_iff_of_nodup hnodup
      (List.nodup_singleton _)).mpr fun entry => ?_)
    rw [hmem, hlookup, List.mem_singleton, Prod.ext_iff]
    simp [eq_comm]
  · rename_i hnone
    refine List.eq_nil_iff_forall_not_mem.mpr fun entry hentry => ?_
    exact hnone _ ((hmem entry).mp hentry).2

end Table

/-! ### The observer -/

/-- The forwarded leases a call hands back. -/
def handedBack : Answer Context Target → List (ForwardedInputLease Target)
  | .lease (some (.forwarded lease)) => [lease]
  | .leases leases => leases
  | _ => []

theorem handedBack_lookup [DecidableEq Source]
    (table : InputLeaseTable Source Context Target) (key : InputLeaseKey Source) :
    handedBack (.lease (table.leases.lookup key))
      = ((forwardedEntries table).filter (fun entry => entry.1 = key)).map Prod.snd := by
  rw [filter_forwardedEntries_key]
  cases table.leases.lookup key with
  | none => rfl
  | some lease => cases lease <;> rfl

section Observer

variable [DecidableEq Source] [DecidableEq Target]

/-- The entries a call releases. -/
def releases : Op Source Context Target → Answer Context Target → Entry Source Target → Bool
  | .remove key, _, entry => entry.1 = key
  | .removeSoleTextPress source, .lease (some _), entry => entry.1.source = source
  | .removeKeys keys, _, entry => entry.1 ∈ keys
  | .removeSource source, _, entry => entry.1.source = source
  | .removeTarget target, _, entry => entry.2.target = target
  | _, _, _ => false

/-- The press a call records as forwarded. A text press without any physical identity is
not recorded. -/
def recorded : Op Source Context Target → Option (Entry Source Target)
  | .completePress leaseKey key _ _ (some target) =>
      if key.generatedText.isSome && !key.hasPhysicalIdentity then none
      else some (leaseKey, ⟨target, key⟩)
  | _ => none

/-- The call is a new press of a key: a native press that `normalizePress` did not turn into
a repeat, or a press that is recorded as forwarded. -/
def pressesAnew (op : Op Source Context Target) (answer : Answer Context Target)
    (entry : Entry Source Target) : Bool :=
  match op, answer with
  | .normalizePress leaseKey key, .key result =>
      key.kind = .press ∧ ¬ isTextPress key ∧ result.kind = .press ∧ entry.1 = leaseKey
  | _, _ => (recorded op).any (fun new => entry.1 = new.1)

/-- What an observer of the calls wrote down: the presses recorded as forwarded, and the
leases handed back. -/
structure History (Source Target : Type) where
  presses : Ledger (Entry Source Target)
  returned : List (ForwardedInputLease Target)

def observe (history : History Source Target) (op : Op Source Context Target)
    (answer : Answer Context Target) : History Source Target where
  presses := ((history.presses.settle (releases op answer) .delivered).settle
    (pressesAnew op answer) .dropped) ++ (recorded op).toList.map (fun entry => (entry, .pending))
  returned := history.returned ++ handedBack answer

/-- The table and its observer. -/
abbrev Observed (Source Context Target : Type) :=
  InputLeaseTable Source Context Target × History Source Target

def observedStep [DecidableEq Context] (s : Observed Source Context Target)
    (op : Op Source Context Target) :
    Option (Observed Source Context Target × Answer Context Target) :=
  some (((s.1.step op).1, observe s.2 op (s.1.step op).2), (s.1.step op).2)

def Start (s : Observed Source Context Target) : Prop := s = (.default, ⟨[], []⟩)

/-- Any call. A tracked reprocessing is announced by a plan that found a consumed lease, so
it never names a key with a forwarded one (`execute_repeat_plan`). -/
def Admissible (s : Observed Source Context Target) : Op Source Context Target → Prop
  | .reprocessAllowed leaseKey _ _ tracked =>
      tracked = true → ∀ lease, s.1.leases.lookup leaseKey ≠ some (.forwarded lease)
  | _ => True

/-- What one call does to the forwarded leases: the released ones and those whose key is
pressed anew go, a recorded press comes, and the released ones are handed back. -/
structure StepSpec (before after : InputLeaseTable Source Context Target)
    (op : Op Source Context Target) (answer : Answer Context Target) : Prop where
  forwarded : (forwardedEntries after).Perm
    ((((forwardedEntries before).filter (!releases op answer ·)).filter
      (!pressesAnew op answer ·)) ++ (recorded op).toList)
  returned : (handedBack answer).Perm
    (((forwardedEntries before).filter (releases op answer)).map Prod.snd)

/-! ### One lemma for each call -/

/-- A call that releases nothing. -/
theorem StepSpec.of_press {before after : InputLeaseTable Source Context Target}
    {op : Op Source Context Target} {answer : Answer Context Target}
    (hreleases : ∀ entry, releases op answer entry = false) (hanswer : handedBack answer = [])
    (hforwarded : (forwardedEntries after).Perm
      ((forwardedEntries before).filter (!pressesAnew op answer ·) ++ (recorded op).toList)) :
    StepSpec before after op answer := by
  constructor
  · simpa [hreleases] using hforwarded
  · simp [hreleases, hanswer]

/-- A call that neither presses nor releases anything. -/
theorem StepSpec.of_unchanged {before after : InputLeaseTable Source Context Target}
    {op : Op Source Context Target} {answer : Answer Context Target}
    (hreleases : ∀ entry, releases op answer entry = false) (hanswer : handedBack answer = [])
    (hanew : ∀ entry, pressesAnew op answer entry = false) (hrecorded : recorded op = none)
    (hforwarded : forwardedEntries after = forwardedEntries before) :
    StepSpec before after op answer :=
  .of_press hreleases hanswer (by simp [hanew, hrecorded, hforwarded])

/-- A call that only releases. -/
theorem StepSpec.of_release {before after : InputLeaseTable Source Context Target}
    {op : Op Source Context Target} {answer : Answer Context Target}
    (hanew : ∀ entry, pressesAnew op answer entry = false) (hrecorded : recorded op = none)
    (hforwarded : (forwardedEntries after).Perm
      ((forwardedEntries before).filter (!releases op answer ·)))
    (hreturned : (handedBack answer).Perm
      (((forwardedEntries before).filter (releases op answer)).map Prod.snd)) :
    StepSpec before after op answer :=
  ⟨by simpa [hanew, hrecorded] using hforwarded, hreturned⟩

variable [DecidableEq Context] (table : InputLeaseTable Source Context Target)

theorem normalizePress_spec (leaseKey : InputLeaseKey Source) (key : TerminalKey) :
    StepSpec table (table.normalizePress leaseKey key).1 (.normalizePress leaseKey key)
      (.key (table.normalizePress leaseKey key).2) := by
  unfold InputLeaseTable.normalizePress
  split
  · rename_i hskip
    refine .of_unchanged (fun _ => rfl) rfl (fun entry => ?_) rfl rfl
    by_cases hkind : key.kind = .press
    · have htext : isTextPress key = true := by simpa [hkind, isTextPress] using hskip
      simp [pressesAnew, htext]
    · simp [pressesAnew, hkind]
  split
  · refine .of_unchanged (fun _ => rfl) rfl (fun entry => ?_) rfl rfl
    simp [pressesAnew, TerminalKey.withKind]
  · rename_i hpress _
    have hkind : key.kind = .press := by
      by_contra hkind
      simp [hkind] at hpress
    have htext : isTextPress key = false := by
      by_contra htext
      exact hpress (by simpa [isTextPress, hkind] using htext)
    refine .of_press (fun _ => rfl) rfl ?_
    simp [pressesAnew, recorded, hkind, htext, forwardedEntries_erase]

theorem completePress_spec (leaseKey : InputLeaseKey Source) (key : TerminalKey)
    (initialContext resultingContext : Option Context) (target : Option Target) :
    StepSpec table
      (table.completePress leaseKey key initialContext resultingContext target).1
      (.completePress leaseKey key initialContext resultingContext target)
      (.plan (table.completePress leaseKey key initialContext resultingContext target).2) := by
  unfold InputLeaseTable.completePress
  split
  · rename_i htext
    refine .of_unchanged (fun _ => rfl) rfl (fun entry => ?_) ?_ rfl
    · cases target <;> simp_all [pressesAnew, recorded]
    · cases target <;> simp_all [recorded]
  rename_i htext
  cases target with
  | some target =>
    refine .of_press (fun _ => rfl) rfl ?_
    rw [forwardedEntries_insertForwarded]
    simp only [pressesAnew, recorded, htext]
    simpa using (List.perm_append_singleton _ _).symm
  | none =>
    -- a consumed press writes a lease only where there is none
    have hsame : forwardedEntries (if (table.leases.lookup leaseKey).isSome then table
        else table.insertConsumed leaseKey
          (InputLeaseTable.disposition initialContext resultingContext))
        = forwardedEntries table := by
      split
      · rfl
      · rename_i hnone
        apply forwardedEntries_insertConsumed
        intro lease hlease
        simp [hlease] at hnone
    have hspec : ∀ after plan, forwardedEntries after = forwardedEntries table →
        StepSpec table after (.completePress leaseKey key initialContext resultingContext none)
          (.plan plan) :=
      fun after plan heq => .of_unchanged (fun _ => rfl) rfl (fun _ => rfl) rfl heq
    dsimp only
    split
    · split <;> exact hspec _ _ hsame
    · exact hspec _ _ hsame

theorem planRepeat_spec (leaseKey : InputLeaseKey Source) (key : TerminalKey)
    (currentContext : Option Context) :
    StepSpec table (table.planRepeat leaseKey key currentContext).1
      (.planRepeat leaseKey key currentContext)
      (.plan (table.planRepeat leaseKey key currentContext).2) := by
  have hspec : ∀ after plan, forwardedEntries after = forwardedEntries table →
      StepSpec table after (.planRepeat leaseKey key currentContext) (.plan plan) :=
    fun after plan heq => .of_unchanged (fun _ => rfl) rfl (fun _ => rfl) rfl heq
  unfold InputLeaseTable.planRepeat
  split
  · exact hspec _ _ rfl
  · split
    · exact hspec _ _ rfl
    · rename_i hlookup _
      refine hspec _ _ (forwardedEntries_insertConsumed table (fun lease hlease => ?_) _)
      rw [hlookup] at hlease
      cases hlease
  · exact hspec _ _ rfl
  · split <;> exact hspec _ _ rfl

theorem reprocessAllowed_spec (leaseKey : InputLeaseKey Source) (expectedContext : Context)
    (currentContext : Option Context) (tracked : Bool)
    (h : tracked = true → ∀ lease, table.leases.lookup leaseKey ≠ some (.forwarded lease)) :
    StepSpec table
      (table.reprocessAllowed leaseKey expectedContext currentContext tracked).1
      (.reprocessAllowed leaseKey expectedContext currentContext tracked)
      (.allowed (table.reprocessAllowed leaseKey expectedContext currentContext tracked).2) := by
  unfold InputLeaseTable.reprocessAllowed
  dsimp only
  split
  · rename_i htracked
    have htrue : tracked = true := by
      simp only [Bool.and_eq_true] at htracked
      exact htracked.1
    exact .of_unchanged (fun _ => rfl) rfl (fun _ => rfl) rfl
      (forwardedEntries_insertConsumed table (h htrue) _)
  · exact .of_unchanged (fun _ => rfl) rfl (fun _ => rfl) rfl rfl

theorem remove_spec (key : InputLeaseKey Source) :
    StepSpec table (table.remove key).1 (.remove key) (.lease (table.remove key).2) := by
  refine .of_release (fun _ => rfl) rfl ?_ ?_
  · rw [InputLeaseTable.remove, forwardedEntries_erase]
    simp [releases]
  · rw [InputLeaseTable.remove, handedBack_lookup]
    exact .refl _

/-- Removing a list of keys hands back their forwarded leases and keeps the others. -/
theorem removeKeys_eq (keys : List (InputLeaseKey Source)) :
    forwardedEntries (table.removeKeys keys).1
        = (forwardedEntries table).filter (fun entry => entry.1 ∉ keys) ∧
      (table.removeKeys keys).2.Perm
        (((forwardedEntries table).filter (fun entry => entry.1 ∈ keys)).map Prod.snd) := by
  induction keys generalizing table with
  | nil => simp [InputLeaseTable.removeKeys]
  | cons key keys ih =>
    obtain ⟨hkept, hreturned⟩ := ih (table.remove key).1
    rw [InputLeaseTable.remove, forwardedEntries_erase] at hkept hreturned
    rw [List.filter_filter] at hkept hreturned
    have hleases : (table.removeKeys (key :: keys)).2
        = handedBack (.lease (table.leases.lookup key)) ++
          ((⟨table.leases.erase key⟩ : InputLeaseTable Source Context Target).removeKeys keys).2
        := by
      simp only [InputLeaseTable.removeKeys, InputLeaseTable.remove]
      cases table.leases.lookup key with
      | none => rfl
      | some lease => cases lease <;> rfl
    have htable : (table.removeKeys (key :: keys)).1
        = ((⟨table.leases.erase key⟩ : InputLeaseTable Source Context Target).removeKeys keys).1
        := by
      simp only [InputLeaseTable.removeKeys, InputLeaseTable.remove]
      cases table.leases.lookup key with
      | none => rfl
      | some lease => cases lease <;> rfl
    constructor
    · rw [htable, hkept]
      refine List.filter_congr fun entry _ => ?_
      simp [Bool.and_comm]
    · rw [hleases, handedBack_lookup]
      -- the leases of `key` first, then those of the other keys
      refine (List.Perm.append_left _ hreturned).trans ?_
      rw [← List.map_append]
      refine List.Perm.map _ ?_
      have hsplit := List.filter_append_perm (fun entry : Entry Source Target => entry.1 = key)
        ((forwardedEntries table).filter (fun entry => entry.1 ∈ key :: keys))
      rw [List.filter_filter, List.filter_filter] at hsplit
      refine List.Perm.trans (.of_eq ?_) hsplit
      congr 1
      · refine List.filter_congr fun entry _ => ?_
        by_cases h : entry.1 = key <;> simp [h]
      · refine List.filter_congr fun entry _ => ?_
        by_cases h : entry.1 = key <;> simp [h]

/-- A call that removes the keys of exactly the entries it releases. -/
theorem removeKeys_spec {op : Op Source Context Target} {keys : List (InputLeaseKey Source)}
    (hanew : ∀ entry, pressesAnew op (.leases (table.removeKeys keys).2) entry = false)
    (hrecorded : recorded op = none)
    (hreleases : ∀ entry ∈ forwardedEntries table,
      releases op (.leases (table.removeKeys keys).2) entry = decide (entry.1 ∈ keys)) :
    StepSpec table (table.removeKeys keys).1 op (.leases (table.removeKeys keys).2) := by
  obtain ⟨hkept, hreturned⟩ := removeKeys_eq table keys
  refine .of_release hanew hrecorded ?_ ?_
  · rw [hkept]
    refine .of_eq (List.filter_congr fun entry hentry => ?_)
    simp [hreleases entry hentry]
  · rw [List.filter_congr hreleases]
    exact hreturned

theorem removeSource_spec (source : Source) :
    StepSpec table (table.removeSource source).1 (.removeSource source)
      (.leases (table.removeSource source).2) := by
  refine removeKeys_spec table (fun _ => rfl) rfl fun entry hentry => ?_
  have hkey : entry.1 ∈ table.leases.keys :=
    AList.mem_keys.mp (AList.lookup_isSome.mp
      (by rw [(mem_forwardedEntries table).mp hentry]; rfl))
  simp [releases, hkey]

theorem removeTarget_spec (target : Target) :
    StepSpec table (table.removeTarget target).1 (.removeTarget target)
      (.leases (table.removeTarget target).2) := by
  refine removeKeys_spec table (fun _ => rfl) rfl fun entry hentry => ?_
  obtain ⟨key, lease⟩ := entry
  have hlookup := (mem_forwardedEntries table).mp hentry
  have hmem := AList.mem_lookup_iff.mp hlookup
  simp only [releases, decide_eq_decide, List.mem_filterMap]
  constructor
  · intro htarget
    exact ⟨_, hmem, by simp [htarget]⟩
  · rintro ⟨⟨otherKey, other⟩, hother, heq⟩
    cases other with
    | consumed _ => cases heq
    | forwarded other =>
      simp only [Option.ite_none_right_eq_some, Option.some.injEq] at heq
      obtain ⟨htarget, rfl⟩ := heq
      have hboth := AList.mem_lookup_iff.mpr hother
      rw [Option.mem_def, hlookup] at hboth
      cases hboth
      exact htarget

theorem removeSoleTextPress_spec (source : Source) :
    StepSpec table (table.removeSoleTextPress source).1 (.removeSoleTextPress source)
      (.lease (table.removeSoleTextPress source).2) := by
  have hnone : StepSpec table table (.removeSoleTextPress source) (.lease none) :=
    .of_unchanged (fun _ => rfl) rfl (fun _ => rfl) rfl rfl
  unfold InputLeaseTable.removeSoleTextPress
  split
  · rename_i leaseKey lease hsole
    split
    · -- the only entry of this source, so releasing the source releases the key
      have hentry : (⟨leaseKey, .forwarded lease⟩ :
          (_ : InputLeaseKey Source) × InputLease Context Target) ∈ table.leases.entries ∧
          leaseKey.source = source := by
        have := List.mem_filter.mp (hsole ▸ List.mem_singleton.mpr rfl)
        simpa using this
      have hlookup : table.leases.lookup leaseKey = some (.forwarded lease) :=
        AList.mem_lookup_iff.mpr hentry.1
      have hreleases : ∀ entry ∈ forwardedEntries table,
          decide (entry.1.source = source) = decide (entry.1 = leaseKey) := by
        intro entry hmem
        rw [decide_eq_decide]
        constructor
        · intro hsource
          have hin := AList.mem_lookup_iff.mp ((mem_forwardedEntries table).mp hmem)
          have hfiltered : _ ∈ table.leases.entries.filter
              (fun entry => entry.1.source = source) :=
            List.mem_filter.mpr ⟨hin, by simpa using hsource⟩
          rw [hsole, List.mem_singleton] at hfiltered
          exact congrArg Sigma.fst hfiltered
        · rintro h
          rw [h]
          exact hentry.2
      refine .of_release (fun _ => rfl) rfl ?_ ?_
      · rw [InputLeaseTable.remove, forwardedEntries_erase, hlookup]
        refine .of_eq (List.filter_congr fun entry hmem => ?_)
        simp only [releases, hreleases entry hmem, ne_eq, decide_not]
      · rw [InputLeaseTable.remove, handedBack_lookup, hlookup]
        refine .of_eq (congrArg _ (List.filter_congr fun entry hmem => ?_))
        simp only [releases, hreleases entry hmem]
    · exact hnone
  · exact hnone

theorem step_spec {s : Observed Source Context Target} {op : Op Source Context Target}
    (hop : Admissible s op) : StepSpec s.1 (s.1.step op).1 op (s.1.step op).2 := by
  cases op with
  | normalizePress leaseKey key => exact normalizePress_spec s.1 leaseKey key
  | completePress leaseKey key initialContext resultingContext target =>
    exact completePress_spec s.1 leaseKey key initialContext resultingContext target
  | planRepeat leaseKey key currentContext => exact planRepeat_spec s.1 leaseKey key currentContext
  | reprocessAllowed leaseKey expectedContext currentContext tracked =>
    exact reprocessAllowed_spec s.1 leaseKey expectedContext currentContext tracked hop
  | remove key => exact remove_spec s.1 key
  | removeSoleTextPress source => exact removeSoleTextPress_spec s.1 source
  | removeKeys keys =>
    exact removeKeys_spec s.1 (fun _ => rfl) rfl (fun _ _ => rfl)
  | removeSource source => exact removeSource_spec s.1 source
  | removeTarget target => exact removeTarget_spec s.1 target

/-! ### The run -/

/-- The observer's books are right. -/
structure Accounted (s : Observed Source Context Target) : Prop where
  pending : (s.2.presses.withFate .pending).Perm (forwardedEntries s.1)
  released : ((s.2.presses.withFate .delivered).map Prod.snd).Perm s.2.returned

theorem withFate_observe (history : History Source Target) (op : Op Source Context Target)
    (answer : Answer Context Target) (fate : Fate) :
    (observe history op answer).presses.withFate fate
      = ((history.presses.settle (releases op answer) .delivered).settle
          (pressesAnew op answer) .dropped).withFate fate
        ++ if fate = .pending then (recorded op).toList else [] := by
  simp only [observe]
  cases recorded op with
  | none => simp
  | some entry => exact Ledger.withFate_accept fate _ entry

/-- What one call does to the table, the observer writes down. -/
theorem Accounted.step {s : Observed Source Context Target} (h : Accounted s)
    {op : Op Source Context Target} (hop : Admissible s op) :
    Accounted ((s.1.step op).1, observe s.2 op (s.1.step op).2) := by
  have hspec := step_spec hop
  constructor
  · rw [withFate_observe, Ledger.pending_settle (by decide), Ledger.pending_settle (by decide)]
    refine List.Perm.trans ?_ hspec.forwarded.symm
    exact ((h.pending.filter _).filter _).append_right _
  · rw [withFate_observe, if_neg (by decide), List.append_nil,
      Ledger.withFate_settle_of_ne (by decide) (by decide)]
    refine ((Ledger.perm_withFate_settle (by decide) _ _).map _).trans ?_
    rw [List.map_append]
    refine h.released.append ?_
    exact ((h.pending.filter _).map _).trans hspec.returned.symm

/-- The repeats of a key are suppressed. -/
def Suppressed (table : InputLeaseTable Source Context Target) (key : InputLeaseKey Source) :
    Prop :=
  table.leases.lookup key = some (.consumed .suppressRepeats)

/-- The call presses or releases the key. -/
def Touches (key : InputLeaseKey Source) : Op Source Context Target → Prop
  | .normalizePress leaseKey pressed => leaseKey = key ∧ pressed.kind = .press
  | .completePress leaseKey _ _ _ _ => leaseKey = key
  | .remove removed => removed = key
  | .removeKeys keys => key ∈ keys
  | .removeSource source => key.source = source
  | _ => False

theorem Suppressed.insertConsumed {table : InputLeaseTable Source Context Target}
    {key : InputLeaseKey Source} (h : Suppressed table key) (leaseKey : InputLeaseKey Source) :
    Suppressed (table.insertConsumed leaseKey .suppressRepeats) key := by
  by_cases heq : key = leaseKey
  · subst heq
    exact AList.lookup_insert _
  · exact (AList.lookup_insert_ne heq).trans h

theorem Suppressed.insert_of_ne {table : InputLeaseTable Source Context Target}
    {key leaseKey : InputLeaseKey Source} (h : Suppressed table key) (hne : leaseKey ≠ key)
    (lease : InputLease Context Target) :
    Suppressed ⟨table.leases.insert leaseKey lease⟩ key :=
  (AList.lookup_insert_ne hne.symm).trans h

theorem Suppressed.erase_of_ne {table : InputLeaseTable Source Context Target}
    {key : InputLeaseKey Source} (h : Suppressed table key) (leaseKey : InputLeaseKey Source)
    (hne : leaseKey ≠ key) :
    Suppressed ⟨table.leases.erase leaseKey⟩ key :=
  (AList.lookup_erase_ne hne.symm).trans h

theorem Suppressed.removeKeys {table : InputLeaseTable Source Context Target}
    {key : InputLeaseKey Source} (h : Suppressed table key) {keys : List (InputLeaseKey Source)}
    (hkeys : key ∉ keys) : Suppressed (table.removeKeys keys).1 key := by
  induction keys generalizing table with
  | nil => exact h
  | cons removed keys ih =>
    obtain ⟨hne, hrest⟩ := not_or.mp (mt List.mem_cons.mpr hkeys)
    have hnext := ih (h.erase_of_ne removed (fun heq => hne heq.symm)) hrest
    simp only [InputLeaseTable.removeKeys, InputLeaseTable.remove]
    split <;> exact hnext

/-- A forwarded lease is not a suppressed one, so its removal leaves the suppressed ones. -/
theorem Suppressed.ne_of_forwarded {table : InputLeaseTable Source Context Target}
    {key leaseKey : InputLeaseKey Source} (h : Suppressed table key)
    {lease : ForwardedInputLease Target}
    (hentry : (⟨leaseKey, .forwarded lease⟩ :
      (_ : InputLeaseKey Source) × InputLease Context Target) ∈ table.leases.entries) :
    leaseKey ≠ key := by
  rintro rfl
  have hlookup := AList.mem_lookup_iff.mpr hentry
  rw [Option.mem_def, h] at hlookup
  cases hlookup

theorem Suppressed.step {table : InputLeaseTable Source Context Target}
    {key : InputLeaseKey Source} (h : Suppressed table key) {op : Op Source Context Target}
    (hop : ¬ Touches key op) : Suppressed (table.step op).1 key := by
  cases op with
  | normalizePress leaseKey pressed =>
    show Suppressed (table.normalizePress leaseKey pressed).1 key
    unfold InputLeaseTable.normalizePress
    split
    · exact h
    split
    · exact h
    · rename_i hpress _
      refine h.erase_of_ne leaseKey fun heq => hop ⟨heq, ?_⟩
      by_contra hkind
      simp [hkind] at hpress
  | completePress leaseKey pressed initialContext resultingContext target =>
    show Suppressed
      (table.completePress leaseKey pressed initialContext resultingContext target).1 key
    have hconsumed : Suppressed (if (table.leases.lookup leaseKey).isSome then table
        else table.insertConsumed leaseKey
          (InputLeaseTable.disposition initialContext resultingContext)) key := by
      split
      · exact h
      · exact h.insert_of_ne hop _
    unfold InputLeaseTable.completePress
    split
    · exact h
    cases target with
    | some target => exact h.insert_of_ne hop _
    | none =>
      dsimp only
      split
      · split <;> exact hconsumed
      · exact hconsumed
  | planRepeat leaseKey pressed currentContext =>
    show Suppressed (table.planRepeat leaseKey pressed currentContext).1 key
    unfold InputLeaseTable.planRepeat
    split
    · exact h
    · split
      · exact h
      · exact h.insertConsumed leaseKey
    · exact h
    · split <;> exact h
  | reprocessAllowed leaseKey expectedContext currentContext tracked =>
    show Suppressed
      (table.reprocessAllowed leaseKey expectedContext currentContext tracked).1 key
    unfold InputLeaseTable.reprocessAllowed
    dsimp only
    split
    · exact h.insertConsumed leaseKey
    · exact h
  | remove removed => exact h.erase_of_ne removed hop
  | removeSoleTextPress source =>
    show Suppressed (table.removeSoleTextPress source).1 key
    unfold InputLeaseTable.removeSoleTextPress
    split
    · rename_i leaseKey lease hsole
      have hentry := (List.mem_filter.mp (hsole ▸ List.mem_singleton.mpr rfl)).1
      split
      · exact h.erase_of_ne leaseKey (h.ne_of_forwarded hentry)
      · exact h
    · exact h
  | removeKeys keys => exact h.removeKeys hop
  | removeSource source =>
    refine h.removeKeys fun hmem => hop ?_
    show key.source = source
    simpa using (List.mem_filter.mp hmem).2
  | removeTarget target =>
    refine h.removeKeys fun hmem => ?_
    obtain ⟨⟨leaseKey, lease⟩, hentry, heq⟩ := List.mem_filterMap.mp hmem
    cases lease with
    | consumed _ => cases heq
    | forwarded lease =>
      simp only [Option.ite_none_right_eq_some, Option.some.injEq] at heq
      exact h.ne_of_forwarded hentry heq.2

/-- A suppressed key's repeats go nowhere. -/
theorem Suppressed.planRepeat {table : InputLeaseTable Source Context Target}
    {key : InputLeaseKey Source} (h : Suppressed table key) (pressed : TerminalKey)
    (currentContext : Option Context) :
    table.planRepeat key pressed currentContext = (table, .ignore) := by
  unfold InputLeaseTable.planRepeat
  rw [h]

theorem planRepeat_forwarded {table : InputLeaseTable Source Context Target}
    {key : InputLeaseKey Source} {pressed : TerminalKey} {currentContext : Option Context}
    {target : Target}
    (h : (table.planRepeat key pressed currentContext).2 = .forwarded target) :
    ∃ lease, (key, lease) ∈ forwardedEntries table ∧ lease.target = target := by
  unfold InputLeaseTable.planRepeat at h
  split at h
  · rename_i lease hlookup
    refine ⟨lease, (mem_forwardedEntries table).mpr hlookup, ?_⟩
    simpa using h
  · split at h <;> cases h
  · cases h
  · split at h <;> cases h

end Observer

/-! ### Two runs -/

/-- The Escape key without modifiers. -/
def escKey : TerminalKey := .new .esc ⟨0⟩

end Herden.Proofs.Lease
