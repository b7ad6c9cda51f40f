import Mathlib.Data.List.AList

/-!
# `Herden.Lib.HashMap`: maps that are also walked

A `HashMap` is a Mathlib `AList`: a list of entries with distinct keys, here with one type of
values. A program looks keys up in such a map and also walks it, keeps some entries, or
changes values in place. The lemmas state what each of these does to a later lookup, so that
proofs never look at the list. Nothing fixes the order of the walk: `get_eq_of_perm` says that
lookups do not see it.
-/

namespace Herden.Lib

abbrev HashMap (κ α : Type) := AList (fun _ : κ => α)

namespace HashMap

variable {κ α : Type} [DecidableEq κ]

def get (m : HashMap κ α) (key : κ) : Option α := m.lookup key

def insert (m : HashMap κ α) (key : κ) (value : α) : HashMap κ α := AList.insert key value m

def remove (m : HashMap κ α) (key : κ) : HashMap κ α := m.erase key

def containsKey (m : HashMap κ α) (key : κ) : Bool := (m.get key).isSome

def values (m : HashMap κ α) : List α := m.entries.map (fun entry => entry.2)

/-- Keep the entries that satisfy a test. -/
def retain (m : HashMap κ α) (keep : κ → α → Bool) : HashMap κ α where
  entries := m.entries.filter (fun entry => keep entry.1 entry.2)
  nodupKeys := m.nodupKeys.sublist List.filter_sublist

/-- Change every value in place. -/
def mapValues (m : HashMap κ α) (f : κ → α → α) : HashMap κ α where
  entries := m.entries.map (fun entry => ⟨entry.1, f entry.1 entry.2⟩)
  nodupKeys := by
    rw [List.NodupKeys, List.keys, List.map_map]
    exact m.nodupKeys

/-- Equality of maps: the same entries, in whatever order. -/
def sameEntries [DecidableEq α] (m n : HashMap κ α) : Bool :=
  m.entries.length = n.entries.length &&
    m.entries.all (fun entry => n.get entry.1 = some entry.2)

/-- Insert some entries one after the other. -/
def insertAll (m : HashMap κ α) (entries : List (κ × α)) : HashMap κ α :=
  entries.foldl (fun m entry => m.insert entry.1 entry.2) m

variable {key : κ} {m : HashMap κ α}

variable {value : α} {other : κ} {entries : List (κ × α)} {n : HashMap κ α}

theorem get_eq_some_iff : m.get key = some value ↔ (⟨key, value⟩ : Sigma _) ∈ m.entries :=
  AList.mem_lookup_iff

@[simp] theorem get_empty (key : κ) : get (∅ : HashMap κ α) key = none :=
  AList.lookup_empty key

@[simp] theorem get_insert_self (m : HashMap κ α) (key : κ) (value : α) :
    (m.insert key value).get key = some value :=
  AList.lookup_insert m

theorem get_insert_of_ne (m : HashMap κ α) (h : other ≠ key) (value : α) :
    (m.insert key value).get other = m.get other :=
  AList.lookup_insert_ne h

theorem get_insert (m : HashMap κ α) (key other : κ) (value : α) :
    (m.insert key value).get other = if other = key then some value else m.get other := by
  split
  next h => rw [h, get_insert_self]
  next h => exact get_insert_of_ne m h value

@[simp] theorem get_remove_self (m : HashMap κ α) (key : κ) : (m.remove key).get key = none :=
  AList.lookup_erase key m

theorem get_remove_of_ne (m : HashMap κ α) (h : other ≠ key) :
    (m.remove key).get other = m.get other :=
  AList.lookup_erase_ne h

theorem get_remove (m : HashMap κ α) (key other : κ) :
    (m.remove key).get other = if other = key then none else m.get other := by
  split
  next h => rw [h, get_remove_self]
  next h => exact get_remove_of_ne m h

theorem get_retain (m : HashMap κ α) (keep : κ → α → Bool) (key : κ) :
    (m.retain keep).get key = (m.get key).filter (keep key) := by
  ext value
  rw [Option.filter_eq_some_iff, get_eq_some_iff, get_eq_some_iff]
  simp [retain]

theorem get_mapValues (m : HashMap κ α) (f : κ → α → α) (key : κ) :
    (m.mapValues f).get key = (m.get key).map (f key) := by
  ext value
  rw [Option.map_eq_some_iff, get_eq_some_iff]
  simp only [mapValues, List.mem_map, get_eq_some_iff]
  constructor
  · rintro ⟨⟨other, old⟩, hmem, heq⟩
    obtain ⟨rfl, hvalue⟩ := Sigma.mk.inj heq
    exact ⟨old, hmem, eq_of_heq hvalue⟩
  · rintro ⟨old, hmem, rfl⟩
    exact ⟨⟨key, old⟩, hmem, rfl⟩

theorem mem_keys_iff : key ∈ m.keys ↔ m.containsKey key = true := by
  rw [containsKey, get, AList.lookup_isSome, AList.mem_keys]

theorem containsKey_insert (m : HashMap κ α) (key other : κ) (value : α) :
    (m.insert key value).containsKey other = true ↔ other = key ∨ m.containsKey other = true := by
  rw [containsKey, containsKey, get_insert]
  split
  next h => simp [h]
  next h => simp [h]

theorem containsKey_remove (m : HashMap κ α) (key other : κ) :
    (m.remove key).containsKey other = true ↔ other ≠ key ∧ m.containsKey other = true := by
  rw [containsKey, containsKey, get_remove]
  split
  next h => simp [h]
  next h => simp [h]

theorem containsKey_singleton (key other : κ) (value : α) :
    (insert ∅ key value).containsKey other = true ↔ other = key := by
  rw [containsKey_insert]
  simp [containsKey]

theorem containsKey_mapValues (m : HashMap κ α) (f : κ → α → α) (key : κ) :
    (m.mapValues f).containsKey key = m.containsKey key := by
  rw [containsKey, containsKey, get_mapValues, Option.isSome_map]

/-- Removing some keys, one after the other. -/
theorem get_foldl_remove_keys (keys : List κ) (m : HashMap κ α) (key : κ) :
    (keys.foldl remove m).get key = if key ∈ keys then none else m.get key := by
  induction keys generalizing m with
  | nil => rfl
  | cons other rest ih =>
    rw [List.foldl_cons, ih, get_remove]
    by_cases hkey : key = other
    · simp [hkey]
    · simp [hkey]

theorem insertAll_append (m : HashMap κ α) (entries more : List (κ × α)) :
    m.insertAll (entries ++ more) = (m.insertAll entries).insertAll more :=
  List.foldl_append

/-- Inserting entries with distinct keys: a later lookup finds the new entry of a key, or the
old one. -/
theorem get_insertAll (m : HashMap κ α) (hnodup : (entries.map Prod.fst).Nodup) (key : κ)
    (value : α) : (m.insertAll entries).get key = some value ↔
      (key, value) ∈ entries ∨ key ∉ entries.map Prod.fst ∧ m.get key = some value := by
  induction entries generalizing m with
  | nil => simp [insertAll]
  | cons entry rest ih =>
    obtain ⟨other, old⟩ := entry
    obtain ⟨hnot, hrest⟩ := List.nodup_cons.mp hnodup
    show ((m.insert other old).insertAll rest).get key = some value ↔ _
    rw [ih _ hrest, get_insert]
    by_cases hkey : key = other
    · -- the first entry decides, and no later one has its key
      subst hkey
      have hno : (key, value) ∉ rest := fun hmem =>
        hnot (List.mem_map.mpr ⟨_, hmem, rfl⟩)
      have hother : key ∉ rest.map Prod.fst := hnot
      simp [hno, hother, eq_comm]
    · simp [hkey]

theorem get_insertAll_empty (hnodup : (entries.map Prod.fst).Nodup) (key : κ) (value : α) :
    (insertAll ∅ entries).get key = some value ↔ (key, value) ∈ entries := by
  rw [get_insertAll ∅ hnodup]
  simp

/-- Turning a map with distinct values round: its values become the keys. -/
theorem get_insertAll_swap {β : Type} [DecidableEq β] (m : HashMap κ β)
    (hinj : ∀ a b value, m.get a = some value → m.get b = some value → a = b)
    (key : κ) (value : β) :
    (insertAll ∅ (m.entries.map (fun entry => (entry.2, entry.1)))).get value = some key ↔
      m.get key = some value := by
  have hentries : m.entries.Nodup := m.nodupKeys.nodup
  have hkeys : ((m.entries.map (fun entry => (entry.2, entry.1))).map Prod.fst).Nodup := by
    rw [List.map_map]
    refine hentries.map_on ?_
    rintro ⟨a, v⟩ ha ⟨b, v'⟩ hb heq
    obtain rfl : v = v' := heq
    obtain rfl := hinj a b v (get_eq_some_iff.mpr ha) (get_eq_some_iff.mpr hb)
    rfl
  rw [get_insertAll_empty hkeys, get_eq_some_iff, List.mem_map]
  constructor
  · rintro ⟨⟨a, v⟩, hmem, heq⟩
    obtain ⟨rfl, rfl⟩ := Prod.mk.inj heq
    exact hmem
  · intro hmem
    exact ⟨⟨key, value⟩, hmem, rfl⟩

/-- Removing the keys of some entries, one after the other. -/
theorem get_foldl_remove {β : κ → Type} (entries : List (Sigma β)) (m : HashMap κ α) (key : κ) :
    (entries.foldl (fun m entry => m.remove entry.1) m).get key
      = if entries.any (fun entry => entry.1 = key) then none else m.get key := by
  induction entries generalizing m with
  | nil => rfl
  | cons entry rest ih =>
      rw [List.foldl_cons, ih, get_remove, List.any_cons]
      by_cases h : key = entry.1
      · simp [h]
      · rw [if_neg h, decide_eq_false (Ne.symm h), Bool.false_or]

/-- A key is among the entries a test selects when its value passes the test. -/
theorem any_filter_entries (m : HashMap κ α) (test : α → Bool) (key : κ) :
    (m.entries.filter fun entry => test entry.2).any (fun entry => entry.1 = key)
      = (m.get key).any test := by
  rw [Bool.eq_iff_iff, List.any_eq_true, Option.any_eq_true]
  constructor
  · rintro ⟨⟨other, value⟩, hmem, hkey⟩
    obtain rfl := of_decide_eq_true hkey
    obtain ⟨hentry, htest⟩ := List.mem_filter.mp hmem
    exact ⟨value, get_eq_some_iff.mpr hentry, htest⟩
  · rintro ⟨value, hget, htest⟩
    exact ⟨⟨key, value⟩, List.mem_filter.mpr ⟨get_eq_some_iff.mp hget, htest⟩,
      decide_eq_true rfl⟩

theorem entries_insert (m : HashMap κ α) (key : κ) (value : α) :
    (m.insert key value).entries = ⟨key, value⟩ :: (m.remove key).entries := rfl

theorem entries_remove_of_get_eq_none (h : m.get key = none) : (m.remove key).entries = m.entries :=
  List.kerase_of_notMem_keys (AList.lookup_eq_none.mp h)

/-- The entries are the one of a key and the others. -/
theorem perm_entries_of_get (h : m.get key = some value) :
    m.entries.Perm (⟨key, value⟩ :: (m.remove key).entries) := by
  rw [← entries_insert]
  apply List.lookup_ext m.nodupKeys (m.insert key value).nodupKeys
  intro other found
  show found ∈ m.get other ↔ found ∈ (m.insert key value).get other
  rw [get_insert]
  split
  next heq => rw [heq, h]
  · exact Iff.rfl

/-- Lookups do not depend on the order of the entries. -/
theorem get_eq_of_perm (h : m.entries.Perm n.entries) (key : κ) : m.get key = n.get key :=
  AList.perm_lookup h

/-- Equality of maps is equality of their entries up to order. -/
theorem sameEntries_iff_perm [DecidableEq α] :
    m.sameEntries n = true ↔ m.entries.Perm n.entries := by
  unfold sameEntries
  simp only [Bool.and_eq_true, decide_eq_true_eq, List.all_eq_true]
  constructor
  · rintro ⟨hlength, hfound⟩
    -- the keys are distinct, so as many entries that all occur are all the entries
    have hsubset : m.entries ⊆ n.entries := fun entry hmem =>
      get_eq_some_iff.mp (hfound entry hmem)
    have hsubperm := List.subperm_of_subset m.nodupKeys.nodup hsubset
    exact hsubperm.perm_of_length_le (Nat.le_of_eq hlength.symm)
  · intro hperm
    exact ⟨hperm.length_eq, fun entry hmem => get_eq_some_iff.mpr (hperm.subset hmem)⟩

end HashMap

end Herden.Lib
