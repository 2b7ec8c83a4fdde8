import Mathlib.Data.Finmap

/-! # Unordered maps

Finite maps in which the order of the entries is not observable. -/

namespace GoogleCloudRust

abbrev HashMap (κ ν : Type*) := Finmap fun _ : κ => ν

namespace HashMap

variable {κ ν : Type*} [DecidableEq κ] {m : HashMap κ ν} {key other : κ} {value : ν}

def size (m : HashMap κ ν) : ℕ := m.keys.card

theorem lookup_insert_eq (m : HashMap κ ν) (key other : κ) (value : ν) :
    (m.insert key value).lookup other = if other = key then some value else m.lookup other := by
  split_ifs with h
  · subst h
    exact Finmap.lookup_insert m
  · exact Finmap.lookup_insert_of_ne m h

theorem lookup_erase_eq (m : HashMap κ ν) (key other : κ) :
    (m.erase key).lookup other = if other = key then none else m.lookup other := by
  split_ifs with h
  · subst h
    exact Finmap.lookup_erase other m
  · exact Finmap.lookup_erase_ne h

theorem keys_insert (m : HashMap κ ν) (key : κ) (value : ν) :
    (m.insert key value).keys = insert key m.keys := by
  ext other
  rw [Finmap.mem_keys, Finmap.mem_insert, Finset.mem_insert, Finmap.mem_keys]

theorem keys_erase (m : HashMap κ ν) (key : κ) : (m.erase key).keys = m.keys.erase key := by
  ext other
  rw [Finmap.mem_keys, Finmap.mem_erase, Finset.mem_erase, Finmap.mem_keys]

theorem size_insert_of_mem (h : key ∈ m) : size (m.insert key value) = size m := by
  rw [size, keys_insert, Finset.insert_eq_of_mem (Finmap.mem_keys.mpr h), size]

theorem size_insert_of_notMem (h : key ∉ m) : size (m.insert key value) = size m + 1 := by
  rw [size, keys_insert, Finset.card_insert_of_notMem (mt Finmap.mem_keys.mp h), size]

theorem size_erase_of_mem (h : key ∈ m) : size (m.erase key) + 1 = size m := by
  rw [size, keys_erase, Finset.card_erase_add_one (Finmap.mem_keys.mpr h), size]

theorem lookup_of_size_eq_zero (h : m.size = 0) (key : κ) : m.lookup key = none := by
  rw [size, Finset.card_eq_zero] at h
  rw [Finmap.lookup_eq_none, ← Finmap.mem_keys, h]
  exact Finset.notMem_empty key

/-! ## Whole maps -/

theorem mem_lookup (m : HashMap κ ν) (key : κ) (value : ν) :
    m.lookup key = some value ↔ (⟨key, value⟩ : Sigma fun _ : κ => ν) ∈ m.entries :=
  Finmap.mem_lookup_iff

omit [DecidableEq κ] in
theorem nodupKeys_filter (m : HashMap κ ν) (p : (Sigma fun _ : κ => ν) → Prop)
    [DecidablePred p] : (m.entries.filter p).NodupKeys := by
  rw [← Multiset.nodup_keys]
  exact Multiset.nodup_of_le (Multiset.map_le_map (Multiset.filter_le p m.entries))
    (Multiset.nodup_keys.mpr m.nodupKeys)

/-- Keep the entries that satisfy the predicate. -/
def retain (m : HashMap κ ν) (p : κ → ν → Bool) : HashMap κ ν :=
  ⟨m.entries.filter fun entry => p entry.1 entry.2, nodupKeys_filter m _⟩

theorem lookup_retain (m : HashMap κ ν) (p : κ → ν → Bool) (key : κ) (value : ν) :
    (m.retain p).lookup key = some value ↔ m.lookup key = some value ∧ p key value = true := by
  rw [mem_lookup, mem_lookup]
  exact Multiset.mem_filter

/-- A value that stands at one key only. -/
theorem countP_value_eq_one [DecidableEq ν] {m : HashMap κ ν} {key : κ} {value : ν}
    (h : m.lookup key = some value) (hunique : ∀ other, m.lookup other = some value → other = key) :
    m.entries.countP (fun entry => entry.2 = value) = 1 := by
  have hmem := (mem_lookup m key value).mp h
  have hcongr : m.entries.countP (fun entry => entry.2 = value) =
      m.entries.countP fun entry => (⟨key, value⟩ : Sigma fun _ : κ => ν) = entry := by
    refine Multiset.countP_congr rfl fun entry hentry => propext ?_
    obtain ⟨other, found⟩ := entry
    constructor
    · rintro rfl
      rw [hunique other ((mem_lookup m other found).mpr hentry)]
    · rintro h
      cases h
      rfl
  rw [hcongr]
  have hnodup : m.entries.Nodup := Multiset.Nodup.of_map _ (Multiset.nodup_keys.mpr m.nodupKeys)
  exact Multiset.count_eq_one_of_mem hnodup hmem

/-- Some entry satisfies the predicate. -/
def any (m : HashMap κ ν) (p : κ → ν → Bool) : Bool :=
  decide (∃ key ∈ m.keys, (m.lookup key).any (p key) = true)

theorem any_eq_true (m : HashMap κ ν) (p : κ → ν → Bool) :
    m.any p = true ↔ ∃ key value, m.lookup key = some value ∧ p key value = true := by
  simp only [any, decide_eq_true_eq, Option.any_eq_true]
  constructor
  · rintro ⟨key, -, value, hlookup, hp⟩
    exact ⟨key, value, hlookup, hp⟩
  · rintro ⟨key, value, hlookup, hp⟩
    exact ⟨key, Finmap.mem_keys.mpr (Finmap.mem_of_lookup_eq_some hlookup), value, hlookup, hp⟩

/-- The map of the given keys. -/
def ofKeys (keys : Finset κ) (value : κ → ν) : HashMap κ ν :=
  ⟨keys.val.map fun key => ⟨key, value key⟩, by
    rw [← Multiset.nodup_keys, Multiset.keys, Multiset.map_map]
    simpa [Function.comp_def] using keys.nodup⟩

theorem lookup_ofKeys (keys : Finset κ) (value : κ → ν) (key : κ) (found : ν) :
    (ofKeys keys value).lookup key = some found ↔ key ∈ keys ∧ value key = found := by
  rw [mem_lookup]
  simp only [ofKeys, Multiset.mem_map, Finset.mem_val, Sigma.mk.injEq]
  constructor
  · rintro ⟨other, hmem, rfl, hvalue⟩
    exact ⟨hmem, eq_of_heq hvalue⟩
  · rintro ⟨hmem, rfl⟩
    exact ⟨key, hmem, rfl, HEq.rfl⟩

/-- Add the keys that are not present yet. -/
def extend (m : HashMap κ ν) (keys : Finset κ) (value : κ → ν) : HashMap κ ν :=
  m ∪ ofKeys keys value

theorem lookup_extend {m : HashMap κ ν} {keys : Finset κ} {value : κ → ν} {key : κ} {found : ν}
    (h : (m.extend keys value).lookup key = some found) :
    m.lookup key = some found ∨ (key ∈ keys ∧ value key = found) := by
  rcases Finmap.mem_lookup_union.mp h with hleft | ⟨-, hright⟩
  · exact .inl hleft
  · exact .inr ((lookup_ofKeys keys value key found).mp hright)

end HashMap

end GoogleCloudRust
