import Mathlib.Data.List.Nodup

/-! # Bounded insertion-ordered maps

The oldest key comes first. A new key goes to the end, and whatever exceeds the capacity is
dropped from the front. -/

namespace GoogleCloudRust

@[ext]
structure FifoMap (κ ν : Type*) (capacity : ℕ) where
  entries : List (κ × ν)
  nodup : (entries.map Prod.fst).Nodup
  length_le : entries.length ≤ capacity

namespace FifoMap

variable {κ ν : Type*} [DecidableEq κ] {capacity : ℕ}

def empty : FifoMap κ ν capacity := ⟨[], List.nodup_nil, Nat.zero_le capacity⟩

def keys (m : FifoMap κ ν capacity) : List κ := m.entries.map Prod.fst

def get (m : FifoMap κ ν capacity) (key : κ) : Option ν :=
  (m.entries.find? fun e => e.1 = key).map Prod.snd

/-- The entries with the value of one key replaced. -/
def updated (entries : List (κ × ν)) (key : κ) (value : ν) : List (κ × ν) :=
  entries.map fun e => if e.1 = key then (key, value) else e

theorem map_fst_updated (entries : List (κ × ν)) (key : κ) (value : ν) :
    (updated entries key value).map Prod.fst = entries.map Prod.fst := by
  rw [updated, List.map_map]
  refine List.map_congr_left fun e _ => ?_
  simp only [Function.comp_apply]
  split_ifs with h
  · exact h.symm
  · rfl

def insert (m : FifoMap κ ν capacity) (key : κ) (value : ν) : FifoMap κ ν capacity :=
  if h : key ∈ m.keys then {
    entries := updated m.entries key value
    nodup := (map_fst_updated m.entries key value).symm ▸ m.nodup
    length_le := by simpa [updated] using m.length_le }
  else {
    entries := (m.entries ++ [(key, value)]).drop (m.entries.length + 1 - capacity)
    nodup := by
      have hall : ((m.entries ++ [(key, value)]).map Prod.fst).Nodup := by
        rw [List.map_append, List.map_singleton]
        exact List.nodup_append'.mpr ⟨m.nodup, List.nodup_singleton key,
          List.disjoint_singleton.mpr h⟩
      rw [List.map_drop]
      exact hall.sublist (List.drop_sublist _ _)
    length_le := by
      simp only [List.length_drop, List.length_append, List.length_singleton]
      omega }

def remove (m : FifoMap κ ν capacity) (key : κ) : Option ν × FifoMap κ ν capacity :=
  (m.get key, {
    entries := m.entries.filter fun e => e.1 ≠ key
    nodup := m.nodup.sublist (List.filter_sublist.map Prod.fst)
    length_le := Nat.le_trans (List.length_filter_le _ _) m.length_le })

/-! ## Lookups -/

variable {m : FifoMap κ ν capacity} {key : κ} {value : ν}

theorem get_eq_some : m.get key = some value ↔ (key, value) ∈ m.entries := by
  rw [get, Option.map_eq_some_iff]
  constructor
  · rintro ⟨e, he, rfl⟩
    obtain rfl : e.1 = key := by simpa using List.find?_some he
    exact List.mem_of_find?_eq_some he
  · intro hmem
    cases hfind : m.entries.find? fun e => e.1 = key with
    | none => exact absurd (List.find?_eq_none.mp hfind _ hmem) (by simp)
    | some e =>
        have hkey : e.1 = key := by simpa using List.find?_some hfind
        exact ⟨e, rfl, congrArg Prod.snd
          (List.inj_on_of_nodup_map m.nodup (List.mem_of_find?_eq_some hfind) hmem hkey)⟩

theorem get_eq_none : m.get key = none ↔ key ∉ m.keys := by
  rw [get, Option.map_eq_none_iff, List.find?_eq_none, keys, List.mem_map, not_exists]
  simp only [decide_eq_true_eq, not_and]

/-! ## Updates by position -/

/-- Removing an absent key changes nothing. -/
theorem remove_of_notMem (h : key ∉ m.keys) : m.remove key = (none, m) := by
  rw [remove, get_eq_none.mpr h]
  congr 2
  refine List.filter_eq_self.mpr fun e he => ?_
  have hne : e.1 ≠ key := fun heq => h (List.mem_map.mpr ⟨e, he, heq⟩)
  simpa using hne

/-- Removing a key closes the gap that its entry leaves. -/
theorem entries_remove {before after : List (κ × ν)}
    (h : m.entries = before ++ (key, value) :: after) :
    (m.remove key).2.entries = before ++ after := by
  have hnodup := m.nodup
  rw [h, List.map_append, List.map_cons, List.nodup_middle, List.nodup_cons, ← List.map_append]
    at hnodup
  have hkeep : ∀ e ∈ before ++ after, e.1 ≠ key :=
    fun e he heq => hnodup.1 (List.mem_map.mpr ⟨e, he, heq⟩)
  rw [remove]
  dsimp only
  rw [h, List.filter_append, List.filter_cons_of_neg (by simp), ← List.filter_append]
  exact List.filter_eq_self.mpr fun e he => by simpa using hkeep e he

/-- A new key goes to the end as long as there is room. -/
theorem entries_insert_of_lt (h : key ∉ m.keys) (hroom : m.entries.length < capacity) :
    (m.insert key value).entries = m.entries ++ [(key, value)] := by
  rw [insert, dif_neg h]
  exact (congrArg (List.drop · _) (by omega)).trans (List.drop_zero)

/-- In a full map a new key takes the place of the oldest one. -/
theorem insert_of_full {oldest : κ × ν} {rest : List (κ × ν)} (h : key ∉ m.keys)
    (hfull : capacity ≤ m.entries.length) (hentries : m.entries = oldest :: rest) :
    m.insert key value = (m.remove oldest.1).2.insert key value := by
  have hlength := m.length_le
  have hremoved : (m.remove oldest.1).2.entries = rest :=
    entries_remove (hentries.trans (List.nil_append _).symm)
  have habsent : key ∉ (m.remove oldest.1).2.keys := by
    rw [keys, hremoved]
    rw [keys, hentries, List.map_cons, List.mem_cons, not_or] at h
    exact h.2
  have hroom : (m.remove oldest.1).2.entries.length < capacity := by
    rw [hremoved]
    rw [hentries, List.length_cons] at hlength
    omega
  ext1
  rw [entries_insert_of_lt habsent hroom, hremoved, insert, dif_neg h]
  have hone : m.entries.length + 1 - capacity = 1 := by omega
  dsimp only
  rw [hone, hentries, List.cons_append, List.drop_one, List.tail_cons]

theorem entries_insert_of_mem (h : key ∈ m.keys) :
    (m.insert key value).entries = updated m.entries key value := by
  rw [insert, dif_pos h]

/-- Nothing is kept without capacity. -/
theorem insert_of_zero (m : FifoMap κ ν 0) (key : κ) (value : ν) : m.insert key value = m := by
  have hempty : ∀ m : FifoMap κ ν 0, m.entries = [] := fun m =>
    List.eq_nil_of_length_eq_zero (Nat.le_zero.mp m.length_le)
  ext1
  rw [hempty, hempty]

/-! ## Ages -/

/-- The key has the value, and at most so many keys came after it. -/
def Holds (m : FifoMap κ ν capacity) (key : κ) (value : ν) (younger : ℕ) : Prop :=
  ∃ older newer, m.entries = older ++ (key, value) :: newer ∧ newer.length ≤ younger

variable {other : κ} {younger : ℕ}

theorem Holds.get (h : m.Holds key value younger) : m.get key = some value := by
  obtain ⟨older, newer, hentries, -⟩ := h
  rw [get_eq_some, hentries]
  exact List.mem_append_right older List.mem_cons_self

theorem holds_insert (h : key ∉ m.keys) (hcapacity : 0 < capacity) (value : ν) :
    (m.insert key value).Holds key value 0 := by
  refine ⟨m.entries.drop (m.entries.length + 1 - capacity), [], ?_, Nat.le_refl 0⟩
  rw [insert, dif_neg h]
  exact List.drop_append_of_le_length (by omega)

theorem get_insert_self (m : FifoMap κ ν capacity) (hcapacity : 0 < capacity) (key : κ)
    (value : ν) : (m.insert key value).get key = some value := by
  by_cases h : key ∈ m.keys
  · obtain ⟨e, hmem, hkey⟩ := List.mem_map.mp h
    rw [get_eq_some, entries_insert_of_mem h]
    exact List.mem_map.mpr ⟨e, hmem, if_pos hkey⟩
  · exact (holds_insert h hcapacity value).get

/-- Another key makes an entry older, but it does not push it out while there is room for it. -/
theorem Holds.insert (h : m.Holds key value younger) (hne : other ≠ key)
    (hroom : younger + 1 < capacity) (value' : ν) :
    (m.insert other value').Holds key value (younger + 1) := by
  obtain ⟨older, newer, hentries, hlength⟩ := h
  by_cases hmem : other ∈ m.keys
  · refine ⟨updated older other value', updated newer other value', ?_, ?_⟩
    · rw [entries_insert_of_mem hmem, hentries, updated, List.map_append, List.map_cons,
        if_neg hne.symm]
      rfl
    · rw [updated, List.length_map]
      omega
  · have hdrop : m.entries.length + 1 - capacity ≤ older.length := by
      rw [hentries, List.length_append, List.length_cons]
      omega
    refine ⟨older.drop (m.entries.length + 1 - capacity), newer ++ [(other, value')], ?_, ?_⟩
    · rw [FifoMap.insert, dif_neg hmem]
      dsimp only
      generalize m.entries.length + 1 - capacity = excess at hdrop ⊢
      rw [hentries, List.append_assoc, List.cons_append]
      exact List.drop_append_of_le_length hdrop
    · rw [List.length_append, List.length_singleton]
      omega

theorem Holds.remove (h : m.Holds key value younger) (hne : other ≠ key) :
    (m.remove other).2.Holds key value younger := by
  obtain ⟨older, newer, hentries, hlength⟩ := h
  refine ⟨older.filter fun e => e.1 ≠ other, newer.filter fun e => e.1 ≠ other, ?_,
    Nat.le_trans (List.length_filter_le _ _) hlength⟩
  rw [FifoMap.remove]
  dsimp only
  rw [hentries, List.filter_append, List.filter_cons_of_pos (by simpa using hne.symm)]

omit [DecidableEq κ] in
theorem Holds.mono (h : m.Holds key value younger) {younger' : ℕ} (hle : younger ≤ younger') :
    m.Holds key value younger' := by
  obtain ⟨older, newer, hentries, hlength⟩ := h
  exact ⟨older, newer, hentries, Nat.le_trans hlength hle⟩

end FifoMap

end GoogleCloudRust
