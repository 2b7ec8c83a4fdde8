import GoogleCloudRust.Model.ClockCache

/-! # Representation invariant of the CLOCK store

The queue and the map hold the same keys, each once, and never more than the
capacity. A key that is present has the value inserted last. -/

namespace GoogleCloudRust.ClockStore

variable {K V : Type} [DecidableEq K]

def value? (store : ClockStore K V) (key : K) : Option V :=
  (store.entries.lookup key).map ClockEntry.value

/-- The queue holds the keys of the map, each exactly once. -/
structure Queued (store : ClockStore K V) : Prop where
  nodup : store.order.Nodup
  mem_order : ∀ key, key ∈ store.order ↔ key ∈ store.entries

/-- The store may have lost keys, but none has changed its value. -/
def Retains (store store' : ClockStore K V) : Prop :=
  ∀ key value, store'.value? key = some value → store.value? key = some value

omit [DecidableEq K] in
theorem withCapacity_queued (capacity : ℕ) :
    Queued (withCapacity capacity : ClockStore K V) :=
  ⟨List.nodup_nil, fun _ => by simp [withCapacity, Finmap.notMem_empty]⟩

theorem value?_insert (store : ClockStore K V) (key other : K) (entry : ClockEntry V)
    (order : List K) :
    value? { store with entries := store.entries.insert key entry, order := order } other =
      if other = key then some entry.value else store.value? other := by
  rw [value?, HashMap.lookup_insert_eq]
  split_ifs <;> rfl

theorem mem_of_lookup {store : ClockStore K V} {key : K} {entry : ClockEntry V}
    (h : store.entries.lookup key = some entry) : key ∈ store.entries :=
  Finmap.mem_of_lookup_eq_some h

/-! ## Termination of the eviction loop -/

/-- The keys whose reference bit is set. -/
def referencedKeys (store : ClockStore K V) : Finset K :=
  store.entries.keys.filter fun key => (store.entries.lookup key).any ClockEntry.referenced

/-- A bound on the rounds the loop can still make. -/
def rounds (store : ClockStore K V) : ℕ := store.order.length + store.referencedKeys.card

theorem rounds_le (store : ClockStore K V) : store.rounds ≤ store.order.length + store.len :=
  Nat.add_le_add_left (Finset.card_filter_le _ _) _

private theorem card_referencedKeys_clear {store : ClockStore K V} {key : K}
    {entry : ClockEntry V} (h : store.entries.lookup key = some entry)
    (hreferenced : entry.referenced = true) (order : List K) :
    (referencedKeys { store with
      entries := store.entries.insert key { entry with referenced := false }
      order := order }).card + 1 = store.referencedKeys.card := by
  have hmem : key ∈ store.referencedKeys :=
    Finset.mem_filter.mpr ⟨Finmap.mem_keys.mpr (mem_of_lookup h), by simp [h, hreferenced]⟩
  have heq : referencedKeys { store with
      entries := store.entries.insert key { entry with referenced := false }
      order := order } = store.referencedKeys.erase key := by
    ext other
    simp only [referencedKeys, Finset.mem_filter, Finset.mem_erase, Finmap.mem_keys,
      Finmap.mem_insert, HashMap.lookup_insert_eq]
    by_cases hother : other = key <;> simp [hother]
  rw [heq, Finset.card_erase_add_one hmem]

/-- A round that goes on makes progress. -/
theorem rounds_lt_of_continues {store store' : ClockStore K V}
    (h : evictStep store = (true, store')) : store'.rounds < store.rounds := by
  unfold evictStep at h
  split_ifs at h
  · cases h
  · cases horder : store.order with
    | nil => simp [horder] at h
    | cons candidateKey order =>
        rw [horder] at h
        dsimp only at h
        cases hlookup : store.entries.lookup candidateKey with
        | none =>
            rw [hlookup] at h
            obtain rfl := (Prod.mk.inj h).2
            simp [rounds, horder, referencedKeys]
        | some entry =>
            rw [hlookup] at h
            dsimp only at h
            split_ifs at h with hreferenced
            · obtain rfl := (Prod.mk.inj h).2
              have hcard := card_referencedKeys_clear hlookup hreferenced (order ++ [candidateKey])
              simp only [rounds, horder, List.length_append, List.length_cons, List.length_nil]
              omega
            · cases h

/-- Beyond the bound more fuel changes nothing: the loop has ended by itself. -/
theorem evictLoop_fuel {fuel fuel' : ℕ} {store : ClockStore K V} (h : store.rounds < fuel)
    (h' : store.rounds < fuel') : evictLoop fuel store = evictLoop fuel' store := by
  induction fuel generalizing fuel' store with
  | zero => exact absurd h (Nat.not_lt_zero _)
  | succ fuel ih =>
      cases fuel' with
      | zero => exact absurd h' (Nat.not_lt_zero _)
      | succ fuel' =>
          rw [evictLoop, evictLoop]
          rcases hstep : evictStep store with ⟨continues, next⟩
          cases continues with
          | false => rfl
          | true =>
              have hlt := rounds_lt_of_continues hstep
              exact ih (by omega) (by omega)

/-! ## One round of eviction -/

/-- In a queued store a round finds room, gives a second chance, or evicts. -/
theorem evictStep_cases {store : ClockStore K V} (h : Queued store) (hcap : 0 < store.capacity) :
    (store.len < store.capacity ∧ evictStep store = (false, store)) ∨
    ∃ key order entry, store.order = key :: order ∧ store.entries.lookup key = some entry ∧
      ((entry.referenced = true ∧ evictStep store = (true, { store with
          entries := store.entries.insert key { entry with referenced := false }
          order := order ++ [key] })) ∨
        evictStep store = (false, { store with
          entries := store.entries.erase key, order := order })) := by
  unfold evictStep
  split_ifs with hroom
  · exact .inl ⟨hroom, rfl⟩
  · right
    cases horder : store.order with
    | nil =>
        have hempty : store.entries.keys = ∅ := by
          refine Finset.eq_empty_of_forall_notMem fun key hkey => ?_
          have hmem := (h.mem_order key).mpr (Finmap.mem_keys.mp hkey)
          simp [horder] at hmem
        have hlen : store.len = 0 := by simp [len, HashMap.size, hempty]
        omega
    | cons key order =>
        have hmem : key ∈ store.entries := (h.mem_order key).mp (by simp [horder])
        obtain ⟨entry, hlookup⟩ := Finmap.mem_iff.mp hmem
        refine ⟨key, order, entry, rfl, hlookup, ?_⟩
        simp only [hlookup]
        split_ifs with hreferenced
        · exact .inl ⟨hreferenced, rfl⟩
        · exact .inr rfl

section Rotation

variable {store : ClockStore K V} {key : K} {order : List K} (h : Queued store)
  (horder : store.order = key :: order)

include h horder

theorem rotate_queued (entry : ClockEntry V) :
    Queued { store with entries := store.entries.insert key entry, order := order ++ [key] } := by
  have hnodup := h.nodup
  rw [horder, List.nodup_cons] at hnodup
  refine ⟨?_, fun other => ?_⟩
  · rw [List.nodup_append]
    refine ⟨hnodup.2, List.nodup_singleton key, ?_⟩
    rintro a ha _ hb rfl
    exact hnodup.1 (List.mem_singleton.mp hb ▸ ha)
  · have hmem := h.mem_order other
    rw [horder, List.mem_cons] at hmem
    rw [List.mem_append, List.mem_singleton, or_comm, Finmap.mem_insert, ← hmem]
    tauto

theorem evict_queued :
    Queued { store with entries := store.entries.erase key, order := order } := by
  have hnodup := h.nodup
  rw [horder, List.nodup_cons] at hnodup
  refine ⟨hnodup.2, fun other => ?_⟩
  have hmem := h.mem_order other
  rw [horder, List.mem_cons] at hmem
  rw [Finmap.mem_erase, ← hmem]
  constructor
  · intro hother
    exact ⟨fun heq => hnodup.1 (heq ▸ hother), .inr hother⟩
  · rintro ⟨hne, heq | hother⟩
    · exact absurd heq hne
    · exact hother

end Rotation

theorem rotate_retains {store : ClockStore K V} {key : K} {entry : ClockEntry V}
    (hlookup : store.entries.lookup key = some entry) (referenced : Bool) (order : List K) :
    Retains store { store with
      entries := store.entries.insert key { entry with referenced := referenced }
      order := order } := by
  intro other value hvalue
  rw [value?_insert] at hvalue
  split_ifs at hvalue with heq
  · rw [heq, value?, hlookup]
    exact hvalue
  · exact hvalue

theorem evict_retains (store : ClockStore K V) (key : K) (order : List K) :
    Retains store { store with entries := store.entries.erase key, order := order } := by
  intro other value hvalue
  rw [value?, HashMap.lookup_erase_eq] at hvalue
  split_ifs at hvalue
  · cases hvalue
  · exact hvalue

/-! ## The whole loop -/

/-- The loop makes room for one more entry and changes no value. -/
theorem evictLoop_spec {fuel : ℕ} {store : ClockStore K V} (h : Queued store)
    (hcap : 0 < store.capacity) (hlen : store.len ≤ store.capacity) (hfuel : store.rounds < fuel) :
    Queued (evictLoop fuel store) ∧ (evictLoop fuel store).capacity = store.capacity ∧
      (evictLoop fuel store).len < store.capacity ∧ Retains store (evictLoop fuel store) := by
  induction fuel generalizing store with
  | zero => exact absurd hfuel (Nat.not_lt_zero _)
  | succ fuel ih =>
      rw [evictLoop]
      rcases evictStep_cases h hcap with ⟨hroom, hstep⟩ |
        ⟨key, order, entry, horder, hlookup, ⟨hreferenced, hstep⟩ | hstep⟩
      · rw [hstep]
        exact ⟨h, rfl, hroom, fun _ _ hvalue => hvalue⟩
      · have hlt := rounds_lt_of_continues hstep
        have hqueued := rotate_queued h horder { entry with referenced := false }
        have hsize : store.len = HashMap.size (store.entries.insert key
            { entry with referenced := false }) :=
          (HashMap.size_insert_of_mem (mem_of_lookup hlookup)).symm
        rw [hstep]
        obtain ⟨hqueued, hcapacity, hroom, hretains⟩ := ih hqueued hcap
          (hsize.symm.trans_le hlen) (by omega)
        exact ⟨hqueued, hcapacity, hroom, fun other value hvalue =>
          rotate_retains hlookup false _ other value (hretains other value hvalue)⟩
      · rw [hstep]
        have hsize := HashMap.size_erase_of_mem (mem_of_lookup hlookup)
        refine ⟨evict_queued h horder, rfl, ?_, evict_retains store key order⟩
        simp only [len] at hlen ⊢
        omega

/-! ## Operations -/

/-- The representation invariant. -/
structure Synced (store : ClockStore K V) : Prop where
  queued : Queued store
  len_le : store.len ≤ store.capacity

omit [DecidableEq K] in
theorem withCapacity_synced (capacity : ℕ) : Synced (withCapacity capacity : ClockStore K V) :=
  ⟨withCapacity_queued capacity, Nat.zero_le _⟩

omit [DecidableEq K] in
theorem clear_synced (store : ClockStore K V) : Synced store.clear :=
  withCapacity_synced store.capacity

omit [DecidableEq K] in
theorem takeAll_synced (store : ClockStore K V) : Synced store.takeAll.2 :=
  withCapacity_synced store.capacity

/-- Replacing the entry of a present key keeps the queue. -/
theorem replace_synced {store : ClockStore K V} (h : Synced store) {key : K}
    (hmem : key ∈ store.entries) (entry : ClockEntry V) :
    Synced { store with entries := store.entries.insert key entry } := by
  refine ⟨⟨h.queued.nodup, fun other => ?_⟩, ?_⟩
  · rw [h.queued.mem_order, Finmap.mem_insert]
    refine (or_iff_right_of_imp ?_).symm
    rintro rfl
    exact hmem
  · exact (HashMap.size_insert_of_mem hmem).trans_le h.len_le

theorem get_synced {store : ClockStore K V} (h : Synced store) (key : K) :
    Synced (store.get key).2 := by
  unfold get
  split
  · exact h
  · rename_i entry hlookup
    dsimp only
    split_ifs
    · exact h
    · exact replace_synced h (mem_of_lookup hlookup) _

theorem get_fst (store : ClockStore K V) (key : K) : (store.get key).1 = store.value? key := by
  unfold get value?
  cases store.entries.lookup key <;> rfl

theorem get_value? (store : ClockStore K V) (key other : K) :
    (store.get key).2.value? other = store.value? other := by
  unfold get
  split
  · rfl
  · rename_i entry hlookup
    dsimp only
    split_ifs
    · rfl
    · rw [value?_insert]
      split_ifs with heq
      · rw [heq, value?, hlookup]
        rfl
      · rfl

theorem get_capacity (store : ClockStore K V) (key : K) :
    (store.get key).2.capacity = store.capacity := by
  unfold get
  split
  · rfl
  · dsimp only
    split_ifs <;> rfl

/-- Eviction before an insertion makes room and changes no value. -/
theorem evictForInsert_spec {store : ClockStore K V} (h : Synced store)
    (hcap : store.capacity ≠ 0) :
    Queued store.evictForInsert ∧ store.evictForInsert.capacity = store.capacity ∧
      store.evictForInsert.len < store.capacity ∧ Retains store store.evictForInsert := by
  rw [evictForInsert, if_neg hcap]
  exact evictLoop_spec h.queued (Nat.pos_of_ne_zero hcap) h.len_le
    (Nat.lt_succ_of_le store.rounds_le)

theorem not_mem_of_retains {store store' : ClockStore K V} (h : Retains store store') {key : K}
    (hlookup : store.entries.lookup key = none) : key ∉ store'.entries := by
  intro hmem
  obtain ⟨entry, hentry⟩ := Finmap.mem_iff.mp hmem
  have hvalue := h key entry.value (by simp [value?, hentry])
  simp [value?, hlookup] at hvalue

theorem push_synced {store : ClockStore K V} (h : Queued store) (hlen : store.len < store.capacity)
    {key : K} (hmem : key ∉ store.entries) (entry : ClockEntry V) :
    Synced { store with
      entries := store.entries.insert key entry, order := store.order ++ [key] } := by
  refine ⟨⟨?_, fun other => ?_⟩, ?_⟩
  · rw [List.nodup_append]
    refine ⟨h.nodup, List.nodup_singleton key, ?_⟩
    rintro a ha _ hb rfl
    exact hmem ((h.mem_order key).mp (List.mem_singleton.mp hb ▸ ha))
  · rw [List.mem_append, List.mem_singleton, h.mem_order, Finmap.mem_insert, or_comm]
  · exact (HashMap.size_insert_of_notMem hmem).trans_le hlen

theorem insert_capacity {store : ClockStore K V} (h : Synced store) (key : K) (value : V) :
    (store.insert key value).2.capacity = store.capacity := by
  unfold insert
  split_ifs with hcap
  · rfl
  · split
    · rfl
    · exact (evictForInsert_spec h hcap).2.1

theorem insert_synced {store : ClockStore K V} (h : Synced store) (key : K) (value : V) :
    Synced (store.insert key value).2 := by
  unfold insert
  split_ifs with hcap
  · exact h
  · split
    · rename_i entry hlookup
      exact replace_synced h (mem_of_lookup hlookup) _
    · rename_i hlookup
      obtain ⟨hqueued, hcapacity, hlen, hretains⟩ := evictForInsert_spec h hcap
      exact push_synced hqueued (hcapacity ▸ hlen) (not_mem_of_retains hretains hlookup) _

/-- The inserted key has the inserted value. -/
theorem insert_value?_self {store : ClockStore K V} (hcap : store.capacity ≠ 0) (key : K)
    (value : V) : (store.insert key value).2.value? key = some value := by
  unfold insert
  rw [if_neg hcap]
  split <;> simp [value?]

/-- A store without capacity holds nothing. -/
theorem value?_eq_none {store : ClockStore K V} (h : Synced store) (hcap : store.capacity = 0)
    (key : K) : store.value? key = none := by
  have hkeys : store.entries.keys = ∅ := by
    refine Finset.card_eq_zero.mp (Nat.le_zero.mp ?_)
    exact hcap ▸ h.len_le
  have hmem : key ∉ store.entries := by
    rw [← Finmap.mem_keys, hkeys]
    exact Finset.notMem_empty key
  rw [value?, Finmap.lookup_eq_none.mpr hmem]
  rfl

/-- Every other key is lost or keeps its value. -/
theorem insert_value?_other {store : ClockStore K V} (h : Synced store) {key other : K}
    (hne : other ≠ key) (value : V) {old : V}
    (hold : (store.insert key value).2.value? other = some old) : store.value? other = some old := by
  unfold insert at hold
  split_ifs at hold with hcap
  · exact hold
  · split at hold
    · rwa [value?_insert, if_neg hne] at hold
    · dsimp only at hold
      rw [value?_insert, if_neg hne] at hold
      exact (evictForInsert_spec h hcap).2.2.2 other old hold

/-- What is found after an insertion was inserted, or was there before. -/
theorem insert_value?_cases {store : ClockStore K V} (h : Synced store) {key other : K}
    {value found : V} (hfound : (store.insert key value).2.value? other = some found) :
    (other = key ∧ found = value) ∨ (other ≠ key ∧ store.value? other = some found) := by
  by_cases heq : other = key
  · subst heq
    by_cases hcap : store.capacity = 0
    · rw [value?_eq_none (insert_synced h other value)
        ((insert_capacity h other value).trans hcap)] at hfound
      cases hfound
    · rw [insert_value?_self hcap] at hfound
      exact .inl ⟨rfl, (Option.some.inj hfound).symm⟩
  · exact .inr ⟨heq, insert_value?_other h heq value hfound⟩

/-! ## Runs -/

inductive Call (K V : Type)
  | insert (key : K) (value : V)
  | get (key : K)
  | getRef (key : K)
  | clear
  | takeAll

def step (store : ClockStore K V) : Call K V → ClockStore K V
  | .insert key value => (store.insert key value).2
  | .get key | .getRef key => (store.get key).2
  | .clear => store.clear
  | .takeAll => store.takeAll.2

def run (store : ClockStore K V) (calls : List (Call K V)) : ClockStore K V :=
  calls.foldl step store

/-- The value inserted for a key by the latest of the calls that inserts it. -/
def lastInserted (key : K) (calls : List (Call K V)) : Option V :=
  calls.foldl (fun latest call =>
    match call with
    | .insert key' value => if key = key' then some value else latest
    | _ => latest) none

theorem step_synced {store : ClockStore K V} (h : Synced store) (call : Call K V) :
    Synced (step store call) ∧ (step store call).capacity = store.capacity := by
  cases call with
  | insert key value => exact ⟨insert_synced h key value, insert_capacity h key value⟩
  | get key => exact ⟨get_synced h key, get_capacity store key⟩
  | getRef key => exact ⟨get_synced h key, get_capacity store key⟩
  | clear => exact ⟨clear_synced store, rfl⟩
  | takeAll => exact ⟨takeAll_synced store, rfl⟩

theorem run_synced (capacity : ℕ) (calls : List (Call K V)) :
    Synced (run (withCapacity capacity) calls) ∧
      (run (withCapacity capacity : ClockStore K V) calls).capacity = capacity := by
  refine List.foldlRecOn (motive := fun store : ClockStore K V =>
    Synced store ∧ store.capacity = capacity) calls step ⟨withCapacity_synced capacity, rfl⟩ ?_
  intro store h call _
  obtain ⟨hsynced, hcapacity⟩ := step_synced h.1 call
  exact ⟨hsynced, hcapacity.trans h.2⟩

/-- A present key has the value inserted last, in a store that may be cleared and may
evict at any insertion. -/
theorem run_value? {capacity : ℕ} {calls : List (Call K V)} {key : K} {value : V}
    (hvalue : (run (withCapacity capacity) calls).value? key = some value) :
    lastInserted key calls = some value := by
  induction calls using List.reverseRecOn generalizing value with
  | nil => simp [run, withCapacity, value?] at hvalue
  | append_singleton calls call ih =>
      have hsynced := (run_synced capacity calls).1
      rw [run, List.foldl_append] at hvalue
      rw [lastInserted, List.foldl_append]
      change (step (run (withCapacity capacity) calls) call).value? key = some value at hvalue
      cases call with
      | insert key' value' =>
          change (if key = key' then some value' else lastInserted key calls) = some value
          rcases insert_value?_cases hsynced hvalue with ⟨rfl, rfl⟩ | ⟨hne, hold⟩
          · exact if_pos rfl
          · rw [if_neg hne]
            exact ih hold
      | get key' => exact ih ((get_value? _ key' key).symm.trans hvalue)
      | getRef key' => exact ih ((get_value? _ key' key).symm.trans hvalue)
      | clear => simp [step, clear, value?] at hvalue
      | takeAll => simp [step, takeAll, value?] at hvalue

/-- The representation invariant along every run, with the effect of an insertion. -/
theorem run_withCapacity_invariant (capacity : ℕ) (calls : List (Call K V)) :
    let store := run (withCapacity capacity) calls
    store.order.Nodup ∧ (∀ key, key ∈ store.order ↔ key ∈ store.entries) ∧
      store.len ≤ capacity ∧
      (∀ key value, store.value? key = some value → lastInserted key calls = some value) ∧
      (0 < capacity → ∀ key value, (store.insert key value).2.value? key = some value) := by
  intro store
  obtain ⟨h, hcapacity⟩ := run_synced capacity calls
  refine ⟨h.queued.nodup, h.queued.mem_order, h.len_le.trans_eq hcapacity,
    fun key value hvalue => run_value? hvalue, fun hpos key value => ?_⟩
  exact insert_value?_self (hcapacity.trans_ne hpos.ne') key value

/-- The first key got a second chance, so that the second one made room. -/
theorem run_withCapacity_invariant_two :
    let store := run (withCapacity 2) [.insert 1 10, .insert 2 20, .get 1]
    (store.insert 3 30).2.value? 3 = some 30 ∧ (store.insert 3 30).2.order = [1, 3] := by
  have h := run_withCapacity_invariant 2
    ([.insert 1 10, .insert 2 20, .get 1] : List (Call ℕ ℕ))
  exact ⟨h.2.2.2.2 (by decide) 3 30, by decide⟩

end GoogleCloudRust.ClockStore
