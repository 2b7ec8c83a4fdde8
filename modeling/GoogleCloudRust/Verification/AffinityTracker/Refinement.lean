import GoogleCloudRust.Library.FifoMap
import GoogleCloudRust.Model.AffinityTracker

/-! # The affinity tracker is a bounded map in insertion order -/

namespace GoogleCloudRust.AffinityTracker

open LinkedSlots

/-! ## Slots -/

variable (tracker : AffinityTracker)

/-- What a slot stores for the transaction it belongs to. -/
def stored (index : ℕ) : Option (Bytes × String) :=
  (tracker.entryAt index).map fun entry => (entry.transactionId, entry.address)

theorem entryAt_modifyEntry (index other : ℕ) (update : AffinityEntry → AffinityEntry) :
    (tracker.modifyEntry index update).entryAt other =
      (tracker.entryAt other).map fun entry => if index = other then update entry else entry := by
  simp only [entryAt, modifyEntry, List.getElem?_modify]
  cases tracker.slots[other]? with
  | none => rfl
  | some slot =>
      by_cases h : index = other
      · simp [h]
      · cases slot <;> simp [h]

theorem entryAt_set {slots : List (Option AffinityEntry)} {index : ℕ} (h : index < slots.length)
    (slot : Option AffinityEntry) (other : ℕ) :
    ({ tracker with slots := slots.set index slot } : AffinityTracker).entryAt other =
      if index = other then slot else slots[other]?.join := by
  by_cases heq : index = other
  · subst heq
    simp [entryAt, h]
  · simp [entryAt, heq]

@[simp] theorem modifyEntry_length (index : ℕ) (update : AffinityEntry → AffinityEntry) :
    (tracker.modifyEntry index update).slots.length = tracker.slots.length := by
  simp [modifyEntry]

theorem lt_length_of_entryAt {tracker : AffinityTracker} {index : ℕ} {entry : AffinityEntry}
    (h : tracker.entryAt index = some entry) : index < tracker.slots.length := by
  by_contra hge
  rw [entryAt, List.getElem?_eq_none (Nat.le_of_not_lt hge)] at h
  cases h

/-! ### Neighbours of a removed entry -/

section Unlink

variable (entry : AffinityEntry)

theorem entryAt_unlinkPrev (other : ℕ) :
    (tracker.unlinkPrev entry).entryAt other = (tracker.entryAt other).map fun e =>
      if entry.prev = some other then { e with next := entry.next } else e := by
  cases hprev : entry.prev with
  | none =>
      simp only [unlinkPrev, hprev, reduceCtorEq, if_false, Option.map_id']
      rfl
  | some prevIndex => simp only [unlinkPrev, hprev, entryAt_modifyEntry, Option.some.injEq]

theorem entryAt_unlinkNext (other : ℕ) :
    (tracker.unlinkNext entry).entryAt other = (tracker.entryAt other).map fun e =>
      if entry.next = some other then { e with prev := entry.prev } else e := by
  cases hnext : entry.next with
  | none =>
      simp only [unlinkNext, hnext, reduceCtorEq, if_false, Option.map_id']
      rfl
  | some nextIndex => simp only [unlinkNext, hnext, entryAt_modifyEntry, Option.some.injEq]

/-- Besides the slots only the ends change. -/
theorem unlink_frame :
    let unlinked := (tracker.unlinkPrev entry).unlinkNext entry
    unlinked.entries = tracker.entries ∧ unlinked.freeSlots = tracker.freeSlots ∧
      unlinked.maxCapacity = tracker.maxCapacity ∧
      unlinked.slots.length = tracker.slots.length ∧
      unlinked.head = (if entry.prev = none then entry.next else tracker.head) ∧
      unlinked.tail = if entry.next = none then entry.prev else tracker.tail := by
  cases hprev : entry.prev <;> cases hnext : entry.next <;>
    simp [unlinkPrev, unlinkNext, hprev, hnext, modifyEntry]

/-- All that the removal of a stored transaction does. -/
structure Removal (transactionId : Bytes) (index : ℕ) (removed : AffinityTracker) : Prop where
  entries : removed.entries = tracker.entries.erase transactionId
  freeSlots : removed.freeSlots = tracker.freeSlots ++ [index]
  maxCapacity : removed.maxCapacity = tracker.maxCapacity
  length : removed.slots.length = tracker.slots.length
  head : removed.head = if entry.prev = none then entry.next else tracker.head
  tail : removed.tail = if entry.next = none then entry.prev else tracker.tail
  entryAt_self : removed.entryAt index = none
  entryAt_of_ne : ∀ other, other ≠ index → removed.entryAt other =
    (tracker.entryAt other).map fun e => { e with
      prev := if entry.next = some other then entry.prev else e.prev
      next := if entry.prev = some other then entry.next else e.next }

theorem remove_spec {transactionId : Bytes} {index : ℕ} (hid : transactionId ≠ [])
    (hlookup : tracker.entries.lookup transactionId = some index)
    (hentry : tracker.entryAt index = some entry) :
    ∃ removed, tracker.remove transactionId = (some entry.address, removed) ∧
      tracker.Removal entry transactionId index removed := by
  let taken : AffinityTracker := { tracker with
    entries := tracker.entries.erase transactionId
    slots := tracker.slots.set index none }
  let unlinked := (taken.unlinkPrev entry).unlinkNext entry
  have hremove : tracker.remove transactionId =
      (some entry.address, { unlinked with freeSlots := unlinked.freeSlots ++ [index] }) := by
    have hentry' : ({ tracker with entries := tracker.entries.erase transactionId } :
        AffinityTracker).entryAt index = some entry := hentry
    simp only [remove, if_neg hid, hlookup, hentry']
    rfl
  have hunlinked : ∀ other, unlinked.entryAt other = (taken.entryAt other).map fun e => { e with
      prev := if entry.next = some other then entry.prev else e.prev
      next := if entry.prev = some other then entry.next else e.next } := by
    intro other
    rw [entryAt_unlinkNext, entryAt_unlinkPrev, Option.map_map]
    congr 1
    funext e
    simp only [Function.comp_apply]
    split_ifs <;> rfl
  have htaken : ∀ other, taken.entryAt other =
      if index = other then none else tracker.entryAt other :=
    entryAt_set taken (lt_length_of_entryAt hentry) none
  obtain ⟨hentries, hfree, hcapacity, hlength, hhead, htail⟩ := taken.unlink_frame entry
  refine ⟨_, hremove, hentries, congrArg (· ++ [index]) hfree, hcapacity,
    hlength.trans (List.length_set ..), hhead, htail, ?_, fun other hne => ?_⟩
  · refine (hunlinked index).trans ?_
    rw [htaken, if_pos rfl]
    rfl
  · refine (hunlinked other).trans ?_
    rw [htaken, if_neg hne.symm]

end Unlink

theorem Removal.stored_of_ne {tracker : AffinityTracker} {entry : AffinityEntry}
    {transactionId : Bytes} {index : ℕ} {removed : AffinityTracker}
    (hr : tracker.Removal entry transactionId index removed) {other : ℕ} (hne : other ≠ index) :
    removed.stored other = tracker.stored other := by
  rw [stored, hr.entryAt_of_ne other hne, Option.map_map]
  rfl

/-! ### The slot of a new entry -/

/-- All that the allocation of a slot does. -/
structure Allocation (slotIndex : ℕ) (allocated : AffinityTracker) : Prop where
  lt : slotIndex < allocated.slots.length
  vacant : tracker.entryAt slotIndex = none
  entryAt : ∀ other, allocated.entryAt other = tracker.entryAt other
  free_nodup : allocated.freeSlots.Nodup
  free : ∀ other, other ∈ allocated.freeSlots ↔
    other ≠ slotIndex ∧ other < allocated.slots.length ∧ tracker.entryAt other = none
  entries : allocated.entries = tracker.entries
  maxCapacity : allocated.maxCapacity = tracker.maxCapacity
  head : allocated.head = tracker.head
  tail : allocated.tail = tracker.tail

theorem entryAt_linkTail (slotIndex other : ℕ) :
    (tracker.linkTail slotIndex).entryAt other = (tracker.entryAt other).map fun e =>
      if tracker.tail = some other then { e with next := some slotIndex } else e := by
  cases htail : tracker.tail with
  | none =>
      simp only [linkTail, htail, reduceCtorEq, if_false, Option.map_id']
      rfl
  | some tailIndex =>
      simp only [linkTail, htail, Option.some.injEq]
      exact entryAt_modifyEntry _ _ _ _

theorem linkTail_frame (slotIndex : ℕ) :
    let linked := tracker.linkTail slotIndex
    linked.entries = tracker.entries ∧ linked.freeSlots = tracker.freeSlots ∧
      linked.maxCapacity = tracker.maxCapacity ∧ linked.slots.length = tracker.slots.length ∧
      linked.head = (if tracker.tail = none then some slotIndex else tracker.head) ∧
      linked.tail = some slotIndex := by
  cases htail : tracker.tail <;> simp [linkTail, htail, modifyEntry]

/-- All that the insertion of a new transaction does once there is room. -/
structure Insertion (transactionId : Bytes) (address : String) (slotIndex : ℕ)
    (inserted : AffinityTracker) : Prop where
  entries : inserted.entries = tracker.entries.insert transactionId slotIndex
  maxCapacity : inserted.maxCapacity = tracker.maxCapacity
  head : inserted.head = if tracker.tail = none then some slotIndex else tracker.head
  tail : inserted.tail = some slotIndex
  vacant : tracker.entryAt slotIndex = none
  entryAt_self : inserted.entryAt slotIndex = some ⟨transactionId, address, tracker.tail, none⟩
  entryAt_of_ne : ∀ other, other ≠ slotIndex → inserted.entryAt other =
    (tracker.entryAt other).map fun e =>
      if tracker.tail = some other then { e with next := some slotIndex } else e
  free_nodup : inserted.freeSlots.Nodup
  free : ∀ index, index ∈ inserted.freeSlots ↔
    index < inserted.slots.length ∧ inserted.entryAt index = none

theorem Insertion.stored_of_ne {tracker inserted : AffinityTracker} {transactionId : Bytes}
    {address : String} {slotIndex : ℕ}
    (hi : tracker.Insertion transactionId address slotIndex inserted) {other : ℕ}
    (hne : other ≠ slotIndex) : inserted.stored other = tracker.stored other := by
  rw [stored, hi.entryAt_of_ne other hne, Option.map_map, stored]
  congr 1
  funext e
  simp only [Function.comp_apply]
  split_ifs <;> rfl

/-! ## Representation -/

/-- The slots in the given order hold the entries of the map. -/
structure Represents {capacity : ℕ} (tracker : AffinityTracker)
    (m : FifoMap Bytes String capacity) (order : List ℕ) : Prop where
  capacity : tracker.maxCapacity = capacity
  contents : order.map tracker.stored = m.entries.map some
  nonempty : [] ∉ m.keys
  nodup : order.Nodup
  chained : Chained tracker.links order
  head : tracker.head = order.head?
  tail : tracker.tail = order.getLast?
  occupied : ∀ index entry, tracker.entryAt index = some entry → index ∈ order
  free_nodup : tracker.freeSlots.Nodup
  free : ∀ index, index ∈ tracker.freeSlots ↔
    index < tracker.slots.length ∧ tracker.entryAt index = none
  entries : ∀ transactionId index, tracker.entries.lookup transactionId = some index ↔
    ∃ address, tracker.stored index = some (transactionId, address)
  size : tracker.entries.size = order.length

namespace Represents

variable {capacity : ℕ} {tracker : AffinityTracker} {m : FifoMap Bytes String capacity}
  {order : List ℕ} {index : ℕ} {transactionId : Bytes} {address : String}

theorem exists_entryAt (h : Represents tracker m order) (hmem : index ∈ order) :
    ∃ entry, tracker.entryAt index = some entry := by
  obtain ⟨before, after, rfl⟩ := List.append_of_mem hmem
  obtain ⟨entry, hentry, -⟩ := Option.map_eq_some_iff.mp (h.chained before index after rfl)
  exact ⟨entry, hentry⟩

theorem length_eq (h : Represents tracker m order) : order.length = m.entries.length := by
  simpa using congrArg List.length h.contents

theorem mem_order (h : Represents tracker m order) {entry : Bytes × String}
    (hstored : tracker.stored index = some entry) : index ∈ order := by
  obtain ⟨e, he, -⟩ := Option.map_eq_some_iff.mp hstored
  exact h.occupied index e he

/-- The map has the entries that the slots hold. -/
theorem mem_entries (h : Represents tracker m order) {entry : Bytes × String} :
    entry ∈ m.entries ↔ ∃ index, tracker.stored index = some entry := by
  have hmem : some entry ∈ order.map tracker.stored ↔ entry ∈ m.entries := by
    rw [h.contents]
    simp
  rw [← hmem, List.mem_map]
  exact ⟨fun ⟨index, _, hstored⟩ => ⟨index, hstored⟩,
    fun ⟨index, hstored⟩ => ⟨index, h.mem_order hstored, hstored⟩⟩

theorem mem_keys (h : Represents tracker m order) :
    transactionId ∈ m.keys ↔ ∃ index, tracker.entries.lookup transactionId = some index := by
  simp only [h.entries, FifoMap.keys, List.mem_map, h.mem_entries]
  constructor
  · rintro ⟨⟨key, address⟩, ⟨index, hstored⟩, rfl⟩
    exact ⟨index, address, hstored⟩
  · rintro ⟨index, address, hstored⟩
    exact ⟨(transactionId, address), ⟨index, hstored⟩, rfl⟩

theorem get_eq (h : Represents tracker m order) (transactionId : Bytes) :
    tracker.get transactionId = m.get transactionId := by
  rw [get]
  split_ifs with hempty
  · rw [hempty, FifoMap.get_eq_none.mpr h.nonempty]
  · cases hlookup : tracker.entries.lookup transactionId with
    | none =>
        have hkey : transactionId ∉ m.keys := by
          rw [h.mem_keys, hlookup]
          simp
        exact (FifoMap.get_eq_none.mpr hkey).symm
    | some index =>
        obtain ⟨address, hstored⟩ := (h.entries transactionId index).mp hlookup
        rw [FifoMap.get_eq_some.mpr (h.mem_entries.mpr ⟨index, hstored⟩)]
        obtain ⟨entry, hentry, heq⟩ := Option.map_eq_some_iff.mp hstored
        simp [hentry, (Prod.mk.inj heq).2]

/-- A slot and its entry stand at the same position. -/
theorem split (h : Represents tracker m order) {before after : List ℕ} {entry : Bytes × String}
    (horder : order = before ++ index :: after) (hstored : tracker.stored index = some entry) :
    ∃ front back, m.entries = front ++ entry :: back ∧ before.map tracker.stored = front.map some ∧
      after.map tracker.stored = back.map some := by
  have hcontents := h.contents.symm
  rw [horder, List.map_append, List.map_cons, hstored] at hcontents
  obtain ⟨front, rest, hentries, hfront, hrest⟩ := List.map_eq_append_iff.mp hcontents
  obtain ⟨entry', back, rfl, hentry, hback⟩ := List.map_eq_cons_iff.mp hrest
  obtain rfl := Option.some.inj hentry
  exact ⟨front, back, hentries, hfront.symm, hback.symm⟩

/-! ### Removal -/

section Removal

variable {entry : AffinityEntry} {removed : AffinityTracker} {before after : List ℕ}
  (h : Represents tracker m (before ++ index :: after))
  (hr : tracker.Removal entry transactionId index removed)

include h hr

/-- The neighbours of the removed entry are linked to each other. -/
theorem removal_chained (hprev : entry.prev = before.getLast?) (hnext : entry.next = after.head?) :
    Chained removed.links (before ++ after) ∧ removed.head = (before ++ after).head? ∧
      removed.tail = (before ++ after).getLast? := by
  refine ⟨h.chained.erase h.nodup fun other hother => ?_, ?_, ?_⟩
  · have hne : other ≠ index := by
      rintro rfl
      exact (List.mem_append.mp hother).elim (notMem_of_split h.nodup rfl).1
        (notMem_of_split h.nodup rfl).2
    rw [links, hr.entryAt_of_ne other hne, links, Option.map_map, Option.map_map, hprev, hnext]
    rfl
  · rw [hr.head, hprev, hnext, h.head]
    cases before with
    | nil => rfl
    | cons first before => simp [List.getLast?_cons]
  · rw [hr.tail, hprev, hnext, h.tail]
    cases after with
    | nil => simp
    | cons first after => simp [List.getLast?_append, List.getLast?_cons]

/-- The slot of the removed entry becomes free. -/
theorem removal_free (hentry : tracker.entryAt index = some entry) :
    removed.freeSlots.Nodup ∧ ∀ other, other ∈ removed.freeSlots ↔
      other < removed.slots.length ∧ removed.entryAt other = none := by
  refine ⟨?_, fun other => ?_⟩
  · rw [hr.freeSlots]
    refine h.free_nodup.append (List.nodup_singleton index) (List.disjoint_singleton.mpr ?_)
    rw [h.free, hentry]
    simp
  · rw [hr.freeSlots, List.mem_append, List.mem_singleton, h.free, hr.length]
    by_cases heq : other = index
    · subst heq
      simpa [hr.entryAt_self] using lt_length_of_entryAt hentry
    · rw [hr.entryAt_of_ne other heq, Option.map_eq_none_iff]
      simp [heq]

/-- No transaction but the removed one is forgotten. -/
theorem removal_entries (hlookup : tracker.entries.lookup transactionId = some index)
    (other : Bytes) (position : ℕ) :
    removed.entries.lookup other = some position ↔
      ∃ address, removed.stored position = some (other, address) := by
  rw [hr.entries, HashMap.lookup_erase_eq]
  by_cases hposition : position = index
  · subst hposition
    have hself : removed.stored position = none := by rw [stored, hr.entryAt_self]; rfl
    simp only [hself, reduceCtorEq, exists_false, iff_false]
    split_ifs with heq
    · simp
    · obtain ⟨address, hstored⟩ := (h.entries transactionId position).mp hlookup
      rw [h.entries, hstored]
      rintro ⟨address', heq'⟩
      exact heq (Prod.mk.inj (Option.some.inj heq')).1.symm
  · rw [hr.stored_of_ne hposition, ← h.entries]
    split_ifs with heq
    · rw [heq, hlookup]
      simpa using Ne.symm hposition
    · rfl

end Removal

/-- Removing a stored transaction. -/
theorem remove_stored (h : Represents tracker m order) (hid : transactionId ≠ [])
    (hlookup : tracker.entries.lookup transactionId = some index) :
    (tracker.remove transactionId).1 = m.get transactionId ∧
      Represents (tracker.remove transactionId).2 (m.remove transactionId).2
        (order.erase index) := by
  obtain ⟨address, hstored⟩ := (h.entries transactionId index).mp hlookup
  obtain ⟨entry, hentry, hpair⟩ := Option.map_eq_some_iff.mp hstored
  obtain ⟨before, after, rfl⟩ := List.append_of_mem (h.mem_order hstored)
  have hmem := notMem_of_split h.nodup rfl
  have herase : (before ++ index :: after).erase index = before ++ after := by
    rw [List.erase_append_right _ hmem.1, List.erase_cons_head]
  obtain ⟨front, back, hentries, hfront, hback⟩ := h.split rfl hstored
  have hremoved : (m.remove transactionId).2.entries = front ++ back :=
    FifoMap.entries_remove hentries
  -- The links of the removed entry are its neighbours in the order.
  have hlinks : tracker.links index = some (entry.prev, entry.next) := by
    rw [links, hentry, Option.map_some]
  obtain ⟨hprev, hnext⟩ : entry.prev = before.getLast? ∧ entry.next = after.head? := by
    simpa [hlinks] using h.chained before index after rfl
  obtain ⟨removed, hremove, hr⟩ := tracker.remove_spec entry hid hlookup hentry
  obtain ⟨hchained, hhead, htail⟩ := h.removal_chained hr hprev hnext
  obtain ⟨hnodup, hfree⟩ := h.removal_free hr hentry
  rw [hremove, herase]
  refine ⟨?_, hr.maxCapacity.trans h.capacity, ?_, ?_, ?_, hchained, hhead, htail, ?_, hnodup, hfree,
    h.removal_entries hr hlookup, ?_⟩
  · rw [FifoMap.get_eq_some.mpr (h.mem_entries.mpr ⟨index, hstored⟩), (Prod.mk.inj hpair).2]
  · rw [hremoved, List.map_append, List.map_append, ← hfront, ← hback]
    refine congrArg₂ (· ++ ·) (List.map_congr_left fun other hother => ?_)
      (List.map_congr_left fun other hother => ?_)
    · exact hr.stored_of_ne fun heq => hmem.1 (heq ▸ hother)
    · exact hr.stored_of_ne fun heq => hmem.2 (heq ▸ hother)
  · have hnonempty := h.nonempty
    rw [FifoMap.keys, hentries] at hnonempty
    rw [FifoMap.keys, hremoved]
    simp only [List.map_append, List.map_cons, List.mem_append, List.mem_cons] at hnonempty ⊢
    tauto
  · exact h.nodup.sublist ((List.sublist_cons_self index after).append_left before)
  · intro other e he
    by_cases heq : other = index
    · rw [heq, hr.entryAt_self] at he
      cases he
    · rw [hr.entryAt_of_ne other heq] at he
      obtain ⟨e', he', -⟩ := Option.map_eq_some_iff.mp he
      have hother := h.occupied other e' he'
      simp only [List.mem_append, List.mem_cons] at hother ⊢
      tauto
  · have hsize := HashMap.size_erase_of_mem (Finmap.mem_of_lookup_eq_some hlookup)
    rw [h.size] at hsize
    rw [hr.entries]
    simp only [List.length_append, List.length_cons] at hsize ⊢
    omega

theorem remove_represents (h : Represents tracker m order) (transactionId : Bytes) :
    (tracker.remove transactionId).1 = (m.remove transactionId).1 ∧
      ∃ order, Represents (tracker.remove transactionId).2 (m.remove transactionId).2 order := by
  have habsent : transactionId ∉ m.keys → tracker.remove transactionId = (none, tracker) →
      (tracker.remove transactionId).1 = (m.remove transactionId).1 ∧
        ∃ order, Represents (tracker.remove transactionId).2 (m.remove transactionId).2 order := by
    intro hkey hremove
    rw [FifoMap.remove_of_notMem hkey, hremove]
    exact ⟨rfl, order, h⟩
  by_cases hid : transactionId = []
  · exact habsent (hid ▸ h.nonempty) (by rw [remove, if_pos hid])
  · cases hlookup : tracker.entries.lookup transactionId with
    | none =>
        refine habsent (fun hkey => ?_) (by simp only [remove, if_neg hid, hlookup])
        obtain ⟨index, hindex⟩ := h.mem_keys.mp hkey
        rw [hlookup] at hindex
        cases hindex
    | some index =>
        obtain ⟨hresult, hremoved⟩ := h.remove_stored hid hlookup
        exact ⟨hresult, _, hremoved⟩

/-! ### Insertion -/

/-- A free slot is taken, or a new one is added. -/
theorem allocate_spec (h : Represents tracker m order) :
    ∃ slotIndex allocated, tracker.allocate = (slotIndex, allocated) ∧
      tracker.Allocation slotIndex allocated := by
  rcases List.eq_nil_or_concat tracker.freeSlots with hnil | ⟨rest, freeIndex, hconcat⟩
  · refine ⟨tracker.slots.length, { tracker with slots := tracker.slots ++ [none] }, ?_, by simp, ?_,
      fun other => ?_, h.free_nodup, fun other => ?_, rfl, rfl, rfl, rfl⟩
    · rw [allocate, hnil]
      rfl
    · simp [entryAt]
    · rcases Nat.lt_trichotomy other tracker.slots.length with hlt | rfl | hgt
      · simp [entryAt, List.getElem?_append_left hlt]
      · simp [entryAt]
      · rw [entryAt, entryAt, List.getElem?_eq_none (by simpa using Nat.succ_le_of_lt hgt),
          List.getElem?_eq_none hgt.le]
    · have hfree := h.free other
      simp only [hnil, List.not_mem_nil, false_iff, not_and] at hfree ⊢
      intro hne hlt
      exact hfree (by simp at hlt; omega)
  · have hnodup := h.free_nodup
    rw [hconcat, List.concat_eq_append, List.nodup_append_comm, List.singleton_append,
      List.nodup_cons] at hnodup
    have hfree : ∀ other, other ∈ rest ∨ other = freeIndex ↔
        other < tracker.slots.length ∧ tracker.entryAt other = none := by
      intro other
      rw [← h.free, hconcat, List.concat_eq_append, List.mem_append, List.mem_singleton]
    obtain ⟨hlt, hnone⟩ := (hfree freeIndex).mp (.inr rfl)
    refine ⟨freeIndex, { tracker with freeSlots := rest }, ?_, hlt, hnone, fun _ => rfl, hnodup.2,
      fun other => ?_, rfl, rfl, rfl, rfl⟩
    · rw [allocate, hconcat]
      simp
    · rw [← hfree]
      constructor
      · intro hother
        exact ⟨fun heq => hnodup.1 (heq ▸ hother), .inl hother⟩
      · rintro ⟨hne, hother | heq⟩
        · exact hother
        · exact absurd heq hne

theorem ne_of_vacant (h : Represents tracker m order) (hvacant : tracker.entryAt index = none)
    {other : ℕ} (hmem : other ∈ order) : other ≠ index := by
  rintro rfl
  obtain ⟨entry, hentry⟩ := h.exists_entryAt hmem
  rw [hvacant] at hentry
  cases hentry

section Insertion

variable {slotIndex : ℕ} {inserted : AffinityTracker}
  (h : Represents tracker m order)
  (hi : tracker.Insertion transactionId address slotIndex inserted)

include h hi

theorem insertion_chained :
    Chained inserted.links (order ++ [slotIndex]) ∧
      inserted.head = (order ++ [slotIndex]).head? ∧
      inserted.tail = (order ++ [slotIndex]).getLast? := by
  refine ⟨h.chained.concat h.nodup ?_ fun other hother => ?_, ?_, ?_⟩
  · rw [links, hi.entryAt_self, Option.map_some, h.tail]
  · rw [links, hi.entryAt_of_ne other (h.ne_of_vacant hi.vacant hother), links, Option.map_map, Option.map_map,
      h.tail]
    congr 1
    funext e
    simp only [Function.comp_apply]
    split_ifs <;> rfl
  · rw [hi.head, h.tail, h.head]
    cases order with
    | nil => rfl
    | cons first order => simp [List.getLast?_cons]
  · rw [hi.tail, List.getLast?_concat]

theorem insertion_entries (hkey : transactionId ∉ m.keys) (other : Bytes) (position : ℕ) :
    inserted.entries.lookup other = some position ↔
      ∃ address, inserted.stored position = some (other, address) := by
  rw [hi.entries, HashMap.lookup_insert_eq]
  by_cases hposition : position = slotIndex
  · -- The new slot holds the new transaction.
    subst hposition
    have hself : inserted.stored position = some (transactionId, address) := by
      rw [stored, hi.entryAt_self]
      rfl
    have hvacant : tracker.stored position = none := by rw [stored, hi.vacant]; rfl
    simp only [hself, Option.some.injEq, Prod.mk.injEq]
    split_ifs with heq
    · simp [heq]
    · rw [h.entries, hvacant]
      simp [Ne.symm heq]
  · rw [hi.stored_of_ne hposition, ← h.entries]
    split_ifs with heq
    · subst heq
      simp only [Option.some.injEq, Ne.symm hposition, false_iff]
      exact fun hlookup => hkey (h.mem_keys.mpr ⟨position, hlookup⟩)
    · rfl

theorem insertion_represents (hid : transactionId ≠ []) (hkey : transactionId ∉ m.keys)
    {m' : FifoMap Bytes String capacity}
    (hm' : m'.entries = m.entries ++ [(transactionId, address)]) :
    Represents inserted m' (order ++ [slotIndex]) := by
  obtain ⟨hchained, hhead, htail⟩ := h.insertion_chained hi
  have hnew : slotIndex ∉ order := fun hmem => h.ne_of_vacant hi.vacant hmem rfl
  refine ⟨hi.maxCapacity.trans h.capacity, ?_, ?_, ?_, hchained, hhead, htail, ?_, hi.free_nodup,
    hi.free, h.insertion_entries hi hkey, ?_⟩
  · rw [hm', List.map_append, List.map_append, ← h.contents]
    refine congrArg₂ (· ++ ·) (List.map_congr_left fun other hother => ?_) ?_
    · exact hi.stored_of_ne (h.ne_of_vacant hi.vacant hother)
    · rw [List.map_singleton, stored, hi.entryAt_self]
      rfl
  · rw [FifoMap.keys, hm', List.map_append, List.mem_append, not_or]
    exact ⟨h.nonempty, by simpa using Ne.symm hid⟩
  · exact h.nodup.append (List.nodup_singleton slotIndex) (List.disjoint_singleton.mpr hnew)
  · intro other e he
    rw [List.mem_append, List.mem_singleton]
    by_cases heq : other = slotIndex
    · exact .inr heq
    · rw [hi.entryAt_of_ne other heq] at he
      obtain ⟨e', he', -⟩ := Option.map_eq_some_iff.mp he
      exact .inl (h.occupied other e' he')
  · have habsent : transactionId ∉ tracker.entries := by
      intro hmem
      obtain ⟨index, hindex⟩ := Finmap.mem_iff.mp hmem
      exact hkey (h.mem_keys.mpr ⟨index, hindex⟩)
    rw [hi.entries, HashMap.size_insert_of_notMem habsent, h.size, List.length_append,
      List.length_singleton]

end Insertion

theorem insertNew_spec (h : Represents tracker m order) (transactionId : Bytes)
    (address : String) :
    ∃ slotIndex inserted, tracker.insertNew transactionId address = some inserted ∧
      tracker.Insertion transactionId address slotIndex inserted := by
  obtain ⟨slotIndex, allocated, hallocate, ha⟩ := h.allocate_spec
  obtain ⟨hentries, hfree, hcapacity, hlength, hhead, htail⟩ := allocated.linkTail_frame slotIndex
  let inserted : AffinityTracker := { allocated.linkTail slotIndex with
    slots := (allocated.linkTail slotIndex).slots.set slotIndex
      (some ⟨transactionId, address, allocated.tail, none⟩)
    entries := (allocated.linkTail slotIndex).entries.insert transactionId slotIndex }
  have hlt : slotIndex < (allocated.linkTail slotIndex).slots.length := hlength.symm ▸ ha.lt
  have hself : inserted.entryAt slotIndex = some ⟨transactionId, address, tracker.tail, none⟩ := by
    refine (entryAt_set inserted hlt _ slotIndex).trans ?_
    rw [if_pos rfl, ha.tail]
  have hother : ∀ other, other ≠ slotIndex → inserted.entryAt other =
      (tracker.entryAt other).map fun e =>
        if tracker.tail = some other then { e with next := some slotIndex } else e := by
    intro other hne
    refine (entryAt_set inserted hlt _ other).trans ((if_neg hne.symm).trans ?_)
    refine (allocated.entryAt_linkTail slotIndex other).trans ?_
    rw [ha.entryAt, ha.tail]
  refine ⟨slotIndex, inserted, ?_, ?_, hcapacity.trans ha.maxCapacity, ?_, htail, ha.vacant, hself,
    hother, hfree.symm ▸ ha.free_nodup, fun index => ?_⟩
  · simp only [insertNew, hallocate, if_pos hlt]
    rfl
  · exact congrArg (Finmap.insert transactionId slotIndex) (hentries.trans ha.entries)
  · rw [← ha.tail, ← ha.head]
    exact hhead
  · have hlength' : inserted.slots.length = allocated.slots.length :=
      (List.length_set ..).trans hlength
    have hmem : index ∈ inserted.freeSlots ↔ index ∈ allocated.freeSlots := by rw [← hfree]
    rw [hmem, ha.free, hlength']
    by_cases heq : index = slotIndex
    · simp [heq, hself]
    · rw [hother index heq, Option.map_eq_none_iff]
      simp [heq]

/-- A transaction is inserted behind the others if there is room. -/
theorem insertNew_represents (h : Represents tracker m order) (hid : transactionId ≠ [])
    (hkey : transactionId ∉ m.keys) (hroom : m.entries.length < capacity) (address : String) :
    ∃ inserted, tracker.insertNew transactionId address = some inserted ∧
      ∃ order, Represents inserted (m.insert transactionId address) order := by
  obtain ⟨slotIndex, inserted, hinsert, hi⟩ := h.insertNew_spec transactionId address
  exact ⟨inserted, hinsert, _, h.insertion_represents hi hid hkey
    (FifoMap.entries_insert_of_lt hkey hroom)⟩

/-- Eviction makes room for a new transaction. -/
theorem evictOldest_represents (h : Represents tracker m order) (hcapacity : capacity ≠ 0)
    (hkey : transactionId ∉ m.keys) (address : String) :
    ∃ (evicted : FifoMap Bytes String capacity) (order : List ℕ),
      Represents tracker.evictOldest evicted order ∧ transactionId ∉ evicted.keys ∧
      evicted.entries.length < capacity ∧
      m.insert transactionId address = evicted.insert transactionId address := by
  have hsize : tracker.entries.size = m.entries.length := h.size.trans h.length_eq
  by_cases hfull : capacity ≤ m.entries.length
  · -- The first slot holds the oldest transaction.
    obtain ⟨oldest, rest, hentries⟩ : ∃ oldest rest, m.entries = oldest :: rest :=
      List.exists_cons_of_length_pos (by omega)
    have hcontents := h.contents
    rw [hentries, List.map_cons] at hcontents
    obtain ⟨index, order', rfl, hstored, -⟩ := List.map_eq_cons_iff.mp hcontents
    obtain ⟨entry, hentry, hpair⟩ := Option.map_eq_some_iff.mp hstored
    have hevict : tracker.evictOldest = (tracker.remove oldest.1).2 := by
      rw [evictOldest, if_pos (by rw [hsize, h.capacity]; exact hfull), h.head, List.head?_cons,
        Option.bind_some, hentry, ← congrArg Prod.fst hpair]
    have hlength := m.length_le
    have hremoved : (m.remove oldest.1).2.entries = rest :=
      FifoMap.entries_remove (hentries.trans (List.nil_append _).symm)
    obtain ⟨order, hrepresents⟩ := (h.remove_represents oldest.1).2
    refine ⟨(m.remove oldest.1).2, order, hevict ▸ hrepresents, ?_, ?_,
      FifoMap.insert_of_full hkey hfull hentries⟩
    · rw [FifoMap.keys, hremoved]
      rw [FifoMap.keys, hentries, List.map_cons, List.mem_cons, not_or] at hkey
      exact hkey.2
    · rw [hremoved]
      rw [hentries, List.length_cons] at hlength
      omega
  · refine ⟨m, order, ?_, hkey, Nat.lt_of_not_le hfull, rfl⟩
    rwa [evictOldest, if_neg (by rwa [hsize, h.capacity])]

/-- The address of a stored transaction changes in place. -/
theorem update_represents (h : Represents tracker m order)
    (hlookup : tracker.entries.lookup transactionId = some index) (address : String) :
    Represents (tracker.modifyEntry index fun entry =>
        if entry.address ≠ address then { entry with address := address } else entry)
      (m.insert transactionId address) order := by
  have hkey : transactionId ∈ m.keys := h.mem_keys.mpr ⟨index, hlookup⟩
  set changed := tracker.modifyEntry index fun entry =>
    if entry.address ≠ address then { entry with address := address } else entry with hchanged
  have hat : ∀ other, changed.entryAt other = (tracker.entryAt other).map fun entry =>
      if index = other then { entry with address := address } else entry := by
    intro other
    rw [hchanged, entryAt_modifyEntry]
    congr 1
    funext entry
    split_ifs with hother hsame
    · rfl
    · rw [← not_not.mp hsame]
    · rfl
  have hlinks : changed.links = tracker.links := by
    funext other
    rw [links, hat, Option.map_map, links]
    congr 1
    funext entry
    simp only [Function.comp_apply]
    split_ifs <;> rfl
  have hnone : ∀ other, changed.entryAt other = none ↔ tracker.entryAt other = none := fun other => by
    rw [hat, Option.map_eq_none_iff]
  -- A slot holds the transaction if and only if it is the slot of the index.
  have hstored : ∀ other, changed.stored other = (tracker.stored other).map fun e =>
      if e.1 = transactionId then (transactionId, address) else e := by
    intro other
    cases hentry : tracker.entryAt other with
    | none => simp [stored, hat, hentry]
    | some entry =>
        have hiff : index = other ↔ entry.transactionId = transactionId := by
          have hother := h.entries entry.transactionId other
          rw [stored, hentry, Option.map_some] at hother
          have hlookup' := hother.mpr ⟨entry.address, rfl⟩
          constructor
          · rintro rfl
            obtain ⟨address', haddress'⟩ := (h.entries transactionId index).mp hlookup
            rw [stored, hentry, Option.map_some] at haddress'
            exact (Prod.mk.inj (Option.some.inj haddress')).1
          · intro heq
            rw [heq, hlookup] at hlookup'
            exact Option.some.inj hlookup'
        simp only [stored, hat, hentry, Option.map_some, hiff]
        split_ifs with heq
        · rw [heq]
        · rfl
  refine ⟨h.capacity, ?_, ?_, h.nodup, hlinks.symm ▸ h.chained, h.head, h.tail, ?_, h.free_nodup, ?_,
    ?_, h.size⟩
  · rw [FifoMap.entries_insert_of_mem hkey, FifoMap.updated, List.map_map, funext hstored]
    have hmap := congrArg (List.map (Option.map fun e =>
      if e.1 = transactionId then (transactionId, address) else e)) h.contents
    rw [List.map_map, List.map_map] at hmap
    exact hmap
  · rw [FifoMap.keys, FifoMap.entries_insert_of_mem hkey, FifoMap.map_fst_updated]
    exact h.nonempty
  · intro other entry hentry
    rw [hat] at hentry
    obtain ⟨entry', hentry', -⟩ := Option.map_eq_some_iff.mp hentry
    exact h.occupied other entry' hentry'
  · intro other
    rw [hnone, hchanged, modifyEntry_length]
    exact h.free other
  · intro other position
    rw [hstored]
    refine (h.entries other position).trans ?_
    cases tracker.stored position with
    | none => simp
    | some e =>
        rcases e with ⟨key, value⟩
        by_cases heq : key = transactionId
        · simp [heq]
        · simp [heq]

/-- An insertion never panics and is one of the bounded map. -/
theorem insert_represents (h : Represents tracker m order) (transactionId : Bytes)
    (address : String) :
    ∃ inserted, tracker.insert transactionId address = some inserted ∧ ∃ order, Represents inserted
      (if transactionId = [] then m else m.insert transactionId address) order := by
  rw [insert, h.capacity]
  by_cases hid : transactionId = []
  · rw [if_pos (.inl hid), if_pos hid]
    exact ⟨tracker, rfl, order, h⟩
  rw [if_neg hid]
  by_cases hcapacity : capacity = 0
  · subst hcapacity
    rw [if_pos (.inr rfl), FifoMap.insert_of_zero]
    exact ⟨tracker, rfl, order, h⟩
  rw [if_neg (by tauto)]
  cases hlookup : tracker.entries.lookup transactionId with
  | some index => exact ⟨_, rfl, order, h.update_represents hlookup address⟩
  | none =>
      have hkey : transactionId ∉ m.keys := by
        rw [h.mem_keys, hlookup]
        simp
      obtain ⟨evicted, order, hevicted, hkey, hroom, heq⟩ :=
        h.evictOldest_represents hcapacity hkey address
      rw [heq]
      exact hevicted.insertNew_represents hid hkey hroom address

end Represents

/-! ## Runs -/

/-- The bounded map under the calls to the tracker. Empty ids are not stored. -/
def fifoStep {capacity : ℕ} (m : FifoMap Bytes String capacity) :
    Call → Option String × FifoMap Bytes String capacity
  | .insert transactionId address =>
      (none, if transactionId = [] then m else m.insert transactionId address)
  | .get transactionId => (m.get transactionId, m)
  | .remove transactionId => m.remove transactionId

def fifoRun {capacity : ℕ} (m : FifoMap Bytes String capacity) :
    List Call → List (Option String) × FifoMap Bytes String capacity
  | [] => ([], m)
  | call :: calls =>
      let (result, m) := fifoStep m call
      let (results, m) := fifoRun m calls
      (result :: results, m)

variable {tracker} {capacity : ℕ} {m : FifoMap Bytes String capacity} {order : List ℕ}

theorem step_represents (h : Represents tracker m order) (call : Call) :
    ∃ next, tracker.step call = some ((fifoStep m call).1, next) ∧
      ∃ order, Represents next (fifoStep m call).2 order := by
  cases call with
  | insert transactionId address =>
      obtain ⟨inserted, hinsert, hrepresents⟩ := h.insert_represents transactionId address
      exact ⟨inserted, by simp [step, hinsert, fifoStep], hrepresents⟩
  | get transactionId =>
      exact ⟨tracker, by simp [step, fifoStep, h.get_eq transactionId], order, h⟩
  | remove transactionId =>
      obtain ⟨hresult, hrepresents⟩ := h.remove_represents transactionId
      refine ⟨_, ?_, hrepresents⟩
      rw [step, fifoStep, ← hresult]

theorem run_represents (h : Represents tracker m order) (calls : List Call) :
    ∃ final, tracker.run calls = some ((fifoRun m calls).1, final) ∧
      ∃ order, Represents final (fifoRun m calls).2 order := by
  induction calls generalizing tracker m order with
  | nil => exact ⟨tracker, rfl, order, h⟩
  | cons call calls ih =>
      obtain ⟨next, hstep, order', hnext⟩ := step_represents h call
      obtain ⟨final, hrun, hfinal⟩ := ih hnext
      refine ⟨final, ?_, hfinal⟩
      simp [run, hstep, hrun, fifoRun]

theorem withMaxCapacity_represents (maxCapacity : ℕ) :
    Represents (withMaxCapacity maxCapacity) (FifoMap.empty : FifoMap Bytes String maxCapacity)
      [] where
  capacity := rfl
  contents := rfl
  nonempty := List.not_mem_nil
  nodup := List.nodup_nil
  chained := chained_nil _
  head := rfl
  tail := rfl
  occupied := by simp [withMaxCapacity, entryAt]
  free_nodup := List.nodup_nil
  free := by simp [withMaxCapacity]
  entries := by simp [withMaxCapacity, stored, entryAt]
  size := by simp [withMaxCapacity, HashMap.size]

theorem length_le_slots (h : Represents tracker m order) : order.length ≤ tracker.slots.length := by
  have hsub : order ⊆ List.range tracker.slots.length := by
    intro index hmem
    obtain ⟨entry, hentry⟩ := h.exists_entryAt hmem
    exact List.mem_range.mpr (lt_length_of_entryAt hentry)
  simpa using (h.nodup.subperm hsub).length_le

/-- Every sequence of calls has the results of the bounded map. At any time the next links lead
from the head through the occupied slots in insertion order, the previous links lead back from
the tail, each vacant slot is listed once as free, and the index gives every stored transaction
its own slot. -/
theorem run_refines (maxCapacity : ℕ) (calls : List Call) :
    let (results, m) := fifoRun (FifoMap.empty : FifoMap Bytes String maxCapacity) calls
    ∃ tracker, (withMaxCapacity maxCapacity).run calls = some (results, tracker) ∧
      ∃ order : List ℕ, order.Nodup ∧
        (∀ index, index ∈ order ↔ ∃ entry, tracker.slots[index]? = some (some entry)) ∧
        order.map tracker.stored = m.entries.map some ∧
        (∀ steps ≥ tracker.slots.length,
          follow (nextOf tracker.links) steps tracker.head = order ∧
            follow (prevOf tracker.links) steps tracker.tail = order.reverse) ∧
        tracker.freeSlots.Nodup ∧
        (∀ index, index ∈ tracker.freeSlots ↔ tracker.slots[index]? = some none) ∧
        ∀ transactionId index, tracker.entries.lookup transactionId = some index ↔
          ∃ address, tracker.stored index = some (transactionId, address) := by
  obtain ⟨tracker, hrun, order, h⟩ := run_represents (withMaxCapacity_represents maxCapacity) calls
  refine ⟨tracker, hrun, order, h.nodup, fun index => ⟨fun hmem => ?_, ?_⟩, h.contents,
    fun steps hsteps => ⟨?_, ?_⟩, h.free_nodup, fun index => ?_, h.entries⟩
  · obtain ⟨entry, hentry⟩ := h.exists_entryAt hmem
    exact ⟨entry, Option.join_eq_some_iff.mp hentry⟩
  · rintro ⟨entry, hentry⟩
    exact h.occupied index entry (Option.join_eq_some_iff.mpr hentry)
  · rw [h.head]
    exact h.chained.follow_next ((length_le_slots h).trans hsteps)
  · rw [h.tail]
    exact h.chained.follow_prev ((length_le_slots h).trans hsteps)
  · rw [h.free, entryAt]
    by_cases hlt : index < tracker.slots.length
    · rw [List.getElem?_eq_getElem hlt]
      simp [hlt]
    · rw [List.getElem?_eq_none (Nat.le_of_not_lt hlt)]
      simp [hlt]

end GoogleCloudRust.AffinityTracker
