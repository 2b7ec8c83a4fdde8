import GoogleCloudRust.Verification.ClockStore.Invariant
import Mathlib.Data.List.TakeWhile
import Mathlib.Logic.Relation

/-! # Second chances

The eviction loop of a full store passes over the referenced keys at the front of the queue, and
removes the first key that it finds without its bit. -/

namespace GoogleCloudRust.ClockStore

open Relation

variable {K V : Type} [DecidableEq K] {store final : ClockStore K V} {key : K}

def isReferenced (store : ClockStore K V) (key : K) : Bool :=
  (store.entries.lookup key).any ClockEntry.referenced

/-- The loop makes another round. -/
def Continues (store next : ClockStore K V) : Prop := evictStep store = (true, next)

/-- The loop ends by itself, in this store. -/
def Ends (store final : ClockStore K V) : Prop :=
  ∃ last, ReflTransGen Continues store last ∧ evictStep last = (false, final)

/-! ## The loop without fuel -/

theorem evictLoop_ends {fuel : ℕ} (hfuel : store.rounds < fuel) :
    Ends store (evictLoop fuel store) := by
  induction fuel generalizing store with
  | zero => exact absurd hfuel (Nat.not_lt_zero _)
  | succ fuel ih =>
      rw [evictLoop]
      rcases hstep : evictStep store with ⟨continues, next⟩
      cases continues with
      | false => exact ⟨store, .refl, hstep⟩
      | true =>
          have hlt := rounds_lt_of_continues hstep
          obtain ⟨last, hrounds, hlast⟩ := @ih next (by omega)
          exact ⟨last, .head hstep hrounds, hlast⟩

/-- A round has one result, so that the loop ends in one store only. -/
theorem Ends.unique {final' : ClockStore K V} (h : Ends store final) (h' : Ends store final') :
    final = final' := by
  obtain ⟨last, hrounds, hlast⟩ := h
  obtain ⟨last', hrounds', hlast'⟩ := h'
  induction hrounds using ReflTransGen.head_induction_on with
  | refl =>
      rcases hrounds'.cases_head with rfl | ⟨next, hstep, -⟩
      · exact (Prod.mk.inj (hlast.symm.trans hlast')).2
      · cases (Prod.mk.inj (hlast.symm.trans hstep)).1
  | head hstep _ ih =>
      rcases hrounds'.cases_head with rfl | ⟨next', hstep', hrest'⟩
      · cases (Prod.mk.inj (hlast'.symm.trans hstep)).1
      · obtain rfl := (Prod.mk.inj (hstep.symm.trans hstep')).2
        exact ih hrest'

theorem evictForInsert_ends (hcap : store.capacity ≠ 0) : Ends store store.evictForInsert := by
  rw [evictForInsert, if_neg hcap]
  exact evictLoop_ends (Nat.lt_succ_of_le store.rounds_le)

/-! ## The hand -/

/-- The store when the hand has passed over these keys, from the front of the queue on. -/
structure Passed (store : ClockStore K V) (passed back : List K) (mid : ClockStore K V) :
    Prop where
  order : mid.order = back ++ passed
  capacity : mid.capacity = store.capacity
  len : mid.len = store.len
  lookup : ∀ other, mid.entries.lookup other = (store.entries.lookup other).map fun entry =>
    if other ∈ passed then { entry with referenced := false } else entry

/-- A full store passes over a referenced key. -/
theorem evictStep_referenced {rest : List K} {entry : ClockEntry V}
    (hfull : store.capacity ≤ store.len) (horder : store.order = key :: rest)
    (hlookup : store.entries.lookup key = some entry) (hreferenced : entry.referenced = true) :
    evictStep store = (true, { store with
      entries := store.entries.insert key { entry with referenced := false }
      order := rest ++ [key] }) := by
  simp [evictStep, horder, hlookup, hreferenced, hfull.not_gt]

/-- A full store removes a key that is not referenced. -/
theorem evictStep_unreferenced {rest : List K} {entry : ClockEntry V}
    (hfull : store.capacity ≤ store.len) (horder : store.order = key :: rest)
    (hlookup : store.entries.lookup key = some entry) (hreferenced : entry.referenced = false) :
    evictStep store =
      (false, { store with entries := store.entries.erase key, order := rest }) := by
  simp [evictStep, horder, hlookup, hreferenced, hfull.not_gt]

theorem exists_lookup_of_isReferenced (h : store.isReferenced key = true) :
    ∃ entry, store.entries.lookup key = some entry ∧ entry.referenced = true :=
  (Option.any_eq_true _ _).mp h

theorem pass_over {passed back : List K} (hfull : store.capacity ≤ store.len)
    (hnodup : store.order.Nodup) (horder : store.order = passed ++ back)
    (hpassed : ∀ key ∈ passed, store.isReferenced key = true) :
    ∃ mid, ReflTransGen Continues store mid ∧ Passed store passed back mid := by
  induction passed generalizing store back with
  | nil => exact ⟨store, .refl, by simpa using horder, rfl, rfl, fun other => by simp⟩
  | cons key passed ih =>
      obtain ⟨entry, hlookup, hreferenced⟩ :=
        exists_lookup_of_isReferenced (hpassed key List.mem_cons_self)
      have hstep := evictStep_referenced hfull horder hlookup hreferenced
      have hsize : HashMap.size (store.entries.insert key { entry with referenced := false }) =
          store.len := HashMap.size_insert_of_mem (mem_of_lookup hlookup)
      rw [horder] at hnodup
      obtain ⟨hkey, hrest⟩ := List.nodup_cons.mp hnodup
      let next : ClockStore K V := { store with
        entries := store.entries.insert key { entry with referenced := false }
        order := passed ++ back ++ [key] }
      have hbits : ∀ other ∈ passed, next.isReferenced other = true := by
        intro other hother
        have hne : other ≠ key := by
          rintro rfl
          exact hkey (List.mem_append_left _ hother)
        rw [isReferenced, HashMap.lookup_insert_eq, if_neg hne]
        exact hpassed other (List.mem_cons_of_mem _ hother)
      have hnodup' : next.order.Nodup :=
        List.nodup_append_comm.mp (List.nodup_cons.mpr ⟨hkey, hrest⟩)
      obtain ⟨mid, hrounds, hmid⟩ := @ih next (back ++ [key]) (hfull.trans_eq hsize.symm) hnodup'
        (List.append_assoc _ _ _) hbits
      refine ⟨mid, .head hstep hrounds, ?_, hmid.capacity, hmid.len.trans hsize, fun other => ?_⟩
      · rw [hmid.order, List.append_assoc]
        rfl
      · rw [hmid.lookup other, HashMap.lookup_insert_eq]
        by_cases heq : other = key
        · subst heq
          simp [hlookup]
        · simp [heq]

/-! ## The victim -/

/-- `passed` are the keys that the hand passes over, `victim` is the one at which it stops, and
`queue` are the others when it does. -/
inductive Victim (store : ClockStore K V) : List K → K → List K → Prop
  | unreferenced (passed : List K) (victim : K) (rest : List K)
      (horder : store.order = passed ++ victim :: rest)
      (hpassed : ∀ key ∈ passed, store.isReferenced key = true)
      (hvictim : store.isReferenced victim = false) : Victim store passed victim (rest ++ passed)
  | allReferenced (victim : K) (rest : List K) (horder : store.order = victim :: rest)
      (hall : ∀ key ∈ store.order, store.isReferenced key = true) :
      Victim store (victim :: rest) victim rest

theorem exists_victim (hne : store.order ≠ []) :
    ∃ passed victim queue, Victim store passed victim queue := by
  have hsplit : store.order.takeWhile store.isReferenced ++
      store.order.dropWhile store.isReferenced = store.order := List.takeWhile_append_dropWhile
  have hpassed : ∀ key ∈ store.order.takeWhile store.isReferenced,
      store.isReferenced key = true := fun key hkey => List.mem_takeWhile_imp hkey
  cases hrest : store.order.dropWhile store.isReferenced with
  | nil =>
      rw [hrest, List.append_nil] at hsplit
      obtain ⟨victim, rest, horder⟩ := List.exists_cons_of_ne_nil hne
      rw [hsplit] at hpassed
      exact ⟨_, victim, rest, .allReferenced victim rest horder hpassed⟩
  | cons victim rest =>
      have hvictim : store.isReferenced victim = false := by
        have hhead := List.head_dropWhile_not store.isReferenced (l := store.order) (by simp [hrest])
        simpa [hrest] using hhead
      exact ⟨_, victim, _, .unreferenced _ victim rest (by rw [← hrest, hsplit]) hpassed hvictim⟩

/-- What is left when the victim is gone. -/
structure Evicted (store : ClockStore K V) (passed : List K) (victim : K) (queue : List K)
    (final : ClockStore K V) : Prop where
  order : final.order = queue
  capacity : final.capacity = store.capacity
  lookup : ∀ other, final.entries.lookup other =
    if other = victim then none
    else (store.entries.lookup other).map fun entry =>
      if other ∈ passed then { entry with referenced := false } else entry

/-- The hand stands at a key whose bit is clear. -/
theorem Passed.evict {mid : ClockStore K V} {passed back queue : List K} {victim : K}
    (h : Passed store passed back mid) (hfull : store.capacity ≤ store.len)
    (horder : back ++ passed = victim :: queue) (hmem : victim ∈ store.entries)
    (hvictim : victim ∈ passed ∨ store.isReferenced victim = false) :
    ∃ final, evictStep mid = (false, final) ∧ Evicted store passed victim queue final := by
  obtain ⟨entry, hlookup⟩ := Finmap.mem_iff.mp hmem
  have hmid := h.lookup victim
  rw [hlookup, Option.map_some] at hmid
  have hclear : (if victim ∈ passed then { entry with referenced := false } else entry :
      ClockEntry V).referenced = false := by
    by_cases hpassed : victim ∈ passed
    · rw [if_pos hpassed]
    · rw [if_neg hpassed]
      have hbit := hvictim.resolve_left hpassed
      rwa [isReferenced, hlookup, Option.any_some] at hbit
  have hstep := evictStep_unreferenced (by rw [h.capacity, h.len]; exact hfull)
    (h.order.trans horder) hmid hclear
  refine ⟨_, hstep, rfl, h.capacity, fun other => ?_⟩
  rw [HashMap.lookup_erase_eq, h.lookup other]

theorem Victim.ends {passed queue : List K} {victim : K} (h : Victim store passed victim queue)
    (hqueued : Queued store) (hfull : store.capacity ≤ store.len) :
    ∃ final, Ends store final ∧ Evicted store passed victim queue final := by
  cases h with
  | unreferenced passed victim rest horder hpassed hvictim =>
      obtain ⟨mid, hrounds, hmid⟩ := pass_over hfull hqueued.nodup horder hpassed
      have hmem : victim ∈ store.entries := (hqueued.mem_order victim).mp (by simp [horder])
      obtain ⟨final, hlast, hfinal⟩ := hmid.evict hfull rfl hmem (.inr hvictim)
      exact ⟨final, ⟨mid, hrounds, hlast⟩, hfinal⟩
  | allReferenced victim rest horder hall =>
      -- The hand goes once around and finds the bit of the first key cleared.
      obtain ⟨mid, hrounds, hmid⟩ := pass_over hfull hqueued.nodup
        (horder.trans (List.append_nil _).symm) (horder ▸ hall)
      have hmem : victim ∈ store.entries := (hqueued.mem_order victim).mp (by simp [horder])
      obtain ⟨final, hlast, hfinal⟩ := hmid.evict hfull rfl hmem (.inl List.mem_cons_self)
      exact ⟨final, ⟨mid, hrounds, hlast⟩, hfinal⟩

/-- In every reachable store that is full, the insertion of a new key ends the eviction loop, removes
the first key without its bit, or the first one if all have theirs, and moves the keys it passed
over behind the others with their bits cleared. -/
theorem insert_evicts_victim (capacity : ℕ) (calls : List (Call K V)) (key : K) (value : V)
    (hcapacity : 0 < capacity) (hfull : (run (withCapacity capacity) calls).len = capacity)
    (hnew : key ∉ (run (withCapacity capacity : ClockStore K V) calls).entries) :
    let store := run (withCapacity capacity : ClockStore K V) calls
    Ends store store.evictForInsert ∧
      ∃ passed victim queue, Victim store passed victim queue ∧ victim ∈ store.entries ∧
        (store.insert key value).2.order = queue ++ [key] ∧
        ∀ other, (store.insert key value).2.entries.lookup other =
          if other = key then some ⟨value, false⟩
          else if other = victim then none
          else (store.entries.lookup other).map fun entry =>
            if other ∈ passed then { entry with referenced := false } else entry := by
  intro store
  obtain ⟨hsynced, hcap⟩ := run_synced capacity calls
  have hne : store.capacity ≠ 0 := hcap.trans_ne hcapacity.ne'
  have hloop := evictForInsert_ends hne
  have horder : store.order ≠ [] := by
    intro hnil
    have hkeys : store.entries.keys = ∅ := by
      refine Finset.eq_empty_of_forall_notMem fun other hother => ?_
      have hmem := (hsynced.queued.mem_order other).mpr (Finmap.mem_keys.mp hother)
      exact absurd (hnil ▸ hmem) List.not_mem_nil
    have hlen : store.len = 0 := by simp [len, HashMap.size, hkeys]
    exact hcapacity.ne (hlen.symm.trans hfull)
  obtain ⟨passed, victim, queue, hvictim⟩ := exists_victim horder
  obtain ⟨final, hends, hfinal⟩ := hvictim.ends hsynced.queued (hcap.trans hfull.symm).le
  obtain rfl := hloop.unique hends
  have hmem : victim ∈ store.entries := by
    refine (hsynced.queued.mem_order victim).mp ?_
    cases hvictim with
    | unreferenced passed victim rest horder => rw [horder]; simp
    | allReferenced victim rest horder => rw [horder]; simp
  have hinsert : (store.insert key value).2 = { store.evictForInsert with
      entries := store.evictForInsert.entries.insert key ⟨value, false⟩
      order := store.evictForInsert.order ++ [key] } := by
    rw [insert, if_neg hne, Finmap.lookup_eq_none.mpr hnew]
  refine ⟨hloop, passed, victim, queue, hvictim, hmem, ?_, fun other => ?_⟩
  · rw [hinsert, hfinal.order]
  · rw [hinsert, HashMap.lookup_insert_eq, hfinal.lookup other]

/-- The hand passes over the first key and stops at the second one; had that been read too, it would
have come back to the first one. -/
theorem insert_evicts_victim_two :
    (let store := run (withCapacity 2) ([.insert 1 10, .insert 2 20, .get 1] : List (Call ℕ ℕ))
    Ends store store.evictForInsert ∧ (store.insert 3 30).2.order = [1, 3] ∧
      ((store.insert 3 30).2.entries.lookup 1).map ClockEntry.referenced = some false) ∧
    (run (withCapacity 2) [.insert 1 10, .insert 2 20, .get 1, .get 2, .insert 3 30]).order =
      [2, 3] := by
  have h := insert_evicts_victim 2
    ([.insert 1 10, .insert 2 20, .get 1] : List (Call ℕ ℕ)) 3 30 (by decide) (by decide)
    (by decide)
  exact ⟨⟨h.1, by decide, by decide⟩, by decide⟩

end GoogleCloudRust.ClockStore
