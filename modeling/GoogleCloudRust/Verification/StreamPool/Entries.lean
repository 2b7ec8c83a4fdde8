import GoogleCloudRust.Library.Interleaving
import GoogleCloudRust.Model.StreamPool
import Mathlib.Data.List.Nodup

/-! # The entries of a stream pool

An id that has left the pool does not come back. A dispatcher swaps its entry only after the id
of that entry has left, for an entry that was in the pool after that. -/

namespace GoogleCloudRust.BigQuery

namespace StreamPool

variable {pool pool' : StreamPool} {entry : StreamEntry} {isClosed : ℕ → Bool} {loads : Loads}
  {id failedId : ℕ}

/-! ## What a pool operation can do -/

def ids (pool : StreamPool) : List ℕ := pool.streams.map StreamEntry.id

inductive Returned (pool : StreamPool) : StreamPool → StreamEntry → Prop
  | kept (isOpen : StreamEntry → Bool) (entry : StreamEntry)
      (hentry : entry ∈ pool.streams.filter isOpen) :
      Returned pool { pool with streams := pool.streams.filter isOpen } entry
  | grown (isOpen : StreamEntry → Bool)
      (hlt : (pool.streams.filter isOpen).length < pool.options.maxStreams) :
      Returned pool
        { pool with
          nextStreamId := pool.nextStreamId + 1
          handedOut := pool.handedOut ++ [pool.nextStreamId]
          streams := pool.streams.filter isOpen ++ [⟨pool.nextStreamId⟩] } ⟨pool.nextStreamId⟩
  | replaced (pos : ℕ) (old : StreamEntry) (hold : pool.streams[pos]? = some old) :
      Returned pool
        { pool with
          nextStreamId := pool.nextStreamId + 1
          handedOut := pool.handedOut ++ [pool.nextStreamId]
          streams := pool.streams.set pos ⟨pool.nextStreamId⟩
          replaced := pool.replaced ++ [old.id] } ⟨pool.nextStreamId⟩

theorem leastLoadedOf_mem (reading : ℕ) (least : StreamEntry) (streams : List StreamEntry) :
    pool.leastLoadedOf loads reading least streams ∈ least :: streams := by
  induction streams generalizing reading least with
  | nil => simp [leastLoadedOf]
  | cons entry streams ih =>
    rw [leastLoadedOf]
    split
    · exact List.mem_cons_of_mem _ (ih _ entry)
    · have h := ih (reading + 1) least
      rw [List.mem_cons] at h ⊢
      exact h.imp_right (List.mem_cons_of_mem _)

theorem leastLoaded_mem {streams : List StreamEntry}
    (h : pool.leastLoaded loads streams = some entry) : entry ∈ streams := by
  cases streams with
  | nil => simp [leastLoaded] at h
  | cons first streams =>
    rw [leastLoaded, Option.some.injEq] at h
    rw [← h]
    exact leastLoadedOf_mem 0 first streams

/-- What `getImpl` keeps is open; it grows the pool only when there is room. -/
theorem getImpl_cases (h : pool.getImpl isClosed loads = some (pool', entry)) :
    Returned pool pool' entry ∧ pool'.replaced = pool.replaced := by
  unfold getImpl at h
  dsimp only at h
  split at h
  case isTrue hgrow =>
    simp only [newStreamEntry, Option.some.injEq, Prod.mk.injEq] at h
    obtain ⟨rfl, rfl⟩ := h
    exact ⟨.grown _ hgrow.1, rfl⟩
  case isFalse =>
    rw [Option.map_eq_some_iff] at h
    obtain ⟨s, hs, heq⟩ := h
    simp only [Prod.mk.injEq] at heq
    obtain ⟨rfl, rfl⟩ := heq
    exact ⟨.kept _ s (leastLoaded_mem hs), rfl⟩

/-- With room for one stream there is always one to return. -/
theorem getImpl_isSome (hmax : 1 ≤ pool.options.maxStreams) (isClosed : ℕ → Bool)
    (loads : Loads) : (pool.getImpl isClosed loads).isSome := by
  unfold getImpl
  dsimp only
  split
  case isTrue => rfl
  case isFalse hgrow =>
    rw [Option.isSome_map]
    cases hopen : pool.streams.filter fun s => !isClosed s.id with
    | nil =>
      simp only [hopen, leastLoaded, Option.all_none, List.length_nil, and_true, not_lt] at hgrow
      omega
    | cons first streams => rfl

theorem evictAndReplace_isSome (hmax : 1 ≤ pool.options.maxStreams) (failedId : ℕ)
    (isClosed : ℕ → Bool) (loads : Loads) :
    (pool.evictAndReplace failedId isClosed loads).isSome := by
  unfold evictAndReplace
  split
  · rfl
  · exact getImpl_isSome hmax isClosed loads

theorem evictAndReplace_cases
    (h : pool.evictAndReplace failedId isClosed loads = some (pool', entry)) :
    (failedId ∉ pool.ids ∧ Returned pool pool' entry ∧ pool'.replaced = pool.replaced) ∨
    ∃ pos old, pool.streams[pos]? = some old ∧ old.id = failedId ∧
      entry = ⟨pool.nextStreamId⟩ ∧ pool' =
        { pool with
          nextStreamId := pool.nextStreamId + 1
          handedOut := pool.handedOut ++ [pool.nextStreamId]
          streams := pool.streams.set pos ⟨pool.nextStreamId⟩
          replaced := pool.replaced ++ [failedId] } := by
  unfold evictAndReplace at h
  split at h
  case h_1 pos hpos =>
    simp only [newStreamEntry, Option.some.injEq, Prod.mk.injEq] at h
    obtain ⟨hlt, hid, -⟩ := List.findIdx?_eq_some_iff_getElem.mp hpos
    exact .inr ⟨pos, pool.streams[pos], List.getElem?_eq_getElem hlt, by simpa using hid,
      h.2.symm, h.1.symm⟩
  case h_2 hnone =>
    refine .inl ⟨fun hmem => ?_, getImpl_cases h⟩
    obtain ⟨old, hold, hid⟩ := List.mem_map.mp hmem
    have hne := List.findIdx?_eq_none_iff.mp hnone old hold
    simp [hid] at hne

theorem returned_of_evictAndReplace
    (h : pool.evictAndReplace failedId isClosed loads = some (pool', entry)) :
    Returned pool pool' entry := by
  obtain ⟨-, hreturned, -⟩ | ⟨pos, old, hold, rfl, rfl, rfl⟩ := evictAndReplace_cases h
  · exact hreturned
  · exact .replaced pos old hold

/-! ## The invariant of the pool -/

structure Valid (pool : StreamPool) : Prop where
  length_le : pool.streams.length ≤ pool.options.maxStreams
  nodup_ids : pool.ids.Nodup
  nodup_handedOut : pool.handedOut.Nodup
  nodup_replaced : pool.replaced.Nodup
  lt_next : ∀ id ∈ pool.handedOut, id < pool.nextStreamId
  ids_subset : ∀ id ∈ pool.ids, id ∈ pool.handedOut
  replaced_gone : ∀ id ∈ pool.replaced, id ∈ pool.handedOut ∧ id ∉ pool.ids

/-- A stream that was handed out and has left the pool. -/
def Gone (pool : StreamPool) (id : ℕ) : Prop := id ∈ pool.handedOut ∧ id ∉ pool.ids

theorem valid_new (options : StreamPoolOptions) : Valid (new options) := by
  constructor <;> simp [new, ids]

/-- An operation keeps ids or adds the next one. -/
theorem Returned.mem_ids (h : Returned pool pool' entry) (hid : id ∈ pool'.ids) :
    id ∈ pool.ids ∨ id = pool.nextStreamId ∧ id ∈ pool'.handedOut := by
  cases h with
  | kept isOpen entry hentry =>
    exact .inl ((List.filter_sublist.map _).subset hid)
  | grown isOpen hlt =>
    rw [ids, List.map_append, List.mem_append] at hid
    cases hid with
    | inl hid => exact .inl ((List.filter_sublist.map _).subset hid)
    | inr hid =>
      have heq : id = pool.nextStreamId := by simpa using hid
      exact .inr ⟨heq, by simp [heq]⟩
  | replaced pos old hold =>
    rw [ids, List.map_set] at hid
    cases List.mem_or_eq_of_mem_set hid with
    | inl hid => exact .inl hid
    | inr heq => exact .inr ⟨heq, by simp [heq]⟩

theorem Returned.handedOut_subset (h : Returned pool pool' entry) :
    ∀ id ∈ pool.handedOut, id ∈ pool'.handedOut := by
  intro id hid
  cases h with
  | kept => exact hid
  | grown => exact List.mem_append_left _ hid
  | replaced => exact List.mem_append_left _ hid

theorem Returned.options (h : Returned pool pool' entry) : pool'.options = pool.options := by
  cases h <;> rfl

theorem Returned.entry_mem (h : Returned pool pool' entry) : entry.id ∈ pool'.ids := by
  cases h with
  | kept isOpen entry hentry => exact List.mem_map_of_mem hentry
  | grown => simp [ids]
  | replaced pos old hold =>
    rw [ids, List.map_set]
    exact List.mem_set (by simpa using (List.getElem?_eq_some_iff.mp hold).1) _

variable (hvalid : Valid pool)

include hvalid

theorem Valid.not_mem_handedOut : pool.nextStreamId ∉ pool.handedOut :=
  fun h => Nat.lt_irrefl _ (hvalid.lt_next _ h)

theorem Valid.not_mem_ids : pool.nextStreamId ∉ pool.ids :=
  fun h => hvalid.not_mem_handedOut (hvalid.ids_subset _ h)

theorem Gone.returned (h : Returned pool pool' entry) (hgone : Gone pool id) :
    Gone pool' id := by
  refine ⟨h.handedOut_subset id hgone.1, fun hid => ?_⟩
  cases h.mem_ids hid with
  | inl hid => exact hgone.2 hid
  | inr hnext => exact hvalid.not_mem_handedOut (hnext.1 ▸ hgone.1)

/-- What an operation returns had not left the pool. -/
theorem Gone.ne_returned (h : Returned pool pool' entry) (hgone : Gone pool id) :
    entry.id ≠ id := by
  intro heq
  exact (hgone.returned hvalid h).2 (heq ▸ h.entry_mem)

/-- An id in place of another is that of an entry no more. -/
theorem Valid.not_mem_set {pos : ℕ} {old : StreamEntry} (hold : pool.streams[pos]? = some old) :
    old.id ∉ pool.ids.set pos pool.nextStreamId := by
  intro hmem
  obtain ⟨other, hother⟩ := List.mem_iff_getElem?.mp hmem
  have hat : pool.ids[pos]? = some old.id := by simp [ids, hold]
  obtain ⟨-, heq⟩ | ⟨hne, hat'⟩ := Interleaving.getElem?_set_cases hother
  · exact hvalid.not_mem_ids (heq ▸ List.mem_of_getElem? hat)
  · have hlt := (List.getElem?_eq_some_iff.mp hat').1
    exact hne ((List.getElem?_inj hlt hvalid.nodup_ids).mp (hat'.trans hat.symm))

theorem Valid.fresh_handedOut : (pool.handedOut ++ [pool.nextStreamId]).Nodup ∧
    ∀ id ∈ pool.handedOut ++ [pool.nextStreamId], id < pool.nextStreamId + 1 := by
  refine ⟨?_, fun id hid => ?_⟩
  · rw [List.nodup_append]
    refine ⟨hvalid.nodup_handedOut, List.nodup_singleton _, fun a ha b hb heq => ?_⟩
    rw [List.mem_singleton.mp hb] at heq
    exact hvalid.not_mem_handedOut (heq ▸ ha)
  · rw [List.mem_append, List.mem_singleton] at hid
    cases hid with
    | inl hid => exact Nat.lt_succ_of_lt (hvalid.lt_next id hid)
    | inr heq => omega

theorem Valid.returned (h : Returned pool pool' entry) : Valid pool' := by
  have hgone : ∀ id ∈ pool.replaced, Gone pool' id := fun id hid =>
    Gone.returned hvalid h (hvalid.replaced_gone id hid)
  cases h with
  | kept isOpen entry hentry =>
    have hsub : List.Sublist ((pool.streams.filter isOpen).map StreamEntry.id) pool.ids :=
      List.filter_sublist.map _
    exact
      { length_le := (List.length_filter_le _ _).trans hvalid.length_le
        nodup_ids := hsub.nodup hvalid.nodup_ids
        nodup_handedOut := hvalid.nodup_handedOut
        nodup_replaced := hvalid.nodup_replaced
        lt_next := hvalid.lt_next
        ids_subset := fun id hid => hvalid.ids_subset id (hsub.subset hid)
        replaced_gone := hgone }
  | grown isOpen hlt =>
    have hsub : List.Sublist ((pool.streams.filter isOpen).map StreamEntry.id) pool.ids :=
      List.filter_sublist.map _
    refine
      { length_le := by simpa using Nat.succ_le_of_lt hlt
        nodup_ids := ?_
        nodup_handedOut := hvalid.fresh_handedOut.1
        nodup_replaced := hvalid.nodup_replaced
        lt_next := hvalid.fresh_handedOut.2
        ids_subset := fun id hid => ?_
        replaced_gone := hgone }
    · rw [ids, List.map_append, List.nodup_append]
      refine ⟨hsub.nodup hvalid.nodup_ids, List.nodup_singleton _, fun a ha b hb heq => ?_⟩
      have hb' : b = pool.nextStreamId := by simpa using hb
      exact hvalid.not_mem_ids (hb' ▸ heq ▸ hsub.subset ha)
    · rw [ids, List.map_append, List.mem_append] at hid
      cases hid with
      | inl hid => exact List.mem_append_left _ (hvalid.ids_subset id (hsub.subset hid))
      | inr hid => exact List.mem_append_right _ (by simpa using hid)
  | replaced pos old hold =>
    have hids : (pool.streams.set pos ⟨pool.nextStreamId⟩).map StreamEntry.id =
        pool.ids.set pos pool.nextStreamId := List.map_set
    have holdId : old.id ∈ pool.ids := List.mem_map_of_mem (List.mem_of_getElem? hold)
    refine
      { length_le := by simpa using hvalid.length_le
        nodup_ids := ?_
        nodup_handedOut := hvalid.fresh_handedOut.1
        nodup_replaced := ?_
        lt_next := hvalid.fresh_handedOut.2
        ids_subset := fun id hid => ?_
        replaced_gone := fun id hid => ?_ }
    · rw [ids, hids]
      exact hvalid.nodup_ids.set hvalid.not_mem_ids
    · rw [List.nodup_append]
      refine ⟨hvalid.nodup_replaced, List.nodup_singleton _, fun a ha b hb heq => ?_⟩
      rw [List.mem_singleton.mp hb] at heq
      exact (hvalid.replaced_gone a ha).2 (heq ▸ holdId)
    · rw [ids, hids] at hid
      cases List.mem_or_eq_of_mem_set hid with
      | inl hid => exact List.mem_append_left _ (hvalid.ids_subset id hid)
      | inr heq => exact List.mem_append_right _ (by simp [heq])
    · rw [List.mem_append, List.mem_singleton] at hid
      cases hid with
      | inl hid => exact hgone id hid
      | inr heq =>
        subst heq
        refine ⟨List.mem_append_left _ (hvalid.ids_subset _ holdId), ?_⟩
        rw [ids, hids]
        exact hvalid.not_mem_set hold

/-- After a report the failed stream is gone, and another one is returned. -/
theorem Valid.evictAndReplace (hfailed : failedId ∈ pool.handedOut)
    (h : pool.evictAndReplace failedId isClosed loads = some (pool', entry)) :
    Gone pool' failedId ∧ entry.id ≠ failedId := by
  have hgone : Gone pool' failedId := by
    obtain ⟨hnot, hreturned, -⟩ | ⟨pos, old, hold, rfl, -, rfl⟩ := evictAndReplace_cases h
    · exact Gone.returned hvalid hreturned ⟨hfailed, hnot⟩
    · refine ⟨List.mem_append_left _ hfailed, ?_⟩
      rw [ids, List.map_set]
      exact hvalid.not_mem_set hold
  exact ⟨hgone, fun heq => hgone.2 (heq ▸ (returned_of_evictAndReplace h).entry_mem)⟩

end StreamPool

/-! ## Dispatchers and their sends -/

namespace WriteSystem

open StreamPool

variable {system : WriteSystem} {pool pool' : StreamPool} {entry : StreamEntry}

/-- What a dispatcher has cached before is gone, and is not what it caches now. -/
structure Dispatching (pool : StreamPool) (dispatcher : Dispatcher) : Prop where
  handedOut : dispatcher.entry.id ∈ pool.handedOut
  past_gone : ∀ old ∈ dispatcher.past, pool.Gone old.id
  entry_ne : ∀ old ∈ dispatcher.past, dispatcher.entry.id ≠ old.id

/-- What an attempt knows about the dispatcher it belongs to. -/
def Attempting (pool : StreamPool) (dispatcher : Dispatcher) (send : Send) : Prop :=
  (dispatcher.past ++ [dispatcher.entry])[send.pointer]? = some send.stream ∧
  match send.attempt with
  | .sending | .over => True
  | .evicted newStream =>
    pool.Gone send.stream.id ∧ newStream.id ∈ pool.handedOut ∧
      newStream.id ≠ send.stream.id ∧
      (send.pointer = dispatcher.pointer → ∀ old ∈ dispatcher.past, newStream.id ≠ old.id)
  | .failed => send.pointer < dispatcher.pointer

structure Valid (system : WriteSystem) : Prop where
  pool : system.pool.Valid
  dispatching : ∀ dispatcher ∈ system.dispatchers, Dispatching system.pool dispatcher
  attempting : ∀ send ∈ system.sends, ∃ dispatcher,
    system.dispatchers[send.dispatcher]? = some dispatcher ∧
      Attempting system.pool dispatcher send

theorem valid_new (options : StreamPoolOptions) : Valid (new options) where
  pool := StreamPool.valid_new options
  dispatching dispatcher h := by simp [new] at h
  attempting send h := by simp [new] at h

/-! ### A pool operation leaves dispatchers and sends as they were -/

theorem Dispatching.returned {dispatcher : Dispatcher} (h : Dispatching pool dispatcher)
    (hvalid : pool.Valid) (hreturned : Returned pool pool' entry) :
    Dispatching pool' dispatcher where
  handedOut := hreturned.handedOut_subset _ h.handedOut
  past_gone old hold := (h.past_gone old hold).returned hvalid hreturned
  entry_ne := h.entry_ne

theorem Attempting.returned {dispatcher : Dispatcher} {send : Send}
    (h : Attempting pool dispatcher send) (hvalid : pool.Valid)
    (hreturned : Returned pool pool' entry) : Attempting pool' dispatcher send := by
  refine ⟨h.1, ?_⟩
  have hattempt := h.2
  cases hcase : send.attempt with
  | sending => trivial
  | «over» => trivial
  | evicted newStream =>
    rw [hcase] at hattempt
    obtain ⟨hgone, hhanded, hne, hpast⟩ := hattempt
    exact ⟨hgone.returned hvalid hreturned, hreturned.handedOut_subset _ hhanded, hne, hpast⟩
  | failed =>
    rw [hcase] at hattempt
    exact hattempt

theorem Valid.returned (h : Valid system) (hreturned : Returned system.pool pool' entry) :
    Valid { system with pool := pool' } where
  pool := h.pool.returned hreturned
  dispatching dispatcher hmem := (h.dispatching dispatcher hmem).returned h.pool hreturned
  attempting send hmem := by
    obtain ⟨dispatcher, hdispatcher, hattempting⟩ := h.attempting send hmem
    exact ⟨dispatcher, hdispatcher, hattempting.returned h.pool hreturned⟩

/-! ### One attempt moves on -/

theorem Valid.setAttempt (h : Valid system) {index : ℕ} {send : Send} {attempt : Attempt}
    (hsend : system.sends[index]? = some send)
    (hattempt : ∀ dispatcher, system.dispatchers[send.dispatcher]? = some dispatcher →
      Attempting system.pool dispatcher send →
      Attempting system.pool dispatcher { send with attempt }) :
    Valid { system with sends := system.sends.set index { send with attempt } } where
  pool := h.pool
  dispatching := h.dispatching
  attempting other hother := by
    cases List.mem_or_eq_of_mem_set hother with
    | inl hmem => exact h.attempting other hmem
    | inr heq =>
      subst heq
      obtain ⟨dispatcher, hdispatcher, hattempting⟩ :=
        h.attempting send (List.mem_of_getElem? hsend)
      exact ⟨dispatcher, hdispatcher, hattempt dispatcher hdispatcher hattempting⟩

/-! ### The swap of a cached entry -/

section Swap

variable {dispatcher : Dispatcher} {send : Send} {newStream : StreamEntry} {current : ℕ}

theorem Attempting.pointer_le (h : Attempting pool dispatcher send) :
    send.pointer ≤ dispatcher.pointer := by
  have hlt := (List.getElem?_eq_some_iff.mp h.1).1
  rw [List.length_append, List.length_singleton] at hlt
  exact Nat.le_of_lt_succ hlt

theorem Attempting.handedOut (h : Attempting pool dispatcher send)
    (hdispatching : Dispatching pool dispatcher) : send.stream.id ∈ pool.handedOut := by
  have hmem := List.mem_of_getElem? h.1
  rw [List.mem_append, List.mem_singleton] at hmem
  cases hmem with
  | inl hmem => exact (hdispatching.past_gone _ hmem).1
  | inr heq => exact heq ▸ hdispatching.handedOut

/-- The other attempts still point to what they loaded. -/
theorem Attempting.compareAndSwap (h : Attempting pool dispatcher send) :
    Attempting pool (dispatcher.compareAndSwap current newStream) send := by
  have hle := h.pointer_le
  obtain ⟨hstream, hattempt⟩ := h
  unfold Dispatcher.compareAndSwap
  split
  case isFalse => exact ⟨hstream, hattempt⟩
  case isTrue =>
    have hlt := (List.getElem?_eq_some_iff.mp hstream).1
    refine ⟨by rw [List.getElem?_append_left hlt, hstream], ?_⟩
    have hpointer : Dispatcher.pointer ⟨dispatcher.past ++ [dispatcher.entry], newStream⟩ =
        dispatcher.pointer + 1 := by
      simp [Dispatcher.pointer]
    cases hcase : send.attempt with
    | sending => trivial
    | «over» => trivial
    | evicted newStream' =>
      rw [hcase] at hattempt
      refine ⟨hattempt.1, hattempt.2.1, hattempt.2.2.1, fun heq => ?_⟩
      omega
    | failed =>
      rw [hcase] at hattempt
      dsimp only at hattempt ⊢
      omega

theorem Attempting.failed (h : Attempting pool dispatcher send) :
    Attempting pool (dispatcher.compareAndSwap send.pointer newStream)
      { send with attempt := .failed } := by
  refine ⟨h.compareAndSwap.1, ?_⟩
  have hle := h.pointer_le
  show send.pointer < (dispatcher.compareAndSwap send.pointer newStream).pointer
  unfold Dispatcher.compareAndSwap
  split
  case isTrue heq =>
    have hpointer : Dispatcher.pointer ⟨dispatcher.past ++ [dispatcher.entry], newStream⟩ =
        dispatcher.pointer + 1 := by
      simp [Dispatcher.pointer]
    omega
  case isFalse hne => omega

/-- An attempt replaces the entry it loaded, whose stream is gone. -/
theorem Dispatching.compareAndSwap (hdispatching : Dispatching pool dispatcher)
    (h : Attempting pool dispatcher send) (hattempt : send.attempt = .evicted newStream) :
    Dispatching pool (dispatcher.compareAndSwap send.pointer newStream) := by
  obtain ⟨hstream, hevicted⟩ := h
  rw [hattempt] at hevicted
  obtain ⟨hgone, hhanded, hne, hpast⟩ := hevicted
  unfold Dispatcher.compareAndSwap
  split
  case isFalse => exact hdispatching
  case isTrue heq =>
    have hentry : dispatcher.entry = send.stream := by
      rw [heq, Dispatcher.pointer, List.getElem?_concat_length] at hstream
      exact Option.some.inj hstream
    refine ⟨hhanded, fun old hold => ?_, fun old hold => ?_⟩
    · rw [List.mem_append, List.mem_singleton] at hold
      cases hold with
      | inl hold => exact hdispatching.past_gone old hold
      | inr hold => exact hold ▸ hentry ▸ hgone
    · rw [List.mem_append, List.mem_singleton] at hold
      cases hold with
      | inl hold => exact hpast heq old hold
      | inr hold =>
        rw [hold, hentry]
        exact hne

end Swap

/-! ### Every step -/

theorem Valid.fail (h : Valid system) {index : ℕ} {send : Send} {newStream : StreamEntry}
    {loads : Loads} (hsend : system.sends[index]? = some send)
    (hevict : system.evict send.stream.id loads = some (pool', newStream)) :
    Valid
      { system with
        pool := pool'
        sends := system.sends.set index { send with attempt := .evicted newStream } } := by
  have hreturned := returned_of_evictAndReplace hevict
  refine (h.returned hreturned).setAttempt hsend fun dispatcher hdispatcher hattempting => ?_
  have hdispatching := h.dispatching dispatcher (List.mem_of_getElem? hdispatcher)
  obtain ⟨dispatcher', hdispatcher', hbefore⟩ := h.attempting send (List.mem_of_getElem? hsend)
  obtain rfl := Option.some.inj (hdispatcher.symm.trans hdispatcher')
  obtain ⟨hgone, hne⟩ := h.pool.evictAndReplace (hbefore.handedOut hdispatching) hevict
  refine ⟨hattempting.1, hgone, ?_, hne, fun _ old hold => ?_⟩
  · exact (h.pool.returned hreturned).ids_subset _ hreturned.entry_mem
  · exact (hdispatching.past_gone old hold).ne_returned h.pool hreturned

theorem Valid.swap (h : Valid system) {index : ℕ} {send : Send} {newStream : StreamEntry}
    (hsend : system.sends[index]? = some send) (hattempt : send.attempt = .evicted newStream) :
    Valid
      { system with
        dispatchers := system.dispatchers.modify send.dispatcher fun dispatcher =>
          dispatcher.compareAndSwap send.pointer newStream
        sends := system.sends.set index { send with attempt := .failed } } := by
  obtain ⟨dispatcher, hdispatcher, hattempting⟩ := h.attempting send (List.mem_of_getElem? hsend)
  refine ⟨h.pool, fun other hother => ?_, fun other hother => ?_⟩
  · obtain ⟨position, hposition⟩ := List.mem_iff_getElem?.mp hother
    rw [List.getElem?_modify] at hposition
    split at hposition
    case isTrue heq =>
      rw [← heq, hdispatcher] at hposition
      obtain rfl : dispatcher.compareAndSwap send.pointer newStream = other := by
        simpa using hposition
      exact (h.dispatching dispatcher (List.mem_of_getElem? hdispatcher)).compareAndSwap
        hattempting hattempt
    case isFalse =>
      exact h.dispatching other (List.mem_of_getElem? (by simpa using hposition))
  · dsimp only
    cases List.mem_or_eq_of_mem_set hother with
    | inl hmem =>
      obtain ⟨found, hfound, hfound'⟩ := h.attempting other hmem
      rw [List.getElem?_modify, hfound]
      by_cases heq : send.dispatcher = other.dispatcher
      · exact ⟨found.compareAndSwap send.pointer newStream, by simp [heq], hfound'.compareAndSwap⟩
      · exact ⟨found, by simp [heq], hfound'⟩
    | inr heq =>
      subst heq
      rw [List.getElem?_modify, hdispatcher]
      exact ⟨dispatcher.compareAndSwap send.pointer newStream, by simp, hattempting.failed⟩

theorem Valid.step (h : Valid system) (event : Event) : Valid (system.step event) := by
  cases event with
  | get loads =>
    rw [WriteSystem.step]
    split
    case h_1 pool' entry hget => exact h.returned (getImpl_cases hget).1
    case h_2 => exact h
  | evictAndReplace failedId loads =>
    rw [WriteSystem.step]
    split
    case isTrue =>
      split
      case h_1 pool' entry hevict => exact h.returned (returned_of_evictAndReplace hevict)
      case h_2 => exact h
    case isFalse => exact h
  | terminate id => exact ⟨h.pool, h.dispatching, h.attempting⟩
  | newDispatcher loads =>
    rw [WriteSystem.step]
    split
    case h_1 pool' entry hget =>
      have hreturned := (getImpl_cases hget).1
      have h' := h.returned hreturned
      refine ⟨h'.pool, fun dispatcher hmem => ?_, fun send hmem => ?_⟩
      · rw [List.mem_append, List.mem_singleton] at hmem
        cases hmem with
        | inl hmem => exact h'.dispatching dispatcher hmem
        | inr heq =>
          subst heq
          exact ⟨h'.pool.ids_subset _ hreturned.entry_mem, by simp, by simp⟩
      · obtain ⟨dispatcher, hdispatcher, hattempting⟩ := h'.attempting send hmem
        refine ⟨dispatcher, ?_, hattempting⟩
        rw [List.getElem?_append_left (List.getElem?_eq_some_iff.mp hdispatcher).1]
        exact hdispatcher
    case h_2 => exact h
  | load index =>
    rw [WriteSystem.step]
    split
    case h_1 dispatcher hdispatcher =>
      refine ⟨h.pool, h.dispatching, fun send hmem => ?_⟩
      rw [List.mem_append, List.mem_singleton] at hmem
      cases hmem with
      | inl hmem => exact h.attempting send hmem
      | inr heq =>
        subst heq
        exact ⟨dispatcher, hdispatcher, by simp [Dispatcher.pointer], trivial⟩
    case h_2 => exact h
  | succeed index =>
    rw [WriteSystem.step]
    split
    case h_1 send hsend =>
      split
      case h_1 =>
        exact h.setAttempt hsend fun dispatcher _ hattempting => ⟨hattempting.1, trivial⟩
      case h_2 => exact h
    case h_2 => exact h
  | fail index loads =>
    rw [WriteSystem.step]
    split
    case h_1 send hsend =>
      split
      case h_1 =>
        split
        case h_1 pool' newStream hevict => exact h.fail hsend hevict
        case h_2 => exact h
      case h_2 => exact h
    case h_2 => exact h
  | swap index =>
    rw [WriteSystem.step]
    split
    case h_1 send hsend =>
      split
      case h_1 newStream hattempt => exact h.swap hsend hattempt
      case h_2 => exact h
    case h_2 => exact h

theorem valid_run (options : StreamPoolOptions) (events : List Event) :
    Valid (run options events) :=
  Interleaving.foldl_invariant (fun _ event h => h.step event) (valid_new options) events

/-- A step leaves the pool alone or is one operation of it. -/
theorem step_pool (system : WriteSystem) (event : Event) :
    (system.step event).pool = system.pool ∨
      ∃ entry, Returned system.pool (system.step event).pool entry := by
  unfold WriteSystem.step
  split
  case h_1 loads =>
    split
    case h_1 pool' entry hget => exact .inr ⟨entry, (getImpl_cases hget).1⟩
    case h_2 => exact .inl rfl
  case h_2 failedId loads =>
    split
    case isTrue =>
      split
      case h_1 pool' entry hevict => exact .inr ⟨entry, returned_of_evictAndReplace hevict⟩
      case h_2 => exact .inl rfl
    case isFalse => exact .inl rfl
  case h_4 loads =>
    split
    case h_1 pool' entry hget => exact .inr ⟨entry, (getImpl_cases hget).1⟩
    case h_2 => exact .inl rfl
  case h_7 index loads =>
    split
    case h_1 send hsend =>
      split
      case h_1 =>
        split
        case h_1 pool' entry hevict => exact .inr ⟨entry, returned_of_evictAndReplace hevict⟩
        case h_2 => exact .inl rfl
      case h_2 => exact .inl rfl
    case h_2 => exact .inl rfl
  -- The other events do not touch the pool.
  all_goals exact .inl (by repeat' (first | rfl | split))

theorem options_step (system : WriteSystem) (event : Event) :
    (system.step event).pool.options = system.pool.options := by
  obtain heq | ⟨entry, hreturned⟩ := step_pool system event
  · rw [heq]
  · exact hreturned.options

theorem options_run (options : StreamPoolOptions) (events : List Event) :
    (run options events).pool.options = options := by
  refine Interleaving.foldl_invariant
    (motive := fun system : WriteSystem => system.pool.options = options)
    (fun system event h => ?_) rfl events
  rw [options_step, h]

/-- An attempt that has failed is over. -/
theorem sends_step {index : ℕ} {send : Send} (event : Event)
    (hsend : system.sends[index]? = some send) (hattempt : send.attempt = .failed) :
    (system.step event).sends[index]? = some send := by
  have hset : ∀ (other : ℕ) (send' : Send) (attempt : Attempt),
      system.sends[other]? = some send' → send'.attempt ≠ .failed →
      (system.sends.set other { send' with attempt })[index]? = some send := by
    intro other send' attempt hother hne
    rw [List.getElem?_set_ne, hsend]
    intro heq
    rw [heq, hsend, Option.some.injEq] at hother
    exact hne (hother ▸ hattempt)
  cases event with
  | get loads =>
    rw [WriteSystem.step]
    split <;> exact hsend
  | evictAndReplace failedId loads =>
    rw [WriteSystem.step]
    split
    · split <;> exact hsend
    · exact hsend
  | terminate id => exact hsend
  | newDispatcher loads =>
    rw [WriteSystem.step]
    split <;> exact hsend
  | load other =>
    rw [WriteSystem.step]
    split
    · exact (List.getElem?_append_left (List.getElem?_eq_some_iff.mp hsend).1).trans hsend
    · exact hsend
  | succeed other =>
    rw [WriteSystem.step]
    split
    case h_1 send' hother =>
      split
      case h_1 hsending => exact hset other send' .over hother (by simp [hsending])
      case h_2 => exact hsend
    case h_2 => exact hsend
  | fail other loads =>
    rw [WriteSystem.step]
    split
    case h_1 send' hother =>
      split
      case h_1 hsending =>
        split
        case h_1 => exact hset other send' (.evicted _) hother (by simp [hsending])
        case h_2 => exact hsend
      case h_2 => exact hsend
    case h_2 => exact hsend
  | swap other =>
    rw [WriteSystem.step]
    split
    case h_1 send' hother =>
      split
      case h_1 newStream hevicted => exact hset other send' .failed hother (by simp [hevicted])
      case h_2 => exact hsend
    case h_2 => exact hsend

theorem Valid.entry_ne (h : Valid system) {send : Send} (hsend : send ∈ system.sends)
    (hattempt : send.attempt = .failed) : ∃ dispatcher,
    system.dispatchers[send.dispatcher]? = some dispatcher ∧
      dispatcher.entry.id ≠ send.stream.id := by
  obtain ⟨dispatcher, hdispatcher, hstream, hpointer⟩ := h.attempting send hsend
  rw [hattempt] at hpointer
  refine ⟨dispatcher, hdispatcher, ?_⟩
  have hpast : send.stream ∈ dispatcher.past := by
    rw [List.getElem?_append_left hpointer] at hstream
    exact List.mem_of_getElem? hstream
  exact (h.dispatching dispatcher (List.mem_of_getElem? hdispatcher)).entry_ne _ hpast

/-- Streams are never too many, ids are never given twice, a failed stream is replaced once and
never returned for its own report, the pool always has a stream to return, and a dispatcher does
not come back to a stream on which one of its sends has failed. -/
theorem pool_invariant (options : StreamPoolOptions) (hmax : 1 ≤ options.maxStreams)
    (events : List Event) :
    (run options events).pool.streams.length ≤ options.maxStreams ∧
    (run options events).pool.handedOut.Nodup ∧
    ((run options events).pool.streams.map StreamEntry.id).Nodup ∧
    (∀ stream ∈ (run options events).pool.streams,
      stream.id ∈ (run options events).pool.handedOut) ∧
    (run options events).pool.replaced.Nodup ∧
    (∀ failedId loads pool' stream, failedId ∈ (run options events).pool.handedOut →
      (run options events).evict failedId loads = some (pool', stream) →
      stream.id ≠ failedId ∧
      pool'.replaced = (run options events).pool.replaced ++
        (if failedId ∈ (run options events).pool.streams.map StreamEntry.id then [failedId]
          else [])) ∧
    (∀ loads,
      ((run options events).pool.get (run options events).isClosed loads).isSome ∧
      ∀ failedId, ((run options events).evict failedId loads).isSome) ∧
    ∀ (index : ℕ) (send : Send) (later : List Event),
      (run options events).sends[index]? = some send → send.attempt = .failed →
      ∃ dispatcher, (run options (events ++ later)).dispatchers[send.dispatcher]? =
        some dispatcher ∧ dispatcher.entry.id ≠ send.stream.id := by
  have h := valid_run options events
  have hoptions := options_run options events
  have hlength := h.pool.length_le
  rw [hoptions] at hlength
  refine ⟨hlength, h.pool.nodup_handedOut, h.pool.nodup_ids,
    fun stream hmem => h.pool.ids_subset _ (List.mem_map_of_mem hmem), h.pool.nodup_replaced,
    fun failedId loads pool' stream hfailed hevict => ⟨?_, ?_⟩, fun loads => ⟨?_, ?_⟩,
    fun index send later hsend hattempt => ?_⟩
  · exact (h.pool.evictAndReplace hfailed hevict).2
  · obtain ⟨hnot, -, hreplaced⟩ | ⟨pos, old, hold, rfl, -, rfl⟩ := evictAndReplace_cases hevict
    · rw [ids] at hnot
      rw [hreplaced, if_neg hnot, List.append_nil]
    · rw [if_pos (List.mem_map_of_mem (List.mem_of_getElem? hold))]
  · exact getImpl_isSome (hoptions.symm ▸ hmax) _ _
  · exact fun failedId => evictAndReplace_isSome (hoptions.symm ▸ hmax) _ _ _
  · have hsend' : (run options (events ++ later)).sends[index]? = some send := by
      rw [run, List.foldl_append]
      exact Interleaving.foldl_invariant
        (motive := fun system : WriteSystem => system.sends[index]? = some send)
        (fun system event hsend => sends_step event hsend hattempt) hsend later
    exact (valid_run options (events ++ later)).entry_ne (List.mem_of_getElem? hsend') hattempt

/-- Before the counter of the ids wraps, their words differ. -/
theorem idWords_nodup (options : StreamPoolOptions) (events : List Event)
    (h : (run options events).pool.nextStreamId ≤ 2 ^ 64) :
    ((run options events).pool.handedOut.map UInt64.ofNat).Nodup := by
  have hvalid := (valid_run options events).pool
  exact Interleaving.nodup_words (fun id hid => (hvalid.lt_next id hid).trans_le h)
    hvalid.nodup_handedOut

/-- One dispatcher, whose first send fails. -/
theorem pool_invariant_retry :
    1 ≤ (⟨1, none, none, ⟨0⟩⟩ : StreamPoolOptions).maxStreams ∧
    ∃ dispatcher, (run ⟨1, none, none, ⟨0⟩⟩
      [.newDispatcher fun _ _ => ⟨0, 0⟩, .load 0, .fail 0 fun _ _ => ⟨0, 0⟩, .swap 0]
      ).dispatchers[0]? = some dispatcher ∧ dispatcher.entry.id ≠ 1 := by
  have h := (pool_invariant ⟨1, none, none, ⟨0⟩⟩ (by decide)
    [.newDispatcher fun _ _ => ⟨0, 0⟩, .load 0, .fail 0 fun _ _ => ⟨0, 0⟩, .swap 0]).2.2.2.2.2.2.2
  exact ⟨by decide, h 0 ⟨0, ⟨1⟩, 0, .failed⟩ [] rfl rfl⟩

end WriteSystem

end GoogleCloudRust.BigQuery
