import GoogleCloudRust.Library.Interleaving
import GoogleCloudRust.Verification.ChannelPool.Transitions

/-! # Membership and bounds of the channel pool -/

namespace GoogleCloudRust.ChannelPool

variable {bound : ℕ} {pool next : ChannelPool bound} {entry other : ChannelEntry bound}

/-- Every entry is known by its address and its id, sits in one list at most and has the
lifecycle state of that list; entries in none are closed. -/
structure Inv (pool : ChannelPool bound) : Prop where
  created : ∀ index entry, pool.created[index]? = some entry →
    entry.address = index ∧ entry.id = index + 1
  nextEntryId : pool.nextEntryId = pool.created.length + 1
  members : ∀ entry ∈ pool.activeEntries ++ pool.drainingEntries, entry ∈ pool.created
  nodup : (pool.activeEntries ++ pool.drainingEntries).Nodup
  active : ∀ entry ∈ pool.activeEntries, pool.stateOf entry = .active
  draining : ∀ entry ∈ pool.drainingEntries, pool.stateOf entry = .draining
  closed : ∀ entry ∈ pool.created, entry ∈ pool.activeEntries ∨ entry ∈ pool.drainingEntries ∨
    pool.stateOf entry = .closed
  floor : pool.config.minChannels ≤ pool.activeEntries.length
  ceiling : pool.activeEntries.length ≤ pool.config.maxChannels
  monitor : MonitorInv pool pool.monitor

/-- A list whose entries know their positions has no entry twice. -/
theorem nodup_of_address {entries : List (ChannelEntry bound)}
    (h : ∀ (index : ℕ) entry, entries[index]? = some entry → entry.address = index) :
    entries.Nodup := by
  rw [List.nodup_iff_getElem?_ne_getElem?]
  intro i j hij hj heq
  have hi := List.getElem?_eq_getElem (hij.trans hj)
  have hown := h i _ hi
  have hother := h j _ (heq.symm.trans hi)
  omega

namespace Inv

theorem eq_of_address (hinv : Inv pool) (h : entry ∈ pool.created) (h' : other ∈ pool.created)
    (heq : entry.address = other.address) : entry = other := by
  obtain ⟨i, hi⟩ := List.mem_iff_getElem?.mp h
  obtain ⟨j, hj⟩ := List.mem_iff_getElem?.mp h'
  have hij : i = j := by rw [← (hinv.created i entry hi).1, heq, (hinv.created j other hj).1]
  subst hij
  exact Option.some.inj (hi.symm.trans hj)

theorem eq_of_id (hinv : Inv pool) (h : entry ∈ pool.created) (h' : other ∈ pool.created)
    (heq : entry.id = other.id) : entry = other := by
  obtain ⟨i, hi⟩ := List.mem_iff_getElem?.mp h
  obtain ⟨j, hj⟩ := List.mem_iff_getElem?.mp h'
  have hij : i + 1 = j + 1 := by rw [← (hinv.created i entry hi).2, heq, (hinv.created j other hj).2]
  obtain rfl := Nat.succ.inj hij
  exact Option.some.inj (hi.symm.trans hj)

theorem address_lt (hinv : Inv pool) (h : entry ∈ pool.created) :
    entry.address < pool.created.length := by
  obtain ⟨i, hi⟩ := List.mem_iff_getElem?.mp h
  rw [(hinv.created i entry hi).1]
  exact (List.getElem?_eq_some_iff.mp hi).1

theorem id_pos (hinv : Inv pool) (h : entry ∈ pool.created) : 0 < entry.id := by
  obtain ⟨i, hi⟩ := List.mem_iff_getElem?.mp h
  rw [(hinv.created i entry hi).2]
  exact Nat.succ_pos i

theorem id_le (hinv : Inv pool) (h : entry ∈ pool.created) : entry.id ≤ pool.created.length := by
  obtain ⟨i, hi⟩ := List.mem_iff_getElem?.mp h
  rw [(hinv.created i entry hi).2]
  exact (List.getElem?_eq_some_iff.mp hi).1

theorem mem_of_active (hinv : Inv pool) (h : entry ∈ pool.activeEntries) : entry ∈ pool.created :=
  hinv.members entry (List.mem_append_left _ h)

theorem mem_of_draining (hinv : Inv pool) (h : entry ∈ pool.drainingEntries) :
    entry ∈ pool.created :=
  hinv.members entry (List.mem_append_right _ h)

theorem nodup_ids (hinv : Inv pool) {entries : List (ChannelEntry bound)}
    (hmem : ∀ entry ∈ entries, entry ∈ pool.created) (hnodup : entries.Nodup) :
    (entries.map ChannelEntry.id).Nodup :=
  hnodup.map_on fun entry h other h' heq => hinv.eq_of_id (hmem entry h) (hmem other h') heq

theorem nodup_created (hinv : Inv pool) : pool.created.Nodup :=
  nodup_of_address fun index entry h => (hinv.created index entry h).1

/-! ## Steps -/

theorem quiet (hinv : Inv pool) (hframe : Frame pool next)
    (hmonitor : MonitorInv next next.monitor) : Inv next where
  created := hframe.created ▸ hinv.created
  nextEntryId := by rw [hframe.nextEntryId, hframe.created, hinv.nextEntryId]
  members := by
    rw [hframe.activeEntries, hframe.drainingEntries, hframe.created]
    exact hinv.members
  nodup := by
    rw [hframe.activeEntries, hframe.drainingEntries]
    exact hinv.nodup
  active := by
    intro entry h
    rw [hframe.stateOf]
    exact hinv.active entry (hframe.activeEntries ▸ h)
  draining := by
    intro entry h
    rw [hframe.stateOf]
    exact hinv.draining entry (hframe.drainingEntries ▸ h)
  closed := by
    intro entry h
    rw [hframe.stateOf, hframe.activeEntries, hframe.drainingEntries]
    exact hinv.closed entry (hframe.created ▸ h)
  floor := by
    rw [hframe.config, hframe.activeEntries]
    exact hinv.floor
  ceiling := by
    rw [hframe.config, hframe.activeEntries]
    exact hinv.ceiling
  monitor := hmonitor

end Inv

/-- A new entry is active; the entries before it keep their states. -/
theorem publish_stateOf (hinv : Inv pool)
    (hatomics : next.atomics = Function.update pool.atomics pool.created.length {}) :
    next.stateOf pool.newEntry = .active ∧
      ∀ entry ∈ pool.created, next.stateOf entry = pool.stateOf entry := by
  constructor
  · simp [stateOf, atomicsOf, hatomics, newEntry]
  · intro entry h
    have hne : entry.address ≠ pool.created.length := Nat.ne_of_lt (hinv.address_lt h)
    simp [stateOf, atomicsOf, hatomics, hne]

theorem newEntry_notMem (hinv : Inv pool) : pool.newEntry ∉ pool.created := fun h =>
  Nat.lt_irrefl _ (hinv.address_lt h)

theorem Inv.publish (hinv : Inv pool) (hactive : pool.monitor.holdsActive = false)
    (hdraining : pool.monitor.holdsDraining = false)
    (hlength : pool.activeEntries.length < pool.config.maxChannels)
    (hconfig : next.config = pool.config)
    (hactiveEntries : next.activeEntries = pool.activeEntries ++ [pool.newEntry])
    (hdrainingEntries : next.drainingEntries = pool.drainingEntries)
    (hcreated : next.created = pool.created ++ [pool.newEntry])
    (hnextEntryId : next.nextEntryId = pool.nextEntryId + 1)
    (hatomics : next.atomics = Function.update pool.atomics pool.created.length {})
    (hmonitor : next.monitor = pool.monitor) : Inv next := by
  obtain ⟨hnew, hold⟩ := publish_stateOf hinv hatomics
  constructor
  · intro index entry h
    rw [hcreated] at h
    obtain h | ⟨rfl, rfl⟩ := Interleaving.getElem?_concat_cases h
    · exact hinv.created index entry h
    · exact ⟨rfl, hinv.nextEntryId⟩
  · rw [hnextEntryId, hcreated, hinv.nextEntryId, List.length_append, List.length_singleton]
  · intro entry h
    rw [hcreated]
    simp only [hactiveEntries, hdrainingEntries, List.mem_append, List.mem_singleton] at h ⊢
    obtain (h | rfl) | h := h
    · exact .inl (hinv.mem_of_active h)
    · exact .inr rfl
    · exact .inl (hinv.mem_of_draining h)
  · have hperm : (pool.newEntry :: (pool.activeEntries ++ pool.drainingEntries)).Perm
        (pool.activeEntries ++ [pool.newEntry] ++ pool.drainingEntries) := by
      rw [List.append_assoc]
      exact List.perm_middle.symm
    rw [hactiveEntries, hdrainingEntries]
    refine hperm.nodup (List.nodup_cons.mpr ⟨fun h => ?_, hinv.nodup⟩)
    exact newEntry_notMem hinv (hinv.members _ h)
  · intro entry h
    rw [hactiveEntries, List.mem_append, List.mem_singleton] at h
    obtain h | rfl := h
    · rw [hold entry (hinv.mem_of_active h)]
      exact hinv.active entry h
    · exact hnew
  · intro entry h
    rw [hdrainingEntries] at h
    rw [hold entry (hinv.mem_of_draining h)]
    exact hinv.draining entry h
  · intro entry h
    rw [hcreated, List.mem_append, List.mem_singleton] at h
    rw [hactiveEntries, hdrainingEntries, List.mem_append, List.mem_singleton]
    obtain h | rfl := h
    · rw [hold entry h]
      obtain h | h := hinv.closed entry h
      · exact .inl (.inl h)
      · exact .inr h
    · exact .inl (.inr rfl)
  · rw [hconfig, hactiveEntries, List.length_append]
    exact Nat.le_trans hinv.floor (Nat.le_add_right _ _)
  · rw [hconfig, hactiveEntries, List.length_append, List.length_singleton]
    exact hlength
  · rw [hmonitor]
    cases htask : pool.monitor <;> simp_all [MonitorInv, MonitorTask.holdsActive,
      MonitorTask.holdsDraining]

/-! ## Draining -/

theorem setState_stateOf (pool : ChannelPool bound) (entry : ChannelEntry bound)
    (state : ChannelState) (other : ChannelEntry bound) :
    (pool.setState entry state).stateOf other =
      if other.address = entry.address then state else pool.stateOf other := by
  by_cases heq : other.address = entry.address
  · simp [setState, modifyAtomics, stateOf, atomicsOf, heq]
  · simp [setState, modifyAtomics, stateOf, atomicsOf, heq]

theorem foldl_setState (entries : List (ChannelEntry bound)) (pool : ChannelPool bound)
    (state : ChannelState) (entry : ChannelEntry bound) :
    (entries.foldl (setState · · state) pool).stateOf entry =
      if entry.address ∈ entries.map ChannelEntry.address then state else pool.stateOf entry := by
  induction entries generalizing pool with
  | nil => simp
  | cons head entries ih =>
      rw [List.foldl_cons, ih]
      by_cases hmem : entry.address ∈ entries.map ChannelEntry.address
      · simp [hmem]
      · simp [hmem, setState_stateOf]

theorem foldl_setState_frame (entries : List (ChannelEntry bound)) (pool : ChannelPool bound)
    (state : ChannelState) :
    (entries.foldl (setState · · state) pool).config = pool.config ∧
      (entries.foldl (setState · · state) pool).created = pool.created ∧
      (entries.foldl (setState · · state) pool).nextEntryId = pool.nextEntryId := by
  induction entries generalizing pool with
  | nil => exact ⟨rfl, rfl, rfl⟩
  | cons head entries ih => exact ih (pool.setState head state)

theorem drain_stateOf (pool : ChannelPool bound) (ids : List ℕ) (entry : ChannelEntry bound) :
    (pool.drain ids).stateOf entry =
      if entry.address ∈ (pool.activeEntries.filter fun entry => entry.id ∈ ids).map
        ChannelEntry.address then .draining
      else pool.stateOf entry :=
  foldl_setState _ pool .draining entry

theorem drain_activeEntries (pool : ChannelPool bound) (ids : List ℕ) :
    (pool.drain ids).activeEntries = pool.activeEntries.filter fun entry => entry.id ∉ ids := rfl

theorem drain_drainingEntries (pool : ChannelPool bound) (ids : List ℕ) :
    (pool.drain ids).drainingEntries =
      pool.drainingEntries ++ pool.activeEntries.filter fun entry => entry.id ∈ ids := rfl

theorem drain_frame (pool : ChannelPool bound) (ids : List ℕ) :
    (pool.drain ids).config = pool.config ∧ (pool.drain ids).created = pool.created ∧
      (pool.drain ids).nextEntryId = pool.nextEntryId :=
  foldl_setState_frame _ pool .draining

theorem drain_split (pool : ChannelPool bound) (ids : List ℕ) :
    (pool.activeEntries.filter (fun entry => entry.id ∈ ids) ++
      (pool.drain ids).activeEntries).Perm pool.activeEntries := by
  rw [drain_activeEntries]
  simpa using List.filter_append_perm (fun entry => decide (entry.id ∈ ids)) pool.activeEntries

/-- Draining moves entries from one list to the other. -/
theorem drain_perm (pool : ChannelPool bound) (ids : List ℕ) :
    ((pool.drain ids).activeEntries ++ (pool.drain ids).drainingEntries).Perm
      (pool.activeEntries ++ pool.drainingEntries) := by
  refine List.Perm.trans ?_ ((drain_split pool ids).append_right pool.drainingEntries)
  rw [List.append_assoc _ (pool.drain ids).activeEntries, drain_drainingEntries,
    ← List.append_assoc]
  exact List.perm_append_comm

theorem sortUnstableByKey_perm (order keys : List (CandidateKey bound)) :
    (sortUnstableByKey order keys).Perm keys := by
  unfold sortUnstableByKey
  split_ifs with h
  · exact h.1
  · exact List.perm_insertionSort _ keys

/-- As many entries are drained as were asked for, down to the floor. -/
theorem length_drained (hinv : Inv pool) (channelsToRemove : ℕ)
    {keys : List (CandidateKey bound)}
    (hkeys : (keys.map CandidateKey.entryId).Perm (pool.activeEntries.map ChannelEntry.id)) :
    (pool.activeEntries.filter fun entry =>
        entry.id ∈ drainChannelIds pool.config channelsToRemove keys).length =
      min (pool.activeEntries.length - pool.config.minChannels) channelsToRemove := by
  have hactive : (pool.activeEntries.map ChannelEntry.id).Nodup :=
    hinv.nodup_ids (fun _ h => hinv.mem_of_active h) (List.nodup_append.mp hinv.nodup).1
  -- The ids to drain are ids of active entries, each once.
  have hids : (drainChannelIds pool.config channelsToRemove keys).Sublist
      (keys.map CandidateKey.entryId) := (List.take_sublist _ _).map _
  have hperm : ((pool.activeEntries.filter fun entry =>
      entry.id ∈ drainChannelIds pool.config channelsToRemove keys).map ChannelEntry.id).Perm
        (drainChannelIds pool.config channelsToRemove keys) := by
    rw [List.perm_ext_iff_of_nodup ((List.filter_sublist.map _).nodup hactive)
      (hids.nodup (hkeys.symm.nodup hactive))]
    intro id
    simp only [List.mem_map, List.mem_filter, decide_eq_true_eq]
    constructor
    · rintro ⟨entry, ⟨-, hid⟩, rfl⟩
      exact hid
    · intro hid
      obtain ⟨entry, hentry, rfl⟩ := List.mem_map.mp (hkeys.subset (hids.subset hid))
      exact ⟨entry, ⟨hentry, hid⟩, rfl⟩
  have hlength : keys.length = pool.activeEntries.length := by simpa using hkeys.length_eq
  rw [← List.length_map ChannelEntry.id, hperm.length_eq, drainChannelIds, List.length_map,
    List.length_take, hlength]
  omega

theorem Inv.drain (hinv : Inv pool) {order candidateKeys : List (CandidateKey bound)}
    {channelsToRemove : ℕ}
    (hmonitor : pool.monitor = .snapshotting channelsToRemove [] candidateKeys) :
    Inv (pool.drain (drainChannelIds pool.config channelsToRemove
      (sortUnstableByKey order candidateKeys))) := by
  have hkeys : ((sortUnstableByKey order candidateKeys).map CandidateKey.entryId).Perm
      (pool.activeEntries.map ChannelEntry.id) := by
    have hsnapshot := hinv.monitor
    rw [hmonitor] at hsnapshot
    simp only [MonitorInv, List.map_nil, List.append_nil] at hsnapshot
    rw [← hsnapshot]
    exact (sortUnstableByKey_perm order candidateKeys).map _
  have hremoved := length_drained hinv channelsToRemove hkeys
  generalize drainChannelIds pool.config channelsToRemove
    (sortUnstableByKey order candidateKeys) = ids at hremoved ⊢
  generalize hdrained : pool.activeEntries.filter (fun entry => entry.id ∈ ids) = drained
    at hremoved
  generalize hkept : pool.activeEntries.filter (fun entry => entry.id ∉ ids) = kept
  have hsplit : (drained ++ kept).Perm pool.activeEntries := by
    rw [← hdrained, ← hkept]
    exact drain_split pool ids
  have hmemDrained : ∀ entry ∈ drained, entry ∈ pool.activeEntries := fun entry h =>
    hsplit.subset (List.mem_append_left _ h)
  have hmemKept : ∀ entry ∈ kept, entry ∈ pool.activeEntries := fun entry h =>
    hsplit.subset (List.mem_append_right _ h)
  -- An entry with the address of a drained one is that one.
  have hown : ∀ entry ∈ pool.created, entry.address ∈ drained.map ChannelEntry.address →
      entry ∈ drained := by
    intro entry h haddress
    obtain ⟨other, hother, heq⟩ := List.mem_map.mp haddress
    rwa [← hinv.eq_of_address (hinv.mem_of_active (hmemDrained other hother)) h heq]
  have hstate : ∀ entry, (pool.drain ids).stateOf entry =
      if entry.address ∈ drained.map ChannelEntry.address then .draining
      else pool.stateOf entry := by
    intro entry
    rw [← hdrained, drain_stateOf]
  have hactiveEntries : (pool.drain ids).activeEntries = kept := hkept
  have hdrainingEntries : (pool.drain ids).drainingEntries = pool.drainingEntries ++ drained := by
    rw [← hdrained, drain_drainingEntries]
  obtain ⟨hconfig, hcreated, hnextEntryId⟩ := drain_frame pool ids
  have hlength : drained.length + kept.length = pool.activeEntries.length := by
    simpa using hsplit.length_eq
  constructor
  · rw [hcreated]
    exact hinv.created
  · rw [hnextEntryId, hcreated]
    exact hinv.nextEntryId
  · rw [hcreated]
    exact fun entry h => hinv.members entry ((drain_perm pool ids).subset h)
  · exact (drain_perm pool ids).symm.nodup hinv.nodup
  · intro entry h
    rw [hactiveEntries] at h
    have hactive := hmemKept entry h
    rw [hstate, if_neg, hinv.active entry hactive]
    intro haddress
    have hdisjoint := (List.nodup_append.mp (hsplit.symm.nodup
      (List.nodup_append.mp hinv.nodup).1)).2.2
    exact hdisjoint entry (hown entry (hinv.mem_of_active hactive) haddress) entry h rfl
  · intro entry h
    rw [hdrainingEntries, List.mem_append] at h
    rw [hstate]
    split_ifs with haddress
    · rfl
    · obtain h | h := h
      · exact hinv.draining entry h
      · exact absurd (List.mem_map_of_mem h) haddress
  · intro entry h
    rw [hcreated] at h
    rw [hactiveEntries, hdrainingEntries, hstate, List.mem_append]
    split_ifs with haddress
    · exact .inr (.inl (.inr (hown entry h haddress)))
    · obtain hactive | hdraining | hclosed := hinv.closed entry h
      · obtain hdrain | hkeep := List.mem_append.mp (hsplit.symm.subset hactive)
        · exact .inr (.inl (.inr hdrain))
        · exact .inl hkeep
      · exact .inr (.inl (.inl hdraining))
      · exact .inr (.inr hclosed)
  · have hfloor := hinv.floor
    rw [hconfig, hactiveEntries]
    omega
  · have hceiling := hinv.ceiling
    rw [hconfig, hactiveEntries]
    omega
  · trivial

/-! ## Closing -/

theorem Inv.close (hinv : Inv pool) {rest : List (ChannelEntry bound)}
    (hmonitor : pool.monitor = .sweeping (entry :: rest)) :
    Inv { pool.setState entry .closed with
      drainingEntries := pool.drainingEntries.erase entry
      monitor := .sweeping rest } := by
  have hsublist : (entry :: rest).Sublist pool.drainingEntries := by
    have := hinv.monitor
    rwa [hmonitor] at this
  have hdraining : entry ∈ pool.drainingEntries := hsublist.subset List.mem_cons_self
  obtain ⟨-, hnodup, hdisjoint⟩ := List.nodup_append.mp hinv.nodup
  have hstate := setState_stateOf pool entry .closed
  have hkeep : ∀ other ∈ pool.created, other ≠ entry →
      (pool.setState entry .closed).stateOf other = pool.stateOf other := by
    intro other h hne
    rw [hstate, if_neg]
    exact fun heq => hne (hinv.eq_of_address h (hinv.mem_of_draining hdraining) heq)
  constructor
  · exact hinv.created
  · exact hinv.nextEntryId
  · intro other h
    obtain h | h := List.mem_append.mp h
    · exact hinv.mem_of_active h
    · exact hinv.mem_of_draining (List.mem_of_mem_erase h)
  · exact (List.Sublist.append_left List.erase_sublist _).nodup hinv.nodup
  · intro other h
    exact (hkeep other (hinv.mem_of_active h) fun heq => hdisjoint other h entry hdraining heq).trans
      (hinv.active other h)
  · intro other h
    obtain ⟨hne, hmem⟩ := (hnodup.mem_erase_iff).mp h
    exact (hkeep other (hinv.mem_of_draining hmem) hne).trans (hinv.draining other hmem)
  · intro other h
    by_cases heq : other = entry
    · subst heq
      exact .inr (.inr ((hstate other).trans (if_pos rfl)))
    · obtain hactive | hdrain | hclosed := hinv.closed other h
      · exact .inl hactive
      · exact .inr (.inl ((List.mem_erase_of_ne heq).mpr hdrain))
      · exact .inr (.inr ((hkeep other h heq).trans hclosed))
  · exact hinv.floor
  · exact hinv.ceiling
  · have := hsublist.erase entry
    rwa [List.erase_cons_head] at this

/-! ## Runs -/

theorem Inv.transition (hinv : Inv pool) {event : Event bound} (h : Transition pool event next) :
    Inv next := by
  cases h with
  | quiet hframe hmonitor => exact hinv.quiet hframe (hmonitor hinv.monitor)
  | publish hactive hdraining hlength hconfig hactiveEntries hdrainingEntries hcreated
      hnextEntryId hatomics hmonitor =>
      exact hinv.publish hactive hdraining hlength hconfig hactiveEntries hdrainingEntries hcreated
        hnextEntryId hatomics hmonitor
  | drain hmonitor => exact hinv.drain hmonitor
  | close hmonitor hclosable => exact hinv.close hmonitor

theorem Inv.step (hinv : Inv pool) (event : Event bound) : Inv (pool.step event) :=
  hinv.transition (step_transition pool event)

theorem newDynamic_inv (channels : List (Instant bound)) (config : DynamicChannelPoolConfig)
    (now : Instant bound) (hmin : config.minChannels ≤ channels.length)
    (hmax : channels.length ≤ config.maxChannels) : Inv (newDynamic channels config now) := by
  have hcreated : ∀ index entry, (initializeEntries channels)[index]? = some entry →
      entry.address = index ∧ entry.id = index + 1 := by
    intro index entry h
    simp only [initializeEntries, List.getElem?_mapIdx, Option.map_eq_some_iff] at h
    obtain ⟨createdAt, -, rfl⟩ := h
    exact ⟨rfl, rfl⟩
  constructor
  · exact hcreated
  · simp [newDynamic, initializeEntries]
  · intro entry h
    simpa [newDynamic] using h
  · simp only [newDynamic, List.append_nil]
    exact nodup_of_address fun index entry h => (hcreated index entry h).1
  · exact fun entry _ => rfl
  · intro entry h
    cases h
  · exact fun entry h => .inl h
  · simpa [newDynamic, initializeEntries] using hmin
  · simpa [newDynamic, initializeEntries] using hmax
  · trivial

/-- Only a sweep closes a channel, and only one that may be closed. -/
theorem closable_of_step (hinv : Inv pool) (event : Event bound) (hentry : entry ∈ pool.created)
    (hopen : pool.stateOf entry ≠ .closed) (hclosed : (pool.step event).stateOf entry = .closed) :
    entry ∈ pool.drainingEntries ∧ Closable pool entry := by
  have htransition := step_transition pool event
  generalize pool.step event = next at htransition hclosed
  cases htransition with
  | quiet hframe hmonitor =>
      rw [hframe.stateOf] at hclosed
      exact absurd hclosed hopen
  | publish hactive hdraining hlength hconfig hactiveEntries hdrainingEntries hcreated
      hnextEntryId hatomics hmonitor =>
      rw [(publish_stateOf hinv hatomics).2 entry hentry] at hclosed
      exact absurd hclosed hopen
  | drain hmonitor =>
      rw [drain_stateOf] at hclosed
      split_ifs at hclosed with haddress
      exact absurd hclosed hopen
  | @close order swept rest hmonitor hclosable =>
      have hsublist := hinv.monitor
      rw [hmonitor] at hsublist
      have hswept : swept ∈ pool.drainingEntries := hsublist.subset List.mem_cons_self
      by_cases haddress : entry.address = swept.address
      · rw [hinv.eq_of_address hentry (hinv.mem_of_draining hswept) haddress]
        exact ⟨hswept, hclosable⟩
      · have hsame : (pool.setState swept .closed).stateOf entry = .closed := hclosed
        rw [setState_stateOf, if_neg haddress] at hsame
        exact absurd hsame hopen

/-- Closed is final. -/
theorem closed_of_transition (hinv : Inv pool) {event : Event bound}
    (h : Transition pool event next) (hentry : entry ∈ pool.created)
    (hclosed : pool.stateOf entry = .closed) : next.stateOf entry = .closed := by
  cases h with
  | quiet hframe _ => rw [hframe.stateOf, hclosed]
  | publish _ _ _ _ _ _ _ _ hatomics _ =>
      rw [(publish_stateOf hinv hatomics).2 entry hentry, hclosed]
  | drain hmonitor =>
      rw [drain_stateOf, if_neg, hclosed]
      intro haddress
      obtain ⟨drained, hdrained, heq⟩ := List.mem_map.mp haddress
      have hactive := List.mem_of_mem_filter hdrained
      have hsame := hinv.eq_of_address (hinv.mem_of_active hactive) hentry heq
      rw [← hsame, hinv.active drained hactive] at hclosed
      cases hclosed
  | @close _ swept _ _ _ =>
      refine (setState_stateOf pool swept .closed entry).trans ?_
      rw [hclosed, ite_self]

/-- Entries are never forgotten. -/
theorem created_of_transition {event : Event bound} (h : Transition pool event next) :
    next.created = pool.created ∨ next.created = pool.created ++ [pool.newEntry] := by
  cases h with
  | quiet hframe _ => exact .inl hframe.created
  | publish _ _ _ _ _ _ hcreated => exact .inr hcreated
  | drain _ => exact .inl (drain_frame pool _).2.1
  | close _ _ => exact .inl rfl

theorem run_inv (hinv : Inv pool) (events : List (Event bound)) : Inv (pool.run events) :=
  Interleaving.foldl_invariant (fun _ event h => h.step event) hinv events

theorem step_config (pool : ChannelPool bound) (event : Event bound) :
    (pool.step event).config = pool.config := by
  have htransition := step_transition pool event
  generalize pool.step event = next at htransition
  cases htransition with
  | quiet hframe _ => exact hframe.config
  | publish _ _ _ hconfig => exact hconfig
  | drain _ => exact (drain_frame pool _).1
  | close _ _ => rfl

theorem run_config (pool : ChannelPool bound) (events : List (Event bound)) :
    (pool.run events).config = pool.config :=
  Interleaving.foldl_invariant (motive := fun next => next.config = pool.config)
    (fun next event h => (step_config next event).trans h) rfl events

/-- The number of active channels stays within its bounds, an entry is in one list at most
and in the lifecycle state of that list, no id is used twice, and a channel is closed only
by a sweep that finds it idle for long enough. -/
theorem run_membership (channels : List (Instant bound)) (config : DynamicChannelPoolConfig)
    (now : Instant bound) (hmin : config.minChannels ≤ channels.length)
    (hmax : channels.length ≤ config.maxChannels) (events : List (Event bound)) :
    let pool := (newDynamic channels config now).run events
    config.minChannels ≤ pool.activeEntries.length ∧
    pool.activeEntries.length ≤ config.maxChannels ∧
    (pool.activeEntries.map ChannelEntry.address).Disjoint
      (pool.drainingEntries.map ChannelEntry.address) ∧
    (∀ entry ∈ pool.activeEntries, pool.stateOf entry = .active) ∧
    (∀ entry ∈ pool.drainingEntries, pool.stateOf entry = .draining) ∧
    (pool.created.map ChannelEntry.id).Nodup ∧
    ∀ event, ∀ entry ∈ pool.created, pool.stateOf entry ≠ .closed →
      (pool.step event).stateOf entry = .closed →
        entry ∈ pool.drainingEntries ∧
        pool.inFlight entry = 0 ∧
        config.drainIdleGrace ≤ entry.elapsedSinceActivity pool.now (pool.atomicsOf entry) ∧
        (0 < pool.activeRwCount entry → 10 * 10 ^ 9 + config.drainIdleGrace.1 ≤
          (entry.elapsedSinceActivity pool.now (pool.atomicsOf entry)).1) := by
  intro pool
  have hinv : Inv pool := run_inv (newDynamic_inv channels config now hmin hmax) events
  have hconfig : pool.config = config := run_config (newDynamic channels config now) events
  refine ⟨hconfig ▸ hinv.floor, hconfig ▸ hinv.ceiling, ?_, hinv.active, hinv.draining,
    hinv.nodup_ids (fun _ h => h) hinv.nodup_created, ?_⟩
  · rw [List.disjoint_left]
    intro address hactive hdraining
    obtain ⟨entry, hentry, rfl⟩ := List.mem_map.mp hactive
    obtain ⟨other, hother, heq⟩ := List.mem_map.mp hdraining
    have hsame := hinv.eq_of_address (hinv.mem_of_draining hother) (hinv.mem_of_active hentry) heq
    exact (List.nodup_append.mp hinv.nodup).2.2 entry hentry other hother hsame.symm
  · intro event entry hentry hopen hclosed
    obtain ⟨hdraining, hflight, hidle, hrw⟩ := closable_of_step hinv event hentry hopen hclosed
    rw [hconfig] at hidle hrw
    exact ⟨hdraining, hflight, hidle, hrw⟩

/-- Before the counter of the ids wraps, their words differ, and none is the zero of no pin. -/
theorem run_idWords (channels : List (Instant bound)) (config : DynamicChannelPoolConfig)
    (now : Instant bound) (hmin : config.minChannels ≤ channels.length)
    (hmax : channels.length ≤ config.maxChannels) (events : List (Event bound)) :
    let pool := (newDynamic channels config now).run events
    pool.created.length < 2 ^ 64 →
      ((pool.created.map ChannelEntry.id).map UInt64.ofNat).Nodup ∧
      0 ∉ (pool.created.map ChannelEntry.id).map UInt64.ofNat := by
  intro pool hfew
  have hinv : Inv pool := run_inv (newDynamic_inv channels config now hmin hmax) events
  have hlt : ∀ id ∈ pool.created.map ChannelEntry.id, 0 < id ∧ id < 2 ^ 64 := by
    intro id hid
    obtain ⟨entry, hentry, rfl⟩ := List.mem_map.mp hid
    exact ⟨hinv.id_pos hentry, (hinv.id_le hentry).trans_lt hfew⟩
  refine ⟨Interleaving.nodup_words (fun id hid => (hlt id hid).2)
    (hinv.nodup_ids (fun _ h => h) hinv.nodup_created), ?_⟩
  intro hzero
  obtain ⟨id, hid, hword⟩ := List.mem_map.mp hzero
  have hnat := congrArg UInt64.toNat hword
  rw [UInt64.toNat_ofNat_of_lt' (hlt id hid).2] at hnat
  exact absurd hnat (hlt id hid).1.ne'

/-- One of two idle channels is drained and then closed by the next sweep. -/
theorem run_membership_sweep :
    let config : DynamicChannelPoolConfig :=
      { initialChannels := 2, minChannels := 1, consecutiveLowLoadChecks := 1,
        drainIdleGrace := .zero }
    let entry : ChannelEntry 0 := ⟨0, 1, 1, ⟨0, le_rfl⟩⟩
    let pool := (newDynamic [⟨0, le_rfl⟩, ⟨0, le_rfl⟩] config ⟨0, le_rfl⟩).run
      (Event.evaluateAndExecuteScaleDown :: List.replicate 8 (Event.advanceMonitor []) ++
        [Event.sweepDrainingChannels])
    pool.stateOf entry ≠ .closed ∧ (pool.step (.advanceMonitor [])).stateOf entry = .closed ∧
      entry ∈ pool.drainingEntries ∧ pool.inFlight entry = 0 := by
  intro config entry pool
  have hopen : pool.stateOf entry ≠ .closed := by decide +kernel
  have hclosed : (pool.step (.advanceMonitor [])).stateOf entry = .closed := by decide +kernel
  have hmembership := run_membership [⟨0, le_rfl⟩, ⟨0, le_rfl⟩] config ⟨0, le_rfl⟩ (by decide)
    (by decide) (Event.evaluateAndExecuteScaleDown :: List.replicate 8 (Event.advanceMonitor []) ++
      [Event.sweepDrainingChannels])
  obtain ⟨-, -, -, -, -, -, hcloses⟩ := hmembership
  obtain ⟨hdraining, hflight, -⟩ := hcloses (.advanceMonitor []) entry (by decide +kernel) hopen
    hclosed
  exact ⟨hopen, hclosed, hdraining, hflight⟩

end GoogleCloudRust.ChannelPool
