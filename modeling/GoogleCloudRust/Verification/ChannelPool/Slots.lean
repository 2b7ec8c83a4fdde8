import GoogleCloudRust.Verification.ChannelPool.Membership

/-! # Logical channel ids

A new channel gets the lowest of the 256 slots that no live channel has. When there is
none, it gets a slot that is taken. -/

namespace GoogleCloudRust.ChannelPool

variable {bound : ℕ} {pool next : ChannelPool bound}

def logicalChannelIds (pool : ChannelPool bound) : List ℕ :=
  pool.liveEntries.map ChannelEntry.logicalChannelId

/-- A call of `publish_primed_channel` that adds a channel. -/
def Adds (pool : ChannelPool bound) (event : Event bound) : Prop :=
  event = .publishPrimedChannel ∧ pool.monitor.holdsActive = false ∧
    pool.monitor.holdsDraining = false ∧ pool.activeEntries.length < pool.config.maxChannels

/-! ## Slots -/

/-- All slots that a channel can get. -/
def supportedSlots : List ℕ := List.range' 1 maxSupportedChannels

theorem mem_supportedSlots {slot : ℕ} :
    slot ∈ supportedSlots ↔ 1 ≤ slot ∧ slot ≤ maxSupportedChannels := by
  simp only [supportedSlots, maxSupportedChannels, List.mem_range'_1]
  omega

theorem length_supportedSlots : supportedSlots.length = maxSupportedChannels := by
  simp [supportedSlots]

theorem nodup_supportedSlots : supportedSlots.Nodup := List.nodup_range'

theorem occupiedSlots_eq_true {entries : List (ChannelEntry bound)} {slot : ℕ}
    (hslot : slot ∈ supportedSlots) :
    occupiedSlots entries slot = true ↔ slot ∈ entries.map ChannelEntry.logicalChannelId := by
  simp only [occupiedSlots, List.any_eq_true, Bool.and_eq_true, decide_eq_true_eq, beq_iff_eq,
    List.mem_map]
  constructor
  · rintro ⟨entry, hentry, -, heq⟩
    exact ⟨entry, hentry, heq⟩
  · rintro ⟨entry, hentry, rfl⟩
    exact ⟨entry, hentry, (mem_supportedSlots.mp hslot).2, rfl⟩

/-- The slot is free, or all slots are taken and it is the fallback. -/
theorem allocateSlot_cases (entries : List (ChannelEntry bound)) (maxChannels : ℕ) :
    (allocateSlot (occupiedSlots entries) maxChannels ∈ supportedSlots ∧
      allocateSlot (occupiedSlots entries) maxChannels ∉
        entries.map ChannelEntry.logicalChannelId) ∨
    (allocateSlot (occupiedSlots entries) maxChannels = maxChannels ∧
      supportedSlots ⊆ entries.map ChannelEntry.logicalChannelId) := by
  unfold allocateSlot
  cases hfind : (List.range' 1 maxSupportedChannels).find? fun slot =>
      !occupiedSlots entries slot with
  | some slot =>
      have hmem : slot ∈ supportedSlots := List.mem_of_find?_eq_some hfind
      have hfree := List.find?_some hfind
      refine .inl ⟨hmem, fun h => ?_⟩
      rw [(occupiedSlots_eq_true hmem).mpr h] at hfree
      cases hfree
  | none =>
      refine .inr ⟨rfl, fun slot hslot => (occupiedSlots_eq_true hslot).mp ?_⟩
      simpa using List.find?_eq_none.mp hfind slot hslot

/-- Distinct ids within the supported range use up all slots exactly when there are at
least as many of them as slots. -/
theorem supportedSlots_subset_iff {slots : List ℕ} (hnodup : slots.Nodup)
    (hrange : slots ⊆ supportedSlots) :
    supportedSlots ⊆ slots ↔ maxSupportedChannels ≤ slots.length := by
  rw [← length_supportedSlots]
  constructor
  · intro h
    exact (nodup_supportedSlots.subperm h).length_le
  · intro h
    exact ((hnodup.subperm hrange).perm_of_length_le h).symm.subset

/-! ## Steps -/

theorem liveEntries_eq (hinv : Inv pool) :
    pool.liveEntries = pool.activeEntries ++ pool.drainingEntries := by
  unfold liveEntries
  rw [List.filter_eq_self.mpr]
  intro entry h
  simp [hinv.draining entry h]

/-- Steps that add no channel keep or lose ids. -/
theorem logicalChannelIds_subperm (hinv : Inv pool) {event : Event bound} (h : ¬Adds pool event)
    (htransition : Transition pool event next) :
    next.logicalChannelIds.Subperm pool.logicalChannelIds := by
  rw [logicalChannelIds, logicalChannelIds, liveEntries_eq hinv,
    liveEntries_eq (hinv.transition htransition)]
  cases htransition with
  | quiet hframe _ => rw [hframe.activeEntries, hframe.drainingEntries]
  | publish hactive hdraining hlength => exact absurd ⟨rfl, hactive, hdraining, hlength⟩ h
  | drain hmonitor => exact ((drain_perm pool _).map _).subperm
  | close hmonitor _ => exact ((List.Sublist.append_left List.erase_sublist _).map _).subperm

/-- Slots come from the supported range, whether free or not. -/
structure SlotInv (pool : ChannelPool bound) : Prop extends Inv pool where
  maxChannels : pool.config.maxChannels ∈ supportedSlots
  range : pool.logicalChannelIds ⊆ supportedSlots

theorem newEntry_slot (hinv : SlotInv pool) : pool.newEntry.logicalChannelId ∈ supportedSlots := by
  have hcases := allocateSlot_cases pool.liveEntries pool.config.maxChannels
  obtain ⟨hmem, -⟩ | ⟨heq, -⟩ := hcases
  · exact hmem
  · rw [newEntry, heq]
    exact hinv.maxChannels

/-- A channel that is added comes on top of the others. -/
theorem logicalChannelIds_publish (hinv : Inv pool) {event : Event bound} (h : Adds pool event) :
    (pool.step event).logicalChannelIds.Perm
      (pool.newEntry.logicalChannelId :: pool.logicalChannelIds) := by
  obtain ⟨rfl, hactive, hdraining, hlength⟩ := h
  have hstep : pool.publishPrimedChannel.activeEntries = pool.activeEntries ++ [pool.newEntry] ∧
      pool.publishPrimedChannel.drainingEntries = pool.drainingEntries := by
    unfold publishPrimedChannel
    rw [if_neg (by simp [hactive, hdraining]), if_neg (Nat.not_le_of_lt hlength)]
    exact ⟨rfl, rfl⟩
  rw [logicalChannelIds, logicalChannelIds, liveEntries_eq hinv,
    liveEntries_eq (hinv.step .publishPrimedChannel), step, hstep.1, hstep.2, List.append_assoc,
    ← List.map_cons]
  exact List.perm_middle.map _

theorem SlotInv.step (hinv : SlotInv pool) (event : Event bound) : SlotInv (pool.step event) := by
  refine ⟨hinv.toInv.step event, ?_, ?_⟩
  · rw [step_config]
    exact hinv.maxChannels
  · by_cases h : Adds pool event
    · intro slot hslot
      obtain rfl | hmem := List.mem_cons.mp
        ((logicalChannelIds_publish hinv.toInv h).subset hslot)
      · exact newEntry_slot hinv
      · exact hinv.range hmem
    · have hsubperm := logicalChannelIds_subperm hinv.toInv h (step_transition pool event)
      exact fun slot hslot => hinv.range (hsubperm.subset hslot)

/-- While the ids are distinct, a step keeps them so unless it adds a channel when all
slots are taken. -/
theorem nodup_step_iff (hinv : SlotInv pool) (hnodup : pool.logicalChannelIds.Nodup)
    (event : Event bound) : (pool.step event).logicalChannelIds.Nodup ↔
      (Adds pool event → pool.liveEntries.length < maxSupportedChannels) := by
  by_cases h : Adds pool event
  · have hfull := supportedSlots_subset_iff hnodup hinv.range
    have hlength : pool.logicalChannelIds.length = pool.liveEntries.length := List.length_map _
    rw [(logicalChannelIds_publish hinv.toInv h).nodup_iff, List.nodup_cons, ← hlength,
      ← Nat.not_le, ← hfull]
    have hcases := allocateSlot_cases pool.liveEntries pool.config.maxChannels
    constructor
    · rintro ⟨hnotMem, -⟩ - hsubset
      exact hnotMem (hsubset (newEntry_slot hinv))
    · intro hfree
      obtain ⟨-, hnotMem⟩ | ⟨-, hsubset⟩ := hcases
      · exact ⟨hnotMem, hnodup⟩
      · exact absurd hsubset (hfree h)
  · have hsubperm := logicalChannelIds_subperm hinv.toInv h (step_transition pool event)
    obtain ⟨kept, hperm, hsublist⟩ := hsubperm
    exact ⟨fun _ hadds => absurd hadds h, fun _ => hperm.nodup (hsublist.nodup hnodup)⟩

/-- A channel added when all slots are taken shares the id of another. -/
theorem collides_of_full (hinv : SlotInv pool) {event : Event bound} (hadds : Adds pool event)
    (hfull : maxSupportedChannels ≤ pool.liveEntries.length) :
    ¬(pool.step event).logicalChannelIds.Nodup := by
  intro hnodup
  have hbefore : pool.logicalChannelIds.Nodup :=
    (List.nodup_cons.mp ((logicalChannelIds_publish hinv.toInv hadds).nodup hnodup)).2
  exact Nat.not_lt_of_le hfull ((nodup_step_iff hinv hbefore event).mp hnodup hadds)

/-! ## Runs -/

theorem run_slots (hinv : SlotInv pool) (events : List (Event bound)) :
    SlotInv (pool.run events) :=
  Interleaving.foldl_invariant (motive := SlotInv) (fun _ event h => h.step event) hinv events

theorem nodup_run_iff (hinv : SlotInv pool) (hnodup : pool.logicalChannelIds.Nodup)
    (events : List (Event bound)) :
    (∀ n, (pool.run (events.take n)).logicalChannelIds.Nodup) ↔
      ∀ n event, events[n]? = some event → Adds (pool.run (events.take n)) event →
        (pool.run (events.take n)).liveEntries.length < maxSupportedChannels := by
  induction events generalizing pool with
  | nil => simpa [run] using hnodup
  | cons event events ih =>
      have hstep := nodup_step_iff hinv hnodup event
      constructor
      · intro hall n later hlater hadds
        cases n with
        | zero =>
            obtain rfl := Option.some.inj hlater
            exact hstep.mp (hall 1) hadds
        | succ n =>
            have htail := (ih (hinv.step event) (hall 1)).mp fun n => hall (n + 1)
            exact htail n later hlater hadds
      · intro hmeets n
        have hfirst := hstep.mpr (hmeets 0 event rfl)
        cases n with
        | zero => exact hnodup
        | succ n => exact (ih (hinv.step event) hfirst).mpr (fun n => hmeets (n + 1)) n

theorem ite_error_eq_ok {ε α : Type*} {p : Prop} [Decidable p] {error : ε} {result : Except ε α}
    {value : α} : (if p then .error error else result) = .ok value ↔ ¬p ∧ result = .ok value := by
  by_cases h : p
  · simp [h]
  · simp [h]

/-- What a valid configuration says about the number of channels. -/
theorem validate_eq_ok {config : DynamicChannelPoolConfig} (h : config.validate = .ok ()) :
    config.maxChannels ∈ supportedSlots ∧ config.minChannels ≤ config.initialChannels ∧
      config.initialChannels ≤ config.maxChannels := by
  simp only [DynamicChannelPoolConfig.validate, ite_error_eq_ok] at h
  obtain ⟨hzero, hle, hsupported, hinitial, -⟩ := h
  rw [mem_supportedSlots]
  omega

theorem newDynamic_slots (channels : List (Instant bound)) (config : DynamicChannelPoolConfig)
    (now : Instant bound) (hvalid : config.validate = .ok ())
    (hlength : channels.length = config.initialChannels) :
    SlotInv (newDynamic channels config now) ∧
      (newDynamic channels config now).logicalChannelIds.Nodup := by
  obtain ⟨hslots, hmin, hmax⟩ := validate_eq_ok hvalid
  have hinv := newDynamic_inv channels config now (hlength ▸ hmin) (hlength ▸ hmax)
  have hids : (newDynamic channels config now).logicalChannelIds =
      List.range' 1 channels.length := by
    rw [logicalChannelIds, liveEntries_eq hinv]
    apply List.ext_getElem
    · simp [newDynamic, initializeEntries]
    · intro index _ _
      simp [newDynamic, initializeEntries]
      omega
  refine ⟨⟨hinv, hslots, ?_⟩, ?_⟩
  · rw [hids]
    intro slot hslot
    rw [List.mem_range'_1] at hslot
    rw [mem_supportedSlots] at hslots ⊢
    omega
  · rw [hids]
    exact List.nodup_range'

/-- The ids of the live channels stay pairwise distinct along a run exactly when each
channel is added while fewer than 256 channels are live. -/
theorem run_distinct_iff (channels : List (Instant bound)) (config : DynamicChannelPoolConfig)
    (now : Instant bound) (hvalid : config.validate = .ok ())
    (hlength : channels.length = config.initialChannels) (events : List (Event bound)) :
    (∀ n, ((newDynamic channels config now).run (events.take n)).logicalChannelIds.Nodup) ↔
      ∀ n event, events[n]? = some event →
        Adds ((newDynamic channels config now).run (events.take n)) event →
        ((newDynamic channels config now).run (events.take n)).liveEntries.length <
          maxSupportedChannels := by
  obtain ⟨hinv, hnodup⟩ := newDynamic_slots channels config now hvalid hlength
  exact nodup_run_iff hinv hnodup events

theorem run_distinct_iff_defaultConfig :
    ((newDynamic (List.replicate 4 ⟨0, le_rfl⟩) {} ⟨0, le_rfl⟩ : ChannelPool 0).run
      [.publishPrimedChannel]).logicalChannelIds.Nodup := by
  have hroom := @run_distinct_iff 0 (List.replicate 4 ⟨0, le_rfl⟩) {} ⟨0, le_rfl⟩
    (by decide +kernel) rfl [.publishPrimedChannel]
  refine hroom.mpr (fun n event hevent _ => ?_) 1
  cases n with
  | zero => decide
  | succ n => cases hevent

/-! ## Running out of slots -/

theorem run_concat (pool : ChannelPool bound) (events : List (Event bound)) (event : Event bound) :
    pool.run (events ++ [event]) = (pool.run events).step event := by
  rw [run, List.foldl_concat]
  rfl

theorem run_append (pool : ChannelPool bound) (events later : List (Event bound)) :
    pool.run (events ++ later) = (pool.run events).run later := List.foldl_append

/-- Undisturbed, the monitor task adds up the in-flight counts as they are. -/
theorem run_summing {rest : List (ChannelEntry bound)} {totalInFlight : UInt32}
    (h : pool.monitor = .summing rest totalInFlight) :
    pool.run (List.replicate rest.length (.advanceMonitor [])) =
      { pool with
        monitor := .summing [] ((rest.map pool.inFlight).foldl (· + ·) totalInFlight) } := by
  induction rest generalizing pool totalInFlight with
  | nil =>
      cases pool
      cases h
      rfl
  | cons entry rest ih =>
      rw [List.length_cons, List.replicate_succ, run, List.foldl_cons, step, advanceMonitor, h]
      exact ih rfl

/-- Undisturbed, it takes the keys as they are. -/
theorem run_snapshotting {channelsToRemove : ℕ} {rest : List (ChannelEntry bound)}
    {candidateKeys : List (CandidateKey bound)}
    (h : pool.monitor = .snapshotting channelsToRemove rest candidateKeys) :
    pool.run (List.replicate rest.length (.advanceMonitor [])) =
      { pool with
        monitor := .snapshotting channelsToRemove []
          (candidateKeys ++ rest.map pool.candidateKey) } := by
  induction rest generalizing pool candidateKeys with
  | nil =>
      cases pool
      cases h
      simp [run]
  | cons entry rest ih =>
      rw [List.length_cons, List.replicate_succ, run, List.foldl_cons, step, advanceMonitor, h]
      refine (ih rfl).trans ?_
      simp [candidateKey, inFlight, activeRwCount, atomicsOf]

/-- An undisturbed `evaluate_and_execute_scale_down` of a pool with this many channels: the
checks before the lock, the sum, the decision, the keys and the `retain`. -/
def scaleDownEvents (bound length : ℕ) : List (Event bound) :=
  [Event.evaluateAndExecuteScaleDown, .advanceMonitor [], .advanceMonitor []] ++
    List.replicate length (Event.advanceMonitor []) ++ [Event.advanceMonitor []] ++
    List.replicate length (Event.advanceMonitor []) ++ [Event.advanceMonitor []]

/-- If no check stops it, it moves channels to the draining ones and closes none. -/
theorem run_scaleDownEvents (hinv : Inv pool) {totalInFlight : UInt32} {channelsToRemove : ℕ}
    (hmonitor : pool.monitor = .idle) (hrequested : pool.scaleUpRequested = false)
    (hlast : pool.lastScaleUpTime = none)
    (hfloor : pool.config.minChannels < pool.activeEntries.length)
    (hsum : (pool.activeEntries.map pool.inFlight).foldl (· + ·) 0 = totalInFlight)
    (hdecide : ({ pool with monitor := .summing [] totalInFlight } :
        ChannelPool bound).decideScaleDown totalInFlight =
      { pool with
        consecutiveLowLoadChecks := pool.consecutiveLowLoadChecks + 1
        monitor := .snapshotting channelsToRemove pool.activeEntries [] }) :
    let next := pool.run (scaleDownEvents bound pool.activeEntries.length)
    next.monitor = .idle ∧ next.liveEntries.length = pool.liveEntries.length ∧
      next.activeEntries.length + min (pool.activeEntries.length - pool.config.minChannels)
        channelsToRemove = pool.activeEntries.length := by
  intro next
  have hchecks : pool.run [.evaluateAndExecuteScaleDown, .advanceMonitor [], .advanceMonitor []] =
      { pool with monitor := .summing pool.activeEntries 0 } := by
    simp [run, step, enter, hmonitor, checkScaleUpRequested, hrequested, advanceMonitor,
      checkCooldown, hlast, checkMinChannels, Nat.not_le_of_lt hfloor]
  have hsummed : ({ pool with monitor := .summing pool.activeEntries 0 } : ChannelPool bound).run
      (List.replicate pool.activeEntries.length (.advanceMonitor [])) =
        { pool with monitor := .summing [] totalInFlight } := by
    subst hsum
    exact run_summing rfl
  have hdecided : ({ pool with monitor := .summing [] totalInFlight } : ChannelPool bound).run
      [.advanceMonitor []] = _ := hdecide
  have hkeys := @run_snapshotting bound { pool with
    consecutiveLowLoadChecks := pool.consecutiveLowLoadChecks + 1
    monitor := .snapshotting channelsToRemove pool.activeEntries [] } _ _ _ rfl
  obtain ⟨ids, hids, hdrain⟩ : ∃ ids, (pool.activeEntries.filter fun entry =>
      entry.id ∈ ids).length = min (pool.activeEntries.length - pool.config.minChannels)
        channelsToRemove ∧
      next = ({ pool with
        consecutiveLowLoadChecks := pool.consecutiveLowLoadChecks + 1
        monitor := .snapshotting channelsToRemove []
          (pool.activeEntries.map pool.candidateKey) } : ChannelPool bound).drain ids := by
    refine ⟨drainChannelIds pool.config channelsToRemove
      (sortUnstableByKey [] (pool.activeEntries.map pool.candidateKey)), ?_, ?_⟩
    · apply length_drained hinv
      refine ((sortUnstableByKey_perm _ _).map _).trans ?_
      rw [List.map_map]
      rfl
    · simp only [next]
      rw [scaleDownEvents, run_append, run_append, run_append, run_append, hchecks, hsummed,
        hdecided, hkeys]
      rfl
  have hlive := (drain_perm pool ids).length_eq
  have hsplit := (drain_split pool ids).length_eq
  rw [List.length_append, hids, drain_activeEntries] at hsplit
  refine ⟨by rw [hdrain]; rfl, ?_, ?_⟩
  · rw [liveEntries_eq hinv, liveEntries_eq (run_inv hinv _), ← hlive]
    change (next.activeEntries ++ next.drainingEntries).length = _
    rw [hdrain]
    rfl
  · have hkept : next.activeEntries = pool.activeEntries.filter fun entry => entry.id ∉ ids := by
      rw [hdrain, drain_activeEntries]
    rw [hkept, Nat.add_comm]
    exact hsplit

/-- Of 256 channels, one low-load check drains all but one. -/
def exhaustingConfig : DynamicChannelPoolConfig where
  initialChannels := 256
  minChannels := 1
  consecutiveLowLoadChecks := 1
  maxRemoveChannels := 255

def exhaustingPool : ChannelPool 0 :=
  newDynamic (List.replicate 256 ⟨0, le_rfl⟩) exhaustingConfig ⟨0, le_rfl⟩

theorem length_exhaustingPool : exhaustingPool.activeEntries.length = 256 := by
  rw [exhaustingPool, newDynamic, initializeEntries, List.length_mapIdx, List.length_replicate]

theorem decideScaleDown_exhaustingPool :
    ({ exhaustingPool with monitor := .summing [] 0 } : ChannelPool 0).decideScaleDown 0 =
      { exhaustingPool with
        consecutiveLowLoadChecks := exhaustingPool.consecutiveLowLoadChecks + 1
        monitor := .snapshotting 255 exhaustingPool.activeEntries [] } := by
  have hremove : min (256 - max (exhaustingPool.config.desiredChannelCount 0)
      exhaustingPool.config.minChannels) exhaustingPool.config.maxRemoveChannels = 255 := by
    decide +kernel
  unfold decideScaleDown
  simp only [length_exhaustingPool, hremove]
  rw [if_neg (by decide +kernel), if_neg (by decide +kernel), if_neg (by decide +kernel),
    if_neg (by decide)]

theorem run_exhaustingPool (hinv : Inv exhaustingPool) :
    let next := exhaustingPool.run (scaleDownEvents 0 256)
    next.monitor = .idle ∧ next.liveEntries.length = 256 ∧ next.activeEntries.length = 1 := by
  have hsum : (exhaustingPool.activeEntries.map exhaustingPool.inFlight).foldl (· + ·) 0 = 0 := by
    rw [List.foldl_map]
    exact List.foldl_fixed' (fun _ => rfl) _
  have hfloor : exhaustingPool.config.minChannels < exhaustingPool.activeEntries.length := by
    rw [length_exhaustingPool]
    decide
  have hrun := run_scaleDownEvents hinv rfl rfl rfl hfloor hsum decideScaleDown_exhaustingPool
  rw [liveEntries_eq hinv, List.length_append, length_exhaustingPool] at hrun
  obtain ⟨hmonitor, hlive, hactive⟩ := hrun
  exact ⟨hmonitor, hlive, Nat.add_right_cancel hactive⟩

/-- The channel added next collides with one of the 256 live ones. -/
theorem exhaustingPool_collides : exhaustingConfig.validate = .ok () ∧
    ¬(exhaustingPool.run
      (scaleDownEvents 0 256 ++ [Event.publishPrimedChannel])).logicalChannelIds.Nodup := by
  have hvalid : exhaustingConfig.validate = .ok () := by decide +kernel
  have hslots : SlotInv exhaustingPool :=
    (newDynamic_slots _ exhaustingConfig _ hvalid List.length_replicate).1
  obtain ⟨hmonitor, hlive, hactive⟩ := run_exhaustingPool hslots.toInv
  refine ⟨hvalid, ?_⟩
  rw [run_concat]
  refine collides_of_full (run_slots hslots _) ⟨rfl, ?_, ?_, ?_⟩ (Nat.le_of_eq hlive.symm)
  · rw [hmonitor]
    rfl
  · rw [hmonitor]
    rfl
  · rw [run_config, hactive]
    decide

end GoogleCloudRust.ChannelPool
