import GoogleCloudRust.Model.ChannelPool

/-! # What a step of the channel pool can do

Four things happen to the lists and the lifecycle states: nothing, one channel is added,
some active channels start draining, or one draining channel is closed. -/

namespace GoogleCloudRust.ChannelPool

variable {bound : ℕ} {pool next : ChannelPool bound}

/-- The entries are where they were and keep their lifecycle states. -/
structure Frame (pool next : ChannelPool bound) : Prop where
  config : next.config = pool.config
  activeEntries : next.activeEntries = pool.activeEntries
  drainingEntries : next.drainingEntries = pool.drainingEntries
  created : next.created = pool.created
  nextEntryId : next.nextEntryId = pool.nextEntryId
  state : ∀ address, (next.atomics address).state = (pool.atomics address).state

namespace Frame

theorem refl (pool : ChannelPool bound) : Frame pool pool :=
  ⟨rfl, rfl, rfl, rfl, rfl, fun _ => rfl⟩

theorem trans {later : ChannelPool bound} (h : Frame pool next) (h' : Frame next later) :
    Frame pool later where
  config := h'.config.trans h.config
  activeEntries := h'.activeEntries.trans h.activeEntries
  drainingEntries := h'.drainingEntries.trans h.drainingEntries
  created := h'.created.trans h.created
  nextEntryId := h'.nextEntryId.trans h.nextEntryId
  state := fun address => (h'.state address).trans (h.state address)

theorem stateOf (h : Frame pool next) (entry : ChannelEntry bound) :
    next.stateOf entry = pool.stateOf entry := h.state entry.address

end Frame

/-- An update of an entry's counters leaves its lifecycle state alone. -/
theorem update_state (pool : ChannelPool bound) (entry : ChannelEntry bound)
    {updated : EntryAtomics} (h : updated.state = pool.stateOf entry) (address : ℕ) :
    (Function.update pool.atomics entry.address updated address).state =
      (pool.atomics address).state := by
  by_cases heq : address = entry.address
  · subst heq
    rw [Function.update_self]
    exact h
  · rw [Function.update_of_ne heq]

theorem applyErrorPenalty_state (entry : ChannelEntry bound) (now : Instant bound) (code : Code)
    (penaltyStep : UInt32) (duration : Duration) (maxPenalty : UInt32) (atomics : EntryAtomics) :
    (entry.applyErrorPenalty now code penaltyStep duration maxPenalty atomics).state =
      atomics.state := by
  unfold ChannelEntry.applyErrorPenalty
  split_ifs <;> rfl

theorem makeLease_frame (pool : ChannelPool bound) (entry : ChannelEntry bound) :
    Frame pool (pool.makeLease entry) ∧ (pool.makeLease entry).monitor = pool.monitor := by
  unfold makeLease
  simp only
  split_ifs
  all_goals
    exact ⟨⟨rfl, rfl, rfl, rfl, rfl, update_state pool entry rfl⟩, rfl⟩

theorem dropRpcGuard_frame (pool : ChannelPool bound) (entry : ChannelEntry bound) :
    Frame pool (pool.dropRpcGuard entry) ∧ (pool.dropRpcGuard entry).monitor = pool.monitor := by
  unfold dropRpcGuard
  split_ifs
  · exact ⟨⟨rfl, rfl, rfl, rfl, rfl, update_state pool entry rfl⟩, rfl⟩
  · exact ⟨Frame.refl pool, rfl⟩

theorem newRwGuard_frame (pool : ChannelPool bound) (entry : ChannelEntry bound) :
    Frame pool (pool.newRwGuard entry) ∧ (pool.newRwGuard entry).monitor = pool.monitor :=
  ⟨⟨rfl, rfl, rfl, rfl, rfl, update_state pool entry rfl⟩, rfl⟩

theorem dropRwGuard_frame (pool : ChannelPool bound) (entry : ChannelEntry bound) :
    Frame pool (pool.dropRwGuard entry) ∧ (pool.dropRwGuard entry).monitor = pool.monitor := by
  unfold dropRwGuard
  split_ifs
  · exact ⟨⟨rfl, rfl, rfl, rfl, rfl, update_state pool entry rfl⟩, rfl⟩
  · exact ⟨Frame.refl pool, rfl⟩

theorem withEntry_frame (pool : ChannelPool bound) (address : ℕ)
    {operation : ChannelEntry bound → ChannelPool bound}
    (h : ∀ entry, Frame pool (operation entry) ∧ (operation entry).monitor = pool.monitor) :
    Frame pool (pool.withEntry address operation) ∧
      (pool.withEntry address operation).monitor = pool.monitor := by
  unfold withEntry
  cases pool.created[address]? with
  | none => exact ⟨Frame.refl pool, rfl⟩
  | some entry => exact h entry

/-- Requests change counters only. -/
theorem handle_frame (pool : ChannelPool bound) (traffic : Traffic bound) :
    Frame pool (pool.handle traffic) ∧ (pool.handle traffic).monitor = pool.monitor := by
  cases traffic with
  | elapse later => exact ⟨⟨rfl, rfl, rfl, rfl, rfl, fun _ => rfl⟩, rfl⟩
  | makeLease address => exact withEntry_frame pool address (makeLease_frame pool)
  | dropRpcGuard address => exact withEntry_frame pool address (dropRpcGuard_frame pool)
  | newRwGuard address => exact withEntry_frame pool address (newRwGuard_frame pool)
  | dropRwGuard address => exact withEntry_frame pool address (dropRwGuard_frame pool)
  | recordErrorCode address code =>
      refine withEntry_frame pool address fun entry => ⟨⟨rfl, rfl, rfl, rfl, rfl, ?_⟩, rfl⟩
      exact update_state pool entry (applyErrorPenalty_state ..)
  | setPrimeSession => exact ⟨⟨rfl, rfl, rfl, rfl, rfl, fun _ => rfl⟩, rfl⟩

theorem advanceWorker_frame (pool : ChannelPool bound) :
    Frame pool pool.advanceWorker ∧ pool.advanceWorker.monitor = pool.monitor := by
  unfold advanceWorker
  split
  · exact ⟨Frame.refl pool, rfl⟩
  · split_ifs
    · exact ⟨Frame.refl pool, rfl⟩
    · unfold calculateScaleUpCount
      simp only
      split_ifs <;> exact ⟨⟨rfl, rfl, rfl, rfl, rfl, fun _ => rfl⟩, rfl⟩

/-! ## The monitor task -/

/-- What the monitor task knows while it holds a lock. -/
def MonitorInv (pool : ChannelPool bound) : MonitorTask bound → Prop
  | .summing _ _ => pool.config.minChannels < pool.activeEntries.length
  | .snapshotting _ rest candidateKeys =>
      candidateKeys.map CandidateKey.entryId ++ rest.map ChannelEntry.id =
        pool.activeEntries.map ChannelEntry.id
  | .sweeping rest => rest.Sublist pool.drainingEntries
  | _ => True

theorem MonitorInv.frame {task : MonitorTask bound} (h : MonitorInv pool task)
    (hframe : Frame pool next) : MonitorInv next task := by
  cases task with
  | summing rest total =>
      simpa only [MonitorInv, hframe.config, hframe.activeEntries] using h
  | snapshotting channelsToRemove rest candidateKeys =>
      simpa only [MonitorInv, hframe.activeEntries] using h
  | sweeping rest => simpa only [MonitorInv, hframe.drainingEntries] using h
  | idle => trivial
  | scaleUpNotRequested => trivial
  | notInCooldown => trivial

/-- A channel is closed: it has no request in flight and has been idle for long enough. -/
structure Closable (pool : ChannelPool bound) (entry : ChannelEntry bound) : Prop where
  inFlight : pool.inFlight entry = 0
  idle : pool.config.drainIdleGrace ≤ entry.elapsedSinceActivity pool.now (pool.atomicsOf entry)
  idleWithTransactions : 0 < pool.activeRwCount entry →
    spannerRwTransactionIdleTimeout.1 + pool.config.drainIdleGrace.1 ≤
      (entry.elapsedSinceActivity pool.now (pool.atomicsOf entry)).1

/-- The entry that `publish_primed_channel` adds. -/
def newEntry (pool : ChannelPool bound) : ChannelEntry bound :=
  ⟨pool.created.length, pool.nextEntryId,
    allocateSlot (occupiedSlots pool.liveEntries) pool.config.maxChannels, pool.now⟩

inductive Transition (pool : ChannelPool bound) : Event bound → ChannelPool bound → Prop
  | quiet {event : Event bound} {next : ChannelPool bound} (hframe : Frame pool next)
      (hmonitor : MonitorInv pool pool.monitor → MonitorInv next next.monitor) :
      Transition pool event next
  | publish {next : ChannelPool bound} (hactive : pool.monitor.holdsActive = false)
      (hdraining : pool.monitor.holdsDraining = false)
      (hlength : pool.activeEntries.length < pool.config.maxChannels)
      (hconfig : next.config = pool.config)
      (hactiveEntries : next.activeEntries = pool.activeEntries ++ [pool.newEntry])
      (hdrainingEntries : next.drainingEntries = pool.drainingEntries)
      (hcreated : next.created = pool.created ++ [pool.newEntry])
      (hnextEntryId : next.nextEntryId = pool.nextEntryId + 1)
      (hatomics : next.atomics = Function.update pool.atomics pool.created.length {})
      (hmonitor : next.monitor = pool.monitor) : Transition pool .publishPrimedChannel next
  | drain {order candidateKeys : List (CandidateKey bound)} {channelsToRemove : ℕ}
      (hmonitor : pool.monitor = .snapshotting channelsToRemove [] candidateKeys) :
      Transition pool (.advanceMonitor order) (pool.drain (drainChannelIds pool.config
        channelsToRemove (sortUnstableByKey order candidateKeys)))
  | close {order : List (CandidateKey bound)} {entry : ChannelEntry bound}
      {rest : List (ChannelEntry bound)} (hmonitor : pool.monitor = .sweeping (entry :: rest))
      (hclosable : Closable pool entry) :
      Transition pool (.advanceMonitor order)
        { pool.setState entry .closed with
          drainingEntries := pool.drainingEntries.erase entry
          monitor := .sweeping rest }

namespace Transition

/-- A step that leaves the lists and the states alone, and the monitor task where it was or
outside of its critical sections. -/
theorem of_frame {event : Event bound} (hframe : Frame pool next)
    (hmonitor : next.monitor = pool.monitor ∨ ∀ pool : ChannelPool bound,
      MonitorInv pool next.monitor) : Transition pool event next := by
  refine .quiet hframe fun h => ?_
  obtain hsame | hfree := hmonitor
  · rw [hsame]
    exact h.frame hframe
  · exact hfree next

end Transition

theorem publishPrimedChannel_transition (pool : ChannelPool bound) :
    Transition pool .publishPrimedChannel pool.publishPrimedChannel := by
  unfold publishPrimedChannel
  split_ifs with hlocks hlength
  · exact .of_frame (Frame.refl pool) (.inl rfl)
  · exact .of_frame (Frame.refl pool) (.inl rfl)
  · simp only [Bool.or_eq_true, not_or, Bool.not_eq_true] at hlocks
    exact .publish hlocks.1 hlocks.2 (Nat.lt_of_not_le hlength) rfl rfl rfl rfl rfl rfl rfl

theorem enter_transition {event : Event bound} (h : Transition pool event next) :
    Transition pool event (pool.enter next) := by
  unfold enter
  split
  · exact h
  · exact .of_frame (Frame.refl pool) (.inl rfl)

theorem checkScaleUpRequested_transition (pool : ChannelPool bound) (event : Event bound) :
    Transition pool event pool.checkScaleUpRequested := by
  unfold checkScaleUpRequested
  split_ifs <;> exact .of_frame ⟨rfl, rfl, rfl, rfl, rfl, fun _ => rfl⟩ (.inr fun _ => trivial)

theorem checkCooldown_transition (pool : ChannelPool bound) (event : Event bound) :
    Transition pool event pool.checkCooldown := by
  unfold checkCooldown
  split
  · split_ifs <;> exact .of_frame ⟨rfl, rfl, rfl, rfl, rfl, fun _ => rfl⟩ (.inr fun _ => trivial)
  · exact .of_frame ⟨rfl, rfl, rfl, rfl, rfl, fun _ => rfl⟩ (.inr fun _ => trivial)

theorem checkMinChannels_transition (pool : ChannelPool bound) (event : Event bound) :
    Transition pool event pool.checkMinChannels := by
  unfold checkMinChannels
  split_ifs with h
  · exact .of_frame ⟨rfl, rfl, rfl, rfl, rfl, fun _ => rfl⟩ (.inr fun _ => trivial)
  · exact .quiet ⟨rfl, rfl, rfl, rfl, rfl, fun _ => rfl⟩ fun _ => Nat.lt_of_not_le h

theorem decideScaleDown_transition (pool : ChannelPool bound) (event : Event bound)
    (totalInFlight : UInt32) : Transition pool event (pool.decideScaleDown totalInFlight) := by
  unfold decideScaleDown
  simp only
  split_ifs
  case neg =>
    refine .quiet ⟨rfl, rfl, rfl, rfl, rfl, fun _ => rfl⟩ fun _ => ?_
    simp [MonitorInv]
  all_goals exact .of_frame ⟨rfl, rfl, rfl, rfl, rfl, fun _ => rfl⟩ (.inr fun _ => trivial)

theorem closable_of_requiredIdle {entry : ChannelEntry bound} {requiredIdle : Duration}
    (hflight : pool.inFlight entry = 0)
    (hrequired : (if 0 < pool.activeRwCount entry then
        spannerRwTransactionIdleTimeout.checkedAdd pool.config.drainIdleGrace
      else some pool.config.drainIdleGrace) = some requiredIdle)
    (hidle : requiredIdle ≤ entry.elapsedSinceActivity pool.now (pool.atomicsOf entry)) :
    Closable pool entry := by
  by_cases hrw : 0 < pool.activeRwCount entry
  · rw [if_pos hrw] at hrequired
    have hsum := Duration.checkedAdd_eq_some.mp hrequired
    have hle : requiredIdle.1 ≤ _ := hidle
    rw [← hsum] at hle
    exact ⟨hflight, Nat.le_trans (Nat.le_add_left _ _) hle, fun _ => hle⟩
  · rw [if_neg hrw, Option.some.injEq] at hrequired
    subst hrequired
    exact ⟨hflight, hidle, fun h => absurd h hrw⟩

theorem sweepEntry_transition (pool : ChannelPool bound) (order : List (CandidateKey bound))
    (entry : ChannelEntry bound) (rest : List (ChannelEntry bound))
    (hmonitor : pool.monitor = .sweeping (entry :: rest)) :
    Transition pool (.advanceMonitor order) (pool.sweepEntry entry rest) := by
  -- Keeping the entry moves on to the rest of the list.
  have hkeep : Transition pool (.advanceMonitor order) { pool with monitor := .sweeping rest } := by
    refine .quiet ⟨rfl, rfl, rfl, rfl, rfl, fun _ => rfl⟩ fun h => ?_
    rw [hmonitor] at h
    exact (List.sublist_cons_self entry rest).trans h
  unfold sweepEntry
  simp only
  by_cases hflight : 0 < pool.inFlight entry
  · rw [if_pos hflight]
    exact hkeep
  · rw [if_neg hflight]
    have hzero : pool.inFlight entry = 0 := UInt32.le_zero_iff.mp (UInt32.not_lt.mp hflight)
    split
    · exact .of_frame ⟨rfl, rfl, rfl, rfl, rfl, fun _ => rfl⟩ (.inr fun _ => trivial)
    · rename_i requiredIdle hrequired
      split_ifs with hidle
      · exact .close hmonitor (closable_of_requiredIdle hzero hrequired hidle)
      · exact hkeep

theorem advanceMonitor_transition (pool : ChannelPool bound) (order : List (CandidateKey bound)) :
    Transition pool (.advanceMonitor order) (pool.advanceMonitor order) := by
  unfold advanceMonitor
  split
  case h_1 => exact .of_frame (Frame.refl pool) (.inl rfl)
  case h_2 => exact checkCooldown_transition pool _
  case h_3 => exact checkMinChannels_transition pool _
  case h_4 => exact decideScaleDown_transition pool _ _
  case h_5 entry rest total hmonitor =>
    refine .quiet ⟨rfl, rfl, rfl, rfl, rfl, fun _ => rfl⟩ fun h => ?_
    rw [hmonitor] at h
    exact h
  case h_6 hmonitor => exact .drain hmonitor
  case h_7 entry rest candidateKeys hmonitor =>
    refine .quiet ⟨rfl, rfl, rfl, rfl, rfl, fun _ => rfl⟩ fun h => ?_
    rw [hmonitor] at h
    simpa [MonitorInv, candidateKey] using h
  case h_8 => exact .of_frame ⟨rfl, rfl, rfl, rfl, rfl, fun _ => rfl⟩ (.inr fun _ => trivial)
  case h_9 entry rest hmonitor => exact sweepEntry_transition pool order entry rest hmonitor

/-- Everything a step can do. -/
theorem step_transition (pool : ChannelPool bound) (event : Event bound) :
    Transition pool event (pool.step event) := by
  cases event with
  | traffic traffic =>
      obtain ⟨hframe, hmonitor⟩ := handle_frame pool traffic
      exact .of_frame hframe (.inl hmonitor)
  | takeScaleUpRequest =>
      exact .of_frame ⟨rfl, rfl, rfl, rfl, rfl, fun _ => rfl⟩ (.inl rfl)
  | discardScaleUpRequest =>
      exact .of_frame ⟨rfl, rfl, rfl, rfl, rfl, fun _ => rfl⟩ (.inl rfl)
  | advanceWorker =>
      obtain ⟨hframe, hmonitor⟩ := advanceWorker_frame pool
      exact .of_frame hframe (.inl hmonitor)
  | publishPrimedChannel => exact publishPrimedChannel_transition pool
  | evaluateAndExecuteScaleDown =>
      exact enter_transition (checkScaleUpRequested_transition pool _)
  | sweepDrainingChannels =>
      refine enter_transition (.quiet ⟨rfl, rfl, rfl, rfl, rfl, fun _ => rfl⟩ fun _ => ?_)
      exact List.Sublist.refl _
  | advanceMonitor order => exact advanceMonitor_transition pool order

end GoogleCloudRust.ChannelPool
