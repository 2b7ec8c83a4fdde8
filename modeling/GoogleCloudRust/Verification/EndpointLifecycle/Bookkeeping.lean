import GoogleCloudRust.Model.EndpointLifecycle

/-! # Bookkeeping of the lifecycle manager

The addresses of a source change only by calls that name it. Whatever operations are interleaved,
only addresses of registered sources are tracked or marked as evicted, and the counter beside the
lock agrees with the markers. -/

namespace GoogleCloudRust.EndpointLifecycle

variable {bound : ℕ} {defaultAddress : String}

/-! ## Sources -/

namespace Manager

variable (manager : Manager bound)

/-- The addresses of a source. -/
def addressesOf (source : String) : Option (Finset String) :=
  manager.state.activeAddressesPerSource.lookup source

theorem addressesOf_updateActiveAddressesAt {sourceKey : String} (h : sourceKey ≠ "")
    (activeAddresses : Finset String) (now : Instant bound) (source : String) :
    (manager.updateActiveAddressesAt sourceKey activeAddresses now).2.addressesOf source =
      if source = sourceKey then some activeAddresses else manager.addressesOf source := by
  rw [updateActiveAddressesAt, if_neg h]
  exact HashMap.lookup_insert_eq _ _ _ _

theorem addressesOf_unregisterSource {sourceKey : String} (h : sourceKey ≠ "") (source : String) :
    (manager.unregisterSource sourceKey).2.addressesOf source =
      if source = sourceKey then none else manager.addressesOf source := by
  rw [unregisterSource, if_neg h]
  cases hlookup : manager.state.activeAddressesPerSource.lookup sourceKey with
  | none =>
      split_ifs with heq
      · rw [heq]
        exact hlookup
      · rfl
  | some addresses => exact HashMap.lookup_erase_eq _ _ _

theorem applyProbe_sources (healthyEndpoints transientFailureEndpoints : List String)
    (now : Instant bound) :
    (manager.applyProbe healthyEndpoints transientFailureEndpoints now).2.state.activeAddressesPerSource =
      manager.state.activeAddressesPerSource := by
  unfold applyProbe
  split_ifs
  · simp only [store, LifecycleManagerState.applyProbeResults]
    have hhealthy := List.foldlRecOn (motive := fun state : LifecycleManagerState bound =>
      state.activeAddressesPerSource = manager.state.activeAddressesPerSource) healthyEndpoints
      (fun state address => state.recordProbeHealthy address now) rfl fun state hstate address _ =>
        hstate
    refine List.foldlRecOn (motive := fun result :
      List (String × EvictionReason) × LifecycleManagerState bound =>
      result.2.activeAddressesPerSource = manager.state.activeAddressesPerSource)
      transientFailureEndpoints _ hhealthy fun result hresult address _ => ?_
    have hrecord : (result.2.recordProbeTransientFailure address now).2.activeAddressesPerSource =
        result.2.activeAddressesPerSource := by
      unfold LifecycleManagerState.recordProbeTransientFailure
      cases result.2.endpoints.lookup address with
      | none => rfl
      | some endpointState =>
          dsimp only
          split_ifs <;> rfl
    unfold LifecycleManagerState.applyTransientFailure
    generalize result.2.recordProbeTransientFailure address now = recorded at hrecord ⊢
    rcases recorded with ⟨reason, state⟩
    cases reason <;> exact hrecord.trans hresult
  · rfl

end Manager

/-- Pending operations do not touch the sources. -/
theorem System.writePhase_sources {manager manager' : Manager bound} {operation : Pending bound}
    {addresses : List String}
    (h : System.writePhase manager operation = some (addresses, manager')) :
    manager'.state.activeAddressesPerSource = manager.state.activeAddressesPerSource := by
  cases operation with
  | recreation address now =>
      have hsources : (manager.recreateEndpoint address now).2.state.activeAddressesPerSource =
          manager.state.activeAddressesPerSource := by
        unfold Manager.recreateEndpoint
        split_ifs <;> rfl
      simp only [System.writePhase] at h
      rcases hresult : manager.recreateEndpoint address now with ⟨created, recreated⟩
      rw [hresult] at h hsources
      cases created <;> simp only [Option.some.injEq, Prod.mk.injEq] at h <;> exact h.2 ▸ hsources
  | traffic address now =>
      simp only [System.writePhase, Option.some.injEq, Prod.mk.injEq] at h
      rw [← h.2, Manager.refreshTraffic]
      cases manager.state.endpoints.lookup address with
      | none => rfl
      | some endpointState =>
          dsimp only
          split_ifs <;> rfl
  | idleEviction now =>
      simp only [System.writePhase, Option.some.injEq, Prod.mk.injEq] at h
      rw [← h.2]
      rfl
  | probe probe =>
      simp only [System.writePhase] at h
      split_ifs at h
      simp only [Option.some.injEq, Prod.mk.injEq] at h
      rw [← h.2]
      exact Manager.applyProbe_sources _ _ _ _
  | connection address => cases h

/-- An event that does not name a source leaves its addresses alone. -/
theorem System.step_addressesOf (system : System bound) {source : String} {event : Event bound}
    (h : event.touchesSource source = false) :
    (system.step event).manager.addressesOf source = system.manager.addressesOf source := by
  cases event with
  | updateActiveAddresses sourceKey activeAddresses now =>
      simp only [Event.touchesSource, decide_eq_false_iff_not] at h
      by_cases hempty : sourceKey = ""
      · simp [step, Manager.updateActiveAddressesAt, hempty]
      · rw [step, Manager.addressesOf_updateActiveAddressesAt _ hempty,
          if_neg fun heq => h heq.symm]
  | unregisterSource sourceKey =>
      simp only [Event.touchesSource, decide_eq_false_iff_not] at h
      by_cases hempty : sourceKey = ""
      · simp [step, Manager.unregisterSource, hempty]
      · rw [step, Manager.addressesOf_unregisterSource _ hempty, if_neg fun heq => h heq.symm]
  | requestRecreation address now =>
      simp only [step]
      split_ifs <;> rfl
  | recordTraffic address now =>
      simp only [step]
      split_ifs
      · rfl
      · cases system.manager.state.endpoints.lookup address with
        | none => rfl
        | some endpointState =>
            dsimp only
            split_ifs <;> rfl
  | checkIdleEviction now =>
      simp only [step]
      split_ifs <;> rfl
  | probeAllEndpoints now => rfl
  | prewarmEndpoint address =>
      simp only [step]
      split_ifs <;> rfl
  | inspect index address health =>
      simp only [step]
      split <;> rfl
  | proceed index =>
      simp only [step]
      split
      · rfl
      · split
        · rfl
        · rename_i hphase
          exact congrArg (Finmap.lookup source) (writePhase_sources hphase)
  | connected index result now =>
      simp only [step]
      split
      · rename_i address hpending
        cases result with
        | none => rfl
        | some isHealthy => cases isHealthy <;> rfl
      · rfl
  | drop => cases h

/-! ## The invariant -/

/-- A tracked endpoint is routed by its own address and has not failed too often. -/
structure WellTracked (defaultAddress address : String)
    (endpointState : EndpointLifecycleState bound) : Prop where
  nonempty : address ≠ ""
  ne_default : address ≠ defaultAddress
  address_eq : endpointState.address = address
  failures_lt : endpointState.consecutiveTransientFailures < maxTransientFailureCount

theorem zero_lt_maxTransientFailureCount : 0 < maxTransientFailureCount := by decide

/-- What holds of the state whenever the lock is free. -/
structure Bookkept (defaultAddress : String) (state : LifecycleManagerState bound) : Prop where
  wellTracked : ∀ address endpointState, state.endpoints.lookup address = some endpointState →
    WellTracked defaultAddress address endpointState
  tracked_active : ∀ address endpointState,
    state.endpoints.lookup address = some endpointState → state.isActive address = true
  evicted_active : ∀ address ∈ state.transientFailureEvicted, state.isActive address = true

namespace LifecycleManagerState

variable {state : LifecycleManagerState bound} {address : String} {now : Instant bound}

theorem new_wellTracked (hnonempty : address ≠ "") (hdefault : address ≠ defaultAddress)
    (now : Instant bound) :
    WellTracked defaultAddress address (EndpointLifecycleState.new address now) :=
  ⟨hnonempty, hdefault, rfl, zero_lt_maxTransientFailureCount⟩

theorem empty_bookkept : Bookkept defaultAddress (empty : LifecycleManagerState bound) :=
  ⟨fun _ _ hlookup => by simp [empty] at hlookup, fun _ _ hlookup => by simp [empty] at hlookup,
    fun _ hmem => by simp [empty] at hmem⟩

/-- Replacing the state of a tracked endpoint by another one. -/
theorem update_bookkept (h : Bookkept defaultAddress state)
    {endpointState endpointState' : EndpointLifecycleState bound}
    (hlookup : state.endpoints.lookup address = some endpointState)
    (haddress : endpointState'.address = endpointState.address)
    (hfailures : endpointState'.consecutiveTransientFailures < maxTransientFailureCount) :
    Bookkept defaultAddress
      { state with endpoints := state.endpoints.insert address endpointState' } := by
  have hwell := h.wellTracked address endpointState hlookup
  refine ⟨fun other found hfound => ?_, fun other found hfound => ?_, h.evicted_active⟩
  · rw [HashMap.lookup_insert_eq] at hfound
    split_ifs at hfound with heq
    · obtain rfl := Option.some.inj hfound
      subst heq
      exact ⟨hwell.nonempty, hwell.ne_default, haddress.trans hwell.address_eq, hfailures⟩
    · exact h.wellTracked other found hfound
  · rw [HashMap.lookup_insert_eq] at hfound
    split_ifs at hfound with heq
    · exact heq ▸ h.tracked_active address endpointState hlookup
    · exact h.tracked_active other found hfound

/-- Losing endpoints keeps the invariant. -/
theorem bookkept_of_lookup (h : Bookkept defaultAddress state)
    (endpoints : HashMap String (EndpointLifecycleState bound))
    (hlookup : ∀ address endpointState, endpoints.lookup address = some endpointState →
      state.endpoints.lookup address = some endpointState) :
    Bookkept defaultAddress { state with endpoints := endpoints } :=
  ⟨fun address endpointState hfound => h.wellTracked _ _ (hlookup address endpointState hfound),
    fun address endpointState hfound => h.tracked_active _ _ (hlookup address endpointState hfound),
    h.evicted_active⟩

/-- Markers may be removed, and set for active addresses. -/
theorem bookkept_of_evicted (h : Bookkept defaultAddress state)
    {transientFailureEvicted : Finset String}
    (hevicted : ∀ address ∈ transientFailureEvicted, state.isActive address = true) :
    Bookkept defaultAddress { state with transientFailureEvicted := transientFailureEvicted } :=
  ⟨h.wellTracked, h.tracked_active, hevicted⟩

/-! ## Transitions under the lock -/

theorem recordProbeHealthy_bookkept (h : Bookkept defaultAddress state) (address : String)
    (now : Instant bound) : Bookkept defaultAddress (state.recordProbeHealthy address now) := by
  unfold recordProbeHealthy
  have hevicted : ∀ other ∈ state.transientFailureEvicted.erase address,
      state.isActive other = true := fun other hother =>
    h.evicted_active other (Finset.mem_of_mem_erase hother)
  cases hlookup : state.endpoints.lookup address with
  | none => exact bookkept_of_evicted h hevicted
  | some endpointState =>
      have hupdated : Bookkept defaultAddress { state with
          endpoints := state.endpoints.insert address { endpointState with
            lastProbeAt := some now
            lastReadyAt := some now
            consecutiveTransientFailures := 0 } } :=
        update_bookkept h hlookup rfl zero_lt_maxTransientFailureCount
      exact bookkept_of_evicted hupdated hevicted

theorem recordProbeTransientFailure_bookkept (h : Bookkept defaultAddress state)
    (address : String) (now : Instant bound) :
    Bookkept defaultAddress (state.recordProbeTransientFailure address now).2 := by
  unfold recordProbeTransientFailure
  cases hlookup : state.endpoints.lookup address with
  | none => exact h
  | some endpointState =>
      dsimp only
      split_ifs with hfailures
      · exact update_bookkept h hlookup rfl hfailures
      · -- the evicted address was tracked, and therefore active
        have hactive := h.tracked_active address endpointState hlookup
        have haddress := (h.wellTracked address endpointState hlookup).address_eq
        have herased : Bookkept defaultAddress { state with
            endpoints := (state.endpoints.insert address { endpointState with
              lastProbeAt := some now
              consecutiveTransientFailures :=
                endpointState.consecutiveTransientFailures + 1 }).erase address } := by
          refine bookkept_of_lookup h _ fun other found hfound => ?_
          rw [HashMap.lookup_erase_eq] at hfound
          split_ifs at hfound with heq
          rwa [HashMap.lookup_insert_eq, if_neg heq] at hfound
        refine bookkept_of_evicted herased fun other hother => ?_
        rcases Finset.mem_insert.mp hother with rfl | hold
        · rw [haddress]
          exact hactive
        · exact h.evicted_active other hold

theorem applyProbeResults_bookkept (h : Bookkept defaultAddress state)
    (healthyEndpoints transientFailureEndpoints : List String) (now : Instant bound) :
    Bookkept defaultAddress
      (state.applyProbeResults healthyEndpoints transientFailureEndpoints now).2 := by
  have hhealthy : Bookkept defaultAddress (healthyEndpoints.foldl (fun state address =>
      state.recordProbeHealthy address now) state) :=
    List.foldlRecOn (motive := Bookkept defaultAddress) healthyEndpoints _ h
      fun _ hstate address _ => recordProbeHealthy_bookkept hstate address now
  refine List.foldlRecOn (motive := fun result : List (String × EvictionReason) ×
    LifecycleManagerState bound => Bookkept defaultAddress result.2) transientFailureEndpoints _
    hhealthy fun result hresult address _ => ?_
  have hstep := recordProbeTransientFailure_bookkept hresult address now
  unfold applyTransientFailure
  rcases hprobe : result.2.recordProbeTransientFailure address now with ⟨reason, state'⟩
  rw [hprobe] at hstep
  cases reason <;> exact hstep

theorem registerNewEndpoints_wellTracked
    (h : ∀ address endpointState, state.endpoints.lookup address = some endpointState →
      WellTracked defaultAddress address endpointState)
    (activeAddresses : Finset String) (now : Instant bound) (address : String)
    (endpointState : EndpointLifecycleState bound)
    (hlookup : (state.registerNewEndpoints activeAddresses defaultAddress now).2.endpoints.lookup
      address = some endpointState) : WellTracked defaultAddress address endpointState := by
  rcases HashMap.lookup_extend hlookup with hold | ⟨hnew, rfl⟩
  · exact h address endpointState hold
  · obtain ⟨-, hnonempty, hdefault, -⟩ := Finset.mem_filter.mp hnew
    exact new_wellTracked hnonempty hdefault now

/-- Pruning leaves active addresses only. -/
theorem pruneStaleEndpoints_bookkept
    (h : ∀ address endpointState, state.endpoints.lookup address = some endpointState →
      WellTracked defaultAddress address endpointState) :
    Bookkept defaultAddress state.pruneStaleEndpoints.2 := by
  refine ⟨fun address endpointState hlookup => ?_, fun address endpointState hlookup => ?_,
    fun address hmem => ?_⟩
  · simp only [pruneStaleEndpoints, HashMap.lookup_retain] at hlookup
    exact h address endpointState hlookup.1
  · simp only [pruneStaleEndpoints, HashMap.lookup_retain] at hlookup
    exact hlookup.2
  · exact (Finset.mem_filter.mp hmem).2

end LifecycleManagerState

/-! ## Operations of the manager -/

namespace Manager

/-- The invariant of the manager. -/
structure Kept (defaultAddress : String) (manager : Manager bound) : Prop where
  default_eq : manager.defaultEndpointAddress = defaultAddress
  bookkept : Bookkept defaultAddress manager.state
  count : manager.transientFailureCount = manager.state.transientFailureEvicted.card

variable {manager : Manager bound}

theorem store_kept (h : Kept defaultAddress manager) {state : LifecycleManagerState bound}
    (hstate : Bookkept defaultAddress state) : Kept defaultAddress (manager.store state) :=
  ⟨h.default_eq, hstate, rfl⟩

theorem updateActiveAddressesAt_kept (h : Kept defaultAddress manager) (sourceKey : String)
    (activeAddresses : Finset String) (now : Instant bound) :
    Kept defaultAddress (manager.updateActiveAddressesAt sourceKey activeAddresses now).2 := by
  unfold updateActiveAddressesAt
  split_ifs
  · exact h
  · refine store_kept h (LifecycleManagerState.pruneStaleEndpoints_bookkept ?_)
    rw [h.default_eq]
    exact LifecycleManagerState.registerNewEndpoints_wellTracked h.bookkept.wellTracked
      activeAddresses now

theorem unregisterSource_kept (h : Kept defaultAddress manager) (sourceKey : String) :
    Kept defaultAddress (manager.unregisterSource sourceKey).2 := by
  unfold unregisterSource
  split_ifs
  · exact h
  · split
    · exact h
    · exact store_kept h
        (LifecycleManagerState.pruneStaleEndpoints_bookkept h.bookkept.wellTracked)

theorem recreateEndpoint_kept (h : Kept defaultAddress manager) {address : String}
    (hnonempty : address ≠ "") (hdefault : address ≠ defaultAddress) (now : Instant bound) :
    Kept defaultAddress (manager.recreateEndpoint address now).2 := by
  unfold recreateEndpoint
  split_ifs with htracked hinactive
  · exact h
  · exact h
  · have hactive : manager.state.isActive address = true := by simpa using hinactive
    refine ⟨h.default_eq, ⟨fun other found hfound => ?_, fun other found hfound => ?_,
      h.bookkept.evicted_active⟩, h.count⟩
    · rw [HashMap.lookup_insert_eq] at hfound
      split_ifs at hfound with heq
      · obtain rfl := Option.some.inj hfound
        exact heq ▸ LifecycleManagerState.new_wellTracked hnonempty hdefault now
      · exact h.bookkept.wellTracked other found hfound
    · rw [HashMap.lookup_insert_eq] at hfound
      split_ifs at hfound with heq
      · exact heq ▸ hactive
      · exact h.bookkept.tracked_active other found hfound

theorem refreshTraffic_kept (h : Kept defaultAddress manager) (address : String)
    (now : Instant bound) : Kept defaultAddress (manager.refreshTraffic address now) := by
  unfold refreshTraffic
  cases hlookup : manager.state.endpoints.lookup address with
  | none => exact h
  | some endpointState =>
      dsimp only
      split_ifs
      · exact h
      · have hfailures := (h.bookkept.wellTracked address endpointState hlookup).failures_lt
        exact ⟨h.default_eq,
          LifecycleManagerState.update_bookkept h.bookkept hlookup rfl hfailures, h.count⟩

theorem evictIdle_kept (h : Kept defaultAddress manager) (now : Instant bound) :
    Kept defaultAddress (manager.evictIdle now).2 := by
  refine ⟨h.default_eq, LifecycleManagerState.bookkept_of_lookup h.bookkept _ ?_, h.count⟩
  intro address endpointState hlookup
  exact ((HashMap.lookup_retain _ _ _ _).mp hlookup).1

theorem applyProbe_kept (h : Kept defaultAddress manager)
    (healthyEndpoints transientFailureEndpoints : List String) (now : Instant bound) :
    Kept defaultAddress
      (manager.applyProbe healthyEndpoints transientFailureEndpoints now).2 := by
  unfold applyProbe
  split_ifs
  · exact store_kept h (LifecycleManagerState.applyProbeResults_bookkept h.bookkept
      healthyEndpoints transientFailureEndpoints now)
  · exact h

theorem recordConnection_kept (h : Kept defaultAddress manager) (address : String)
    (isHealthy : Bool) (now : Instant bound) :
    Kept defaultAddress (manager.recordConnection address isHealthy now).2 := by
  unfold recordConnection
  dsimp only
  split_ifs
  · exact store_kept h (LifecycleManagerState.recordProbeHealthy_bookkept h.bookkept address now)
  · exact h

theorem withOptions_kept (idleEvictionDuration : Duration) (defaultAddress : String) :
    Kept defaultAddress (withOptions idleEvictionDuration defaultAddress : Manager bound) :=
  ⟨rfl, LifecycleManagerState.empty_bookkept, rfl⟩

end Manager

/-! ## Interleavings -/

namespace System

/-- A pending recreation has passed the check of its address. -/
def Admitted (defaultAddress : String) : Pending bound → Prop
  | .recreation address _ => address ≠ "" ∧ address ≠ defaultAddress
  | _ => True

structure Kept (defaultAddress : String) (system : System bound) : Prop where
  manager : system.manager.Kept defaultAddress
  pending : ∀ operation ∈ system.pending, Admitted defaultAddress operation

variable {system : System bound}

theorem push_kept (h : Kept defaultAddress system) {operation : Pending bound}
    (hadmitted : Admitted defaultAddress operation) :
    Kept defaultAddress (system.push operation) := by
  refine ⟨h.manager, fun other hother => ?_⟩
  rcases List.mem_append.mp hother with hold | hnew
  · exact h.pending other hold
  · rw [List.mem_singleton.mp hnew]
    exact hadmitted

theorem spawn_kept (h : Kept defaultAddress system) (addresses : List String) :
    Kept defaultAddress (system.spawn addresses) := by
  refine ⟨h.manager, fun other hother => ?_⟩
  rcases List.mem_append.mp hother with hold | hnew
  · exact h.pending other hold
  · obtain ⟨address, -, rfl⟩ := List.mem_map.mp hnew
    trivial

/-- A write phase keeps the invariant, although its operation was admitted in an earlier
state. -/
theorem writePhase_kept {manager manager' : Manager bound}
    (h : manager.Kept defaultAddress) {operation : Pending bound}
    (hadmitted : Admitted defaultAddress operation) {addresses : List String}
    (hwrite : writePhase manager operation = some (addresses, manager')) :
    manager'.Kept defaultAddress := by
  cases operation with
  | recreation address now =>
      have hkept := Manager.recreateEndpoint_kept h hadmitted.1 hadmitted.2 now
      simp only [writePhase] at hwrite
      split at hwrite
      · rename_i manager'' heq
        rw [heq] at hkept
        cases hwrite
        exact hkept
      · rename_i manager'' heq
        rw [heq] at hkept
        cases hwrite
        exact hkept
  | traffic address now =>
      cases hwrite
      exact Manager.refreshTraffic_kept h address now
  | idleEviction now =>
      cases hwrite
      exact Manager.evictIdle_kept h now
  | probe probe =>
      simp only [writePhase] at hwrite
      split_ifs at hwrite
      cases hwrite
      exact Manager.applyProbe_kept h _ _ _
  | connection address => cases hwrite

theorem step_kept (h : Kept defaultAddress system) (event : Event bound) :
    Kept defaultAddress (system.step event) := by
  cases event with
  | updateActiveAddresses sourceKey activeAddresses now =>
      exact ⟨Manager.updateActiveAddressesAt_kept h.manager sourceKey activeAddresses now,
        h.pending⟩
  | unregisterSource sourceKey =>
      exact ⟨Manager.unregisterSource_kept h.manager sourceKey, h.pending⟩
  | requestRecreation address now =>
      simp only [step]
      split_ifs with hunrouted htracked
      · exact h
      · exact h
      · refine push_kept h ?_
        simpa [Admitted, isUnrouted, h.manager.default_eq] using hunrouted
  | recordTraffic address now =>
      simp only [step]
      split_ifs
      · exact h
      · split
        · exact h
        · split_ifs
          · exact h
          · exact push_kept h trivial
  | checkIdleEviction now =>
      simp only [step]
      split_ifs
      · exact push_kept h trivial
      · exact h
  | probeAllEndpoints now => exact push_kept h trivial
  | prewarmEndpoint address =>
      simp only [step]
      split_ifs
      · exact h
      · exact spawn_kept h [address]
  | inspect index address health =>
      simp only [step]
      split
      · refine ⟨h.manager, fun operation hoperation => ?_⟩
        rcases List.mem_or_eq_of_mem_set hoperation with hold | rfl
        · exact h.pending operation hold
        · trivial
      · exact h
  | proceed index =>
      simp only [step]
      split
      · exact h
      · rename_i operation hoperation
        split
        · exact h
        · rename_i addresses manager hwrite
          have hkept := writePhase_kept h.manager
            (h.pending operation (List.mem_of_getElem? hoperation)) hwrite
          exact spawn_kept ⟨hkept, fun other hother =>
            h.pending other (List.mem_of_mem_eraseIdx hother)⟩ addresses
  | connected index result now =>
      simp only [step]
      split
      · refine ⟨?_, fun other hother => h.pending other (List.mem_of_mem_eraseIdx hother)⟩
        cases result with
        | none => exact h.manager
        | some isHealthy => exact Manager.recordConnection_kept h.manager _ isHealthy now
      · exact h
  | drop => exact ⟨Manager.store_kept h.manager LifecycleManagerState.empty_bookkept, h.pending⟩

theorem run_kept (h : Kept defaultAddress system) (events : List (Event bound)) :
    Kept defaultAddress (system.run events) :=
  List.foldlRecOn (motive := Kept defaultAddress) events step h fun _ hkept event _ =>
    step_kept hkept event

theorem new_kept (idleEvictionDuration : Duration) (defaultAddress : String) :
    Kept defaultAddress (new idleEvictionDuration defaultAddress : System bound) :=
  ⟨Manager.withOptions_kept idleEvictionDuration defaultAddress, by simp [new]⟩

/-- The bookkeeping between any two steps of any interleaving. -/
theorem run_bookkeeping (idleEvictionDuration : Duration) (defaultAddress : String)
    (events : List (Event bound)) :
    let manager := ((new idleEvictionDuration defaultAddress).run events).manager
    (∀ address ∈ manager.state.endpoints, ∃ source addresses,
      manager.state.activeAddressesPerSource.lookup source = some addresses ∧
        address ∈ addresses) ∧
    (∀ address ∈ manager.state.transientFailureEvicted, ∃ source addresses,
      manager.state.activeAddressesPerSource.lookup source = some addresses ∧
        address ∈ addresses) ∧
    (∀ address ∈ manager.state.endpoints, address ≠ "" ∧ address ≠ defaultAddress) ∧
    manager.transientFailureCount = manager.state.transientFailureEvicted.card ∧
    (∀ address endpointState, manager.state.endpoints.lookup address = some endpointState →
      endpointState.consecutiveTransientFailures < 3) := by
  intro manager
  have hkept : manager.Kept defaultAddress :=
    (run_kept (new_kept idleEvictionDuration defaultAddress) events).manager
  have hactive : ∀ address, manager.state.isActive address = true → ∃ source addresses,
      manager.state.activeAddressesPerSource.lookup source = some addresses ∧
        address ∈ addresses := by
    intro address h
    simpa [LifecycleManagerState.isActive, HashMap.any_eq_true] using h
  refine ⟨fun address hmem => ?_, fun address hmem => ?_, fun address hmem => ?_, hkept.count,
    fun address endpointState hlookup =>
      (hkept.bookkept.wellTracked address endpointState hlookup).failures_lt⟩
  · obtain ⟨endpointState, hlookup⟩ := Finmap.mem_iff.mp hmem
    exact hactive address (hkept.bookkept.tracked_active address endpointState hlookup)
  · exact hactive address (hkept.bookkept.evicted_active address hmem)
  · obtain ⟨endpointState, hlookup⟩ := Finmap.mem_iff.mp hmem
    have hwell := hkept.bookkept.wellTracked address endpointState hlookup
    exact ⟨hwell.nonempty, hwell.ne_default⟩

theorem start_le : 0 ≤ 0 := le_rfl

/-- A probe that finds the endpoint failing, at time zero. -/
def failingProbe : List (Event 0) :=
  [.probeAllEndpoints ⟨0, start_le⟩, .inspect 0 "a:1" .transientFailure, .proceed 0]

/-- The third failing probe evicts the endpoint, which stays active. -/
theorem run_bookkeeping_evicted :
    let events := [.updateActiveAddresses "db" {"a:1", "default", ""} ⟨0, le_rfl⟩] ++
      failingProbe ++ failingProbe ++ failingProbe
    let manager := ((new .zero "default").run events).manager
    manager.transientFailureCount = 1 ∧ ∃ source addresses,
      manager.state.activeAddressesPerSource.lookup source = some addresses ∧
        "a:1" ∈ addresses := by
  intro events manager
  exact ⟨by decide, (run_bookkeeping .zero "default" events).2.1 "a:1" (by decide)⟩

end System

end GoogleCloudRust.EndpointLifecycle
