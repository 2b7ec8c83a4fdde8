import GoogleCloudRust.Library.HashMap
import GoogleCloudRust.Library.Time

/-! # Endpoint lifecycle

Model of `EndpointLifecycleManager` of `routing/endpoint_lifecycle.rs`. The connection
cache is not part of the state: a probe may find any health, and a background task may
finish with any result. An operation that takes the state lock more than once is pending
between its phases. -/

namespace GoogleCloudRust.EndpointLifecycle

def defaultIdleEvictionDuration : Duration := .fromSecs 1800
def trafficRecordThrottle : Duration := .fromSecs 10
def maxTransientFailureCount : ℕ := 3

variable {bound : ℕ}

structure EndpointLifecycleState (bound : ℕ) where
  address : String
  lastProbeAt : Option (Instant bound)
  lastRealTrafficAt : Instant bound
  lastReadyAt : Option (Instant bound)
  consecutiveTransientFailures : ℕ

namespace EndpointLifecycleState

def new (address : String) (now : Instant bound) : EndpointLifecycleState bound where
  address := address
  lastProbeAt := none
  lastRealTrafficAt := now
  lastReadyAt := none
  consecutiveTransientFailures := 0

def isIdleAt (state : EndpointLifecycleState bound) (now : Instant bound) (timeout : Duration) :
    Bool :=
  timeout < now.saturatingDurationSince state.lastRealTrafficAt

end EndpointLifecycleState

inductive EvictionReason
  | transientFailure
  | idle
  | stale
  | shutdown
deriving DecidableEq, Repr

/-! ## State under the lock -/

/-- `LifecycleManagerState`, without the handle of the maintenance task. -/
structure LifecycleManagerState (bound : ℕ) where
  endpoints : HashMap String (EndpointLifecycleState bound)
  transientFailureEvicted : Finset String
  activeAddressesPerSource : HashMap String (Finset String)

namespace LifecycleManagerState

def empty : LifecycleManagerState bound := ⟨∅, ∅, ∅⟩

/-- The address is active in at least one registered source. -/
def isActive (state : LifecycleManagerState bound) (address : String) : Bool :=
  HashMap.any state.activeAddressesPerSource fun _ addresses => address ∈ addresses

def recordProbeHealthy (state : LifecycleManagerState bound) (address : String)
    (now : Instant bound) : LifecycleManagerState bound :=
  let endpoints :=
    match state.endpoints.lookup address with
    | some endpointState => state.endpoints.insert address { endpointState with
        lastProbeAt := some now
        lastReadyAt := some now
        consecutiveTransientFailures := 0 }
    | none => state.endpoints
  { state with
    endpoints := endpoints
    transientFailureEvicted := state.transientFailureEvicted.erase address }

def recordProbeTransientFailure (state : LifecycleManagerState bound) (address : String)
    (now : Instant bound) : Option EvictionReason × LifecycleManagerState bound :=
  match state.endpoints.lookup address with
  | none => (none, state)
  | some endpointState =>
      let endpointState := { endpointState with
        lastProbeAt := some now
        consecutiveTransientFailures := endpointState.consecutiveTransientFailures + 1 }
      let endpoints := state.endpoints.insert address endpointState
      if endpointState.consecutiveTransientFailures < maxTransientFailureCount then
        (none, { state with endpoints := endpoints })
      else
        (some .transientFailure, { state with
          endpoints := endpoints.erase address
          transientFailureEvicted := insert endpointState.address state.transientFailureEvicted })

/-- One observed failure, and the list of evictions so far. -/
def applyTransientFailure (now : Instant bound)
    (result : List (String × EvictionReason) × LifecycleManagerState bound) (address : String) :
    List (String × EvictionReason) × LifecycleManagerState bound :=
  match result.2.recordProbeTransientFailure address now with
  | (some reason, state) => (result.1 ++ [(address, reason)], state)
  | (none, state) => (result.1, state)

def applyProbeResults (state : LifecycleManagerState bound)
    (healthyEndpoints transientFailureEndpoints : List String) (now : Instant bound) :
    List (String × EvictionReason) × LifecycleManagerState bound :=
  let state := healthyEndpoints.foldl (fun state address =>
    state.recordProbeHealthy address now) state
  transientFailureEndpoints.foldl (applyTransientFailure now) ([], state)

/-- The new addresses, and the state that tracks them too. -/
def registerNewEndpoints (state : LifecycleManagerState bound) (activeAddresses : Finset String)
    (defaultAddress : String) (now : Instant bound) :
    Finset String × LifecycleManagerState bound :=
  let newlyRegistered := activeAddresses.filter fun address =>
    address ≠ "" ∧ address ≠ defaultAddress ∧ address ∉ state.endpoints
  (newlyRegistered, { state with
    endpoints := HashMap.extend state.endpoints newlyRegistered fun address => .new address now })

/-- The addresses that are no longer active, and the state without them. -/
def pruneStaleEndpoints (state : LifecycleManagerState bound) :
    Finset String × LifecycleManagerState bound :=
  (state.endpoints.keys.filter fun address => state.isActive address = false,
    { state with
      transientFailureEvicted := state.transientFailureEvicted.filter fun address =>
        state.isActive address = true
      endpoints := HashMap.retain state.endpoints fun address _ => state.isActive address })

end LifecycleManagerState

/-! ## The manager -/

structure Manager (bound : ℕ) where
  state : LifecycleManagerState bound
  transientFailureCount : ℕ
  idleEvictionDuration : Duration
  defaultEndpointAddress : String

namespace Manager

def withOptions (idleEvictionDuration : Duration) (defaultEndpointAddress : String) :
    Manager bound :=
  ⟨.empty, 0, idleEvictionDuration, defaultEndpointAddress⟩

def new (defaultEndpointAddress : String) : Manager bound :=
  withOptions defaultIdleEvictionDuration defaultEndpointAddress

/-- Release the lock after `transient_failure_count` was stored. -/
def store (manager : Manager bound) (state : LifecycleManagerState bound) : Manager bound :=
  { manager with
    state := state
    transientFailureCount := state.transientFailureEvicted.card }

def updateActiveAddressesAt (manager : Manager bound) (sourceKey : String)
    (activeAddresses : Finset String) (now : Instant bound) : Finset String × Manager bound :=
  if sourceKey = "" then (∅, manager)
  else
    let (newlyRegistered, state) := manager.state.registerNewEndpoints activeAddresses
      manager.defaultEndpointAddress now
    let state := { state with
      activeAddressesPerSource := state.activeAddressesPerSource.insert sourceKey activeAddresses }
    (newlyRegistered, manager.store state.pruneStaleEndpoints.2)

def unregisterSource (manager : Manager bound) (sourceKey : String) :
    Finset String × Manager bound :=
  if sourceKey = "" then (∅, manager)
  else
    match manager.state.activeAddressesPerSource.lookup sourceKey with
    | none => (∅, manager)
    | some _ =>
        let state := { manager.state with
          activeAddressesPerSource := manager.state.activeAddressesPerSource.erase sourceKey }
        let (staleAddresses, state) := state.pruneStaleEndpoints
        (staleAddresses, manager.store state)

/-- The body of `request_endpoint_recreation_at` under the write lock. -/
def recreateEndpoint (manager : Manager bound) (address : String) (now : Instant bound) :
    Bool × Manager bound :=
  if address ∈ manager.state.endpoints then (false, manager)
  else if !manager.state.isActive address then (false, manager)
  else
    (true, { manager with state := { manager.state with
      endpoints := manager.state.endpoints.insert address (.new address now) } })

/-- The body of `record_real_traffic_at` under the write lock. -/
def refreshTraffic (manager : Manager bound) (address : String) (now : Instant bound) :
    Manager bound :=
  match manager.state.endpoints.lookup address with
  | none => manager
  | some endpointState =>
      if now.saturatingDurationSince endpointState.lastRealTrafficAt < trafficRecordThrottle then
        manager
      else
        { manager with state := { manager.state with
          endpoints := manager.state.endpoints.insert address { endpointState with
            lastRealTrafficAt := endpointState.lastRealTrafficAt.max now } } }

def isIdleEndpoint (manager : Manager bound) (now : Instant bound) (address : String)
    (endpointState : EndpointLifecycleState bound) : Bool :=
  address ≠ manager.defaultEndpointAddress &&
    endpointState.isIdleAt now manager.idleEvictionDuration

/-- The body of `check_idle_eviction_at` under the write lock. -/
def evictIdle (manager : Manager bound) (now : Instant bound) : Finset String × Manager bound :=
  (manager.state.endpoints.keys.filter fun address =>
      (manager.state.endpoints.lookup address).any (manager.isIdleEndpoint now address) = true,
    { manager with state := { manager.state with
      endpoints := HashMap.retain manager.state.endpoints fun address endpointState =>
        !manager.isIdleEndpoint now address endpointState } })

/-- Step 3 of `probe_all_endpoints_at`. -/
def applyProbe (manager : Manager bound)
    (healthyEndpoints transientFailureEndpoints : List String) (now : Instant bound) :
    List (String × EvictionReason) × Manager bound :=
  if !healthyEndpoints.isEmpty || !transientFailureEndpoints.isEmpty then
    let (evicted, state) :=
      manager.state.applyProbeResults healthyEndpoints transientFailureEndpoints now
    (evicted, manager.store state)
  else ([], manager)

/-- The part of `connect_and_record` under the write lock, and whether the endpoint is
still tracked. -/
def recordConnection (manager : Manager bound) (address : String) (isHealthy : Bool)
    (now : Instant bound) : Bool × Manager bound :=
  let manager :=
    if isHealthy then manager.store (manager.state.recordProbeHealthy address now) else manager
  (address ∈ manager.state.endpoints, manager)

/-- `Drop`. -/
def drop (manager : Manager bound) : Manager bound := manager.store .empty

end Manager

/-! ## Interleaved operations -/

/-- What the connection cache says about an address. -/
inductive Health
  | healthy
  | transientFailure
  | other
  | missing
deriving DecidableEq, Repr

/-- A probe after its read phase: the addresses it still has to inspect, and its results. -/
structure Probe (bound : ℕ) where
  now : Instant bound
  addresses : Finset String
  healthyEndpoints : List String
  transientFailureEndpoints : List String
  missingEndpoints : List String

def Probe.inspect (probe : Probe bound) (address : String) (health : Health) : Probe bound :=
  if address ∈ probe.addresses then
    let probe := { probe with addresses := probe.addresses.erase address }
    match health with
    | .healthy => { probe with healthyEndpoints := probe.healthyEndpoints ++ [address] }
    | .transientFailure =>
        { probe with transientFailureEndpoints := probe.transientFailureEndpoints ++ [address] }
    | .other => probe
    | .missing => { probe with missingEndpoints := probe.missingEndpoints ++ [address] }
  else probe

/-- An operation between two of its phases, or a background task. -/
inductive Pending (bound : ℕ)
  | recreation (address : String) (now : Instant bound)
  | traffic (address : String) (now : Instant bound)
  | idleEviction (now : Instant bound)
  | probe (probe : Probe bound)
  | connection (address : String)

structure System (bound : ℕ) where
  manager : Manager bound
  pending : List (Pending bound)

inductive Event (bound : ℕ)
  | updateActiveAddresses (sourceKey : String) (activeAddresses : Finset String)
      (now : Instant bound)
  | unregisterSource (sourceKey : String)
  | requestRecreation (address : String) (now : Instant bound)
  | recordTraffic (address : String) (now : Instant bound)
  | checkIdleEviction (now : Instant bound)
  | probeAllEndpoints (now : Instant bound)
  | prewarmEndpoint (address : String)
  | inspect (index : ℕ) (address : String) (health : Health)
  /-- A pending operation goes on to its write phase. -/
  | proceed (index : ℕ)
  /-- A background task has its connection, or has failed. -/
  | connected (index : ℕ) (result : Option Bool) (now : Instant bound)
  | drop

/-- The event changes the addresses of the given source, or destroys the manager. -/
def Event.touchesSource (source : String) : Event bound → Bool
  | .updateActiveAddresses sourceKey _ _ | .unregisterSource sourceKey => sourceKey = source
  | .drop => true
  | _ => false

namespace System

def isUnrouted (system : System bound) (address : String) : Bool :=
  address = "" || address = system.manager.defaultEndpointAddress

def push (system : System bound) (operation : Pending bound) : System bound :=
  { system with pending := system.pending ++ [operation] }

/-- `spawn_connection_task`; a task that is not spawned is one that never finishes. -/
def spawn (system : System bound) (addresses : List String) : System bound :=
  { system with pending := system.pending ++ addresses.map .connection }

/-- The write phase of a pending operation, with the tasks that it spawns. -/
def writePhase (manager : Manager bound) : Pending bound → Option (List String × Manager bound)
  | .recreation address now =>
      match manager.recreateEndpoint address now with
      | (true, manager) => some ([address], manager)
      | (false, manager) => some ([], manager)
  | .traffic address now => some ([], manager.refreshTraffic address now)
  | .idleEviction now => some ([], (manager.evictIdle now).2)
  | .probe probe =>
      if probe.addresses = ∅ then
        some (probe.missingEndpoints, (manager.applyProbe probe.healthyEndpoints
          probe.transientFailureEndpoints probe.now).2)
      else none
  | .connection _ => none

def step (system : System bound) : Event bound → System bound
  | .updateActiveAddresses sourceKey activeAddresses now =>
      { system with
        manager := (system.manager.updateActiveAddressesAt sourceKey activeAddresses now).2 }
  | .unregisterSource sourceKey =>
      { system with manager := (system.manager.unregisterSource sourceKey).2 }
  | .requestRecreation address now =>
      if system.isUnrouted address then system
      else if address ∈ system.manager.state.endpoints then system
      else system.push (.recreation address now)
  | .recordTraffic address now =>
      if system.isUnrouted address then system
      else
        match system.manager.state.endpoints.lookup address with
        | none => system
        | some endpointState =>
            if now.saturatingDurationSince endpointState.lastRealTrafficAt <
                trafficRecordThrottle then system
            else system.push (.traffic address now)
  | .checkIdleEviction now =>
      if HashMap.any system.manager.state.endpoints (system.manager.isIdleEndpoint now) then
        system.push (.idleEviction now)
      else system
  | .probeAllEndpoints now =>
      system.push (.probe ⟨now, system.manager.state.endpoints.keys, [], [], []⟩)
  | .prewarmEndpoint address => if address = "" then system else system.spawn [address]
  | .inspect index address health =>
      match system.pending[index]? with
      | some (.probe probe) =>
          { system with pending := system.pending.set index (.probe (probe.inspect address health)) }
      | _ => system
  | .proceed index =>
      match system.pending[index]? with
      | none => system
      | some operation =>
          match writePhase system.manager operation with
          | none => system
          | some (addresses, manager) =>
              spawn ⟨manager, system.pending.eraseIdx index⟩ addresses
  | .connected index result now =>
      match system.pending[index]? with
      | some (.connection address) =>
          let manager :=
            match result with
            | some isHealthy => (system.manager.recordConnection address isHealthy now).2
            | none => system.manager
          ⟨manager, system.pending.eraseIdx index⟩
      | _ => system
  | .drop => { system with manager := system.manager.drop }

def new (idleEvictionDuration : Duration) (defaultEndpointAddress : String) : System bound :=
  ⟨.withOptions idleEvictionDuration defaultEndpointAddress, []⟩

def run (system : System bound) (events : List (Event bound)) : System bound :=
  events.foldl step system

end System

end GoogleCloudRust.EndpointLifecycle
