import Mathlib.Data.List.Sort
import Mathlib.Data.UInt
import Mathlib.Logic.Function.Basic
import GoogleCloudRust.Library.Float64
import GoogleCloudRust.Library.Time
import GoogleCloudRust.Model.EndpointCooldown

/-! # Channel pool

Model of the dynamic pool in `channel_pool/{config,entry,pool,scaler}.rs`. The background
tasks advance one atomic step at a time: an entry that a task visits is read at once, and
requests, the clock and the other task move between two visits. A task that needs a lock
another one holds waits. -/

namespace GoogleCloudRust

def maxSupportedChannels : ℕ := 256

/-! ## Configuration -/

structure DynamicChannelPoolConfig where
  initialChannels : ℕ := 4
  minChannels : ℕ := 4
  maxChannels : ℕ := 256
  minRpcPerChannel : F64 := .ofNat 2
  maxRpcPerChannel : F64 := .ofNat 8
  errorPenaltyStep : UInt32 := 2
  errorPenaltyDuration : Duration := .fromSecs 5
  scaleDownCheckInterval : Duration := .fromSecs 60
  scaleUpCooldown : Duration := .fromSecs 1
  consecutiveLowLoadChecks : ℕ := 3
  maxScaleUpPercent : UInt32 := 100
  maxRemoveChannels : ℕ := 4
  drainIdleGrace : Duration := .fromSecs 60
  primeTimeout : Duration := .fromSecs 5
  primeMaxAttempts : ℕ := 3

namespace DynamicChannelPoolConfig

def errorPenaltyMax (config : DynamicChannelPoolConfig) : UInt32 :=
  .ofNat (config.maxRpcPerChannel.ceilAs (2 ^ 32 - 1))

def targetRpcPerChannel (config : DynamicChannelPoolConfig) : UInt32 :=
  let midpoint := ((config.minRpcPerChannel.add config.maxRpcPerChannel).div (.ofNat 2)).floorAs
    (2 ^ 32 - 1)
  .ofNat (max midpoint 1)

def desiredChannelCount (config : DynamicChannelPoolConfig) (totalLoad : UInt32) : ℕ :=
  ((F64.ofNat totalLoad.toNat).div (.ofNat config.targetRpcPerChannel.toNat)).ceilAs (2 ^ 64 - 1)

def validate (config : DynamicChannelPoolConfig) : Except String Unit :=
  if config.minChannels = 0 then .error "min_channels must be at least 1"
  else if config.maxChannels < config.minChannels then
    .error "max_channels must be greater than or equal to min_channels"
  else if maxSupportedChannels < config.maxChannels then
    .error "max_channels cannot exceed maximum supported limit of 256"
  else if config.initialChannels < config.minChannels
      ∨ config.maxChannels < config.initialChannels then
    .error "initial_channels must be between min_channels and max_channels"
  else if !config.minRpcPerChannel.isFinite || config.minRpcPerChannel.le (.ofNat 0) then
    .error "min_rpc_per_channel must be a finite value greater than 0.0"
  else if !config.maxRpcPerChannel.isFinite
      || config.maxRpcPerChannel.le config.minRpcPerChannel then
    .error "max_rpc_per_channel must be a finite value strictly greater than min_rpc_per_channel"
  else if config.maxScaleUpPercent = 0 ∨ 100 < config.maxScaleUpPercent then
    .error "max_scale_up_percent must be between 1 and 100"
  else if config.consecutiveLowLoadChecks = 0 then
    .error "consecutive_low_load_checks must be at least 1"
  else if config.maxRemoveChannels = 0 then .error "max_remove_channels must be at least 1"
  else if config.scaleDownCheckInterval = .zero then
    .error "scale_down_check_interval must be greater than zero"
  else if config.primeTimeout = .zero then .error "prime_timeout must be greater than zero"
  else if config.primeMaxAttempts = 0 then .error "prime_max_attempts must be at least 1"
  else if config.errorPenaltyMax < config.errorPenaltyStep then
    .error "error_penalty_step cannot exceed ceil(max_rpc_per_channel)"
  else .ok ()

end DynamicChannelPoolConfig

/-! ## Entries -/

def spannerRwTransactionIdleTimeout : Duration := .fromSecs 10

inductive ChannelState
  | active
  | draining
  | closed
deriving DecidableEq, Repr

/-- The fields of a `ChannelEntry` that never change. The address is the identity of its
`Arc`; ids are counted without the wrap of a `u64`, which 2^64 dials would need. -/
structure ChannelEntry (bound : ℕ) where
  address : ℕ
  id : ℕ
  logicalChannelId : ℕ
  createdAt : Instant bound
deriving DecidableEq

/-- The atomic fields of a `ChannelEntry`, as `ChannelEntry::new` sets them. -/
structure EntryAtomics where
  inFlightRpcs : UInt32 := 0
  activeRwTransactions : UInt32 := 0
  penaltyState : UInt64 := 0
  state : ChannelState := .active
  lastActivityNanos : UInt64 := 0
deriving DecidableEq, Repr

/-- `u64::try_from(..).unwrap_or(u64::MAX)`. -/
def toU64 (n : ℕ) : UInt64 := .ofNat (min n (2 ^ 64 - 1))

/-- `u32::saturating_add`. -/
def saturatingAddU32 (x y : UInt32) : UInt32 := .ofNat (min (x.toNat + y.toNat) (2 ^ 32 - 1))

def decodePenaltyState (packed : UInt64) : UInt32 × UInt64 :=
  ((packed >>> 48).toUInt32, packed &&& 0x0000ffffffffffff)

def encodePenaltyState (penaltyLoad : UInt32) (expiryMillis : UInt64) : UInt64 :=
  let loadBits := UInt64.ofNat (min penaltyLoad.toNat 65535) <<< 48
  let expiryBits := if expiryMillis ≤ 0x0000ffffffffffff then expiryMillis else 0x0000ffffffffffff
  loadBits ||| expiryBits

namespace ChannelEntry

variable {bound : ℕ}

/-- `created_at.elapsed()`. -/
def elapsed (entry : ChannelEntry bound) (now : Instant bound) : Duration :=
  now.saturatingDurationSince entry.createdAt

def touchActivity (entry : ChannelEntry bound) (now : Instant bound) (atomics : EntryAtomics) :
    EntryAtomics :=
  let elapsed := toU64 (entry.elapsed now).1
  { atomics with
    lastActivityNanos :=
      if atomics.lastActivityNanos < elapsed then elapsed else atomics.lastActivityNanos }

def currentPenalty (entry : ChannelEntry bound) (now : Instant bound) (atomics : EntryAtomics) :
    UInt32 :=
  if atomics.penaltyState = 0 then 0
  else
    let (penaltyLoad, expiryMillis) := decodePenaltyState atomics.penaltyState
    if penaltyLoad = 0 ∨ expiryMillis = 0 then 0
    else if expiryMillis ≤ toU64 (entry.elapsed now).asMillis then 0
    else penaltyLoad

def effectivePickLoad (entry : ChannelEntry bound) (now : Instant bound) (atomics : EntryAtomics) :
    UInt32 :=
  saturatingAddU32 atomics.inFlightRpcs (entry.currentPenalty now atomics)

def applyErrorPenalty (entry : ChannelEntry bound) (now : Instant bound) (code : Code)
    (step : UInt32) (duration : Duration) (maxPenalty : UInt32) (atomics : EntryAtomics) :
    EntryAtomics :=
  if code ≠ .unavailable ∧ code ≠ .resourceExhausted then atomics
  else
    let durationMillis := toU64 duration.asMillis
    let nowMillis := toU64 (entry.elapsed now).asMillis
    let (currentLoad, expiryMillis) := decodePenaltyState atomics.penaltyState
    let activeLoad := if nowMillis < expiryMillis then currentLoad else 0
    let newLoad := saturatingAddU32 activeLoad step
    let newLoad := if newLoad ≤ maxPenalty then newLoad else maxPenalty
    let newExpiryMillis := toU64 (nowMillis.toNat + durationMillis.toNat)
    { atomics with penaltyState := encodePenaltyState newLoad newExpiryMillis }

def elapsedSinceActivity (entry : ChannelEntry bound) (now : Instant bound)
    (atomics : EntryAtomics) : Duration :=
  .saturate ((toU64 (entry.elapsed now).1).toNat - atomics.lastActivityNanos.toNat)

end ChannelEntry

/-! ## The pool -/

/-- One row of `candidate_keys`. -/
structure CandidateKey (bound : ℕ) where
  inFlight : UInt32
  rwCount : UInt32
  penalty : UInt32
  createdAt : Instant bound
  entryId : ℕ
deriving DecidableEq

/-- The order of `(in_flight, rw_count, Reverse(penalty), Reverse(created_at))`. -/
def CandidateKey.le {bound : ℕ} (key other : CandidateKey bound) : Prop :=
  key.inFlight < other.inFlight ∨ (key.inFlight = other.inFlight ∧
    (key.rwCount < other.rwCount ∨ (key.rwCount = other.rwCount ∧
      (other.penalty < key.penalty ∨ (key.penalty = other.penalty ∧
        other.createdAt ≤ key.createdAt)))))

instance {bound : ℕ} : DecidableRel (@CandidateKey.le bound) := fun _ _ =>
  inferInstanceAs (Decidable (_ ∨ _))

/-- `sort_unstable_by_key`: any sorted rearrangement may come out. The `order` is the one
that does, if it is such a rearrangement. -/
def sortUnstableByKey {bound : ℕ} (order keys : List (CandidateKey bound)) :
    List (CandidateKey bound) :=
  if order.Perm keys ∧ order.Pairwise CandidateKey.le then order
  else keys.insertionSort CandidateKey.le

/-- Where the monitor task stands in `evaluate_and_execute_scale_down` or
`sweep_draining_channels`. -/
inductive MonitorTask (bound : ℕ)
  | idle
  | scaleUpNotRequested
  | notInCooldown
  /-- Holds the write lock of the active entries and sums their in-flight counts. -/
  | summing (rest : List (ChannelEntry bound)) (totalInFlight : UInt32)
  /-- Holds both write locks and takes the snapshot of the keys. -/
  | snapshotting (channelsToRemove : ℕ) (rest : List (ChannelEntry bound))
      (candidateKeys : List (CandidateKey bound))
  /-- Holds the write lock of the draining entries. -/
  | sweeping (rest : List (ChannelEntry bound))
deriving DecidableEq

def MonitorTask.holdsActive {bound : ℕ} : MonitorTask bound → Bool
  | summing _ _ | snapshotting _ _ _ => true
  | _ => false

def MonitorTask.holdsDraining {bound : ℕ} : MonitorTask bound → Bool
  | snapshotting _ _ _ | sweeping _ => true
  | _ => false

/-- `ChannelPoolInner`, the entries created so far, the clock, the guards that are held
(by the address of their entry) and the two background tasks. -/
structure ChannelPool (bound : ℕ) where
  config : DynamicChannelPoolConfig
  activeEntries : List (ChannelEntry bound)
  drainingEntries : List (ChannelEntry bound) := []
  created : List (ChannelEntry bound)
  /-- An `AtomicU64` that does not reach its wrap. -/
  nextEntryId : ℕ
  atomics : ℕ → EntryAtomics := fun _ => {}
  scaleUpRequested : Bool := false
  lastScaleUpTime : Option (Instant bound) := none
  consecutiveLowLoadChecks : ℕ := 0
  now : Instant bound
  rpcGuards : List ℕ := []
  rwGuards : List ℕ := []
  monitor : MonitorTask bound := .idle
  /-- What the swap in `calculate_scale_up_count` has taken. -/
  worker : Option Bool := none

namespace ChannelPool

variable {bound : ℕ}

/-- `initialize_entries`, from the instants at which the entries are made. -/
def initializeEntries (channels : List (Instant bound)) : List (ChannelEntry bound) :=
  channels.mapIdx fun index createdAt => ⟨index, index + 1, index + 1, createdAt⟩

def newDynamic (channels : List (Instant bound)) (config : DynamicChannelPoolConfig)
    (now : Instant bound) : ChannelPool bound where
  config := config
  activeEntries := initializeEntries channels
  created := initializeEntries channels
  nextEntryId := channels.length + 1
  now := now

def atomicsOf (pool : ChannelPool bound) (entry : ChannelEntry bound) : EntryAtomics :=
  pool.atomics entry.address

def stateOf (pool : ChannelPool bound) (entry : ChannelEntry bound) : ChannelState :=
  (pool.atomicsOf entry).state

def inFlight (pool : ChannelPool bound) (entry : ChannelEntry bound) : UInt32 :=
  (pool.atomicsOf entry).inFlightRpcs

def activeRwCount (pool : ChannelPool bound) (entry : ChannelEntry bound) : UInt32 :=
  (pool.atomicsOf entry).activeRwTransactions

def effectivePickLoad (pool : ChannelPool bound) (entry : ChannelEntry bound) : UInt32 :=
  entry.effectivePickLoad pool.now (pool.atomicsOf entry)

def modifyAtomics (pool : ChannelPool bound) (entry : ChannelEntry bound)
    (f : EntryAtomics → EntryAtomics) : ChannelPool bound :=
  { pool with atomics := Function.update pool.atomics entry.address (f (pool.atomicsOf entry)) }

def setState (pool : ChannelPool bound) (entry : ChannelEntry bound) (state : ChannelState) :
    ChannelPool bound :=
  pool.modifyAtomics entry fun atomics => { atomics with state := state }

def resetLowLoadChecks (pool : ChannelPool bound) : ChannelPool bound :=
  { pool with consecutiveLowLoadChecks := 0 }

/-! ## Requests -/

/-- `make_lease`. -/
def makeLease (pool : ChannelPool bound) (entry : ChannelEntry bound) : ChannelPool bound :=
  let pool := pool.modifyAtomics entry fun atomics =>
    entry.touchActivity pool.now { atomics with inFlightRpcs := atomics.inFlightRpcs + 1 }
  let pool := { pool with rpcGuards := entry.address :: pool.rpcGuards }
  if pool.config.maxRpcPerChannel.lt (.ofNat (pool.effectivePickLoad entry).toNat) then
    { pool with scaleUpRequested := true }
  else pool

/-- `ActiveRpcGuard::drop`. -/
def dropRpcGuard (pool : ChannelPool bound) (entry : ChannelEntry bound) : ChannelPool bound :=
  if entry.address ∈ pool.rpcGuards then
    let pool := pool.modifyAtomics entry fun atomics =>
      entry.touchActivity pool.now { atomics with inFlightRpcs := atomics.inFlightRpcs - 1 }
    { pool with rpcGuards := pool.rpcGuards.erase entry.address }
  else pool

/-- `RwTransactionAffinityGuard::new`. -/
def newRwGuard (pool : ChannelPool bound) (entry : ChannelEntry bound) : ChannelPool bound :=
  let pool := pool.modifyAtomics entry fun atomics =>
    { atomics with activeRwTransactions := atomics.activeRwTransactions + 1 }
  { pool with rwGuards := entry.address :: pool.rwGuards }

/-- `RwTransactionAffinityGuard::drop`. -/
def dropRwGuard (pool : ChannelPool bound) (entry : ChannelEntry bound) : ChannelPool bound :=
  if entry.address ∈ pool.rwGuards then
    let pool := pool.modifyAtomics entry fun atomics =>
      entry.touchActivity pool.now
        { atomics with activeRwTransactions := atomics.activeRwTransactions - 1 }
    { pool with rwGuards := pool.rwGuards.erase entry.address }
  else pool

/-- `record_error_code` of a guard of the entry. -/
def recordErrorCode (pool : ChannelPool bound) (entry : ChannelEntry bound) (code : Code) :
    ChannelPool bound :=
  pool.modifyAtomics entry (entry.applyErrorPenalty pool.now code pool.config.errorPenaltyStep
    pool.config.errorPenaltyDuration pool.config.errorPenaltyMax)

/-- What requests and the clock do to the pool. -/
inductive Traffic (bound : ℕ)
  | elapse (later : Instant bound)
  | makeLease (address : ℕ)
  | dropRpcGuard (address : ℕ)
  | newRwGuard (address : ℕ)
  | dropRwGuard (address : ℕ)
  | recordErrorCode (address : ℕ) (code : Code)
  | setPrimeSession

/-- An operation on the entry at an address; there is none at an address not yet used. -/
def withEntry (pool : ChannelPool bound) (address : ℕ)
    (operation : ChannelEntry bound → ChannelPool bound) : ChannelPool bound :=
  match pool.created[address]? with
  | some entry => operation entry
  | none => pool

def handle (pool : ChannelPool bound) : Traffic bound → ChannelPool bound
  | .elapse later => { pool with now := pool.now.max later }
  | .makeLease address => pool.withEntry address pool.makeLease
  | .dropRpcGuard address => pool.withEntry address pool.dropRpcGuard
  | .newRwGuard address => pool.withEntry address pool.newRwGuard
  | .dropRwGuard address => pool.withEntry address pool.dropRwGuard
  | .recordErrorCode address code => pool.withEntry address (pool.recordErrorCode · code)
  | .setPrimeSession => { pool with lastScaleUpTime := none }

/-! ## Scale-up -/

/-- The swap at the start of `calculate_scale_up_count`. -/
def takeScaleUpRequest (pool : ChannelPool bound) : ChannelPool bound :=
  { pool with worker := some pool.scaleUpRequested, scaleUpRequested := false }

/-- The store of the worker loop when there is no session to prime with. -/
def discardScaleUpRequest (pool : ChannelPool bound) : ChannelPool bound :=
  { pool with scaleUpRequested := false }

/-- The rest of `calculate_scale_up_count`, under the read lock of the active entries. -/
def calculateScaleUpCount (pool : ChannelPool bound) (scaleUpRequested : Bool) :
    ℕ × ChannelPool bound :=
  let config := pool.config
  let currentLen := pool.activeEntries.length
  if config.maxChannels ≤ currentLen then (0, { pool with lastScaleUpTime := some pool.now })
  else
    let loads := pool.activeEntries.map pool.effectivePickLoad
    let totalLoad := loads.sum
    let hasSaturatedChannel := loads.any fun load => config.maxRpcPerChannel.lt (.ofNat load.toNat)
    let isSaturated := (hasSaturatedChannel || scaleUpRequested) && decide (0 < totalLoad)
    let desiredChannels := config.desiredChannelCount totalLoad
    if !isSaturated ∧ desiredChannels ≤ currentLen then (0, pool)
    else
      let maxToAddByPercent := max (((F64.ofNat currentLen).mul
        (.ofNat config.maxScaleUpPercent.toNat)).div (.ofNat 100) |>.ceilAs (2 ^ 64 - 1)) 2
      let baseNeeded := desiredChannels - currentLen
      let needed := if isSaturated then max baseNeeded 1 else baseNeeded
      let channelsToAdd := min (min needed maxToAddByPercent) (config.maxChannels - currentLen)
      if 0 < channelsToAdd then
        (channelsToAdd, { pool.resetLowLoadChecks with lastScaleUpTime := some pool.now })
      else (channelsToAdd, pool)

/-- The scale-up worker goes on once it gets the read lock. -/
def advanceWorker (pool : ChannelPool bound) : ChannelPool bound :=
  match pool.worker with
  | none => pool
  | some scaleUpRequested =>
      if pool.monitor.holdsActive then pool
      else { (pool.calculateScaleUpCount scaleUpRequested).2 with worker := none }

/-- The slots that these entries mark in `occupied_slots`. -/
def occupiedSlots (entries : List (ChannelEntry bound)) (slot : ℕ) : Bool :=
  entries.any fun entry =>
    decide (entry.logicalChannelId ≤ maxSupportedChannels) && entry.logicalChannelId == slot

def allocateSlot (occupiedSlots : ℕ → Bool) (maxChannels : ℕ) : ℕ :=
  ((List.range' 1 maxSupportedChannels).find? fun slot => !occupiedSlots slot).getD maxChannels

/-- The active entries and the draining ones that are not closed. -/
def liveEntries (pool : ChannelPool bound) : List (ChannelEntry bound) :=
  pool.activeEntries ++ pool.drainingEntries.filter fun entry => pool.stateOf entry ≠ .closed

def publishPrimedChannel (pool : ChannelPool bound) : ChannelPool bound :=
  if pool.monitor.holdsActive || pool.monitor.holdsDraining then pool
  else if pool.config.maxChannels ≤ pool.activeEntries.length then pool
  else
    let logicalSlot := allocateSlot (occupiedSlots pool.liveEntries) pool.config.maxChannels
    let entry := ⟨pool.created.length, pool.nextEntryId, logicalSlot, pool.now⟩
    { pool.resetLowLoadChecks with
      created := pool.created ++ [entry]
      nextEntryId := pool.nextEntryId + 1
      atomics := Function.update pool.atomics entry.address {}
      activeEntries := pool.activeEntries ++ [entry] }

/-! ## Scale-down -/

/-- The first check of `evaluate_and_execute_scale_down`. -/
def checkScaleUpRequested (pool : ChannelPool bound) : ChannelPool bound :=
  if pool.scaleUpRequested then { pool.resetLowLoadChecks with monitor := .idle }
  else { pool with monitor := .scaleUpNotRequested }

def checkCooldown (pool : ChannelPool bound) : ChannelPool bound :=
  match pool.lastScaleUpTime with
  | some lastTime =>
      if pool.now.saturatingDurationSince lastTime < pool.config.scaleUpCooldown then
        { pool.resetLowLoadChecks with monitor := .idle }
      else { pool with monitor := .notInCooldown }
  | none => { pool with monitor := .notInCooldown }

/-- Takes the write lock and checks the floor. -/
def checkMinChannels (pool : ChannelPool bound) : ChannelPool bound :=
  if pool.activeEntries.length ≤ pool.config.minChannels then
    { pool.resetLowLoadChecks with monitor := .idle }
  else { pool with monitor := .summing pool.activeEntries 0 }

/-- From the average load to the number of channels to remove. -/
def decideScaleDown (pool : ChannelPool bound) (totalInFlight : UInt32) : ChannelPool bound :=
  let config := pool.config
  let length := pool.activeEntries.length
  let avgLoad := (F64.ofNat totalInFlight.toNat).div (.ofNat length)
  if config.minRpcPerChannel.le avgLoad then { pool.resetLowLoadChecks with monitor := .idle }
  else
    let lowRuns := pool.consecutiveLowLoadChecks + 1
    let pool := { pool with consecutiveLowLoadChecks := lowRuns }
    if lowRuns < config.consecutiveLowLoadChecks then { pool with monitor := .idle }
    else
      let desiredChannels := max (config.desiredChannelCount totalInFlight) config.minChannels
      if length ≤ desiredChannels then { pool.resetLowLoadChecks with monitor := .idle }
      else
        let channelsToRemove := min (length - desiredChannels) config.maxRemoveChannels
        if channelsToRemove = 0 then { pool.resetLowLoadChecks with monitor := .idle }
        else { pool with monitor := .snapshotting channelsToRemove pool.activeEntries [] }

def candidateKey (pool : ChannelPool bound) (entry : ChannelEntry bound) : CandidateKey bound where
  inFlight := pool.inFlight entry
  rwCount := pool.activeRwCount entry
  penalty := entry.currentPenalty pool.now (pool.atomicsOf entry)
  createdAt := entry.createdAt
  entryId := entry.id

def drainChannelIds (config : DynamicChannelPoolConfig) (channelsToRemove : ℕ)
    (candidateKeys : List (CandidateKey bound)) : List ℕ :=
  let eligibleToRemove := min (candidateKeys.length - config.minChannels) channelsToRemove
  (candidateKeys.take eligibleToRemove).map CandidateKey.entryId

/-- The `retain` over the active entries. -/
def drain (pool : ChannelPool bound) (drainChannelIds : List ℕ) : ChannelPool bound :=
  let drained := pool.activeEntries.filter fun entry => entry.id ∈ drainChannelIds
  let pool := { drained.foldl (setState · · .draining) pool with
    activeEntries := pool.activeEntries.filter fun entry => entry.id ∉ drainChannelIds
    drainingEntries := pool.drainingEntries ++ drained }
  { pool.resetLowLoadChecks with monitor := .idle }

/-! ## Sweep -/

/-- The closure of the `retain` in `sweep_draining_channels`. When the sum of the durations
overflows, it panics: the entries from here on stay. -/
def sweepEntry (pool : ChannelPool bound) (entry : ChannelEntry bound)
    (rest : List (ChannelEntry bound)) : ChannelPool bound :=
  if 0 < pool.inFlight entry then { pool with monitor := .sweeping rest }
  else
    let idleDuration := entry.elapsedSinceActivity pool.now (pool.atomicsOf entry)
    let requiredIdle :=
      if 0 < pool.activeRwCount entry then
        spannerRwTransactionIdleTimeout.checkedAdd pool.config.drainIdleGrace
      else some pool.config.drainIdleGrace
    match requiredIdle with
    | none => { pool with monitor := .idle }
    | some requiredIdle =>
        if requiredIdle ≤ idleDuration then
          { pool.setState entry .closed with
            drainingEntries := pool.drainingEntries.erase entry
            monitor := .sweeping rest }
        else { pool with monitor := .sweeping rest }

/-- One step of the monitor task; `order` is what the unstable sort makes of the keys. -/
def advanceMonitor (pool : ChannelPool bound) (order : List (CandidateKey bound)) :
    ChannelPool bound :=
  match pool.monitor with
  | .idle => pool
  | .scaleUpNotRequested => pool.checkCooldown
  | .notInCooldown => pool.checkMinChannels
  | .summing [] totalInFlight => pool.decideScaleDown totalInFlight
  | .summing (entry :: rest) totalInFlight =>
      { pool with monitor := .summing rest (totalInFlight + pool.inFlight entry) }
  | .snapshotting channelsToRemove [] candidateKeys =>
      pool.drain (drainChannelIds pool.config channelsToRemove
        (sortUnstableByKey order candidateKeys))
  | .snapshotting channelsToRemove (entry :: rest) candidateKeys =>
      { pool with
        monitor := .snapshotting channelsToRemove rest
          (candidateKeys ++ [pool.candidateKey entry]) }
  | .sweeping [] => { pool with monitor := .idle }
  | .sweeping (entry :: rest) => pool.sweepEntry entry rest

/-! ## Runs -/

inductive Event (bound : ℕ)
  | traffic (traffic : Traffic bound)
  | takeScaleUpRequest
  | discardScaleUpRequest
  | advanceWorker
  | publishPrimedChannel
  | evaluateAndExecuteScaleDown
  | sweepDrainingChannels
  | advanceMonitor (order : List (CandidateKey bound))

/-- The monitor task enters one of its functions only when it is not in the other. -/
def enter (pool : ChannelPool bound) (next : ChannelPool bound) : ChannelPool bound :=
  match pool.monitor with
  | .idle => next
  | _ => pool

def step (pool : ChannelPool bound) : Event bound → ChannelPool bound
  | .traffic traffic => pool.handle traffic
  | .takeScaleUpRequest => pool.takeScaleUpRequest
  | .discardScaleUpRequest => pool.discardScaleUpRequest
  | .advanceWorker => pool.advanceWorker
  | .publishPrimedChannel => pool.publishPrimedChannel
  | .evaluateAndExecuteScaleDown => pool.enter pool.checkScaleUpRequested
  | .sweepDrainingChannels => pool.enter { pool with monitor := .sweeping pool.drainingEntries }
  | .advanceMonitor order => pool.advanceMonitor order

def run (pool : ChannelPool bound) (events : List (Event bound)) : ChannelPool bound :=
  events.foldl step pool

end ChannelPool

end GoogleCloudRust
