import GoogleCloudRust.Model.ChannelPool

/-! # Transaction affinity of channels

Model of `resolve_affinity` in `channel_pool/pool.rs` and of `TransactionAffinity` in
`channel_pool/affinity.rs`. Concurrent calls on one handle run as atomic steps: the read of
the pin, each lookup under its lock, each compare-and-set, the making of a lease and the
attachment of the guard. A call holds the read lock of the active entries from its first
lookup until it returns. -/

namespace GoogleCloudRust

/-! ## Power of two choices -/

namespace PowerOfTwoSelector

/-- `sample_two_distinct_with_rng`, from the two random draws. -/
def sampleTwoDistinct (totalCandidates : ℕ) (draws : ℕ × ℕ) : ℕ × ℕ :=
  let firstIndex := draws.1 % totalCandidates
  let secondIndex := draws.2 % (totalCandidates - 1)
  (firstIndex, if firstIndex ≤ secondIndex then secondIndex + 1 else secondIndex)

/-- `select_with_rng` for integer scores. -/
def select {α : Type*} (candidates : List α) (score : α → UInt32) (draws : ℕ × ℕ) : Option α :=
  match candidates with
  | [] => none
  | [candidate] => some candidate
  | candidates =>
      let (firstIndex, secondIndex) := sampleTwoDistinct candidates.length draws
      match candidates[firstIndex]?, candidates[secondIndex]? with
      | some first, some second => if score first ≤ score second then some first else some second
      | _, _ => none

end PowerOfTwoSelector

namespace ChannelAffinity

variable {bound : ℕ}

inductive AffinityKind
  | readWrite
  | readOnly
deriving DecidableEq, Repr

inductive RwGuardState (bound : ℕ)
  | active (guard : Option (ChannelEntry bound))
  | released
deriving DecidableEq

/-- The pin is zero until a channel is pinned. -/
structure TransactionAffinity (bound : ℕ) where
  entryId : ℕ := 0
  kind : AffinityKind
  rwGuard : RwGuardState bound := .active none
deriving DecidableEq

namespace TransactionAffinity

def newReadWrite : TransactionAffinity bound where
  kind := .readWrite

def newReadOnly : TransactionAffinity bound where
  kind := .readOnly

def isReadWrite (affinity : TransactionAffinity bound) : Bool := affinity.kind = .readWrite

def pinnedEntryId (affinity : TransactionAffinity bound) : Option ℕ :=
  if affinity.entryId ≠ 0 then some affinity.entryId else none

/-- The new handle, or the id that another call has pinned. -/
def compareAndSetEntryId (affinity : TransactionAffinity bound) (current new : ℕ) :
    Except ℕ (TransactionAffinity bound) :=
  if affinity.entryId = current then .ok { affinity with entryId := new }
  else .error affinity.entryId

end TransactionAffinity

/-- Where a call of `resolve_affinity` stands. -/
inductive Call (bound : ℕ)
  | readPin
  | lockActive (currentId : Option ℕ)
  | findActive (currentId : Option ℕ)
  | findDraining (id : ℕ)
  | pick (currentId : Option ℕ)
  | compareAndSet (expectedId : ℕ) (lease : ChannelEntry bound)
  /-- The loop of `resolve_cas_conflict`. -/
  | conflictActive (winnerId : ℕ) (lease : ChannelEntry bound)
  | conflictDraining (winnerId : ℕ) (lease : ChannelEntry bound)
  | conflictSet (winnerId : ℕ) (lease : ChannelEntry bound)
  /-- A found entry gets its lease; the one lease that lost is dropped. -/
  | makeLease (entry : ChannelEntry bound) (lost : Option (ChannelEntry bound))
  | ensureRwGuard (lease : ChannelEntry bound)
  | returned (lease : Option (ChannelEntry bound))
deriving DecidableEq

def Call.holdsActive : Call bound → Bool
  | readPin | lockActive _ | returned _ => false
  | _ => true

structure System (bound : ℕ) where
  pool : ChannelPool bound
  affinity : TransactionAffinity bound
  calls : List (Call bound) := []

namespace System

def findActiveEntry (pool : ChannelPool bound) (id : ℕ) : Option (ChannelEntry bound) :=
  pool.activeEntries.find? fun entry => entry.id = id ∧ pool.stateOf entry = .active

def findDrainingEntry (pool : ChannelPool bound) (id : ℕ) : Option (ChannelEntry bound) :=
  pool.drainingEntries.find? fun entry => entry.id = id ∧ pool.stateOf entry = .draining

def pickFromSlice (pool : ChannelPool bound) (draws : ℕ × ℕ) : Option (ChannelEntry bound) :=
  PowerOfTwoSelector.select pool.activeEntries pool.effectivePickLoad draws

/-- `ensure_rw_guard`. The guard that is replaced is dropped. -/
def ensureRwGuard (system : System bound) (lease : ChannelEntry bound) : System bound :=
  match system.affinity.rwGuard with
  | .released => system
  | .active slot =>
      if (slot.map ChannelEntry.id) = some lease.id then system
      else
        let pool := system.pool.newRwGuard lease
        { system with
          pool := slot.elim pool pool.dropRwGuard
          affinity := { system.affinity with rwGuard := .active (some lease) } }

/-- `release_rw_guard`. -/
def releaseRwGuard (system : System bound) : System bound :=
  { system with
    pool := match system.affinity.rwGuard with
      | .active (some guard) => system.pool.dropRwGuard guard
      | _ => system.pool
    affinity := { system.affinity with rwGuard := .released } }

/-- The next step of a call. -/
def advanceCall (system : System bound) (draws : ℕ × ℕ) : Call bound → Call bound × System bound
  | .readPin => (.lockActive system.affinity.pinnedEntryId, system)
  | .lockActive currentId =>
      if system.pool.monitor.holdsActive then (.lockActive currentId, system)
      else if system.pool.activeEntries.isEmpty then (.returned none, system)
      else (.findActive currentId, system)
  | .findActive none => (.pick none, system)
  | .findActive (some id) =>
      match findActiveEntry system.pool id with
      | some entry => (.makeLease entry none, system)
      | none => (if system.affinity.isReadWrite then .findDraining id else .pick (some id), system)
  | .findDraining id =>
      if system.pool.monitor.holdsDraining then (.findDraining id, system)
      else
        match findDrainingEntry system.pool id with
        | some entry => (.makeLease entry none, system)
        | none => (.pick (some id), system)
  | .pick currentId =>
      match pickFromSlice system.pool draws with
      | none => (.returned none, system)
      | some entry =>
          (.compareAndSet (currentId.getD 0) entry,
            { system with pool := system.pool.makeLease entry })
  | .compareAndSet expectedId lease =>
      match system.affinity.compareAndSetEntryId expectedId lease.id with
      | .ok affinity => (.ensureRwGuard lease, { system with affinity := affinity })
      | .error winnerId => (.conflictActive winnerId lease, system)
  | .conflictActive winnerId lease =>
      match findActiveEntry system.pool winnerId with
      | some entry => (.makeLease entry (some lease), system)
      | none =>
          (if system.affinity.isReadWrite then .conflictDraining winnerId lease
            else .conflictSet winnerId lease, system)
  | .conflictDraining winnerId lease =>
      if system.pool.monitor.holdsDraining then (.conflictDraining winnerId lease, system)
      else
        match findDrainingEntry system.pool winnerId with
        | some entry => (.makeLease entry (some lease), system)
        | none => (.conflictSet winnerId lease, system)
  | .conflictSet winnerId lease =>
      match system.affinity.compareAndSetEntryId winnerId lease.id with
      | .ok affinity => (.ensureRwGuard lease, { system with affinity := affinity })
      | .error newWinnerId => (.conflictActive newWinnerId lease, system)
  | .makeLease entry lost =>
      let pool := system.pool.makeLease entry
      (.ensureRwGuard entry, { system with pool := lost.elim pool pool.dropRpcGuard })
  | .ensureRwGuard lease =>
      (.returned (some lease),
        if system.affinity.isReadWrite then system.ensureRwGuard lease else system)
  | .returned lease => (.returned lease, system)

/-! ## Runs -/

inductive Event (bound : ℕ)
  | pool (event : ChannelPool.Event bound)
  | resolveAffinity
  | advance (index : ℕ) (draws : ℕ × ℕ)
  | releaseRwGuard

/-- The steps of the pool that take the write lock of the active entries. -/
def takesActive (pool : ChannelPool bound) : ChannelPool.Event bound → Bool
  | .publishPrimedChannel => true
  | .advanceMonitor _ => pool.monitor = .notInCooldown
  | _ => false

def step (system : System bound) : Event bound → System bound
  | .pool event =>
      if takesActive system.pool event && system.calls.any Call.holdsActive then system
      else { system with pool := system.pool.step event }
  | .resolveAffinity => { system with calls := system.calls ++ [.readPin] }
  | .advance index draws =>
      match system.calls[index]? with
      | none => system
      | some call =>
          let (call, system) := system.advanceCall draws call
          { system with calls := system.calls.set index call }
  | .releaseRwGuard => system.releaseRwGuard

def run (system : System bound) (events : List (Event bound)) : System bound :=
  events.foldl step system

end System

end ChannelAffinity

end GoogleCloudRust
