import Mathlib.Data.Finset.Sort
import Mathlib.Data.String.Basic
import GoogleCloudRust.Model.EndpointLifecycle
import GoogleCloudRust.Model.KeyRangeCache
import GoogleCloudRust.Model.KeyRecipeCache

/-! # Cache updater

Model of `routing/cache_updater.rs`. `process_cache_update` is cut at every access to
shared state; a call is at one of its phases, and an event lets it go on to the next one.
The two locks guard no data: which call holds them can be read off the phases. -/

namespace GoogleCloudRust.CacheUpdater

open KeyRangeCache (activeAddresses addRanges findRange RangeMode)

/-- The fields that are not read by the key range cache come on top. -/
structure CacheUpdate extends KeyRangeCache.CacheUpdate where
  databaseId : UInt64
  keyRecipes : Option RecipeList

variable {bound : ℕ}

/-- `CacheUpdater`, with the lifecycle manager and its pending operations. -/
structure Updater (bound : ℕ) where
  databaseScope : String
  keyRangeCache : KeyRangeCache.Cache
  keyRecipeCache : KeyRecipeCache.Cache
  endpoints : EndpointLifecycle.System bound
  databaseId : UInt64

def new (databaseScope : String) (idleEvictionDuration : Duration)
    (defaultEndpointAddress : String) : Updater bound where
  databaseScope := databaseScope
  keyRangeCache := KeyRangeCache.new
  keyRecipeCache := KeyRecipeCache.new
  endpoints := .new idleEvictionDuration defaultEndpointAddress
  databaseId := 0

/-! ## Phases of a call -/

/-- The two modes of `update_lock`. -/
inductive Guard
  | read
  | write
deriving DecidableEq, Repr

/-- What `ingest_cache_payload` does next. -/
inductive Ingest
  | recipes
  | ranges
  | addressLock
  | snapshot
  | register (activeAddresses : Finset String)
  | prewarm (newlyRegistered : Finset String)
deriving DecidableEq

/-- What `process_cache_update` does next. -/
inductive Phase
  | check
  | acquire (guard : Guard)
  | recheck (guard : Guard)
  | clearRanges
  | clearRecipes
  | unregister
  | storeId
  | ingest (guard : Guard) (stage : Ingest)
  | returned
deriving DecidableEq

namespace Phase

/-- The mode in which a call at this phase holds `update_lock`. -/
def updateGuard : Phase → Option Guard
  | recheck guard | ingest guard _ => some guard
  | clearRanges | clearRecipes | unregister | storeId => some .write
  | check | acquire _ | returned => none

/-- A call at this phase holds `address_sync_lock`. -/
def holdsAddressLock : Phase → Bool
  | ingest _ .snapshot | ingest _ (.register _) => true
  | _ => false

end Phase

structure ProcessCall where
  cacheUpdate : CacheUpdate
  phase : Phase

/-- The updater, the calls made so far, and the updates whose payload was ingested. -/
structure System (bound : ℕ) where
  updater : Updater bound
  calls : List ProcessCall
  ingested : List CacheUpdate

namespace System

def isLocked (system : System bound) : Bool :=
  system.calls.any fun call => call.phase.updateGuard.isSome

def isWriteLocked (system : System bound) : Bool :=
  system.calls.any fun call => call.phase.updateGuard = some .write

def isAddressLocked (system : System bound) : Bool :=
  system.calls.any fun call => call.phase.holdsAddressLock

/-- The guard can be taken now. -/
def isAvailable (system : System bound) : Guard → Bool
  | .write => !system.isLocked
  | .read => !system.isWriteLocked

/-! ## Atomic steps -/

/-- The next step of `ingest_cache_payload`. -/
def advanceIngest (system : System bound) (cacheUpdate : CacheUpdate) (guard : Guard)
    (now : Instant bound) : Ingest → Phase × System bound
  | .recipes =>
      let updater := system.updater
      let keyRecipeCache :=
        match cacheUpdate.keyRecipes with
        | some keyRecipes =>
            KeyRecipeCache.updateFromRecipeList updater.keyRecipeCache keyRecipes
        | none => updater.keyRecipeCache
      (.ingest guard .ranges, { system with
        updater := { updater with keyRecipeCache := keyRecipeCache }
        ingested := system.ingested ++ [cacheUpdate] })
  | .ranges =>
      let (groupsChanged, keyRangeCache) :=
        addRanges system.updater.keyRangeCache cacheUpdate.toCacheUpdate
      (if groupsChanged then .ingest guard .addressLock else .returned,
        { system with updater := { system.updater with keyRangeCache := keyRangeCache } })
  | .addressLock =>
      (.ingest guard (if system.isAddressLocked then .addressLock else .snapshot), system)
  | .snapshot =>
      (.ingest guard (.register (activeAddresses system.updater.keyRangeCache)), system)
  | .register activeAddresses =>
      let updater := system.updater
      let (newlyRegistered, manager) := updater.endpoints.manager.updateActiveAddressesAt
        updater.databaseScope activeAddresses now
      (.ingest guard (.prewarm newlyRegistered), { system with
        updater := { updater with endpoints := { updater.endpoints with manager := manager } } })
  | .prewarm newlyRegistered =>
      -- The iteration order of the hash set is one of many.
      let endpoints := (newlyRegistered.sort (· ≤ ·)).foldl (fun endpoints address =>
        endpoints.step (.prewarmEndpoint address)) system.updater.endpoints
      (.returned, { system with updater := { system.updater with endpoints := endpoints } })

/-- The next step of `process_cache_update`; a call that waits for a lock stays where it is. -/
def advancePhase (system : System bound) (cacheUpdate : CacheUpdate) (now : Instant bound) :
    Phase → Phase × System bound
  | .check =>
      let updateDatabaseId := cacheUpdate.databaseId
      (.acquire (if updateDatabaseId ≠ 0 ∧ system.updater.databaseId ≠ updateDatabaseId then .write
        else .read), system)
  | .acquire guard =>
      (if system.isAvailable guard then .recheck guard else .acquire guard, system)
  | .recheck .write =>
      let currentId := system.updater.databaseId
      if currentId ≠ cacheUpdate.databaseId then
        if currentId ≠ 0 ∧ cacheUpdate.databaseId < currentId then (.returned, system)
        else if currentId ≠ 0 then (.clearRanges, system)
        else (.storeId, system)
      else (.acquire .read, system)
  | .recheck .read =>
      if cacheUpdate.databaseId ≠ 0 ∧ cacheUpdate.databaseId < system.updater.databaseId then
        (.returned, system)
      else (.ingest .read .recipes, system)
  | .clearRanges =>
      let updater := system.updater
      (.clearRecipes, { system with
        updater := { updater with keyRangeCache := KeyRangeCache.clear updater.keyRangeCache } })
  | .clearRecipes =>
      let updater := system.updater
      (.unregister, { system with
        updater := { updater with keyRecipeCache := KeyRecipeCache.clear updater.keyRecipeCache } })
  | .unregister =>
      let updater := system.updater
      let manager := (updater.endpoints.manager.unregisterSource updater.databaseScope).2
      (.storeId, { system with
        updater := { updater with endpoints := { updater.endpoints with manager := manager } } })
  | .storeId =>
      (.ingest .write .recipes, { system with
        updater := { system.updater with databaseId := cacheUpdate.databaseId } })
  | .ingest guard stage => system.advanceIngest cacheUpdate guard now stage
  | .returned => (.returned, system)

end System

/-! ## Interleavings -/

/-- What the threads of the client do with the shared state. -/
inductive Event (bound : ℕ)
  | process (cacheUpdate : CacheUpdate)
  | advance (index : ℕ) (now : Instant bound)
  | findRange (uniformRandom : ℕ → ℕ) (key limit : Bytes) (mode : RangeMode)
  | getRecipe (target : Target)
  /-- An operation of the lifecycle manager that leaves the source of this updater alone. -/
  | endpoint (event : EndpointLifecycle.Event bound)

namespace System

def advance (system : System bound) (index : ℕ) (now : Instant bound) : System bound :=
  match system.calls[index]? with
  | none => system
  | some call =>
      let (phase, system) := system.advancePhase call.cacheUpdate now call.phase
      { system with calls := system.calls.set index { call with phase := phase } }

/-- The lookup of a recipe by its target. -/
def getRecipe (cache : KeyRecipeCache.Cache) : Target → KeyRecipeCache.Cache
  | .tableName name => (KeyRecipeCache.getTableRecipe cache name).2
  | .indexName name => (KeyRecipeCache.getIndexRecipe cache name).2
  | .operationUid uid => (KeyRecipeCache.getQueryRecipe cache uid).2

def step (system : System bound) : Event bound → System bound
  | .process cacheUpdate => { system with calls := system.calls ++ [⟨cacheUpdate, .check⟩] }
  | .advance index now => system.advance index now
  | .findRange uniformRandom key limit mode =>
      let updater := system.updater
      { system with updater := { updater with
        keyRangeCache := (findRange updater.keyRangeCache uniformRandom key limit mode).2 } }
  | .getRecipe target =>
      let updater := system.updater
      { system with updater := { updater with
        keyRecipeCache := getRecipe updater.keyRecipeCache target } }
  | .endpoint event =>
      if event.touchesSource system.updater.databaseScope then system
      else
        let updater := system.updater
        { system with updater := { updater with endpoints := updater.endpoints.step event } }

def new (databaseScope : String) (idleEvictionDuration : Duration)
    (defaultEndpointAddress : String) : System bound :=
  ⟨CacheUpdater.new databaseScope idleEvictionDuration defaultEndpointAddress, [], []⟩

def run (system : System bound) (events : List (Event bound)) : System bound :=
  events.foldl step system

/-- The addresses registered for the source of this updater. -/
def registered (system : System bound) : Finset String :=
  (system.updater.endpoints.manager.state.activeAddressesPerSource.lookup
    system.updater.databaseScope).getD ∅

end System

end GoogleCloudRust.CacheUpdater
