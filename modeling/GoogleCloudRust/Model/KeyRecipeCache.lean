import GoogleCloudRust.Model.ClockCache
import GoogleCloudRust.Model.PreparedOperation

/-! # Key recipe cache

Model of `routing/key_recipe_cache.rs`. A method that takes the store lock once is one
transition; `get_or_prepare_operation`, which takes it twice and allocates in between,
is given by its three phases. -/

namespace GoogleCloudRust.KeyRecipeCache

open GoogleCloudRust.PreparedOperation

def defaultSchemaRecipeCacheCapacity : ℕ := 1000
def defaultQueryRecipeCacheCapacity : ℕ := 2000

structure RecipeStore where
  tables : ClockStore String KeyRecipe
  indexes : ClockStore String KeyRecipe
  queries : ClockStore UInt64 KeyRecipe
  preparedQueries : ClockStore UInt64 PreparedQuery
  preparedReads : ClockStore UInt64 PreparedRead
  schemaGeneration : Option Bytes

namespace RecipeStore

def withCapacities (schemaCapacity queryCapacity : ℕ) : RecipeStore where
  tables := .withCapacity schemaCapacity
  indexes := .withCapacity schemaCapacity
  queries := .withCapacity queryCapacity
  preparedQueries := .withCapacity queryCapacity
  preparedReads := .withCapacity queryCapacity
  schemaGeneration := none

/-- `invalidate_all`, without the collections it hands out for deallocation. -/
def invalidateAll (store : RecipeStore) (newSchemaGeneration : Option Bytes) : RecipeStore :=
  { store with
    tables := store.tables.takeAll.2
    indexes := store.indexes.takeAll.2
    queries := store.queries.takeAll.2
    schemaGeneration := newSchemaGeneration }

/-- Store a recipe under its target. -/
def insertRecipe (store : RecipeStore) (target : Target) (recipe : KeyRecipe) : RecipeStore :=
  match target with
  | .tableName name => { store with tables := (store.tables.insert name recipe).2 }
  | .indexName name => { store with indexes := (store.indexes.insert name recipe).2 }
  | .operationUid operationUid =>
      { store with queries := (store.queries.insert operationUid recipe).2 }

end RecipeStore

structure Cache where
  store : RecipeStore
  nextOperationUid : UInt64

/-- `KeyRecipeCache::new`. -/
def new : Cache where
  store := .withCapacities defaultSchemaRecipeCacheCapacity defaultQueryRecipeCacheCapacity
  nextOperationUid := 1

/-! ## Recipes -/

def getTableRecipe (cache : Cache) (tableName : String) : Option KeyRecipe × Cache :=
  let (recipe, tables) := cache.store.tables.get tableName
  (recipe, { cache with store := { cache.store with tables := tables } })

def getIndexRecipe (cache : Cache) (indexName : String) : Option KeyRecipe × Cache :=
  let (recipe, indexes) := cache.store.indexes.get indexName
  (recipe, { cache with store := { cache.store with indexes := indexes } })

def getQueryRecipe (cache : Cache) (operationUid : UInt64) : Option KeyRecipe × Cache :=
  let (recipe, queries) := cache.store.queries.get operationUid
  (recipe, { cache with store := { cache.store with queries := queries } })

/-- The recipes of a list that have a target. -/
def targeted (recipes : List KeyRecipe) : List (Target × KeyRecipe) :=
  recipes.filterMap fun recipe => recipe.target.map fun target => (target, recipe)

/-- The switch of the schema generation, or `none` if the list is stale. -/
def switchGeneration (store : RecipeStore) (incomingGeneration : Bytes) : Option RecipeStore :=
  match incomingGeneration.isEmpty, store.schemaGeneration with
  | false, some currentGeneration =>
      if incomingGeneration < currentGeneration then none
      else if currentGeneration < incomingGeneration then
        some (store.invalidateAll (some incomingGeneration))
      else some store
  | false, none => some { store with schemaGeneration := some incomingGeneration }
  | true, _ => some store

def updateFromRecipeList (cache : Cache) (recipeList : RecipeList) : Cache :=
  if recipeList.recipe.isEmpty && recipeList.schemaGeneration.isEmpty then cache
  else
    match switchGeneration cache.store recipeList.schemaGeneration with
    | none => cache
    | some store =>
        { cache with
          store := (targeted recipeList.recipe).foldl (fun store entry =>
            store.insertRecipe entry.1 entry.2) store }

def clear (cache : Cache) : Cache :=
  let store := cache.store
  let store := { store with preparedQueries := store.preparedQueries.takeAll.2 }
  let store := { store with preparedReads := store.preparedReads.takeAll.2 }
  { cache with store := store.invalidateAll none }

/-! ## Prepared operations -/

/-- The trait `PreparedOperation`. -/
class PreparedOperation (T : Type) where
  operationUid : T → UInt64
  clockStore : RecipeStore → ClockStore UInt64 T
  setClockStore : RecipeStore → ClockStore UInt64 T → RecipeStore

instance : PreparedOperation PreparedQuery where
  operationUid := PreparedQuery.operationUid
  clockStore := RecipeStore.preparedQueries
  setClockStore store preparedQueries := { store with preparedQueries := preparedQueries }

instance : PreparedOperation PreparedRead where
  operationUid := PreparedRead.operationUid
  clockStore := RecipeStore.preparedReads
  setClockStore store preparedReads := { store with preparedReads := preparedReads }

section Phases

variable {T : Type} [PreparedOperation T]

/-- `get_ref` under either lock, and what the call returns if it finds a descriptor:
`some none` on a fingerprint collision. -/
def lookupPrepared (cache : Cache) (fingerprint : UInt64) (accepts : T → Bool) :
    Option (Option UInt64) × Cache :=
  let (found, prepared) := (PreparedOperation.clockStore (T := T) cache.store).get fingerprint
  (found.map fun descriptor =>
      if accepts descriptor then some (PreparedOperation.operationUid descriptor) else none,
    { cache with store := PreparedOperation.setClockStore cache.store prepared })

/-- `fetch_add(1)`, which wraps. -/
def allocateOperationUid (cache : Cache) : UInt64 × Cache :=
  (cache.nextOperationUid, { cache with nextOperationUid := cache.nextOperationUid + 1 })

/-- The body under the write lock. -/
def insertPrepared (cache : Cache) (fingerprint : UInt64) (accepts : T → Bool) (prepared : T) :
    Option UInt64 × Cache :=
  match lookupPrepared cache fingerprint accepts with
  | (some result, cache) => (result, cache)
  | (none, cache) =>
      let stored := (PreparedOperation.clockStore (T := T) cache.store).insert fingerprint prepared
      (some (PreparedOperation.operationUid prepared),
        { cache with store := PreparedOperation.setClockStore cache.store stored.2 })

/-- The three phases without interruption. -/
def getOrPrepareOperation (cache : Cache) (fingerprint : UInt64) (accepts : T → Bool)
    (create : UInt64 → T) : Option UInt64 × Cache :=
  match lookupPrepared cache fingerprint accepts with
  | (some result, cache) => (result, cache)
  | (none, cache) =>
      let (operationUid, cache) := allocateOperationUid cache
      insertPrepared cache fingerprint accepts (create operationUid)

end Phases

def isUnpreparedQuery (request : ExecuteSqlRequest) : Bool :=
  request.sql = "" || !request.partitionToken.isEmpty

def isUnpreparedRead (request : ReadRequest) : Bool :=
  request.table = "" || !request.partitionToken.isEmpty

def getOrPrepareQuery (cache : Cache) (request : ExecuteSqlRequest) : Option UInt64 × Cache :=
  if isUnpreparedQuery request then (none, cache)
  else getOrPrepareOperation cache (fingerprintExecuteSqlRequest request)
    (fun prepared : PreparedQuery => prepared.matchesRequest request)
    (fun operationUid => PreparedQuery.new request operationUid)

def getOrPrepareRead (cache : Cache) (request : ReadRequest) : Option UInt64 × Cache :=
  if isUnpreparedRead request then (none, cache)
  else getOrPrepareOperation cache (fingerprintProtoReadRequest request)
    (fun prepared : PreparedRead => prepared.matchesProtoReadRequest request)
    (fun operationUid => PreparedRead.fromProtoReadRequest request operationUid)

/-! ## Calls under one lock -/

inductive Call
  | updateFromRecipeList (recipeList : RecipeList)
  | clear
  | getTableRecipe (tableName : String)
  | getIndexRecipe (indexName : String)
  | getQueryRecipe (operationUid : UInt64)

def step (cache : Cache) : Call → Cache
  | .updateFromRecipeList recipeList => updateFromRecipeList cache recipeList
  | .clear => clear cache
  | .getTableRecipe tableName => (getTableRecipe cache tableName).2
  | .getIndexRecipe indexName => (getIndexRecipe cache indexName).2
  | .getQueryRecipe operationUid => (getQueryRecipe cache operationUid).2

def run (cache : Cache) (calls : List Call) : Cache :=
  calls.foldl step cache

/-! ## Concurrent preparation -/

/-- The argument of `get_or_prepare_query` or `get_or_prepare_read`. -/
inductive Request
  | query (request : ExecuteSqlRequest)
  | read (request : ReadRequest)

namespace Request

def isUnprepared : Request → Bool
  | query request => isUnpreparedQuery request
  | read request => isUnpreparedRead request

def isPartitioned : Request → Bool
  | query request => !request.partitionToken.isEmpty
  | read request => !request.partitionToken.isEmpty

/-- The descriptor prepared for one request matches the other. -/
def accepts : Request → Request → Bool
  | query prepared, query request => (PreparedQuery.new prepared 0).matchesRequest request
  | read prepared, read request =>
      (PreparedRead.fromProtoReadRequest prepared 0).matchesProtoReadRequest request
  | _, _ => false

/-- The optimistic lookup under the read lock. -/
def lookup (cache : Cache) : Request → Option (Option UInt64) × Cache
  | query request => lookupPrepared cache (fingerprintExecuteSqlRequest request)
      fun prepared : PreparedQuery => prepared.matchesRequest request
  | read request => lookupPrepared cache (fingerprintProtoReadRequest request)
      fun prepared : PreparedRead => prepared.matchesProtoReadRequest request

/-- The second check and the insertion under the write lock. -/
def insert (cache : Cache) (operationUid : UInt64) : Request → Option UInt64 × Cache
  | query request => insertPrepared cache (fingerprintExecuteSqlRequest request)
      (fun prepared : PreparedQuery => prepared.matchesRequest request)
      (PreparedQuery.new request operationUid)
  | read request => insertPrepared cache (fingerprintProtoReadRequest request)
      (fun prepared : PreparedRead => prepared.matchesProtoReadRequest request)
      (PreparedRead.fromProtoReadRequest request operationUid)

def getOrPrepare (cache : Cache) : Request → Option UInt64 × Cache
  | query request => getOrPrepareQuery cache request
  | read request => getOrPrepareRead cache request

end Request

/-- What a call does next. -/
inductive Phase
  | lookup
  | allocate
  | insert (operationUid : UInt64)
  | returned (result : Option UInt64)
deriving DecidableEq

structure PrepareCall where
  request : Request
  phase : Phase

/-- The shared cache, the calls made so far, and how many UIDs they have allocated. -/
structure System where
  cache : Cache
  calls : List PrepareCall
  allocations : ℕ

inductive Event
  | prepare (request : Request)
  | advance (index : ℕ)
  | call (call : Call)

namespace System

def new : System := ⟨KeyRecipeCache.new, [], 0⟩

/-- The next atomic step of one call. -/
def advancePhase (system : System) (request : Request) : Phase → Phase × System
  | .lookup =>
      match request.lookup system.cache with
      | (some result, cache) => (.returned result, { system with cache := cache })
      | (none, cache) => (.allocate, { system with cache := cache })
  | .allocate =>
      let (operationUid, cache) := allocateOperationUid system.cache
      (.insert operationUid,
        { system with cache := cache, allocations := system.allocations + 1 })
  | .insert operationUid =>
      let (result, cache) := request.insert system.cache operationUid
      (.returned result, { system with cache := cache })
  | .returned result => (.returned result, system)

def advance (system : System) (index : ℕ) : System :=
  match system.calls[index]? with
  | none => system
  | some call =>
      let (phase, system) := system.advancePhase call.request call.phase
      { system with calls := system.calls.set index { call with phase := phase } }

def step (system : System) : Event → System
  | .prepare request =>
      { system with
        calls := system.calls ++
          [⟨request, if request.isUnprepared then .returned none else .lookup⟩] }
  | .advance index => system.advance index
  | .call call => { system with cache := KeyRecipeCache.step system.cache call }

def run (system : System) (events : List Event) : System :=
  events.foldl step system

/-- The request and the result of a call that has returned. -/
def returned? (system : System) (index : ℕ) : Option (Request × Option UInt64) :=
  match system.calls[index]? with
  | some ⟨request, .returned result⟩ => some (request, result)
  | _ => none

end System

end GoogleCloudRust.KeyRecipeCache
