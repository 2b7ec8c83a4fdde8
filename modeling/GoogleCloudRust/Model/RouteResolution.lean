import GoogleCloudRust.Model.AffinityTracker
import GoogleCloudRust.Model.LocationRouter

/-! # Route resolution

Model of `resolve_route` in `routing/location_router.rs`, with the calls that change the affinity of
a transaction. The steps of one resolution look at cooldowns, evictions and connections one after
the other, so that each of them has a snapshot of its own. -/

namespace GoogleCloudRust

open KeyRangeCache

namespace LocationRouter

structure RoutingContext where
  transactionId : Option Bytes
  routingKey : Option Bytes
  preferLeader : Bool
  useTransactionAffinity : Bool

structure SkippedTablet where
  tabletUid : UInt64
  incarnation : Bytes
deriving DecidableEq, Repr

/-- The fields that no setter is called for have their defaults. -/
structure RoutingHint where
  operationUid : UInt64 := 0
  databaseId : UInt64 := 0
  schemaGeneration : Bytes := []
  key : Bytes := []
  limitKey : Bytes := []
  groupUid : UInt64 := 0
  splitId : UInt64 := 0
  tabletUid : UInt64 := 0
  skippedTabletUid : List SkippedTablet := []
  clientLocation : String := ""
deriving DecidableEq, Repr

structure RoutingHintParams where
  routingKey : Option Bytes
  databaseId : UInt64
  schemaGeneration : Option Bytes
  operationUid : UInt64
  clientLocation : Option String
  directedReadOptions : Option DirectedReadOptions

/-- A connection with the address under which the connection cache has it. -/
structure Target where
  address : String
  connection : ServerConnection
deriving DecidableEq, Repr

structure ResolvedRoute where
  connection : Target
  routingHint : Option RoutingHint
deriving DecidableEq, Repr

/-- A snapshot with the two flags that let a resolution skip the tablets one by one. Both flags
are read from the same counters as the answers about an address. -/
structure FlaggedSnapshot extends Snapshot where
  cooldownIsEmpty : Bool
  hasTransientFailureEvictions : Bool
  not_isCoolingDown : cooldownIsEmpty = true → ∀ address, isCoolingDown address = false
  not_isEvicted : hasTransientFailureEvictions = false →
    ∀ address, isTransientFailureEvicted address = false

/-- What the steps of a resolution observe. -/
structure Observations where
  affinity : Snapshot
  selection : Snapshot
  connection : Snapshot
  hint : FlaggedSnapshot
  draws : Draws

structure Router where
  keyRangeCache : Cache
  affinityTracker : AffinityTracker
  defaultConnection : Target

/-! ## Affinity of transactions -/

namespace Router

variable (router : Router)

/-- `none` if the insertion panics. -/
def recordTransactionAffinity (transactionId : Bytes) (address : String) : Option Router :=
  if transactionId = [] then some router
  else
    (router.affinityTracker.insert transactionId address).map fun tracker =>
      { router with affinityTracker := tracker }

def getTransactionAffinity (transactionId : Bytes) : Option String :=
  if transactionId = [] then none else router.affinityTracker.get transactionId

def clearTransactionAffinity (transactionId : Bytes) : Router :=
  if transactionId = [] then router
  else { router with affinityTracker := (router.affinityTracker.remove transactionId).2 }

def resolveAffinityConnection (snapshot : Snapshot) (context : RoutingContext) : Option Target :=
  if !context.useTransactionAffinity then none
  else do
    let transactionId ← context.transactionId
    let affinityAddress ← router.getTransactionAffinity transactionId
    if snapshot.isCoolingDown affinityAddress then none
    else
      let connection ← (snapshot.getIfPresent affinityAddress).filter ServerConnection.isHealthy
      return ⟨affinityAddress, connection⟩

/-! ## Ranges -/

/-- No range is drawn at random in this mode. -/
def findRangeAndGroup (routingKey : Option Bytes) : Option (CachedRange × CachedGroup) × Router :=
  match routingKey.filter (· ≠ []) with
  | none => (none, router)
  | some key =>
      let lookup := findRange router.keyRangeCache (fun _ => 0) key [] .coveringSplit
      let found := lookup.1.bind fun range =>
        (getGroup lookup.2 range.groupUid).map fun group => (range, group)
      (found, { router with keyRangeCache := lookup.2 })

end Router

/-! ## The connection -/

def Snapshot.getRoutableConnection (snapshot : Snapshot) (tablet : Tablet) : Option Target :=
  if !snapshot.isTabletRoutable tablet then none
  else
    ((snapshot.getIfPresent tablet.serverAddress).filter ServerConnection.isHealthy).map fun
      connection => ⟨tablet.serverAddress, connection⟩

/-- The connection of a resolution, with the endpoint whose traffic is recorded. -/
structure TargetConnection where
  connection : Target
  realTraffic : Option String
  router : Router

def Router.resolveTargetConnection (router : Router) (snapshot : Snapshot)
    (context : RoutingContext) (affinityConnection : Option Target)
    (selectedTablet : Option Tablet) : Option TargetConnection :=
  match affinityConnection with
  | some connection => some ⟨connection, some connection.address, router⟩
  | none =>
      match selectedTablet.bind snapshot.getRoutableConnection with
      | some connection => do
          let router ←
            match context.transactionId with
            | some transactionId =>
                if context.useTransactionAffinity then
                  router.recordTransactionAffinity transactionId connection.address
                else some router
            | none => some router
          return ⟨connection, some connection.address, router⟩
      | none => some ⟨router.defaultConnection, none, router⟩

/-! ## The hint -/

def FlaggedSnapshot.collectSkippedTablets (snapshot : FlaggedSnapshot) (group : CachedGroup)
    (selectedTabletUid : Option UInt64) (directedReadOptions : Option DirectedReadOptions) :
    List SkippedTablet :=
  let hasSkippedOrEmpty :=
    group.tablets.any fun tablet => tablet.skip || tablet.serverAddress.isEmpty
  if !hasSkippedOrEmpty && snapshot.cooldownIsEmpty && !snapshot.hasTransientFailureEvictions &&
      !group.tablets.any fun tablet =>
        (snapshot.getIfPresent tablet.serverAddress).any ServerConnection.isTransientFailure then []
  else
    let activeReplicas := directedReadOptions.bind DirectedReadOptions.replicas
    (group.tablets.filter fun tablet =>
      (tablet.skip || !snapshot.isTabletRoutable tablet) &&
        selectedTabletUid ≠ some tablet.tabletUid &&
        activeReplicas.all (matchesReplicas tablet)).map fun tablet =>
      ⟨tablet.tabletUid, tablet.incarnation⟩

/-- The fields that depend on the covering range, or on the key without one. -/
def FlaggedSnapshot.setLocation (snapshot : FlaggedSnapshot) (params : RoutingHintParams)
    (rangeAndGroup : Option (CachedRange × CachedGroup)) (routingKey : Option Bytes)
    (selectedTablet : Option Tablet) (hint : RoutingHint) : RoutingHint :=
  match rangeAndGroup with
  | some (range, group) =>
      let selectedUid := selectedTablet.map Tablet.tabletUid
      { hint with
        key := range.startKey
        limitKey := range.limitKey
        groupUid := range.groupUid
        splitId := range.splitId
        tabletUid := selectedUid.getD 0
        skippedTabletUid :=
          snapshot.collectSkippedTablets group selectedUid params.directedReadOptions }
  | none =>
      match routingKey with
      | some key => { hint with key := key }
      | none => hint

def RoutingHint.setOptional (hint : RoutingHint) (schemaGeneration : Option Bytes)
    (clientLocation : Option String) : RoutingHint :=
  let hint :=
    match schemaGeneration with
    | some schemaGeneration => { hint with schemaGeneration := schemaGeneration }
    | none => hint
  match clientLocation with
  | some location =>
      if location.isEmpty then hint else { hint with clientLocation := location }
  | none => hint

def FlaggedSnapshot.buildRoutingHint (snapshot : FlaggedSnapshot) (params : RoutingHintParams)
    (rangeAndGroup : Option (CachedRange × CachedGroup)) (selectedTablet : Option Tablet) :
    Option RoutingHint :=
  if params.databaseId = 0 then none
  else
    let routingKey := params.routingKey.filter (· ≠ [])
    if rangeAndGroup.isNone && routingKey.isNone then none
    else
      let hint := snapshot.setLocation params rangeAndGroup routingKey selectedTablet
        { operationUid := params.operationUid, databaseId := params.databaseId }
      some (hint.setOptional params.schemaGeneration params.clientLocation)

/-! ## Resolution -/

/-- The arguments of `resolve_route`. -/
structure RouteRequest where
  context : RoutingContext
  directedReadOptions : Option DirectedReadOptions
  databaseId : UInt64
  schemaGeneration : Option Bytes
  operationUid : UInt64
  clientLocation : Option String

def RouteRequest.hintParams (request : RouteRequest) : RoutingHintParams where
  routingKey := request.context.routingKey
  databaseId := request.databaseId
  schemaGeneration := request.schemaGeneration
  operationUid := request.operationUid
  clientLocation := request.clientLocation
  directedReadOptions := request.directedReadOptions

/-- The tablet that is chosen among those of the group. -/
def selectTablet (snapshot : Snapshot) (rangeAndGroup : Option (CachedRange × CachedGroup))
    (request : RouteRequest) (draws : Draws) : Except Panic (Option Tablet) :=
  match rangeAndGroup with
  | none => .ok none
  | some (range, group) => do
      let index ← selectHealthyTablet snapshot range group request.context.preferLeader
        request.directedReadOptions draws
      return index.bind fun index => group.tablets[index]?

/-- A route with the endpoint whose traffic is recorded, and the router after it. -/
structure Resolution where
  route : ResolvedRoute
  realTraffic : Option String
  router : Router

/-- The result is `none` if a step panics. -/
def Router.resolveRoute (router : Router) (observed : Observations) (request : RouteRequest) :
    Option Resolution := do
  let affinityConnection := router.resolveAffinityConnection observed.affinity request.context
  let (rangeAndGroup, router) := router.findRangeAndGroup request.context.routingKey
  let selectedTablet ←
    (selectTablet observed.selection rangeAndGroup request observed.draws).toOption
  let target ← router.resolveTargetConnection observed.connection request.context
    affinityConnection selectedTablet
  let routingHint := observed.hint.buildRoutingHint request.hintParams rangeAndGroup selectedTablet
  return ⟨⟨target.connection, routingHint⟩, target.realTraffic, target.router⟩

/-! ## Runs -/

inductive RouterCall
  | resolveRoute (observed : Observations) (request : RouteRequest)
  | clearTransactionAffinity (transactionId : Bytes)
  | addRanges (cacheUpdate : CacheUpdate)
  | clearRanges

/-- The route is the answer of a resolution. -/
def Router.step (router : Router) : RouterCall → Option (Option ResolvedRoute × Router)
  | .resolveRoute observed request =>
      (router.resolveRoute observed request).map fun resolution =>
        (some resolution.route, resolution.router)
  | .clearTransactionAffinity transactionId =>
      some (none, router.clearTransactionAffinity transactionId)
  | .addRanges cacheUpdate =>
      some (none, { router with keyRangeCache := (addRanges router.keyRangeCache cacheUpdate).2 })
  | .clearRanges => some (none, { router with keyRangeCache := clear router.keyRangeCache })

def Router.run (router : Router) : List RouterCall → Option (List (Option ResolvedRoute) × Router)
  | [] => some ([], router)
  | call :: calls => do
      let (route, router) ← router.step call
      let (routes, router) ← router.run calls
      return (route :: routes, router)

/-- `LocationRouter::new_with_affinity_capacity`. -/
def Router.new (maxAffinityEntries : ℕ) (defaultConnection : Target) : Router where
  keyRangeCache := KeyRangeCache.new
  affinityTracker := .withMaxCapacity maxAffinityEntries
  defaultConnection := defaultConnection

end LocationRouter

end GoogleCloudRust
