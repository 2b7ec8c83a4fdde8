import GoogleCloudRust.Library.Float64
import GoogleCloudRust.Model.KeyRangeCache

/-! # Location router

Model of the selection of a tablet in `routing/location_router.rs`, with the replica directives of
`routing/directed_read.rs` and the sampling of `routing/power_of_two_selector.rs`. Cooldowns,
evictions, connections and costs are read from a snapshot. The requests to recreate an endpoint that
the lookups send off do not change it. -/

namespace GoogleCloudRust

open KeyRangeCache

namespace LocationRouter

inductive Panic
  | indexOutOfBounds (index length : ℕ)
  | rangeEndOutOfBounds (stop length : ℕ)
  /-- `debug_assert!`, or an empty range given to `random_range`. -/
  | sampleTooSmall (totalCandidates : ℕ)
deriving DecidableEq, Repr

/-! ## Directed reads -/

/-- `replica_selection::Type`. -/
inductive SelectionType
  | unspecified
  | readWrite
  | readOnly
  | unknownValue (u : UnknownEnumValue)
deriving DecidableEq, Repr

structure ReplicaSelection where
  location : String
  type : SelectionType
deriving DecidableEq, Repr

inductive Replicas
  | includeReplicas (replicaSelections : List ReplicaSelection)
  | excludeReplicas (replicaSelections : List ReplicaSelection)
deriving DecidableEq, Repr

structure DirectedReadOptions where
  replicas : Option Replicas
deriving DecidableEq, Repr

def matchesReplicaSelection (tablet : Tablet) (selection : ReplicaSelection) : Bool :=
  if !selection.location.isEmpty && selection.location ≠ tablet.location then false
  else
    match selection.type with
    | .readWrite => tablet.role = .readWrite || tablet.role = .unspecified
    | .readOnly => tablet.role = .readOnly
    | .unspecified | .unknownValue _ => true

def matchesReplicas (tablet : Tablet) : Replicas → Bool
  | .includeReplicas selections => selections.any (matchesReplicaSelection tablet)
  | .excludeReplicas selections => !selections.any (matchesReplicaSelection tablet)

/-! ## Snapshots -/

/-- The state of a `ServerConnection`. -/
inductive ConnectionState
  | ready
  | transientFailure
  | unhealthy
deriving DecidableEq, Repr

structure ServerConnection where
  state : ConnectionState
  activeRequests : ℕ
deriving DecidableEq, Repr

namespace ServerConnection

def isHealthy (connection : ServerConnection) : Bool := connection.state = .ready

def isTransientFailure (connection : ServerConnection) : Bool :=
  connection.state = .transientFailure

end ServerConnection

structure Snapshot where
  isCoolingDown : String → Bool
  isTransientFailureEvicted : String → Bool
  getIfPresent : String → Option ServerConnection
  /-- `get_selection_cost`, by group, active requests and address. -/
  getSelectionCost : UInt64 → ℕ → String → F64

namespace Snapshot

variable (snapshot : Snapshot)

/-- `none` if the tablet is not routable, else its connection if that is warmed. -/
def resolveCandidateConnection (tablet : Tablet) : Option (Option ServerConnection) :=
  if tablet.serverAddress.isEmpty || snapshot.isCoolingDown tablet.serverAddress ||
      snapshot.isTransientFailureEvicted tablet.serverAddress then none
  else
    match snapshot.getIfPresent tablet.serverAddress with
    | some connection =>
        if connection.isTransientFailure then none
        else if connection.isHealthy then some (some connection)
        else some none
    | none => some none

def isTabletRoutable (tablet : Tablet) : Bool :=
  if tablet.serverAddress.isEmpty || snapshot.isCoolingDown tablet.serverAddress ||
      snapshot.isTransientFailureEvicted tablet.serverAddress then false
  else !(snapshot.getIfPresent tablet.serverAddress).any ServerConnection.isTransientFailure

end Snapshot

/-! ## Slots -/

/-- A tablet index with the connection of the tablet. -/
abbrev Candidate := ℕ × Option ServerConnection

def Candidate.isWarmed (candidate : Candidate) : Bool := candidate.2.isSome

/-- A stack buffer of candidates. -/
abbrev Slots := List (Option Candidate)

def maxRoutableCandidates : ℕ := 8

namespace Slots

def empty : Slots := List.replicate maxRoutableCandidates none

/-- `slots[index] = value`. -/
def write (slots : Slots) (index : ℕ) (value : Option Candidate) : Except Panic Slots :=
  if index < slots.length then .ok (slots.set index value)
  else .error (.indexOutOfBounds index slots.length)

/-- `&slots[..stop]`. -/
def upTo (slots : Slots) (stop : ℕ) : Except Panic Slots :=
  if stop ≤ slots.length then .ok (slots.take stop)
  else .error (.rangeEndOutOfBounds stop slots.length)

/-- `slots[..stop].fill(None)`. -/
def clear (slots : Slots) (stop : ℕ) : Except Panic Slots := do
  let front ← slots.upTo stop
  return List.replicate front.length none ++ slots.drop stop

end Slots

/-! ## Candidates -/

structure Collection where
  routable : Slots
  routableCount : ℕ
  warmedCount : ℕ

/-- Stores a candidate in the next slot. -/
def Collection.push (s : Collection) (candidate : Candidate) : Except Panic Collection := do
  let routable ← s.routable.write s.routableCount (some candidate)
  return ⟨routable, s.routableCount + 1,
    if candidate.isWarmed then s.warmedCount + 1 else s.warmedCount⟩

/-- Stores a candidate if there is a slot left. -/
def Collection.offer (s : Collection) (candidate : Candidate) : Except Panic Collection :=
  if s.routableCount < s.routable.length then s.push candidate else .ok s

/-- A closer distance tier discards the candidates so far. -/
def Collection.enterTier (s : Collection) (distance minimumDistance : UInt32) :
    Except Panic (Collection × UInt32) :=
  if distance < minimumDistance then do
    let routable ← s.routable.clear s.routableCount
    return (⟨routable, 0, 0⟩, distance)
  else .ok (s, minimumDistance)

variable (snapshot : Snapshot)

/-- The loop body of `collect_directed_read_candidates`, with the minimum distance so far. -/
def collectDirectedReadCandidate (replicas : Replicas) (s : Collection × UInt32)
    (entry : Tablet × ℕ) : Except Panic (Collection × UInt32) :=
  let (tablet, index) := entry
  let (collection, minimumDistance) := s
  if tablet.skip || !matchesReplicas tablet replicas then .ok s
  else
    match snapshot.resolveCandidateConnection tablet with
    | none => .ok s
    | some maybeConnection =>
        if tablet.distance > minimumDistance then .ok s
        else do
          let (collection, minimumDistance) ← collection.enterTier tablet.distance minimumDistance
          let collection ← collection.offer (index, maybeConnection)
          return (collection, minimumDistance)

def collectDirectedReadCandidates (group : CachedGroup) (replicas : Replicas) (routable : Slots) :
    Except Panic Collection := do
  let s ← group.tablets.zipIdx.foldlM (collectDirectedReadCandidate snapshot replicas)
    (⟨routable, 0, 0⟩, 0xFFFFFFFF)
  return s.1

/-- The loop of `collect_default_candidates` over the rest of the eligible indices. -/
def collectDefaultFrom (tablets : List Tablet) (s : Collection) : List ℕ → Except Panic Collection
  | [] => .ok s
  | index :: rest =>
      if s.routable.length ≤ s.routableCount then .ok s
      else do
        let s ←
          match tablets[index]?.bind snapshot.resolveCandidateConnection with
          | some maybeConnection => s.push (index, maybeConnection)
          | none => pure s
        collectDefaultFrom tablets s rest

def collectDefaultCandidates (group : CachedGroup) (routable : Slots) : Except Panic Collection :=
  collectDefaultFrom snapshot group.tablets ⟨routable, 0, 0⟩ group.eligibleReplicaIndices

/-! ## Selection -/

/-- What the random number generator yields for the two indices. -/
structure Draws where
  first : ℕ
  second : ℕ

def sampleTwoDistinct (totalCandidates : ℕ) (draws : Draws) : Except Panic (ℕ × ℕ) :=
  if totalCandidates < 2 then .error (.sampleTooSmall totalCandidates)
  else
    let firstIndex := draws.first % totalCandidates
    let secondIndex := draws.second % (totalCandidates - 1)
    .ok (firstIndex, if firstIndex ≤ secondIndex then secondIndex + 1 else secondIndex)

/-- Compares the candidates in two slots by their cost. -/
def compareSlots (group : CachedGroup) (routable : Slots) (groupUid : UInt64)
    (firstSlot secondSlot : ℕ) : Option ℕ := do
  let (firstIndex, firstConnection) ← routable[firstSlot]?.join
  let (secondIndex, secondConnection) ← routable[secondSlot]?.join
  let firstTablet ← group.tablets[firstIndex]?
  let secondTablet ← group.tablets[secondIndex]?
  let firstActiveRequests := (firstConnection.map ServerConnection.activeRequests).getD 0
  let secondActiveRequests := (secondConnection.map ServerConnection.activeRequests).getD 0
  let firstCost :=
    snapshot.getSelectionCost groupUid firstActiveRequests firstTablet.serverAddress
  let secondCost :=
    snapshot.getSelectionCost groupUid secondActiveRequests secondTablet.serverAddress
  let selectedSlot := if firstCost.le secondCost then firstSlot else secondSlot
  let (selectedIndex, _) ← routable[selectedSlot]?.join
  return selectedIndex

def selectP2cWinner (group : CachedGroup) (routable : Slots) (routableCount : ℕ)
    (groupUid : UInt64) (draws : Draws) : Except Panic (Option ℕ) := do
  let (firstSlot, secondSlot) ← sampleTwoDistinct routableCount draws
  return compareSlots snapshot group routable groupUid firstSlot secondSlot

/-- Moves a warmed candidate to the next of the new slots. -/
def keepWarmed (s : Slots × ℕ) (slot : Option Candidate) : Except Panic (Slots × ℕ) :=
  match slot with
  | some (tabletIndex, some connection) => do
      let warmedOnly ← s.1.write s.2 (some (tabletIndex, some connection))
      return (warmedOnly, s.2 + 1)
  | _ => .ok s

/-- The candidates to choose from, and how many they are. -/
def preferWarmed (s : Collection) : Except Panic (Slots × ℕ) :=
  if 0 < s.warmedCount ∧ s.warmedCount < s.routableCount then do
    let slots ← s.routable.upTo s.routableCount
    slots.foldlM keepWarmed (.empty, 0)
  else .ok (s.routable, s.routableCount)

/-- `select_healthy_follower` after its candidates are collected. -/
def selectCandidate (group : CachedGroup) (groupUid : UInt64) (draws : Draws) (s : Collection) :
    Except Panic (Option ℕ) :=
  if s.routableCount = 0 then .ok none
  else do
    let (routable, routableCount) ← preferWarmed s
    if routableCount = 1 then
      match routable[0]? with
      | some slot => return slot.map Prod.fst
      | none => throw (.indexOutOfBounds 0 routable.length)
    else selectP2cWinner snapshot group routable routableCount groupUid draws

def selectHealthyFollower (group : CachedGroup) (groupUid : UInt64)
    (directedReadOptions : Option DirectedReadOptions) (draws : Draws) :
    Except Panic (Option ℕ) := do
  let s ←
    match directedReadOptions.bind DirectedReadOptions.replicas with
    | some replicas => collectDirectedReadCandidates snapshot group replicas .empty
    | none => collectDefaultCandidates snapshot group .empty
  selectCandidate snapshot group groupUid draws s

def selectHealthyLeader (group : CachedGroup) : Option Candidate := do
  let leaderIndex ← group.localLeaderIndex
  let leader ← group.tablets[leaderIndex]?
  let maybeConnection ← snapshot.resolveCandidateConnection leader
  return (leaderIndex, maybeConnection)

/-- A warmed follower instead of a leader that is not warmed. -/
def isWarmedFollower (group : CachedGroup) (followerIndex : ℕ) : Bool :=
  match group.tablets[followerIndex]?.bind snapshot.resolveCandidateConnection with
  | some (some _) => true
  | _ => false

def selectHealthyTablet (range : CachedRange) (group : CachedGroup) (preferLeader : Bool)
    (directedReadOptions : Option DirectedReadOptions) (draws : Draws) :
    Except Panic (Option ℕ) := do
  let hasDirectedReadOptions := (directedReadOptions.bind DirectedReadOptions.replicas).isSome
  let leader := if preferLeader && !hasDirectedReadOptions then selectHealthyLeader snapshot group
    else none
  match leader with
  | some (leaderIndex, some _) => return some leaderIndex
  | some (leaderIndex, none) => do
      let follower ← selectHealthyFollower snapshot group range.groupUid directedReadOptions draws
      match follower.filter (isWarmedFollower snapshot group) with
      | some followerIndex => return some followerIndex
      | none => return some leaderIndex
  | none => selectHealthyFollower snapshot group range.groupUid directedReadOptions draws

end LocationRouter

end GoogleCloudRust
