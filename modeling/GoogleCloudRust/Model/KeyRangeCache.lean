import GoogleCloudRust.Library.HashMap
import GoogleCloudRust.Library.OrdMap
import GoogleCloudRust.Model.Proto

/-! # Key range cache

Model of `routing/key_range_cache.rs`. Each method holds the state lock for its whole
body, so that a call is one state transition. -/

namespace GoogleCloudRust.KeyRangeCache

inductive RangeMode
  | coveringSplit
  | pickRandom
deriving DecidableEq, Repr

/-! ## Messages -/

inductive Role
  | unspecified
  | readWrite
  | readOnly
  | unknownValue (u : UnknownEnumValue)
deriving DecidableEq, Repr

structure Tablet where
  tabletUid : UInt64
  serverAddress : String
  location : String
  role : Role
  incarnation : Bytes
  distance : UInt32
  skip : Bool
deriving DecidableEq, Repr

structure Group where
  groupUid : UInt64
  tablets : List Tablet
  leaderIndex : Int32
  generation : Bytes

structure Range where
  startKey : Bytes
  limitKey : Bytes
  groupUid : UInt64
  splitId : UInt64
  generation : Bytes

structure CacheUpdate where
  range : List Range
  group : List Group

/-! ## Groups -/

def maxLocalReplicaDistance : UInt32 := 5

structure CachedGroup where
  groupUid : UInt64
  generation : Bytes
  tablets : List Tablet
  leaderIndex : Option ℕ
  localLeaderIndex : Option ℕ
  eligibleReplicaIndices : List ℕ
deriving DecidableEq, Repr

namespace CachedGroup

def parseLeaderIndex (leaderIndex : Int32) (tabletsCount : ℕ) : Option ℕ :=
  if leaderIndex < 0 then none
  else
    let index := leaderIndex.toInt.toNat
    if tabletsCount ≤ index then none else some index

def isRoutable (tablet : Tablet) : Bool := !tablet.skip && tablet.serverAddress ≠ ""

def isLocalDistance (distance : UInt32) : Bool := distance ≤ maxLocalReplicaDistance

def computeLocalLeaderIndex (tablets : List Tablet) (leaderIndex : Option ℕ) : Option ℕ := do
  let index ← leaderIndex
  let candidate ← tablets[index]?
  if !isRoutable candidate || !isLocalDistance candidate.distance then none else some index

/-- The variables of the loop over the tablets. -/
structure EligibleState where
  candidates : List ℕ := []
  minimumDistance : UInt32 := 0xFFFFFFFF
  localTierActive : Bool := false

def collectMinimumDistanceIndex (s : EligibleState) (index : ℕ) (distance : UInt32) :
    EligibleState :=
  if distance < s.minimumDistance then
    { s with minimumDistance := distance, candidates := [index] }
  else if distance = s.minimumDistance then
    { s with candidates := s.candidates ++ [index] }
  else s

def eligibleStep (s : EligibleState) (index : ℕ) (tablet : Tablet) : EligibleState :=
  if !isRoutable tablet then s
  else
    let isLocal := isLocalDistance tablet.distance
    let s :=
      if isLocal && !s.localTierActive then
        { localTierActive := true, minimumDistance := 0xFFFFFFFF, candidates := [] }
      else s
    if !isLocal && s.localTierActive then s
    else collectMinimumDistanceIndex s index tablet.distance

def computeEligibleReplicaIndices (tablets : List Tablet) : List ℕ :=
  (tablets.zipIdx.foldl (fun s tablet => eligibleStep s tablet.2 tablet.1) {}).candidates

def fromProto (proto : Group) : CachedGroup :=
  let leaderIndex := parseLeaderIndex proto.leaderIndex proto.tablets.length
  { groupUid := proto.groupUid
    generation := proto.generation
    tablets := proto.tablets
    leaderIndex := leaderIndex
    localLeaderIndex := computeLocalLeaderIndex proto.tablets leaderIndex
    eligibleReplicaIndices := computeEligibleReplicaIndices proto.tablets }

def shouldUpdateFrom (group : CachedGroup) (proto : Group) : Bool :=
  group.generation < proto.generation ||
    (proto.generation = group.generation &&
      (parseLeaderIndex proto.leaderIndex proto.tablets.length ≠ group.leaderIndex ||
        proto.tablets ≠ group.tablets))

end CachedGroup

/-! ## State -/

structure CachedRange where
  startKey : Bytes
  limitKey : Bytes
  groupUid : UInt64
  splitId : UInt64
  generation : Bytes
  lastAccess : UInt64
deriving DecidableEq, Repr

structure GroupEntry where
  group : Option CachedGroup := none
  references : ℕ := 0
deriving DecidableEq, Repr

structure CacheState where
  ranges : OrdMap Bytes CachedRange := OrdMap.empty
  groups : HashMap UInt64 GroupEntry := ∅

namespace CacheState

def incrementGroupReferences (state : CacheState) (groupUid : UInt64) : CacheState :=
  let entry := (state.groups.lookup groupUid).getD {}
  { state with groups := state.groups.insert groupUid { entry with references := entry.references + 1 } }

def decrementGroupReferences (state : CacheState) (groupUid : UInt64) : Bool × CacheState :=
  match state.groups.lookup groupUid with
  | none => (false, state)
  | some entry =>
      let references := entry.references - 1
      (references = 0,
        { state with groups := state.groups.insert groupUid { entry with references := references } })

def removeIfUnreferenced (state : CacheState) (groupUid : UInt64) : Bool × CacheState :=
  match state.groups.lookup groupUid with
  | none => (false, state)
  | some entry =>
      if entry.references = 0 then
        (entry.group.isSome, { state with groups := state.groups.erase groupUid })
      else (false, state)

def insertRange (state : CacheState) (startKey : Bytes) (range : CachedRange) : CacheState :=
  { state with ranges := state.ranges.insert startKey range }

end CacheState

structure Cache where
  state : CacheState := {}
  accessCounter : UInt64 := 0
  minCacheEntriesForRandomPick : ℕ := 1000

/-- `KeyRangeCache::new`. -/
def new : Cache := {}

def accessTimeNow (cache : Cache) : UInt64 × Cache :=
  (cache.accessCounter + 1, { cache with accessCounter := cache.accessCounter + 1 })

def clear (cache : Cache) : Cache := { cache with state := {} }

def getGroup (cache : Cache) (groupUid : UInt64) : Option CachedGroup :=
  (cache.state.groups.lookup groupUid).bind GroupEntry.group

/-- The addresses of all tablets of the stored groups. -/
def activeAddresses (cache : Cache) : Finset String :=
  cache.state.groups.keys.biUnion fun groupUid =>
    match getGroup cache groupUid with
    | some group =>
        ((group.tablets.map Tablet.serverAddress).filter fun address => address ≠ "").toFinset
    | none => ∅

/-! ## Updates -/

/-- The start of the scan for overlapping ranges: the predecessor of the incoming
range if it reaches into it. -/
def startKeyQuery (ranges : OrdMap Bytes CachedRange) (rangeIn : Range) : Bytes :=
  match ranges.lastLE rangeIn.startKey with
  | some (_, firstExisting) =>
      if firstExisting.limitKey = [] ∨ rangeIn.startKey < firstExisting.limitKey then
        firstExisting.startKey
      else rangeIn.startKey
  | none => rangeIn.startKey

def limitBound (rangeIn : Range) : Bound Bytes :=
  if rangeIn.limitKey = [] then .unbounded else .excluded rangeIn.limitKey

/-- The existing range reaches beyond the start of the incoming one. -/
def overlaps (rangeIn : Range) (existing : CachedRange) : Bool :=
  existing.limitKey = [] ∨ rangeIn.startKey < existing.limitKey

def overlapping (ranges : OrdMap Bytes CachedRange) (rangeIn : Range) :
    List (Bytes × CachedRange) :=
  (ranges.range (.included (startKeyQuery ranges rangeIn)) (limitBound rangeIn)).filter
    fun existing => overlaps rangeIn existing.2

/-- An existing range that makes the incoming one stale or redundant. -/
def rejects (rangeIn : Range) (existing : CachedRange) : Bool :=
  rangeIn.generation < existing.generation ∨
    (rangeIn.generation = existing.generation ∧ rangeIn.startKey = existing.startKey ∧
      rangeIn.limitKey = existing.limitKey)

/-- The part of an overlapping range before the incoming one. -/
def headOf (rangeIn : Range) (first : CachedRange) : CachedRange :=
  { first with limitKey := rangeIn.startKey }

/-- The part of an overlapping range behind the incoming one. -/
def tailOf (rangeIn : Range) (last : CachedRange) : CachedRange :=
  { last with startKey := rangeIn.limitKey }

def newRange (rangeIn : Range) (now : UInt64) : CachedRange where
  startKey := rangeIn.startKey
  limitKey := rangeIn.limitKey
  groupUid := rangeIn.groupUid
  splitId := rangeIn.splitId
  generation := rangeIn.generation
  lastAccess := now

def insertHead (rangeIn : Range) (first : CachedRange) (state : CacheState) : CacheState :=
  if first.startKey < rangeIn.startKey then
    (state.incrementGroupReferences first.groupUid).insertRange first.startKey
      (headOf rangeIn first)
  else state

def insertTail (rangeIn : Range) (last : CachedRange) (state : CacheState) : CacheState :=
  if rangeIn.limitKey ≠ [] ∧ (last.limitKey = [] ∨ rangeIn.limitKey < last.limitKey) then
    (state.incrementGroupReferences last.groupUid).insertRange rangeIn.limitKey
      (tailOf rangeIn last)
  else state

def insertNew (rangeIn : Range) (now : UInt64) (state : CacheState) : CacheState :=
  (state.incrementGroupReferences rangeIn.groupUid).insertRange rangeIn.startKey
    (newRange rangeIn now)

/-- Drop the references of the replaced ranges, noting the groups that reach zero. -/
def decrementAll : List (Bytes × CachedRange) → CacheState → List UInt64 → CacheState × List UInt64
  | [], state, maybeUnreferenced => (state, maybeUnreferenced)
  | existing :: rest, state, maybeUnreferenced =>
      let (unreferenced, state) := state.decrementGroupReferences existing.2.groupUid
      decrementAll rest state
        (if unreferenced then maybeUnreferenced ++ [existing.2.groupUid] else maybeUnreferenced)

def replaceRangeIfNewerLocked (cache : Cache) (rangeIn : Range)
    (maybeUnreferenced : List UInt64) : Cache × List UInt64 :=
  if rangeIn.limitKey ≠ [] ∧ rangeIn.limitKey ≤ rangeIn.startKey then (cache, maybeUnreferenced)
  else
    let overlapping := overlapping cache.state.ranges rangeIn
    if overlapping.any fun existing => rejects rangeIn existing.2 then (cache, maybeUnreferenced)
    else
      match overlapping.head?, overlapping.getLast? with
      | some (_, first), some (_, last) =>
          let state := cache.state
          let state := { state with
            ranges := state.ranges.eraseAll (overlapping.map fun existing => existing.2.startKey) }
          let state := insertHead rangeIn first state
          let state := insertTail rangeIn last state
          let (now, cache) := accessTimeNow cache
          let state := insertNew rangeIn now state
          let (state, maybeUnreferenced) := decrementAll overlapping state maybeUnreferenced
          ({ cache with state := state }, maybeUnreferenced)
      | _, _ =>
          let (now, cache) := accessTimeNow cache
          ({ cache with state := insertNew rangeIn now cache.state }, maybeUnreferenced)

def replaceRanges (cache : Cache) (ranges : List Range) (maybeUnreferenced : List UInt64) :
    Cache × List UInt64 :=
  ranges.foldl (fun acc rangeIn => replaceRangeIfNewerLocked acc.1 rangeIn acc.2)
    (cache, maybeUnreferenced)

def removeUnreferenced (state : CacheState) (maybeUnreferenced : List UInt64) :
    Bool × CacheState :=
  maybeUnreferenced.foldl (fun acc groupUid =>
    let (removed, state) := acc.2.removeIfUnreferenced groupUid
    (acc.1 || removed, state)) (false, state)

def updateGroup (state : CacheState) (groupIn : Group) : Bool × CacheState :=
  match state.groups.lookup groupIn.groupUid with
  | none => (false, state)
  | some entry =>
      if entry.group.all fun existing => existing.shouldUpdateFrom groupIn then
        let entry := { entry with group := some (CachedGroup.fromProto groupIn) }
        (true, { state with groups := state.groups.insert groupIn.groupUid entry })
      else (false, state)

def updateGroups (state : CacheState) (groups : List Group) : Bool × CacheState :=
  groups.foldl (fun acc groupIn =>
    let (updated, state) := updateGroup acc.2 groupIn
    (acc.1 || updated, state)) (false, state)

def addRanges (cache : Cache) (cacheUpdate : CacheUpdate) : Bool × Cache :=
  if cacheUpdate.group.isEmpty && cacheUpdate.range.isEmpty then (false, cache)
  else
    let (cache, maybeUnreferenced) := replaceRanges cache cacheUpdate.range []
    let (removed, state) := removeUnreferenced cache.state maybeUnreferenced
    let (updated, state) := updateGroups state cacheUpdate.group
    (removed || updated, { cache with state := state })

/-! ## Lookup -/

/-- `last_access.store(access_time_now())` on a stored range, which is also returned. -/
def touch (cache : Cache) (entry : Bytes × CachedRange) : Option CachedRange × Cache :=
  let (now, cache) := accessTimeNow cache
  let range := { entry.2 with lastAccess := now }
  (some range, { cache with state := cache.state.insertRange entry.1 range })

/-- The variables of the scan over several splits. -/
structure ScanState where
  total : ℕ
  foundGap : Bool
  sampled : Option (Bytes × CachedRange)
  lastLimit : Bytes

def scanStep (uniformRandom : ℕ → ℕ) (s : ScanState) (current : Bytes × CachedRange) : ScanState :=
  let total := s.total + 1
  { total := total
    foundGap := s.foundGap || s.lastLimit ≠ current.2.startKey
    sampled := if total = 1 ∨ uniformRandom total = 0 then some current else s.sampled
    lastLimit := current.2.limitKey }

/-- The scan stops at the limit, behind an unbounded range, or when it has seen
enough ranges. `uniformRandom total` is the number drawn below `total`. -/
def scan (uniformRandom : ℕ → ℕ) (limit : Bytes) (minEntries : ℕ) :
    List (Bytes × CachedRange) → ScanState → ScanState
  | [], s => s
  | current :: rest, s =>
      if limit ≤ current.2.startKey then s
      else
        let s := scanStep uniformRandom s current
        if current.2.limitKey = [] ∨ limit ≤ s.lastLimit ∨ minEntries ≤ s.total then s
        else scan uniformRandom limit minEntries rest s

def inRange (key : Bytes) (range : CachedRange) : Bool :=
  range.limitKey = [] ∨ key < range.limitKey

def pickRandom (cache : Cache) (uniformRandom : ℕ → ℕ) (key limit : Bytes)
    (firstRange : Option (Bytes × CachedRange)) : Option CachedRange × Cache :=
  let (start, scanStart) : ScanState × Bound Bytes :=
    match firstRange with
    | some first =>
        if inRange key first.2 then
          (⟨1, false, some first, first.2.limitKey⟩, .excluded first.2.startKey)
        else (⟨0, true, none, key⟩, .excluded first.2.startKey)
    | none => (⟨0, true, none, key⟩, .included key)
  let minEntries := cache.minCacheEntriesForRandomPick
  let s := scan uniformRandom limit minEntries (cache.state.ranges.range scanStart .unbounded) start
  let foundGap := s.foundGap || (s.lastLimit ≠ [] && s.lastLimit < limit)
  match s.sampled with
  | some sampled =>
      if !foundGap || minEntries ≤ s.total then touch cache sampled else (none, cache)
  | none => (none, cache)

def findRange (cache : Cache) (uniformRandom : ℕ → ℕ) (key limit : Bytes) (mode : RangeMode) :
    Option CachedRange × Cache :=
  let firstRange := cache.state.ranges.lastLE key
  match firstRange with
  | some first =>
      if limit = [] then
        if inRange key first.2 then touch cache first else (none, cache)
      else if inRange key first.2 ∧ (first.2.limitKey = [] ∨ limit ≤ first.2.limitKey) then
        touch cache first
      else if mode = .coveringSplit then (none, cache)
      else pickRandom cache uniformRandom key limit firstRange
  | none =>
      if limit = [] ∨ mode = .coveringSplit then (none, cache)
      else pickRandom cache uniformRandom key limit firstRange

end GoogleCloudRust.KeyRangeCache
