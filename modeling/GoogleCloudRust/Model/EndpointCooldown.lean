import GoogleCloudRust.Library.HashMap
import GoogleCloudRust.Library.Time

/-! # Endpoint cooldown

Model of `EndpointCooldownTracker` of `routing/endpoint_cooldown.rs`. The clock reading
and the random draw of a call are arguments. -/

namespace GoogleCloudRust

/-- `google_cloud_gax::error::rpc::Code`. -/
inductive Code
  | ok
  | cancelled
  | unknown
  | invalidArgument
  | deadlineExceeded
  | notFound
  | alreadyExists
  | permissionDenied
  | resourceExhausted
  | failedPrecondition
  | aborted
  | outOfRange
  | unimplemented
  | internal
  | unavailable
  | dataLoss
  | unauthenticated
deriving DecidableEq, Repr

namespace EndpointCooldown

def defaultInitialCooldown : Duration := .fromSecs 10
def defaultMaxCooldown : Duration := .fromSecs 60
def defaultResetAfter : Duration := .fromSecs 600
def defaultMinHintedCooldown : Duration := .fromMillis 100
def defaultMaxHintedClientFloor : Duration := .fromSecs 2
def defaultMaxHintedJitter : Duration := .fromMillis 500
def defaultSuccessesPerRepair : ℕ := 3
def defaultMaxFailureTier : ℕ := 6
def maxOverflowFallbackCooldown : Duration := defaultResetAfter

/-- `random_range(first..=last)`: every value of the range is drawn by some `draw`. -/
def randomRange (first last draw : ℕ) : ℕ := first + draw % (last - first + 1)

/-- `u64::try_from(duration.as_millis()).unwrap_or(u64::MAX)`. -/
def millisU64 (duration : Duration) : ℕ := min duration.asMillis (2 ^ 64 - 1)

variable {bound : ℕ}

/-- The failure is still within the reset window. -/
def isRecent (lastFailureAt : Option (Instant bound)) (now : Instant bound)
    (resetAfter : Duration) : Bool :=
  match lastFailureAt with
  | some timestamp => now.saturatingDurationSince timestamp < resetAfter
  | none => false

def nextFailureTier (previousFailures : ℕ) (lastFailureAt : Option (Instant bound))
    (now : Instant bound) (resetAfter : Duration) : ℕ :=
  if isRecent lastFailureAt now resetAfter then min (previousFailures + 1) defaultMaxFailureTier
  else 1

def computeCooldownDeadline (now : Instant bound) (cooldown : Duration) : Instant bound :=
  ((now.checkedAdd cooldown).or (now.checkedAdd maxOverflowFallbackCooldown)).getD now

/-! ## Failure lanes -/

structure FailureLane (bound : ℕ) where
  failures : ℕ
  cooldownUntil : Instant bound
  lastFailureAt : Option (Instant bound)
deriving DecidableEq

namespace FailureLane

def empty (now : Instant bound) : FailureLane bound := ⟨0, now, none⟩

def nextFailureTier (lane : FailureLane bound) (now : Instant bound) (resetAfter : Duration) : ℕ :=
  EndpointCooldown.nextFailureTier lane.failures lane.lastFailureAt now resetAfter

def recordFailure (lane : FailureLane bound) (failures : ℕ) (cooldown : Duration)
    (now : Instant bound) (resetAfter : Duration) : FailureLane bound :=
  let newDeadline := computeCooldownDeadline now cooldown
  let previousDeadline :=
    if isRecent lane.lastFailureAt now resetAfter then lane.cooldownUntil else now
  { failures := failures
    cooldownUntil := Instant.max previousDeadline newDeadline
    lastFailureAt := some ((lane.lastFailureAt.map fun previous => previous.max now).getD now) }

def isCoolingDown (lane : FailureLane bound) (now : Instant bound) : Bool :=
  now < lane.cooldownUntil

def isIdle (lane : FailureLane bound) (now : Instant bound) (resetAfter : Duration) : Bool :=
  if lane.isCoolingDown now then false
  else lane.failures = 0 || !isRecent lane.lastFailureAt now resetAfter

def repair (lane : FailureLane bound) : FailureLane bound :=
  { lane with failures := lane.failures - 1 }

end FailureLane

/-! ## State of an endpoint -/

structure EndpointCooldownState (bound : ℕ) where
  overload : FailureLane bound
  unavailable : FailureLane bound
  successesTowardRepair : ℕ
deriving DecidableEq

namespace EndpointCooldownState

def empty (now : Instant bound) : EndpointCooldownState bound := ⟨.empty now, .empty now, 0⟩

def isCoolingDown (state : EndpointCooldownState bound) (now : Instant bound) : Bool :=
  state.overload.isCoolingDown now || state.unavailable.isCoolingDown now

def isIdle (state : EndpointCooldownState bound) (now : Instant bound) (resetAfter : Duration) :
    Bool :=
  state.overload.isIdle now resetAfter && state.unavailable.isIdle now resetAfter

/-- Whether a repair step was triggered, and the new state. -/
def recordSuccess (state : EndpointCooldownState bound) : Bool × EndpointCooldownState bound :=
  let successesTowardRepair := state.successesTowardRepair + 1
  if defaultSuccessesPerRepair ≤ successesTowardRepair then
    (true, ⟨state.overload.repair, state.unavailable.repair, 0⟩)
  else (false, { state with successesTowardRepair := successesTowardRepair })

end EndpointCooldownState

/-! ## The tracker -/

structure Tracker (bound : ℕ) where
  initialCooldown : Duration
  maxCooldown : Duration
  resetAfter : Duration
  trackedEntryCount : ℕ
  state : HashMap String (EndpointCooldownState bound)

namespace Tracker

def withOptions (initialCooldown maxCooldown resetAfter : Duration) : Tracker bound where
  initialCooldown := initialCooldown
  maxCooldown := maxCooldown.max initialCooldown
  resetAfter := resetAfter
  trackedEntryCount := 0
  state := ∅

def new : Tracker bound :=
  withOptions defaultInitialCooldown defaultMaxCooldown defaultResetAfter

/-- `guard.insert`, and the store of the entry count. -/
def insertEntry (tracker : Tracker bound) (endpoint : String)
    (entry : EndpointCooldownState bound) : Tracker bound :=
  let state := tracker.state.insert endpoint entry
  { tracker with state := state, trackedEntryCount := HashMap.size state }

/-- `guard.remove`, and the store of the entry count. -/
def removeEntry (tracker : Tracker bound) (endpoint : String) : Tracker bound :=
  let state := tracker.state.erase endpoint
  { tracker with state := state, trackedEntryCount := HashMap.size state }

/-- An update in place through `get_mut`. -/
def setEntry (tracker : Tracker bound) (endpoint : String)
    (entry : EndpointCooldownState bound) : Tracker bound :=
  { tracker with state := tracker.state.insert endpoint entry }

/-- The part of `is_cooling_down_at` under the write lock. -/
def pruneIdle (tracker : Tracker bound) (endpoint : String) (now : Instant bound) :
    Bool × Tracker bound :=
  match tracker.state.lookup endpoint with
  | none => (false, tracker)
  | some entry =>
      if entry.isCoolingDown now then (true, tracker)
      else if entry.isIdle now tracker.resetAfter then (false, tracker.removeEntry endpoint)
      else (false, tracker)

def isCoolingDownAt (tracker : Tracker bound) (endpoint : String) (now : Instant bound) :
    Bool × Tracker bound :=
  if endpoint = "" || tracker.trackedEntryCount = 0 then (false, tracker)
  else
    match tracker.state.lookup endpoint with
    | none => (false, tracker)
    | some entry =>
        if entry.isCoolingDown now then (true, tracker)
        else if !entry.isIdle now tracker.resetAfter then (false, tracker)
        else tracker.pruneIdle endpoint now

def calculateHintedCooldown (consecutiveFailures : ℕ) (serverRetryDelay : Duration) (draw : ℕ) :
    Duration :=
  let serverFloor := serverRetryDelay.max defaultMinHintedCooldown
  let shift := min (consecutiveFailures - 1) defaultMaxFailureTier
  let clientFloor := (defaultMinHintedCooldown.saturatingMul (2 ^ shift)).min
    defaultMaxHintedClientFloor
  let base := serverFloor.max clientFloor
  let jitterLimit := (base.div 4).min defaultMaxHintedJitter
  let jitterLimitMillis := millisU64 jitterLimit
  if jitterLimitMillis = 0 then base
  else base.saturatingAdd (.fromMillis (randomRange 0 jitterLimitMillis draw))

def calculateUnhintedCooldown (tracker : Tracker bound) (consecutiveFailures draw : ℕ) :
    Duration :=
  let shift := min (consecutiveFailures - 1) 31
  let baseCooldown := tracker.initialCooldown.saturatingMul (2 ^ shift)
  let cappedCooldown := baseCooldown.min tracker.maxCooldown
  let millis := millisU64 cappedCooldown
  if millis = 0 then .zero
  else .fromMillis (randomRange (max (millis / 2) 1) millis draw)

/-- The cooldown of an overload failure. -/
def overloadCooldown (tracker : Tracker bound) (failures : ℕ) (serverRetryDelay : Option Duration)
    (draw : ℕ) : Duration :=
  match serverRetryDelay with
  | some delay => calculateHintedCooldown failures delay draw
  | none => tracker.calculateUnhintedCooldown failures draw

/-- The remaining cooldown over both lanes. -/
def effectiveCooldown (state : EndpointCooldownState bound) (now : Instant bound) : Duration :=
  (state.overload.cooldownUntil.max
    state.unavailable.cooldownUntil).saturatingDurationSince now

def applyFailure (tracker : Tracker bound) (state : EndpointCooldownState bound)
    (statusCode : Code) (serverRetryDelay : Option Duration) (now : Instant bound) (draw : ℕ) :
    Duration × EndpointCooldownState bound :=
  match statusCode with
  | .resourceExhausted =>
      let failures := state.overload.nextFailureTier now tracker.resetAfter
      let cooldown := tracker.overloadCooldown failures serverRetryDelay draw
      let state := { state with
        overload := state.overload.recordFailure failures cooldown now tracker.resetAfter
        successesTowardRepair := 0 }
      (effectiveCooldown state now, state)
  | .unavailable =>
      let failures := state.unavailable.nextFailureTier now tracker.resetAfter
      let cooldown := tracker.calculateUnhintedCooldown failures draw
      let state := { state with
        unavailable := state.unavailable.recordFailure failures cooldown now tracker.resetAfter
        successesTowardRepair := 0 }
      (effectiveCooldown state now, state)
  | _ => (.zero, state)

def recordFailureInternal (tracker : Tracker bound) (endpoint : String) (statusCode : Code)
    (serverRetryDelay : Option Duration) (now : Instant bound) (draw : ℕ) :
    Duration × Tracker bound :=
  if endpoint = "" then (.zero, tracker)
  else
    match tracker.state.lookup endpoint with
    | some existing =>
        let state := if existing.isIdle now tracker.resetAfter then .empty now else existing
        let (appliedCooldown, state) :=
          tracker.applyFailure state statusCode serverRetryDelay now draw
        (appliedCooldown,
          if appliedCooldown ≠ .zero then tracker.setEntry endpoint state else tracker)
    | none =>
        let (appliedCooldown, state) :=
          tracker.applyFailure (.empty now) statusCode serverRetryDelay now draw
        (appliedCooldown,
          if appliedCooldown ≠ .zero then tracker.insertEntry endpoint state else tracker)

def recordErrorWithDelayAt (tracker : Tracker bound) (endpoint : String) (statusCode : Code)
    (serverRetryDelay : Option Duration) (now : Instant bound) (draw : ℕ) :
    Option Duration × Tracker bound :=
  if endpoint = "" then (none, tracker)
  else
    match statusCode with
    | .resourceExhausted | .unavailable =>
        let (cooldown, tracker) :=
          tracker.recordFailureInternal endpoint statusCode serverRetryDelay now draw
        (some cooldown, tracker)
    | _ => (none, tracker)

def recordSuccessAt (tracker : Tracker bound) (endpoint : String) (now : Instant bound) :
    Tracker bound :=
  if endpoint = "" || tracker.trackedEntryCount = 0 then tracker
  else
    match tracker.state.lookup endpoint with
    | none => tracker
    | some entry =>
        if entry.isIdle now tracker.resetAfter then tracker.removeEntry endpoint
        else
          let (repaired, entry) := entry.recordSuccess
          let tracker := tracker.setEntry endpoint entry
          if repaired && entry.isIdle now tracker.resetAfter then tracker.removeEntry endpoint
          else tracker

/-! ## Calls -/

inductive Call (bound : ℕ)
  | recordErrorWithDelay (endpoint : String) (statusCode : Code)
      (serverRetryDelay : Option Duration) (now : Instant bound) (draw : ℕ)
  | recordSuccess (endpoint : String) (now : Instant bound)
  | isCoolingDown (endpoint : String) (now : Instant bound)

/-- The reading of the clock that a call uses. -/
def Call.now : Call bound → Instant bound
  | recordErrorWithDelay _ _ _ now _ => now
  | recordSuccess _ now => now
  | isCoolingDown _ now => now

def step (tracker : Tracker bound) : Call bound → Tracker bound
  | .recordErrorWithDelay endpoint statusCode serverRetryDelay now draw =>
      (tracker.recordErrorWithDelayAt endpoint statusCode serverRetryDelay now draw).2
  | .recordSuccess endpoint now => tracker.recordSuccessAt endpoint now
  | .isCoolingDown endpoint now => (tracker.isCoolingDownAt endpoint now).2

def run (tracker : Tracker bound) (calls : List (Call bound)) : Tracker bound :=
  calls.foldl step tracker

end Tracker

end EndpointCooldown

end GoogleCloudRust
