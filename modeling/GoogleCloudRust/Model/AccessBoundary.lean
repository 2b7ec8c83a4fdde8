import GoogleCloudRust.Library.HashMap
import GoogleCloudRust.Model.TokenCache

/-! # Credentials with an access boundary

Model of `auth/access_boundary.rs`: the headers of some credentials together with the header of the
access boundary, under one entity tag. Any number of calls of `headers` take their turns at the lock
of the cache, while the credentials change, the task fetches boundaries and time passes. Where access
boundaries are disabled `headers` is that of the credentials, which is left out. Instants and
durations are in nanoseconds. -/

namespace GoogleCloudRust.AccessBoundary

open TokenCache (EntityTag CacheableResource CredentialsError)

/-- The values of each header. -/
abbrev HeaderMap := HashMap String (List String)

structure BoundaryValue where
  value : Option String
  expiresAt : ℕ
deriving DecidableEq, Repr

def noOpEncodedLocations : String := "0x0"

def trustBoundaryHeader : String := "x-goog-allowed-locations"

def defaultTtl : ℕ := 6 * 60 * 60 * 10 ^ 9

def refreshSlack : ℕ := 60 * 60 * 10 ^ 9

def cooldownInterval : ℕ := 15 * 60 * 10 ^ 9

/-- What `latest_header_value_and_entity_tag` makes of the latest boundary. -/
def headerValueAt (now : ℕ) (boundary : Option BoundaryValue) : Option String :=
  ((boundary.filter fun b => now ≤ b.expiresAt).bind BoundaryValue.value).filter
    (· ≠ noOpEncodedLocations)

/-! ## The cache -/

structure EntityTagCache where
  tag : Option EntityTag := none
  credsTag : Option EntityTag := none
  credsData : Option HeaderMap := none
  boundaryTag : Option EntityTag := none
  boundaryData : Option (Option String) := none

inductive Failure
  /-- Of `expect`. -/
  | panic
  | error (error : CredentialsError)

/-- An entity tag that is not valid as a header value. -/
def invalidHeaderValue : CredentialsError := ⟨false, "failed to parse header value"⟩

/-- `isHeaderValue` tells what `HeaderValue::from_str` takes. -/
def insertBoundary (isHeaderValue : String → Bool) (headers : HeaderMap) :
    Option String → Except CredentialsError HeaderMap
  | some value =>
      if isHeaderValue value then .ok (headers.insert trustBoundaryHeader [value])
      else .error invalidHeaderValue
  | none => .ok headers

namespace EntityTagCache

variable (isHeaderValue : String → Bool) (cache : EntityTagCache)

def combine : Except Failure HeaderMap :=
  match cache.credsData with
  | none => .error .panic
  | some headers =>
      (insertBoundary isHeaderValue headers cache.boundaryData.join).mapError .error

/-- The answer of a call, and the cache after it. -/
abbrev Update := Except Failure (CacheableResource HeaderMap) × EntityTagCache

/-- `new` is the tag that `EntityTag::new` yields. -/
def updateResource (new : EntityTag) : Update :=
  let cache := { cache with tag := some new }
  ((cache.combine isHeaderValue).map (.new new), cache)

def updateCredentials (new tag : EntityTag) (data : HeaderMap) : Update :=
  { cache with credsTag := some tag, credsData := some data }.updateResource isHeaderValue new

def updateBoundary (new tag : EntityTag) (data : Option String) : Update :=
  { cache with boundaryTag := some tag, boundaryData := some data }.updateResource
    isHeaderValue new

def updateBoth (new credsTag : EntityTag) (credsData : HeaderMap) (boundaryTag : EntityTag)
    (boundaryData : Option String) : Update :=
  { cache with
    credsTag := some credsTag
    credsData := some credsData
    boundaryTag := some boundaryTag
    boundaryData := some boundaryData }.updateResource isHeaderValue new

end EntityTagCache

/-- The answer of a provider whose current tag and data are given. -/
def answerTo {α : Type} (presented : Option EntityTag) (current : EntityTag × α) :
    CacheableResource α :=
  if presented = some current.1 then .notModified else .new current.1 current.2

/-! ## Calls -/

/-- What a call saw: the current headers of the credentials when these answered, and the current
boundary at a later instant. -/
structure Observation where
  credentials : EntityTag × HeaderMap
  boundary : Option BoundaryValue × EntityTag
  instant : ℕ

/-- Where a call of `headers` stands. -/
inductive Stage
  /-- Waiting for the lock. -/
  | called
  /-- Waiting for the credentials, with the lock. -/
  | locked
  /-- The answer of the credentials, and their headers at that time. -/
  | answered (credentials : EntityTag × HeaderMap) (resource : CacheableResource HeaderMap)
  | returned (observation : Observation)
      (answer : Except CredentialsError (CacheableResource HeaderMap))
  /-- The credentials failed. -/
  | failed (error : CredentialsError)
  | panicked
  | cancelled

def Stage.holdsLock : Stage → Bool
  | locked | answered .. => true
  | called | returned .. | failed _ | panicked | cancelled => false

/-- The future waits, for the lock or for the credentials. -/
def Stage.isWaiting : Stage → Bool
  | called | locked => true
  | answered .. | returned .. | failed _ | panicked | cancelled => false

/-- How a call ends. -/
def Stage.ofAnswer (observation : Observation) :
    Except Failure (CacheableResource HeaderMap) → Stage
  | .ok resource => .returned observation (.ok resource)
  | .error (.error error) => .returned observation (.error error)
  | .error .panic => .panicked

structure Call where
  /-- The entity tag among the extensions. -/
  presented : Option EntityTag
  stage : Stage := .called

/-- Where `refresh_task` stands. -/
inductive RefreshTask
  /-- Waiting for the provider. -/
  | fetching
  | sleeping (wake : ℕ)

structure System where
  now : ℕ
  /-- `ENTITY_TAG_GENERATOR`. -/
  generator : ℕ
  /-- The current headers of the credentials. -/
  credentials : EntityTag × HeaderMap
  /-- The value of the watch channel. -/
  boundary : Option BoundaryValue × EntityTag
  task : RefreshTask := .fetching
  cache : EntityTagCache := {}
  calls : List Call := []

/-- The match of `headers` on the presented tag and both resources. -/
def respond (isHeaderValue : String → Bool) (cache : EntityTagCache) (new : EntityTag)
    (presented : Option EntityTag) (credentials : CacheableResource HeaderMap)
    (boundary : CacheableResource (Option String)) : EntityTagCache.Update :=
  match credentials, boundary with
  | .notModified, .notModified =>
      if presented.isSome ∧ presented = cache.tag then (.ok .notModified, cache)
      else
        match cache.tag with
        | none => (.error .panic, cache)
        | some tag => ((cache.combine isHeaderValue).map (.new tag), cache)
  | .new tag data, .notModified => cache.updateCredentials isHeaderValue new tag data
  | .notModified, .new tag data => cache.updateBoundary isHeaderValue new tag data
  | .new credsTag credsData, .new boundaryTag boundaryData =>
      cache.updateBoth isHeaderValue new credsTag credsData boundaryTag boundaryData

/-- `EntityTag::new` is called. -/
def takesTag {α β : Type} : CacheableResource α → CacheableResource β → Bool
  | .notModified, .notModified => false
  | _, _ => true

namespace System

/-- The end of a call, after the credentials answered it: `query_boundary` and the match. -/
def finish (isHeaderValue : String → Bool) (system : System) (index : ℕ)
    (presented : Option EntityTag) (credentials : EntityTag × HeaderMap)
    (resource : CacheableResource HeaderMap) : System :=
  let boundary := answerTo system.cache.boundaryTag
    (system.boundary.2, headerValueAt system.now system.boundary.1)
  let update := respond isHeaderValue system.cache ⟨system.generator⟩ presented resource boundary
  let observation := ⟨credentials, system.boundary, system.now⟩
  { system with
    generator := if takesTag resource boundary then system.generator + 1 else system.generator
    cache := update.2
    calls := system.calls.set index ⟨presented, Stage.ofAnswer observation update.1⟩ }

/-- A step of a call. `failure` is an error of the credentials, if they are waited for. -/
def callStep (isHeaderValue : String → Bool) (system : System) (index : ℕ) (call : Call)
    (failure : Option CredentialsError) : System :=
  match call.stage with
  | .called =>
      if system.calls.any fun other => other.stage.holdsLock then system
      else { system with calls := system.calls.set index { call with stage := .locked } }
  | .locked =>
      let stage : Stage :=
        match failure with
        | some error => .failed error
        | none =>
            .answered system.credentials (answerTo system.cache.credsTag system.credentials)
      { system with calls := system.calls.set index { call with stage := stage } }
  | .answered credentials resource =>
      system.finish isHeaderValue index call.presented credentials resource
  | .returned .. | .failed _ | .panicked | .cancelled => system

/-- A step of `refresh_task`; `answer` is what the provider returns, if it is waited for. -/
def taskStep (system : System) (answer : Except CredentialsError (Option String)) : System :=
  match system.task with
  | .fetching =>
      match answer with
      | .ok value =>
          { system with
            boundary := (some ⟨value, system.now + defaultTtl⟩, ⟨system.generator⟩)
            generator := system.generator + 1
            task := .sleeping (system.now + (defaultTtl - refreshSlack)) }
      | .error _ => { system with task := .sleeping (system.now + cooldownInterval) }
  | .sleeping wake => if wake ≤ system.now then { system with task := .fetching } else system

end System

/-! ## Runs -/

inductive Event
  /-- Time passes. -/
  | tick (duration : ℕ)
  /-- `EntityTag::new` is called elsewhere. -/
  | newTag
  /-- The credentials have new headers. -/
  | rotate (headers : HeaderMap)
  | task (answer : Except CredentialsError (Option String))
  | call (presented : Option EntityTag)
  | step (index : ℕ) (failure : Option CredentialsError)
  /-- The future of a call is dropped. -/
  | cancel (index : ℕ)

def System.step (isHeaderValue : String → Bool) (system : System) : Event → System
  | .tick duration => { system with now := system.now + duration }
  | .newTag => { system with generator := system.generator + 1 }
  | .rotate headers =>
      { system with
        credentials := (⟨system.generator⟩, headers), generator := system.generator + 1 }
  | .task answer => system.taskStep answer
  | .call presented => { system with calls := system.calls ++ [{ presented }] }
  | .step index failure =>
      match system.calls[index]? with
      | some call => system.callStep isHeaderValue index call failure
      | none => system
  | .cancel index =>
      match system.calls[index]? with
      | some call =>
          if call.stage.isWaiting then
            { system with calls := system.calls.set index { call with stage := .cancelled } }
          else system
      | none => system

def System.run (isHeaderValue : String → Bool) (system : System) (events : List Event) : System :=
  events.foldl (System.step isHeaderValue) system

/-- The credentials have headers, and no boundary was fetched. -/
def System.new (now generator : ℕ) (headers : HeaderMap) : System where
  now := now
  generator := generator + 2
  credentials := (⟨generator⟩, headers)
  boundary := (none, ⟨generator + 1⟩)

end GoogleCloudRust.AccessBoundary
