import Mathlib.Algebra.Order.Ring.Nat
import Mathlib.Data.List.Basic

/-! # The token cache

Model of `auth/token_cache.rs`: the task that refreshes the token, and any number of concurrent
calls of `token`, over the watch channel between them. Each step is an atomic access to the channel
or to the clock. Instants and durations are in nanoseconds. -/

namespace GoogleCloudRust.TokenCache

structure Token where
  token : String
  tokenType : String := "Bearer"
  expiresAt : Option ℕ := none
deriving DecidableEq, Repr

structure CredentialsError where
  isTransient : Bool
  message : String
deriving DecidableEq, Repr

structure EntityTag where
  value : ℕ
deriving DecidableEq, Repr

inductive CacheableResource (α : Type)
  | notModified
  | new (entityTag : EntityTag) (data : α)
deriving DecidableEq, Repr

/-- A value that is sent through the channel. -/
abbrev Published := Except CredentialsError (Token × EntityTag)

def normalRefreshSlack : ℕ := 240 * 10 ^ 9

def shortRefreshSlack : ℕ := 10 * 10 ^ 9

/-! ## The task and the calls -/

/-- Where `refresh_task` stands. -/
inductive RefreshTask
  /-- At the head of the loop. -/
  | checking
  /-- Waiting for the provider. -/
  | fetching
  | publishing (token : Token) (tag : EntityTag)
  /-- The token was sent. -/
  | sent (expiresAt : Option ℕ)
  | permanent (error : CredentialsError)
  /-- Waiting until the current token expires. -/
  | permanentUntil (error : CredentialsError) (deadline : ℕ)
  | transient (error : CredentialsError) (short : ℕ)
  | transientUntil (error : CredentialsError) (deadline short : ℕ)
  | sleeping (wake : ℕ)
  | ended
deriving DecidableEq

/-- Where a call of `token` stands. `seen` is the version that its receiver has seen. -/
inductive Stage
  | called
  /-- After `borrow_and_update`. -/
  | read (value : Option Published) (seen : ℕ)
  /-- In `changed`. -/
  | waiting (seen : ℕ)
  /-- After `changed` returned. -/
  | changed (seen : ℕ)
  /-- The answer, and the version at which its value was read. -/
  | returned (version : ℕ) (answer : Except CredentialsError (CacheableResource Token))
  | panicked
  | cancelled
deriving DecidableEq

/-- The call has a receiver of its own, and borrows the cache. -/
def Stage.inFlight : Stage → Bool
  | called | read .. | waiting _ | changed _ => true
  | returned .. | panicked | cancelled => false

structure Call where
  /-- The entity tag among the extensions. -/
  presented : Option EntityTag
  stage : Stage := .called
deriving DecidableEq

/-- `published` has the values sent so far, the current one last. Their number is the version of the
channel, and the channel is closed when the task has ended. -/
structure System where
  now : ℕ
  /-- `ENTITY_TAG_GENERATOR`. -/
  generator : ℕ
  published : List Published := []
  task : RefreshTask := .checking
  /-- The clones of the `TokenCache` that were not dropped. -/
  caches : ℕ := 1
  calls : List Call := []
deriving DecidableEq

namespace System

def version (system : System) : ℕ := system.published.length

/-- `borrow`. -/
def current (system : System) : Option Published := system.published.getLast?

def receiverCount (system : System) : ℕ :=
  system.caches + system.calls.countP fun call => call.stage.inFlight

/-- `Sender::send` of a watch channel, which keeps the old value when there is no receiver. -/
def send (system : System) (value : Published) : System :=
  if system.receiverCount = 0 then system
  else { system with published := system.published ++ [value] }

def currentExpiration (system : System) : Option ℕ :=
  match system.current with
  | some (.ok (token, _)) => token.expiresAt
  | _ => none

end System

/-- `Instant::checked_duration_since`. -/
def checkedDurationSince (instant earlier : ℕ) : Option ℕ :=
  if earlier ≤ instant then some (instant - earlier) else none

/-- When the sleep after a refresh ends. -/
def nextRefresh (now expiry : ℕ) : ℕ :=
  match checkedDurationSince expiry now with
  | some time =>
      if time > normalRefreshSlack then now + (time - normalRefreshSlack)
      else now + shortRefreshSlack
  | none => now + shortRefreshSlack

namespace System

/-- A step of `refresh_task`; `answer` is what the provider returns, if it is waited for. A sleep
does not end before its time. -/
def taskStep (system : System) (answer : Except CredentialsError Token) : System :=
  match system.task with
  | .checking =>
      if system.receiverCount = 0 then { system with task := .ended }
      else { system with task := .fetching }
  | .fetching =>
      match answer with
      | .ok token =>
          { system with
            task := .publishing token ⟨system.generator⟩, generator := system.generator + 1 }
      | .error error =>
          if error.isTransient then
            { system with task := .transient error (system.now + shortRefreshSlack) }
          else { system with task := .permanent error }
  | .publishing token tag => { system.send (.ok (token, tag)) with task := .sent token.expiresAt }
  | .sent none => { system with task := .ended }
  | .sent (some expiry) => { system with task := .sleeping (nextRefresh system.now expiry) }
  | .permanent error =>
      match system.currentExpiration with
      | some deadline => { system with task := .permanentUntil error deadline }
      | none => { system.send (.error error) with task := .ended }
  | .permanentUntil error deadline =>
      if deadline ≤ system.now then { system.send (.error error) with task := .ended } else system
  | .transient error short =>
      match system.currentExpiration with
      | none => { system.send (.error error) with task := .sleeping short }
      | some deadline =>
          if deadline < system.now then { system.send (.error error) with task := .sleeping short }
          else if deadline < short then { system with task := .transientUntil error deadline short }
          else { system with task := .sleeping short }
  | .transientUntil error deadline short =>
      if deadline ≤ system.now then { system.send (.error error) with task := .sleeping short }
      else system
  | .sleeping wake => if wake ≤ system.now then { system with task := .checking } else system
  | .ended => system

/-- What `token` makes of the latest token and its entity tag. -/
def respond (presented : Option EntityTag) :
    Published → Except CredentialsError (CacheableResource Token)
  | .ok (token, tag) => if presented = some tag then .ok .notModified else .ok (.new tag token)
  | .error error => .error error

/-- A step of a call of `token`. -/
def callStep (system : System) (call : Call) : Stage :=
  match call.stage with
  | .called => .read system.current system.version
  | .read value seen =>
      match value with
      | some (.ok (token, tag)) =>
          match token.expiresAt with
          | none => .returned seen (respond call.presented (.ok (token, tag)))
          | some expiry =>
              if expiry < system.now then .waiting seen
              else .returned seen (respond call.presented (.ok (token, tag)))
      | some (.error error) => .returned seen (.error error)
      | none => .waiting seen
  | .waiting seen =>
      if seen ≠ system.version then .changed seen
      else if system.task = .ended then .panicked
      else .waiting seen
  | .changed _ =>
      match system.current with
      | some value => .returned system.version (respond call.presented value)
      | none => .panicked
  | stage => stage

end System

/-! ## Runs -/

inductive Event
  /-- Time passes. -/
  | tick (duration : ℕ)
  /-- `EntityTag::new` is called elsewhere. -/
  | newTag
  | task (answer : Except CredentialsError Token)
  /-- A call of `token`, on some clone of the cache. -/
  | call (presented : Option EntityTag)
  | step (index : ℕ)
  /-- The future of a call is dropped. -/
  | cancel (index : ℕ)
  | cloneCache
  | dropCache
  /-- The task is aborted. -/
  | abort
deriving DecidableEq

/-- A clone of the cache exists as long as a call borrows it; without a clone there are no calls. The
task is aborted when the last one was dropped. -/
def System.step (system : System) : Event → System
  | .tick duration => { system with now := system.now + duration }
  | .newTag => { system with generator := system.generator + 1 }
  | .task answer => system.taskStep answer
  | .call presented =>
      if system.caches = 0 then system
      else { system with calls := system.calls ++ [{ presented }] }
  | .step index =>
      match system.calls[index]? with
      | some call =>
          { system with
            calls := system.calls.set index { call with stage := system.callStep call } }
      | none => system
  | .cancel index =>
      match system.calls[index]? with
      | some call =>
          if call.stage.inFlight then
            { system with calls := system.calls.set index { call with stage := .cancelled } }
          else system
      | none => system
  | .cloneCache => if system.caches = 0 then system else { system with caches := system.caches + 1 }
  | .dropCache =>
      if system.caches = 1 ∧ system.calls.any (fun call => call.stage.inFlight) then system
      else { system with caches := system.caches - 1 }
  | .abort => if system.caches = 0 then { system with task := .ended } else system

def System.run (system : System) (events : List Event) : System := events.foldl System.step system

end GoogleCloudRust.TokenCache
