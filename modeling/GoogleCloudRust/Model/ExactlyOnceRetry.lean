import GoogleCloudRust.Library.HashMap
import GoogleCloudRust.Model.RetryLoop

/-! # The retry loop of exactly-once delivery

Model of `exactly_once_retry.rs`. Acknowledgements are sent for many ids at once, and the
server may report on each of them. -/

namespace GoogleCloudRust.Subscriber

open Gax

inductive AckError
  | leaseExpired
  | rpc (source : Error)
  | shutdownBeforeAck
  /-- The result is unknown. -/
  | shutdown
deriving DecidableEq, Repr

abbrev AckResult := Except AckError Unit

abbrev ConfirmedAcks := HashMap String AckResult

/-- The loop body of `extract_failures` for an entry of the metadata. -/
def noteFailure (failures : List String × List String) (entry : String × String) :
    List String × List String :=
  let (transient, permanent) := failures
  let (k, v) := entry
  if v.startsWith "TRANSIENT_FAILURE_" then (k :: transient, permanent)
  else if v.startsWith "PERMANENT_FAILURE_" then (transient, k :: permanent)
  else (transient, permanent)

/-- The loop body for one of the details. -/
def noteDetail (failures : List String × List String) :
    StatusDetails → List String × List String
  | .errorInfo metadata => metadata.foldl noteFailure failures
  | .other => failures

/-- The ids with transient failures, and those with permanent ones. -/
def extractFailures (e : Error) : List String × List String :=
  match e.status with
  | some status => status.details.foldl noteDetail ([], [])
  | none => ([], [])

/-- Codes of errors that are transient for all ids. -/
def isTransient : Gax.Code → Bool
  | .deadlineExceeded | .resourceExhausted | .aborted | .internal | .unavailable => true
  | _ => false

/-- The loop over the ids of an attempt with specific failures. -/
def processIds (transientFailures permanentFailures : List String) (sharedErr : Error) :
    List String → ConfirmedAcks × List String → ConfirmedAcks × List String
  | [], acc => acc
  | id :: ackIds, (toConfirm, transient) =>
      processIds transientFailures permanentFailures sharedErr ackIds
        (if transientFailures.contains id then (toConfirm, transient ++ [id])
        else if permanentFailures.contains id then
          (toConfirm.insert id (.error (.rpc sharedErr)), transient)
        else (toConfirm.insert id (.ok ()), transient))

def processAttemptError (ackIds : List String) (sharedErr : Error) :
    ConfirmedAcks × List String :=
  let (transientFailures, permanentFailures) := extractFailures sharedErr
  -- Without per-id failures all ids share the same error.
  if transientFailures.isEmpty && permanentFailures.isEmpty then
    if sharedErr.status.any fun status => isTransient status.code then (∅, ackIds)
    else (.ofKeys ackIds.toFinset fun _ => .error (.rpc sharedErr), [])
  else processIds transientFailures permanentFailures sharedErr ackIds (∅, [])

/-- What happens in the order in which it happens: an RPC with its ids and response, and a
message on `confirmed_tx`. -/
inductive RetryEvent
  | rpc (ids : List String) (response : Except Error Unit)
  | confirmed (toConfirm : ConfirmedAcks)

/-- What the attempts share, and what has happened so far. -/
structure ExactlyOnceState where
  remainingIds : List String
  lastError : Option Error := none
  log : List RetryEvent := []

namespace ExactlyOnceState

def confirm (state : ExactlyOnceState) (toConfirm : ConfirmedAcks) : ExactlyOnceState :=
  if toConfirm.size = 0 then state
  else { state with log := state.log ++ [.confirmed toConfirm] }

/-- An attempt of the retry loop. The RPCs are numbered by what has happened before them. -/
def attempt (inner : ℕ → List String → Except Error Unit × ℕ) (state : ExactlyOnceState) :
    Except Error Unit × ℕ × ExactlyOnceState :=
  let ids := state.remainingIds
  let (response, duration) := inner state.log.length ids
  let state := { state with remainingIds := [], log := state.log ++ [RetryEvent.rpc ids response] }
  match response with
  | .ok _ =>
      (.ok (), duration, state.confirm (.ofKeys ids.toFinset fun _ => .ok ()))
  | .error e =>
      let (toConfirm, remaining) := processAttemptError ids e
      if remaining.isEmpty then (.ok (), duration, state.confirm toConfirm)
      else
        -- A synthetic error, so that the loop retries.
        (.error (.transport { headers := true }), duration,
          { state with remainingIds := remaining, lastError := some e }.confirm toConfirm)

/-- After the retry loop: what remains is reported with the last error. -/
def reportRemaining (state : ExactlyOnceState) : ExactlyOnceState :=
  if state.remainingIds.isEmpty then state
  else
    match state.lastError with
    | some sharedErr =>
        { state with
          remainingIds := []
          log := state.log ++
            [.confirmed (.ofKeys state.remainingIds.toFinset fun _ => .error (.rpc sharedErr))] }
    | none => { state with remainingIds := [] }

end ExactlyOnceState

/-- What happens in `exactly_once_retry_loop`, if it ends in so many rounds. -/
def exactlyOnceRetryLoop {τ : Type} (ackIds : List String)
    (inner : ℕ → List String → Except Error Unit × ℕ) (sleep : ℕ → ℕ → ℕ)
    (retryThrottler : RetryThrottler τ) (retryPolicy : ℕ → RetryPolicy)
    (backoff : ℕ → RetryState → ℕ) (start rounds : ℕ) (throttler : τ) :
    Option (List RetryEvent) :=
  let loop : RetryLoop ExactlyOnceState τ Unit := {
    inner := fun state _ _ => state.attempt inner
    sleep := sleep
    idempotent := true
    retryThrottler := retryThrottler
    retryPolicy := retryPolicy
    backoffPolicy := backoff
    loopStart := start }
  match loop.run rounds { remainingIds := ackIds } throttler with
  | (final, some _) => some final.inner.reportRemaining.log
  | (_, none) => none

end GoogleCloudRust.Subscriber
