import Mathlib.Order.Basic
import Mathlib.Algebra.Order.Ring.Nat

/-! # Retry policies

Model of `error/core_error.rs`, `retry_policy.rs`, `retry_state.rs`, `retry_result.rs`,
`throttle_result.rs` and `retry_throttler.rs`. Instants and durations are in nanoseconds. A
policy that reads the clock is given the time. -/

namespace GoogleCloudRust.Gax

/-! ## Errors -/

inductive Code
  | ok
  | cancelled
  | unknown
  | invalidArgument
  | deadlineExceeded
  | notFound
  | alreadyExists
  | permissionDenied
  | resourceExhausted
  | failedPrecondition
  | aborted
  | outOfRange
  | unimplemented
  | internal
  | unavailable
  | dataLoss
  | unauthenticated
deriving DecidableEq, Repr

inductive StatusDetails
  | errorInfo (metadata : List (String × String))
  | other
deriving DecidableEq, Repr

structure Status where
  code : Code
  details : List StatusDetails := []
deriving DecidableEq, Repr

structure ServiceDetails where
  statusCode : Option ℕ := none
  status : Status
deriving DecidableEq, Repr

/-- Whether there are headers or a payload. -/
structure TransportDetails where
  statusCode : Option ℕ := none
  headers : Bool := false
  payload : Bool := false
deriving DecidableEq, Repr

/-- The kinds of errors, with the sources that are errors themselves. -/
inductive Error
  | binding
  | serialization
  | deserialization
  | authentication (isTransient : Bool)
  | timeout
  | connect
  | transport (details : TransportDetails)
  | service (details : ServiceDetails)
  | exhausted (source : Error)
  /-- Exhausted, with a `LimitedElapsedTimeError` as its source. -/
  | limitedElapsedTime (maximumDuration : ℕ) (source : Error)
deriving DecidableEq, Repr

namespace Error

def status : Error → Option Status
  | service details => some details.status
  | _ => none

def httpStatusCode : Error → Option ℕ
  | transport details => details.statusCode
  | service details => details.statusCode
  | _ => none

def isIo : Error → Bool
  | transport details => details.statusCode.isNone && !details.headers && !details.payload
  | _ => false

def isTransientAndBeforeRpc : Error → Bool
  | connect => true
  | authentication isTransient => isTransient
  | _ => false

end Error

/-! ## Policies -/

structure RetryState where
  idempotent : Bool
  start : ℕ
  attemptCount : ℕ := 0

inductive RetryResult
  | permanent (error : Error)
  | exhausted (error : Error)
  | continue (error : Error)
deriving DecidableEq, Repr

inductive ThrottleResult
  | exhausted (error : Error)
  | continue (error : Error)
deriving DecidableEq, Repr

/-- Each function is given the time after the state. -/
structure RetryPolicy where
  onError : RetryState → ℕ → Error → RetryResult
  onThrottle : RetryState → ℕ → Error → ThrottleResult := fun _ _ error => .continue error
  remainingTime : RetryState → ℕ → Option ℕ := fun _ _ => none

def aip194Strict : RetryPolicy where
  onError state _ error :=
    if error.isTransientAndBeforeRpc then .continue error
    else if !state.idempotent then .permanent error
    else if error.isIo then .continue error
    else if error.status.any fun status => status.code = .unavailable then .continue error
    else if error.httpStatusCode.any fun code => code = 503 then .continue error
    else .permanent error

def alwaysRetry : RetryPolicy where
  onError _ _ error := .continue error

def neverRetry : RetryPolicy where
  onError _ _ error := .exhausted error

/-- `LimitedElapsedTime`. -/
def RetryPolicy.withTimeLimit (inner : RetryPolicy) (maximumDuration : ℕ) : RetryPolicy where
  onError state now error :=
    match inner.onError state now error with
    | .permanent e => .permanent e
    | .exhausted e => .exhausted e
    | .continue e =>
        if now ≥ state.start + maximumDuration then .exhausted e else .continue e
  onThrottle state now error :=
    match inner.onThrottle state now error with
    | .continue e =>
        if now < state.start + maximumDuration then .continue e
        else .exhausted (.limitedElapsedTime maximumDuration e)
    | .exhausted e => .exhausted e
  remainingTime state now :=
    let remaining := state.start + maximumDuration - now
    match inner.remainingTime state now with
    | some inner => some (min remaining inner)
    | none => some remaining

/-- `LimitedAttemptCount`. -/
def RetryPolicy.withAttemptLimit (inner : RetryPolicy) (maximumAttempts : ℕ) : RetryPolicy where
  onError state now error :=
    match inner.onError state now error with
    | .permanent e => .permanent e
    | .exhausted e => .exhausted e
    | .continue e => if state.attemptCount ≥ maximumAttempts then .exhausted e else .continue e
  onThrottle state now error :=
    match inner.onThrottle state now error with
    | .continue e => if state.attemptCount ≥ maximumAttempts then .exhausted e else .continue e
    | .exhausted e => .exhausted e
  remainingTime := inner.remainingTime

/-! ## Throttlers -/

/-- A throttler over its own state. -/
structure RetryThrottler (τ : Type) where
  throttleRetryAttempt : τ → Bool × τ
  onRetryFailure : RetryResult → τ → τ
  onSuccess : τ → τ

structure CircuitBreaker where
  maxTokens : ℕ
  minTokens : ℕ
  curTokens : ℕ
  errorCost : ℕ
deriving DecidableEq, Repr

namespace CircuitBreaker

def clamp (tokens minTokens errorCost : ℕ) : CircuitBreaker :=
  ⟨tokens, min minTokens tokens, tokens, errorCost⟩

def throttleRetryAttempt (breaker : CircuitBreaker) : Bool :=
  breaker.curTokens ≤ breaker.minTokens

def onSuccess (breaker : CircuitBreaker) : CircuitBreaker :=
  { breaker with curTokens := min breaker.maxTokens (breaker.curTokens + 1) }

def onRetryFailure (flow : RetryResult) (breaker : CircuitBreaker) : CircuitBreaker :=
  match flow with
  | .continue _ | .exhausted _ =>
      { breaker with curTokens := breaker.curTokens - breaker.errorCost }
  | .permanent _ => breaker.onSuccess

def retryThrottler : RetryThrottler CircuitBreaker where
  throttleRetryAttempt breaker := (breaker.throttleRetryAttempt, breaker)
  onRetryFailure := onRetryFailure
  onSuccess := onSuccess

end CircuitBreaker

end GoogleCloudRust.Gax
