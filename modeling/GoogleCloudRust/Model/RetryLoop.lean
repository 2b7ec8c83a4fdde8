import GoogleCloudRust.Library.Loop
import GoogleCloudRust.Model.RetryPolicy

/-! # The retry loop

Model of `retry_loop_internal.rs`. Time passes in the attempts and in the sleeps. The policies
may keep state of their own, so they are given for each round of the loop. -/

namespace GoogleCloudRust.Gax

inductive RetryLoopAttempt
  | initial
  /-- Attempt count, backoff delay, previous error. -/
  | retry (count : ℕ) (delay : ℕ) (prevError : Error)
deriving DecidableEq, Repr

def RetryLoopAttempt.count : RetryLoopAttempt → ℕ
  | initial => 0
  | retry count _ _ => count

/-- The arguments of `retry_loop`. `inner` is called with the time and the remaining time, and
tells how long it took; `sleep` tells how long a sleep takes. -/
structure RetryLoop (σ τ ρ : Type) where
  inner : σ → ℕ → Option ℕ → Except Error ρ × ℕ × σ
  sleep : ℕ → ℕ → ℕ
  idempotent : Bool
  retryThrottler : RetryThrottler τ
  retryPolicy : ℕ → RetryPolicy
  backoffPolicy : ℕ → RetryState → ℕ
  loopStart : ℕ

/-- A call of `inner`, in a round of the loop: the attempts before it, when the remaining time
was computed, when `inner` was called, and with which remaining time. -/
structure Call where
  round : ℕ
  attemptCount : ℕ
  computed : ℕ
  time : ℕ
  remainingTime : Option ℕ
deriving DecidableEq, Repr

/-- The locals of `retry_loop`, and what has happened so far: the calls, and how many attempts
have failed or have been throttled. -/
structure LoopState (σ τ : Type) where
  now : ℕ
  attempt : RetryLoopAttempt := .initial
  inner : σ
  throttler : τ
  round : ℕ := 0
  calls : List Call := []
  failed : ℕ := 0
  throttled : ℕ := 0

namespace RetryLoop

variable {σ τ ρ : Type}

def retryState (loop : RetryLoop σ τ ρ) (attemptCount : ℕ) : RetryState :=
  ⟨loop.idempotent, loop.loopStart, attemptCount⟩

/-- The attempt itself, and what its outcome leads to. -/
def makeAttempt (loop : RetryLoop σ τ ρ) (s : LoopState σ τ) (computed : ℕ)
    (remainingTime : Option ℕ) : LoopState σ τ × Option (Except Error ρ) :=
  let attemptCount := s.attempt.count + 1
  let state := loop.retryState attemptCount
  let (response, duration, inner) := loop.inner s.inner s.now remainingTime
  let call : Call := ⟨s.round, s.attempt.count, computed, s.now, remainingTime⟩
  let s := { s with now := s.now + duration, inner := inner, calls := s.calls ++ [call] }
  match response with
  | .ok r => ({ s with throttler := loop.retryThrottler.onSuccess s.throttler }, some (.ok r))
  | .error e =>
      let flow := (loop.retryPolicy s.round).onError state s.now e
      let delay := loop.backoffPolicy s.round state
      let s := { s with
        throttler := loop.retryThrottler.onRetryFailure flow s.throttler
        failed := s.failed + 1 }
      match flow with
      | .permanent e | .exhausted e => (s, some (.error e))
      | .continue e =>
          ({ s with attempt := .retry attemptCount delay e, round := s.round + 1 }, none)

/-- One round of the loop. -/
def step (loop : RetryLoop σ τ ρ) (s : LoopState σ τ) :
    LoopState σ τ × Option (Except Error ρ) :=
  let state := loop.retryState s.attempt.count
  let remainingTime := (loop.retryPolicy s.round).remainingTime state s.now
  match s.attempt with
  | .initial => loop.makeAttempt s s.now remainingTime
  | .retry attemptCount delay prevError =>
      if remainingTime.any fun remaining => remaining < delay then
        (s, some (.error (.exhausted prevError)))
      else
        let computed := s.now
        let (throttle, throttler) := loop.retryThrottler.throttleRetryAttempt s.throttler
        let s := { s with now := s.now + loop.sleep s.round delay, throttler := throttler }
        if throttle then
          -- This counts as an error for the purposes of the retry policy.
          let s := { s with throttled := s.throttled + 1 }
          match (loop.retryPolicy s.round).onThrottle state s.now prevError with
          | .exhausted e => (s, some (.error e))
          | .continue e =>
              let delay := loop.backoffPolicy s.round state
              ({ s with attempt := .retry attemptCount delay e, round := s.round + 1 }, none)
        else loop.makeAttempt s computed remainingTime

def initial (loop : RetryLoop σ τ ρ) (inner : σ) (throttler : τ) : LoopState σ τ where
  now := loop.loopStart
  inner := inner
  throttler := throttler

def run (loop : RetryLoop σ τ ρ) (rounds : ℕ) (inner : σ) (throttler : τ) :
    LoopState σ τ × Option (Except Error ρ) :=
  Loop.run loop.step rounds (loop.initial inner throttler)

end RetryLoop

end GoogleCloudRust.Gax
