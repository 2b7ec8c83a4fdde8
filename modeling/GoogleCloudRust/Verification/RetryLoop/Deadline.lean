import GoogleCloudRust.Model.RetryLoop
import Mathlib.Tactic.Linarith

/-! # Time limits in the retry loop

The remaining time is computed before the backoff delay, so an attempt is granted the time
that was slept once more. -/

namespace GoogleCloudRust.Gax

namespace RetryLoop

variable {σ τ ρ : Type} {loop : RetryLoop σ τ ρ} {s s' : LoopState σ τ}
  {result : Option (Except Error ρ)}

/-! ## What a round can do -/

/-- A call of `inner` and its outcome. -/
inductive Attempted (loop : RetryLoop σ τ ρ) (s : LoopState σ τ) (call : Call) :
    LoopState σ τ → Option (Except Error ρ) → Prop
  | succeeded (r : ρ) (duration : ℕ) (inner : σ)
      (h : loop.inner s.inner s.now call.remainingTime = (.ok r, duration, inner)) :
      Attempted loop s call { s with
        now := s.now + duration
        inner := inner
        calls := s.calls ++ [call]
        throttler := loop.retryThrottler.onSuccess s.throttler } (some (.ok r))
  | stopped (error e : Error) (duration : ℕ) (inner : σ) (flow : RetryResult)
      (h : loop.inner s.inner s.now call.remainingTime = (.error error, duration, inner))
      (hflow : (loop.retryPolicy s.round).onError (loop.retryState (s.attempt.count + 1))
        (s.now + duration) error = flow)
      (hstop : flow = .permanent e ∨ flow = .exhausted e) :
      Attempted loop s call { s with
        now := s.now + duration
        inner := inner
        calls := s.calls ++ [call]
        throttler := loop.retryThrottler.onRetryFailure flow s.throttler
        failed := s.failed + 1 } (some (.error e))
  | continued (error e : Error) (duration : ℕ) (inner : σ)
      (h : loop.inner s.inner s.now call.remainingTime = (.error error, duration, inner))
      (hflow : (loop.retryPolicy s.round).onError (loop.retryState (s.attempt.count + 1))
        (s.now + duration) error = .continue e) :
      Attempted loop s call { s with
        now := s.now + duration
        inner := inner
        calls := s.calls ++ [call]
        throttler := loop.retryThrottler.onRetryFailure (.continue e) s.throttler
        failed := s.failed + 1
        attempt := .retry (s.attempt.count + 1)
          (loop.backoffPolicy s.round (loop.retryState (s.attempt.count + 1))) e
        round := s.round + 1 } none

/-- What the policy answers at the start of a round. -/
def remainingTime (loop : RetryLoop σ τ ρ) (s : LoopState σ τ) : Option ℕ :=
  (loop.retryPolicy s.round).remainingTime (loop.retryState s.attempt.count) s.now

/-- A call after a sleep. -/
def callAfter (loop : RetryLoop σ τ ρ) (s : LoopState σ τ) (slept : ℕ) : Call :=
  ⟨s.round, s.attempt.count, s.now, s.now + slept, loop.remainingTime s⟩

inductive Round (loop : RetryLoop σ τ ρ) (s : LoopState σ τ) :
    LoopState σ τ → Option (Except Error ρ) → Prop
  | first {s' : LoopState σ τ} {result : Option (Except Error ρ)} (hattempt : s.attempt = .initial)
      (h : Attempted loop s (loop.callAfter s 0) s' result) : Round loop s s' result
  | late (count delay remaining : ℕ) (prevError : Error)
      (hattempt : s.attempt = .retry count delay prevError)
      (hremaining : loop.remainingTime s = some remaining) :
      Round loop s s (some (.error (.exhausted prevError)))
  | throttledOut (count delay : ℕ) (prevError e : Error) (throttler : τ)
      (hattempt : s.attempt = .retry count delay prevError)
      (hthrottle : loop.retryThrottler.throttleRetryAttempt s.throttler = (true, throttler))
      (hpolicy : (loop.retryPolicy s.round).onThrottle (loop.retryState s.attempt.count)
        (s.now + loop.sleep s.round delay) prevError = .exhausted e) :
      Round loop s { s with
        now := s.now + loop.sleep s.round delay
        throttler := throttler
        throttled := s.throttled + 1 } (some (.error e))
  | throttled (count delay : ℕ) (prevError e : Error) (throttler : τ)
      (hattempt : s.attempt = .retry count delay prevError)
      (hthrottle : loop.retryThrottler.throttleRetryAttempt s.throttler = (true, throttler))
      (hpolicy : (loop.retryPolicy s.round).onThrottle (loop.retryState s.attempt.count)
        (s.now + loop.sleep s.round delay) prevError = .continue e) :
      Round loop s { s with
        now := s.now + loop.sleep s.round delay
        throttler := throttler
        throttled := s.throttled + 1
        attempt := .retry count (loop.backoffPolicy s.round (loop.retryState s.attempt.count)) e
        round := s.round + 1 } none
  | retried {s' : LoopState σ τ} {result : Option (Except Error ρ)} (count delay : ℕ)
      (prevError : Error) (throttler : τ) (hattempt : s.attempt = .retry count delay prevError)
      (hthrottle : loop.retryThrottler.throttleRetryAttempt s.throttler = (false, throttler))
      (h : Attempted loop { s with now := s.now + loop.sleep s.round delay, throttler := throttler }
        (loop.callAfter s (loop.sleep s.round delay)) s' result) : Round loop s s' result

theorem makeAttempt_attempted (loop : RetryLoop σ τ ρ) (s : LoopState σ τ) (computed : ℕ)
    (remainingTime : Option ℕ) :
    Attempted loop s ⟨s.round, s.attempt.count, computed, s.now, remainingTime⟩
      (loop.makeAttempt s computed remainingTime).1
      (loop.makeAttempt s computed remainingTime).2 := by
  unfold makeAttempt
  cases hinner : loop.inner s.inner s.now remainingTime with
  | mk response rest =>
      obtain ⟨duration, inner⟩ := rest
      cases response with
      | ok r => exact .succeeded r duration inner hinner
      | error error =>
          simp only
          cases hflow : (loop.retryPolicy s.round).onError (loop.retryState (s.attempt.count + 1))
              (s.now + duration) error with
          | permanent e => exact .stopped error e duration inner _ hinner hflow (.inl rfl)
          | exhausted e => exact .stopped error e duration inner _ hinner hflow (.inr rfl)
          | «continue» e => exact .continued error e duration inner hinner hflow

theorem step_round (loop : RetryLoop σ τ ρ) (s : LoopState σ τ) :
    Round loop s (loop.step s).1 (loop.step s).2 := by
  unfold step
  cases hattempt : s.attempt with
  | initial =>
      have h := loop.makeAttempt_attempted s s.now (loop.remainingTime s)
      refine .first hattempt ?_
      rw [remainingTime, hattempt] at h
      rw [callAfter, remainingTime, hattempt]
      exact h
  | retry count delay prevError =>
      simp only
      split_ifs with hlate hthrottle
      · cases hremaining : loop.remainingTime s with
        | none =>
            rw [remainingTime, hattempt] at hremaining
            rw [hremaining] at hlate
            cases hlate
        | some remaining => exact .late count delay remaining prevError hattempt hremaining
      · have hpair : loop.retryThrottler.throttleRetryAttempt s.throttler = (true, _) :=
          Prod.ext hthrottle rfl
        split
        · rename_i e hpolicy
          have h := Round.throttledOut count delay prevError e _ hattempt hpair
            (by rw [hattempt]; exact hpolicy)
          rw [hattempt] at h
          exact h
        · rename_i e hpolicy
          have h := Round.throttled count delay prevError e _ hattempt hpair
            (by rw [hattempt]; exact hpolicy)
          rw [hattempt] at h
          exact h
      · have hpair : loop.retryThrottler.throttleRetryAttempt s.throttler = (false, _) :=
          Prod.ext (Bool.eq_false_iff.mpr hthrottle) rfl
        refine .retried count delay prevError _ hattempt hpair ?_
        rw [callAfter, remainingTime, hattempt]
        have h := loop.makeAttempt_attempted
          { s with
            now := s.now + loop.sleep s.round delay
            throttler := (loop.retryThrottler.throttleRetryAttempt s.throttler).2 } s.now
          ((loop.retryPolicy s.round).remainingTime (loop.retryState count) s.now)
        rw [hattempt] at h
        exact h

theorem Round.of_initial (h : Round loop s s' result) (hattempt : s.attempt = .initial) :
    Attempted loop s (loop.callAfter s 0) s' result := by
  cases h with
  | first _ h => exact h
  | late count delay remaining prevError hretry => cases hattempt.symm.trans hretry
  | throttledOut count delay prevError e throttler hretry => cases hattempt.symm.trans hretry
  | throttled count delay prevError e throttler hretry => cases hattempt.symm.trans hretry
  | retried count delay prevError throttler hretry => cases hattempt.symm.trans hretry

/-! ## The deadline -/

/-- How much less than the time to the deadline the inner policy has left. -/
def slack (loop : RetryLoop σ τ ρ) (policy : ℕ → RetryPolicy) (maximumDuration : ℕ) (call : Call) :
    ℕ :=
  match (policy call.round).remainingTime (loop.retryState call.attemptCount) call.computed with
  | none => 0
  | some inner => loop.loopStart + maximumDuration - call.computed - inner

/-- A call in a loop with a time limit. -/
structure Limited (loop : RetryLoop σ τ ρ) (maximumDuration : ℕ) (call : Call) : Prop where
  remainingTime : call.remainingTime = (loop.retryPolicy call.round).remainingTime
    (loop.retryState call.attemptCount) call.computed
  computed : call.computed ≤ loop.loopStart + maximumDuration
  time : call.computed ≤ call.time

structure DeadlineInv (loop : RetryLoop σ τ ρ) (maximumDuration : ℕ) (s : LoopState σ τ) :
    Prop where
  now : s.now ≤ loop.loopStart + maximumDuration
  calls : ∀ call ∈ s.calls, Limited loop maximumDuration call

/-- A loop whose policy stops at the deadline. -/
structure StopsAt (loop : RetryLoop σ τ ρ) (maximumDuration : ℕ) : Prop where
  onError : ∀ round attemptCount now error e,
    (loop.retryPolicy round).onError (loop.retryState attemptCount) now error = .continue e →
    now < loop.loopStart + maximumDuration
  onThrottle : ∀ round attemptCount now error e,
    (loop.retryPolicy round).onThrottle (loop.retryState attemptCount) now error = .continue e →
    now < loop.loopStart + maximumDuration

theorem stopsAt_withTimeLimit (loop : RetryLoop σ τ ρ) (policy : ℕ → RetryPolicy)
    (maximumDuration : ℕ) :
    StopsAt { loop with retryPolicy := fun round => (policy round).withTimeLimit maximumDuration }
      maximumDuration where
  onError round attemptCount now error e h := by
    simp only [RetryPolicy.withTimeLimit] at h
    split at h
    · cases h
    · cases h
    · split_ifs at h with hlate
      exact Nat.lt_of_not_ge hlate
  onThrottle round attemptCount now error e h := by
    simp only [RetryPolicy.withTimeLimit] at h
    split at h
    · split_ifs at h with hearly
      exact hearly
    · cases h

theorem Limited.callAfter {maximumDuration : ℕ} (hnow : s.now ≤ loop.loopStart + maximumDuration)
    (slept : ℕ) : Limited loop maximumDuration (loop.callAfter s slept) where
  remainingTime := rfl
  computed := hnow
  time := Nat.le_add_right s.now slept

/-- The calls are limited after a round, and the time is if the loop goes on. -/
theorem Attempted.limited {maximumDuration : ℕ} {call : Call} (hloop : StopsAt loop maximumDuration)
    (hcalls : ∀ call ∈ s.calls, Limited loop maximumDuration call)
    (hcall : Limited loop maximumDuration call) (h : Attempted loop s call s' result) :
    (∀ call ∈ s'.calls, Limited loop maximumDuration call) ∧
      (result = none → s'.now ≤ loop.loopStart + maximumDuration) := by
  have hall : ∀ other ∈ s.calls ++ [call], Limited loop maximumDuration other := by
    intro other hother
    obtain hold | hnew := List.mem_append.mp hother
    · exact hcalls other hold
    · obtain rfl := List.mem_singleton.mp hnew
      exact hcall
  cases h with
  | succeeded r duration inner hinner => exact ⟨hall, by simp⟩
  | stopped error e duration inner flow hinner hflow hstop => exact ⟨hall, by simp⟩
  | continued error e duration inner hinner hflow =>
      exact ⟨hall, fun _ => (hloop.onError _ _ _ _ _ hflow).le⟩

theorem Round.limited {maximumDuration : ℕ} (hloop : StopsAt loop maximumDuration)
    (hinv : DeadlineInv loop maximumDuration s) (h : Round loop s s' result) :
    (∀ call ∈ s'.calls, Limited loop maximumDuration call) ∧
      (result = none → s'.now ≤ loop.loopStart + maximumDuration) := by
  cases h with
  | first hattempt h => exact h.limited hloop hinv.calls (.callAfter hinv.now 0)
  | late count delay remaining prevError hattempt hremaining => exact ⟨hinv.calls, by simp⟩
  | throttledOut count delay prevError e throttler hattempt hthrottle hpolicy =>
      exact ⟨hinv.calls, by simp⟩
  | throttled count delay prevError e throttler hattempt hthrottle hpolicy =>
      exact ⟨hinv.calls, fun _ => (hloop.onThrottle _ _ _ _ _ hpolicy).le⟩
  | retried count delay prevError throttler hattempt hthrottle h =>
      refine h.limited hloop ?_ ?_
      · exact hinv.calls
      · exact .callAfter hinv.now _

theorem run_limited {maximumDuration : ℕ} (hloop : StopsAt loop maximumDuration) (rounds : ℕ)
    (inner : σ) (throttler : τ) :
    ∀ call ∈ (loop.run rounds inner throttler).1.calls, Limited loop maximumDuration call := by
  have hagain : ∀ s s', DeadlineInv loop maximumDuration s → loop.step s = (s', none) →
      DeadlineInv loop maximumDuration s' := by
    intro s s' hinv hs
    have h := loop.step_round s
    rw [hs] at h
    obtain ⟨hcalls, hnow⟩ := h.limited hloop hinv
    exact ⟨hnow rfl, hcalls⟩
  have hdone : ∀ s s' value, DeadlineInv loop maximumDuration s →
      loop.step s = (s', some value) → ∀ call ∈ s'.calls, Limited loop maximumDuration call := by
    intro s s' value hinv hs
    have h := loop.step_round s
    rw [hs] at h
    exact (h.limited hloop hinv).1
  refine Loop.run_invariant (fun s hinv => hinv.calls) hagain hdone rounds ?_
  exact ⟨Nat.le_add_right _ _, by simp [initial]⟩

/-- An attempt ends before the deadline if the sleep before it fits into the slack. -/
theorem Limited.within_iff {policy : ℕ → RetryPolicy} {maximumDuration remaining : ℕ} {call : Call}
    (h : Limited { loop with
      retryPolicy := fun round => (policy round).withTimeLimit maximumDuration }
      maximumDuration call) (hremaining : call.remainingTime = some remaining) :
    call.time + remaining ≤ loop.loopStart + maximumDuration ↔
      call.time - call.computed ≤ loop.slack policy maximumDuration call := by
  obtain ⟨hpolicy, hcomputed, htime⟩ := h
  simp only at hcomputed
  rw [hremaining] at hpolicy
  simp only [RetryPolicy.withTimeLimit, retryState] at hpolicy
  unfold slack retryState
  cases hinner : (policy call.round).remainingTime
      ⟨loop.idempotent, loop.loopStart, call.attemptCount⟩ call.computed with
  | none =>
      have hr : remaining = loop.loopStart + maximumDuration - call.computed := by
        simpa [hinner] using hpolicy
      simp only
      omega
  | some inner =>
      have hr : remaining = min (loop.loopStart + maximumDuration - call.computed) inner := by
        simpa [hinner] using hpolicy
      simp only
      omega

theorem run_within_deadline_iff (loop : RetryLoop σ τ ρ) (policy : ℕ → RetryPolicy)
    (maximumDuration rounds : ℕ) (inner : σ) (throttler : τ) :
    let limited := { loop with
      retryPolicy := fun round => (policy round).withTimeLimit maximumDuration }
    let calls := (limited.run rounds inner throttler).1.calls
    (∀ call ∈ calls, ∀ remaining, call.remainingTime = some remaining →
      call.time + remaining ≤ loop.loopStart + maximumDuration) ↔
    ∀ call ∈ calls, call.time - call.computed ≤ loop.slack policy maximumDuration call := by
  intro limited calls
  have hlimited : ∀ call ∈ calls, Limited limited maximumDuration call :=
    run_limited (loop.stopsAt_withTimeLimit policy maximumDuration) rounds inner throttler
  constructor
  · intro h call hcall
    have hsome : ∃ remaining, call.remainingTime = some remaining := by
      rw [(hlimited call hcall).remainingTime]
      simp only [limited, RetryPolicy.withTimeLimit]
      split <;> exact ⟨_, rfl⟩
    obtain ⟨remaining, hremaining⟩ := hsome
    exact ((hlimited call hcall).within_iff hremaining).mp (h call hcall remaining hremaining)
  · intro h call hcall remaining hremaining
    exact ((hlimited call hcall).within_iff hremaining).mpr (h call hcall)

/-- An attempt that fails after a second and a backoff of five, with a limit of ten. -/
theorem run_past_deadline :
    let loop : RetryLoop Unit Unit Unit := {
      inner := fun _ _ _ => (.error .connect, 1, ())
      sleep := fun _ delay => delay
      idempotent := true
      retryThrottler := ⟨fun _ => (false, ()), fun _ _ => (), fun _ => ()⟩
      retryPolicy := fun _ => aip194Strict.withTimeLimit 10
      backoffPolicy := fun _ _ => 5
      loopStart := 0 }
    ¬ ∀ call ∈ (loop.run 2 () ()).1.calls, ∀ remaining, call.remainingTime = some remaining →
      call.time + remaining ≤ loop.loopStart + 10 := by
  intro loop h
  have hcalls : (loop.run 2 () ()).1.calls = [⟨0, 0, 0, 0, some 10⟩, ⟨1, 1, 1, 6, some 9⟩] := by
    decide
  have hlate := h ⟨1, 1, 1, 6, some 9⟩ (by rw [hcalls]; simp) 9 rfl
  simp [loop] at hlate

end RetryLoop

end GoogleCloudRust.Gax
