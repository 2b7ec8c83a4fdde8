import GoogleCloudRust.Verification.RetryLoop.Deadline

/-! # Attempt limits in the retry loop

A throttled attempt does not advance the attempt count, so an attempt limit bounds the calls
but not the throttled attempts. A run that throttles no retry keeps the limit. -/

namespace GoogleCloudRust.Gax

namespace RetryLoop

variable {σ τ ρ : Type} {loop : RetryLoop σ τ ρ} {s s' final : LoopState σ τ}
  {result : Option (Except Error ρ)} {value : Except Error ρ} {n : ℕ}

/-- The loop returns, with at most so many attempts. -/
def KeepsLimit (loop : RetryLoop σ τ ρ) (n : ℕ) (inner : σ) (throttler : τ) : Prop :=
  ∃ final value, Loop.EndsIn loop.step (loop.initial inner throttler) final value ∧
    1 ≤ final.calls.length ∧ final.calls.length ≤ max 1 n ∧ final.failed + final.throttled ≤ max 1 n

/-- The throttler lets a retry pass, and those after further failures. -/
def Admits (throttler : RetryThrottler τ) : τ → List Error → Prop
  | t, [] => (throttler.throttleRetryAttempt t).1 = false
  | t, error :: errors =>
      (throttler.throttleRetryAttempt t).1 = false ∧
        Admits throttler
          (throttler.onRetryFailure (.continue error) (throttler.throttleRetryAttempt t).2) errors

def limitAttempts (loop : RetryLoop σ τ ρ) (policy : ℕ → RetryPolicy) (n : ℕ) :
    RetryLoop σ τ ρ :=
  { loop with retryPolicy := fun round => (policy round).withAttemptLimit n }

theorem Admits.head {throttler : RetryThrottler τ} {t : τ} {errors : List Error}
    (h : Admits throttler t errors) : (throttler.throttleRetryAttempt t).1 = false := by
  cases errors with
  | nil => exact h
  | cons error errors => exact h.1

/-! ## The calls of any run -/

/-- Every attempt that was not throttled has failed, and they are below the limit. -/
structure AttemptInv (n : ℕ) (s : LoopState σ τ) : Prop where
  calls : s.calls.length = s.attempt.count
  failed : s.failed = s.attempt.count
  count : ∀ count delay e, s.attempt = .retry count delay e → 1 ≤ count ∧ count < n

/-- The bounds once the loop has ended. -/
def WithinLimit (n : ℕ) (s : LoopState σ τ) : Prop :=
  1 ≤ s.calls.length ∧ s.calls.length ≤ max 1 n ∧ s.failed ≤ max 1 n

theorem AttemptInv.count_lt (h : AttemptInv n s) : s.attempt.count < max 1 n := by
  cases hattempt : s.attempt with
  | initial => exact lt_of_lt_of_le Nat.zero_lt_one (le_max_left 1 n)
  | retry count delay e =>
      exact lt_of_lt_of_le (h.count count delay e hattempt).2 (le_max_right 1 n)

theorem initial_attemptInv (loop : RetryLoop σ τ ρ) (inner : σ) (throttler : τ) :
    AttemptInv n (loop.initial inner throttler) :=
  ⟨rfl, rfl, by simp [initial]⟩

theorem continue_of_withAttemptLimit {policy : RetryPolicy} {state : RetryState} {now : ℕ}
    {error e : Error} (h : (policy.withAttemptLimit n).onError state now error = .continue e) :
    state.attemptCount < n := by
  simp only [RetryPolicy.withAttemptLimit] at h
  split at h
  · cases h
  · cases h
  · split_ifs at h with hlimit
    exact Nat.lt_of_not_ge hlimit

theorem Attempted.attempts {policy : ℕ → RetryPolicy} {call : Call}
    (h : Attempted (loop.limitAttempts policy n) s call s' result) (hinv : AttemptInv n s) :
    (result = none → AttemptInv n s' ∧ s'.attempt.count = s.attempt.count + 1) ∧
    (result ≠ none → WithinLimit n s' ∧ s'.throttled = s.throttled) := by
  have hcount := hinv.count_lt
  have hlength : (s.calls ++ [call]).length = s.attempt.count + 1 := by simp [hinv.calls]
  cases h with
  | succeeded r duration inner hinner =>
      refine ⟨by simp, fun _ => ⟨⟨?_, ?_, ?_⟩, rfl⟩⟩
      · simp only [hlength]
        omega
      · simp only [hlength]
        omega
      · simp only [hinv.failed]
        omega
  | stopped error e duration inner flow hinner hflow hstop =>
      refine ⟨by simp, fun _ => ⟨⟨?_, ?_, ?_⟩, rfl⟩⟩
      · simp only [hlength]
        omega
      · simp only [hlength]
        omega
      · simp only [hinv.failed]
        omega
  | continued error e duration inner hinner hflow =>
      have hlt : s.attempt.count + 1 < n := continue_of_withAttemptLimit hflow
      refine ⟨fun _ => ⟨?_, rfl⟩, by simp⟩
      exact {
        calls := hlength
        failed := congrArg (· + 1) hinv.failed
        count := by
          intro count delay e' hattempt
          simp only [RetryLoopAttempt.retry.injEq] at hattempt
          omega }

/-- A round goes on with the next attempt, or throttles it, or ends within the limit. -/
theorem Round.attempts {policy : ℕ → RetryPolicy}
    (h : Round (loop.limitAttempts policy n) s s' result) (hinv : AttemptInv n s) :
    (result = none → AttemptInv n s' ∧
      (s'.attempt.count = s.attempt.count + 1 ∨ s'.throttled = s.throttled + 1)) ∧
    (result ≠ none → WithinLimit n s') := by
  have hlate : ∀ count delay prevError, s.attempt = .retry count delay prevError →
      1 ≤ s.calls.length ∧ s.calls.length ≤ max 1 n ∧ s.failed ≤ max 1 n := by
    intro count delay prevError hattempt
    obtain ⟨hpos, hlt⟩ := hinv.count count delay prevError hattempt
    have hcount : s.attempt.count = count := by rw [hattempt]; rfl
    rw [hinv.calls, hinv.failed]
    omega
  cases h with
  | first hattempt h =>
      obtain ⟨hgo, hstop⟩ := h.attempts hinv
      exact ⟨fun hnone => ⟨(hgo hnone).1, .inl (hgo hnone).2⟩, fun hsome => (hstop hsome).1⟩
  | late count delay remaining prevError hattempt hremaining =>
      exact ⟨by simp, fun _ => hlate count delay prevError hattempt⟩
  | throttledOut count delay prevError e throttler hattempt hthrottle hpolicy =>
      exact ⟨by simp, fun _ => hlate count delay prevError hattempt⟩
  | throttled count delay prevError e throttler hattempt hthrottle hpolicy =>
      have hcount : s.attempt.count = count := by rw [hattempt]; rfl
      refine ⟨fun _ => ⟨⟨hinv.calls.trans hcount, hinv.failed.trans hcount, ?_⟩, .inr rfl⟩, by simp⟩
      intro count' delay' e' hretry
      cases hretry
      exact hinv.count count delay prevError hattempt
  | retried count delay prevError throttler hattempt hthrottle h =>
      obtain ⟨hgo, hstop⟩ := h.attempts ⟨hinv.calls, hinv.failed, hinv.count⟩
      exact ⟨fun hnone => ⟨(hgo hnone).1, .inl (hgo hnone).2⟩, fun hsome => (hstop hsome).1⟩

theorem step_attempts {policy : ℕ → RetryPolicy}
    (hstep : (loop.limitAttempts policy n).step s = (s', result)) (hinv : AttemptInv n s) :
    (result = none → AttemptInv n s' ∧
      (s'.attempt.count = s.attempt.count + 1 ∨ s'.throttled = s.throttled + 1)) ∧
    (result ≠ none → WithinLimit n s') := by
  have hround := (loop.limitAttempts policy n).step_round s
  rw [hstep] at hround
  exact hround.attempts hinv

/-- The calls stay within the limit, whatever is throttled. -/
theorem run_calls_le (loop : RetryLoop σ τ ρ) (policy : ℕ → RetryPolicy) (n rounds : ℕ) (inner : σ)
    (throttler : τ) :
    ((loop.limitAttempts policy n).run rounds inner throttler).1.calls.length ≤ max 1 n := by
  have hcalls : ∀ s : LoopState σ τ, AttemptInv n s → s.calls.length ≤ max 1 n := by
    intro s hinv
    rw [hinv.calls]
    exact hinv.count_lt.le
  refine Loop.run_invariant hcalls ?_ ?_ rounds (initial_attemptInv _ inner throttler)
  · intro s s' hinv hstep
    exact ((step_attempts hstep hinv).1 rfl).1
  · intro s s' value hinv hstep
    exact ((step_attempts hstep hinv).2 (by simp)).2.1

/-! ## Runs without a throttled retry -/

/-- No retry is throttled from here on. -/
def Unthrottled (loop : RetryLoop σ τ ρ) (s : LoopState σ τ) : Prop :=
  ∀ rounds, (Loop.run loop.step rounds s).1.throttled = 0

theorem Unthrottled.of_again (h : Unthrottled loop s) (hstep : loop.step s = (s', none)) :
    Unthrottled loop s' := by
  intro rounds
  rw [← Loop.run_succ_of_again hstep]
  exact h (rounds + 1)

/-- A run in which no retry is throttled keeps the limit. -/
theorem keepsLimit_of_unthrottled (loop : RetryLoop σ τ ρ) (policy : ℕ → RetryPolicy) {n : ℕ}
    {inner : σ} {throttler : τ}
    (h : Unthrottled (loop.limitAttempts policy n)
      ((loop.limitAttempts policy n).initial inner throttler)) :
    KeepsLimit (loop.limitAttempts policy n) n inner throttler := by
  let limited := loop.limitAttempts policy n
  let motive := fun s : LoopState σ τ => AttemptInv n s ∧ Unthrottled limited s
  have hagain : ∀ s s', motive s → limited.step s = (s', none) →
      motive s' ∧ max 1 n - s'.attempt.count < max 1 n - s.attempt.count := by
    rintro s s' ⟨hinv, hrun⟩ hstep
    obtain ⟨hnext, hcount⟩ := (step_attempts hstep hinv).1 rfl
    have hlater := hrun.of_again hstep
    refine ⟨⟨hnext, hlater⟩, ?_⟩
    have hzero : s.throttled = 0 := hrun 0
    have hzero' : s'.throttled = 0 := hlater 0
    have hlt := hinv.count_lt
    omega
  have hstart : motive (limited.initial inner throttler) :=
    ⟨initial_attemptInv _ inner throttler, h⟩
  obtain ⟨final, value, hends⟩ :=
    Loop.exists_endsIn (fun s => max 1 n - s.attempt.count) hagain hstart
  obtain ⟨hpos, hcalls, hfailed⟩ := Loop.endsIn_result motive (fun s _ => WithinLimit n s)
    (fun s s' hs hstep => (hagain s s' hs hstep).1)
    (fun s s' value hs hstep => (step_attempts hstep hs.1).2 (by simp)) hstart hends
  obtain ⟨rounds, hrun⟩ := hends
  have hthrottled : final.throttled = 0 := by
    have hzero := h rounds
    rwa [hrun] at hzero
  exact ⟨final, value, ⟨rounds, hrun⟩, hpos, hcalls, by omega⟩

/-! ## Under a throttler that admits the retries -/

/-- What the throttler has to admit for a limit to be kept. -/
def AdmitsBelow (throttler : RetryThrottler τ) (t : τ) (n : ℕ) : Prop :=
  ∀ error errors, 1 + List.length errors < n →
    Admits throttler (throttler.onRetryFailure (.continue error) t) errors

/-- Nothing has been throttled, and the throttler admits the retries up to the limit. -/
structure AdmitInv (loop : RetryLoop σ τ ρ) (n : ℕ) (s : LoopState σ τ) : Prop where
  attempts : AttemptInv n s
  throttled : s.throttled = 0
  first : s.attempt = .initial → AdmitsBelow loop.retryThrottler s.throttler n
  admits : s.attempt ≠ .initial → ∀ errors : List Error, s.attempt.count + errors.length < n →
    Admits loop.retryThrottler s.throttler errors

/-- An attempt that is made when the throttler has admitted it. -/
theorem Attempted.admits {policy : ℕ → RetryPolicy} {call : Call}
    (h : Attempted (loop.limitAttempts policy n) s call s' result)
    (hadmits : ∀ error errors, s.attempt.count + 1 + List.length errors < n →
      Admits loop.retryThrottler
        (loop.retryThrottler.onRetryFailure (.continue error) s.throttler) errors) :
    s'.throttled = s.throttled ∧
      (result = none → s'.attempt ≠ .initial ∧
        ∀ errors : List Error, s'.attempt.count + errors.length < n →
          Admits loop.retryThrottler s'.throttler errors) := by
  cases h with
  | succeeded r duration inner hinner => exact ⟨rfl, by simp⟩
  | stopped error e duration inner flow hinner hflow hstop => exact ⟨rfl, by simp⟩
  | continued error e duration inner hinner hflow =>
      exact ⟨rfl, fun _ => ⟨by simp, fun errors herrors => hadmits e errors herrors⟩⟩

/-- No round throttles a retry that the throttler admits. -/
theorem Round.admits {policy : ℕ → RetryPolicy}
    (h : Round (loop.limitAttempts policy n) s s' result)
    (hinv : AdmitInv (loop.limitAttempts policy n) n s) :
    s'.throttled = 0 ∧ (result = none → s'.attempt ≠ .initial ∧
      ∀ errors : List Error, s'.attempt.count + errors.length < n →
        Admits loop.retryThrottler s'.throttler errors) := by
  have hadmits : ∀ count delay prevError, s.attempt = .retry count delay prevError →
      ∀ errors : List Error, count + errors.length < n →
        Admits loop.retryThrottler s.throttler errors := by
    intro count delay prevError hattempt errors herrors
    have hcount : s.attempt.count = count := by rw [hattempt]; rfl
    exact hinv.admits (by simp [hattempt]) errors (hcount ▸ herrors)
  have hhead : ∀ count delay prevError t, s.attempt = .retry count delay prevError →
      loop.retryThrottler.throttleRetryAttempt s.throttler ≠ (true, t) := by
    intro count delay prevError t hattempt hthrottle
    have hlt := (hinv.attempts.count count delay prevError hattempt).2
    have hfalse := (hadmits count delay prevError hattempt [] hlt).head
    rw [hthrottle] at hfalse
    cases hfalse
  cases h with
  | first hattempt h =>
      have hzero : s.attempt.count = 0 := by rw [hattempt]; rfl
      obtain ⟨hsame, hgo⟩ := h.admits fun error errors herrors =>
        hinv.first hattempt error errors (by omega)
      exact ⟨hsame.trans hinv.throttled, hgo⟩
  | late count delay remaining prevError hattempt hremaining =>
      exact ⟨hinv.throttled, by simp⟩
  | throttledOut count delay prevError e throttler hattempt hthrottle hpolicy =>
      exact absurd hthrottle (hhead count delay prevError throttler hattempt)
  | throttled count delay prevError e throttler hattempt hthrottle hpolicy =>
      exact absurd hthrottle (hhead count delay prevError throttler hattempt)
  | retried count delay prevError throttler hattempt hthrottle h =>
      have hthrottler : (loop.retryThrottler.throttleRetryAttempt s.throttler).2 = throttler :=
        congrArg Prod.snd hthrottle
      have hcount : s.attempt.count = count := by rw [hattempt]; rfl
      obtain ⟨hsame, hgo⟩ := h.admits fun error errors herrors => by
        have hnext := hadmits count delay prevError hattempt (error :: errors)
          (by simp only [List.length_cons]; simp only at herrors; omega)
        rw [← hthrottler]
        exact hnext.2
      exact ⟨hsame.trans hinv.throttled, hgo⟩

theorem unthrottled_of_admitsBelow (loop : RetryLoop σ τ ρ) (policy : ℕ → RetryPolicy) {n : ℕ}
    {inner : σ} {throttler : τ} (h : AdmitsBelow loop.retryThrottler throttler n) :
    Unthrottled (loop.limitAttempts policy n)
      ((loop.limitAttempts policy n).initial inner throttler) := by
  let limited := loop.limitAttempts policy n
  have hround : ∀ s s' result, AdmitInv limited n s → limited.step s = (s', result) →
      Round limited s s' result := by
    intro s s' result hinv hstep
    have hround := limited.step_round s
    rwa [hstep] at hround
  have hthrottled : ∀ s, AdmitInv limited n s → s.throttled = 0 := fun s hinv => hinv.throttled
  intro rounds
  refine Loop.run_invariant hthrottled ?_ ?_ rounds ?_
  · intro s s' hinv hstep
    obtain ⟨hzero, hgo⟩ := (hround s s' none hinv hstep).admits hinv
    obtain ⟨hretry, hadmits⟩ := hgo rfl
    exact ⟨((step_attempts hstep hinv.attempts).1 rfl).1, hzero, fun hinitial =>
      absurd hinitial hretry, fun _ => hadmits⟩
  · intro s s' value hinv hstep
    exact ((hround s s' (some value) hinv hstep).admits hinv).1
  · exact ⟨initial_attemptInv _ inner throttler, rfl, fun _ => h, fun hretry => absurd rfl hretry⟩

theorem keepsLimit_of_admitsBelow (loop : RetryLoop σ τ ρ) (policy : ℕ → RetryPolicy) {n : ℕ}
    (inner : σ) {throttler : τ} (h : AdmitsBelow loop.retryThrottler throttler n) :
    KeepsLimit (loop.limitAttempts policy n) n inner throttler :=
  keepsLimit_of_unthrottled loop policy (unthrottled_of_admitsBelow loop policy h)

/-! ## Under a throttler that does not -/

/-- A loop whose attempts fail with the given errors, and then with another one. -/
def failing (throttler : RetryThrottler τ) (n : ℕ) : RetryLoop (List Error) τ ρ where
  inner errors _ _ := (.error (errors.head?.getD .connect), 0, errors.tail)
  sleep _ _ := 0
  idempotent := true
  retryThrottler := throttler
  retryPolicy _ := alwaysRetry.withAttemptLimit n
  backoffPolicy _ _ := 0
  loopStart := 0

section Failing

variable {throttler : RetryThrottler τ} {t : τ} {s s' final : LoopState (List Error) τ}

theorem failing_onError (state : RetryState) (round now : ℕ) (error : Error) :
    ((failing throttler n : RetryLoop (List Error) τ ρ).retryPolicy round).onError state now error =
      if state.attemptCount ≥ n then .exhausted error else .continue error := rfl

/-- An attempt fails, and the loop goes on below the limit. -/
theorem Attempted.failing {call : Call} {result : Option (Except Error ρ)}
    (h : Attempted (failing throttler n) s call s' result) :
    s'.failed = s.failed + 1 ∧ s'.throttled = s.throttled ∧
      (s.attempt.count + 1 < n → result = none ∧ s'.attempt.count = s.attempt.count + 1 ∧
        s'.attempt ≠ .initial ∧ s'.inner = s.inner.tail ∧
        s'.throttler = throttler.onRetryFailure (.continue (s.inner.head?.getD .connect))
          s.throttler) ∧
      (n ≤ s.attempt.count + 1 → result ≠ none) := by
  cases h with
  | succeeded r duration inner hinner => cases hinner
  | stopped error e duration inner flow hinner hflow hstop =>
      refine ⟨rfl, rfl, ?_, by simp⟩
      intro hlt
      rw [failing_onError, if_neg (by simpa [retryState] using hlt)] at hflow
      subst hflow
      simp at hstop
  | continued error e duration inner hinner hflow =>
      cases hinner
      rw [failing_onError] at hflow
      split_ifs at hflow with hlimit
      cases hflow
      refine ⟨rfl, rfl, fun _ => ⟨rfl, rfl, by simp, rfl, rfl⟩, ?_⟩
      intro hn
      exact absurd hn hlimit

/-- A round of a failing loop throttles the attempt or makes it. -/
theorem Round.failing {result : Option (Except Error ρ)}
    (h : Round (failing throttler n) s s' result) (hcount : s.attempt.count < n) :
    (result = none ∧ s'.throttled = s.throttled + 1 ∧ s'.failed = s.failed ∧
      s'.attempt.count = s.attempt.count) ∨
    ∃ t call, (s.attempt ≠ .initial → throttler.throttleRetryAttempt s.throttler = (false, t)) ∧
      Attempted (failing throttler n) { s with throttler := t } call s' result := by
  cases h with
  | first hattempt h => exact .inr ⟨s.throttler, _, fun hne => absurd hattempt hne, h⟩
  | late count delay remaining prevError hattempt hremaining => cases hremaining
  | throttledOut count delay prevError e t hattempt hthrottle hpolicy =>
      have hcontinue : ¬ n ≤ s.attempt.count := Nat.not_le.mpr hcount
      simp [RetryLoop.failing, RetryPolicy.withAttemptLimit, alwaysRetry, retryState,
        hcontinue] at hpolicy
  | throttled count delay prevError e t hattempt hthrottle hpolicy =>
      refine .inl ⟨rfl, rfl, rfl, ?_⟩
      rw [hattempt]
      rfl
  | retried count delay prevError t hattempt hthrottle h =>
      exact .inr ⟨t, _, fun _ => hthrottle, h⟩

/-- A failing loop ends at its limit, and throttled attempts are not forgotten. -/
theorem failing_endsIn {value : Except Error ρ} (hcount : s.attempt.count < n)
    (hfailed : s.failed = s.attempt.count)
    (hends : Loop.EndsIn (failing throttler n).step s final value) :
    final.failed = n ∧ s.throttled ≤ final.throttled := by
  let motive := fun next : LoopState (List Error) τ => next.attempt.count < n ∧
    next.failed = next.attempt.count ∧ s.throttled ≤ next.throttled
  let post := fun (next : LoopState (List Error) τ) (_ : Except Error ρ) =>
    next.failed = n ∧ s.throttled ≤ next.throttled
  refine Loop.endsIn_result motive post ?_ ?_ ⟨hcount, hfailed, le_refl _⟩ hends
  · intro next later ⟨hcount, hfailed, hle⟩ hstep
    have hround := (failing (ρ := ρ) throttler n).step_round next
    rw [hstep] at hround
    obtain ⟨-, hthrottled, hsame, hcounts⟩ | ⟨t, call, -, h⟩ := hround.failing hcount
    · simp only at hthrottled hsame hcounts
      exact ⟨hcounts ▸ hcount, by omega, by omega⟩
    · obtain ⟨hlater, hsame, hgo, hstop⟩ := h.failing
      have hlt : next.attempt.count + 1 < n := by
        by_contra hge
        exact hstop (Nat.le_of_not_lt hge) rfl
      obtain ⟨-, hcounts, -⟩ := hgo hlt
      simp only at hcounts hlater hsame
      exact ⟨by omega, by omega, by omega⟩
  · intro next later value ⟨hcount, hfailed, hle⟩ hstep
    have hround := (failing (ρ := ρ) throttler n).step_round next
    rw [hstep] at hround
    obtain ⟨hnone, -⟩ | ⟨t, call, -, h⟩ := hround.failing hcount
    · cases hnone
    · obtain ⟨hlater, hsame, hgo, -⟩ := h.failing
      have hge : ¬ next.attempt.count + 1 < n := by
        intro hlt
        cases (hgo hlt).1
      simp only at hlater hsame
      exact ⟨by omega, by omega⟩

/-- If nothing is throttled in a failing loop, the next round makes an attempt. -/
theorem failing_retries {value : Except Error ρ} (hattempt : s.attempt ≠ .initial)
    (hfailed : s.failed = s.attempt.count) (hcount : s.attempt.count < n)
    (hends : Loop.EndsIn (failing throttler n).step s final value)
    (hthrottled : final.throttled ≤ s.throttled) :
    ∃ t, throttler.throttleRetryAttempt s.throttler = (false, t) ∧
      ∃ s', ((failing throttler n : RetryLoop (List Error) τ ρ).step s).1 = s' ∧
        ∃ call, Attempted (failing throttler n) { s with throttler := t } call s'
          ((failing throttler n : RetryLoop (List Error) τ ρ).step s).2 := by
  have hround := (failing (ρ := ρ) throttler n).step_round s
  obtain ⟨hnone, hmore, hsame, hcounts⟩ | ⟨t, call, hpair, h⟩ := hround.failing hcount
  · have hlater : Loop.EndsIn _ ((failing (ρ := ρ) throttler n).step s).1 final value :=
      hends.of_again (Prod.ext rfl hnone)
    have hle := (failing_endsIn (by omega) (by omega) hlater).2
    omega
  · exact ⟨t, hpair hattempt, _, rfl, call, h⟩

/-- If nothing is throttled in a failing loop, the throttler has admitted its retries. -/
theorem failing_admits {value : Except Error ρ} (errors : List Error)
    (hattempt : s.attempt ≠ .initial) (hfailed : s.failed = s.attempt.count) (hinner : s.inner = errors)
    (hcount : s.attempt.count + errors.length < n)
    (hends : Loop.EndsIn (failing throttler n).step s final value)
    (hthrottled : final.throttled ≤ s.throttled) : Admits throttler s.throttler errors := by
  induction errors generalizing s with
  | nil =>
      obtain ⟨t, hpair, -⟩ :=
        failing_retries hattempt hfailed (by simpa using hcount) hends hthrottled
      exact congrArg Prod.fst hpair
  | cons error errors ih =>
      rw [List.length_cons] at hcount
      obtain ⟨t, hpair, s', hs, call, h⟩ :=
        failing_retries hattempt hfailed (by omega) hends hthrottled
      obtain ⟨hlater, hsame, hgo, -⟩ := h.failing
      obtain ⟨hnone, hcounts, hnext, htail, hthrottler⟩ := hgo (by simp only; omega)
      simp only [hinner, List.tail_cons, List.head?_cons, Option.getD_some] at htail hthrottler
      simp only at hlater hsame hcounts
      have hadmits := ih hnext (by omega) htail (by omega)
        (hends.of_again (Prod.ext hs hnone)) (by omega)
      rw [hthrottler] at hadmits
      refine ⟨congrArg Prod.fst hpair, ?_⟩
      rw [hpair]
      exact hadmits

theorem admitsBelow_of_keepsLimit
    (h : ∀ errors, KeepsLimit (failing throttler n : RetryLoop (List Error) τ ρ) n errors t) :
    AdmitsBelow throttler t n := by
  intro error errors hlength
  let loop : RetryLoop (List Error) τ ρ := failing throttler n
  obtain ⟨final, value, hends, -, -, hlimit⟩ := h (error :: errors)
  have hzero : (loop.initial (error :: errors) t).attempt.count < n := by
    simp only [initial, RetryLoopAttempt.count]
    omega
  obtain ⟨hfailed, -⟩ := failing_endsIn hzero rfl hends
  have hthrottled : final.throttled = 0 := by omega
  -- The first round is an attempt that fails with the first of the errors.
  have hfirst := (loop.step_round (loop.initial (error :: errors) t)).of_initial rfl
  obtain ⟨hlater, hsame, hgo, -⟩ := hfirst.failing
  obtain ⟨hnone, hcounts, hnext, htail, hthrottler⟩ := hgo (by
    simp only [initial, RetryLoopAttempt.count]
    omega)
  have hrest : Loop.EndsIn _ (loop.step (loop.initial (error :: errors) t)).1 final value :=
    hends.of_again (Prod.ext rfl hnone)
  have hcount : (loop.step (loop.initial (error :: errors) t)).1.attempt.count = 1 := hcounts
  have hadmits := failing_admits errors hnext (by rw [hlater, hcounts]; rfl) htail
    (by omega) hrest (by omega)
  rw [hthrottler] at hadmits
  exact hadmits

end Failing

/-- An attempt limit is kept for all policies and attempts if and only if the throttler admits the
retries below it. -/
theorem keepsLimit_iff (throttler : RetryThrottler τ) (t : τ) (n : ℕ) :
    (∀ (σ : Type) (loop : RetryLoop σ τ ρ) (policy : ℕ → RetryPolicy) (inner : σ),
      KeepsLimit ({ loop with retryThrottler := throttler }.limitAttempts policy n) n inner t) ↔
    AdmitsBelow throttler t n := by
  constructor
  · intro h
    refine admitsBelow_of_keepsLimit (ρ := ρ) ?_
    intro errors
    exact h (List Error) (failing throttler n) (fun _ => alwaysRetry) errors
  · intro h σ loop policy inner
    exact keepsLimit_of_admitsBelow { loop with retryThrottler := throttler } policy inner h

/-- A circuit breaker that has run out of tokens, and a limit of two attempts. -/
theorem throttled_forever :
    let loop : RetryLoop Unit CircuitBreaker Unit := {
      inner := fun _ _ _ => (.error .connect, 0, ())
      sleep := fun _ delay => delay
      idempotent := true
      retryThrottler := CircuitBreaker.retryThrottler
      retryPolicy := fun _ => aip194Strict.withAttemptLimit 2
      backoffPolicy := fun _ _ => 1
      loopStart := 0 }
    ¬ KeepsLimit loop 2 () { CircuitBreaker.clamp 100 50 10 with curTokens := 50 } := by
  rintro loop ⟨final, value, hends, -⟩
  let motive := fun s : LoopState Unit CircuitBreaker =>
    (s.attempt = .initial ∨ s.attempt = .retry 1 1 .connect) ∧
      s.throttler.curTokens ≤ s.throttler.minTokens
  have hgoes : ∀ s, motive s → (loop.step s).2 = none ∧ motive (loop.step s).1 := by
    rintro ⟨now, attempt, inner, throttler, round, calls, failed, throttled⟩
      ⟨rfl | rfl, htokens⟩
    · have hcost : throttler.curTokens - throttler.errorCost ≤ throttler.minTokens :=
        (Nat.sub_le _ _).trans htokens
      exact ⟨rfl, .inr rfl, hcost⟩
    · have hthrottle : throttler.throttleRetryAttempt = true := decide_eq_true htokens
      simp [loop, step, motive, CircuitBreaker.retryThrottler, hthrottle, aip194Strict,
        RetryPolicy.withAttemptLimit, retryState, RetryLoopAttempt.count, htokens]
  refine Loop.endsIn_result motive (fun _ _ => False) ?_ ?_ ⟨.inl rfl, by decide⟩ hends
  · intro s s' hs hstep
    have hnext := (hgoes s hs).2
    rw [hstep] at hnext
    exact hnext
  · intro s s' value hs hstep
    have hnone := (hgoes s hs).1
    rw [hstep] at hnone
    cases hnone

end RetryLoop

end GoogleCloudRust.Gax
