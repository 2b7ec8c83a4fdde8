import GoogleCloudRust.Verification.EndpointCooldown.Delay

/-! # The fast path is exact

The entry count and the look under the read lock decide early what the code under the write lock
would decide, so that the tracker without them answers every call in the same way. -/

namespace GoogleCloudRust.EndpointCooldown

variable {bound : ℕ}

/-! ## Bounded entries -/

namespace EndpointCooldownState

structure Bounded (state : EndpointCooldownState bound) : Prop where
  overload : state.overload.failures ≤ 6
  unavailable : state.unavailable.failures ≤ 6
  successes : state.successesTowardRepair < 3

variable {state : EndpointCooldownState bound}

theorem empty_bounded (now : Instant bound) : (empty now).Bounded :=
  ⟨Nat.zero_le _, Nat.zero_le _, Nat.zero_lt_succ _⟩

theorem Bounded.recordSuccess (h : state.Bounded) : state.recordSuccess.2.Bounded := by
  rw [EndpointCooldownState.recordSuccess.eq_def]
  dsimp only
  by_cases hrepair : defaultSuccessesPerRepair ≤ state.successesTowardRepair + 1
  · rw [if_pos hrepair]
    exact ⟨(Nat.sub_le _ _).trans h.overload, (Nat.sub_le _ _).trans h.unavailable,
      Nat.zero_lt_succ _⟩
  · rw [if_neg hrepair]
    exact ⟨h.overload, h.unavailable, Nat.lt_of_not_le hrepair⟩

end EndpointCooldownState

theorem nextFailureTier_le (previousFailures : ℕ) (lastFailureAt : Option (Instant bound))
    (now : Instant bound) (resetAfter : Duration) :
    nextFailureTier previousFailures lastFailureAt now resetAfter ≤ 6 := by
  rw [nextFailureTier]
  split_ifs
  · exact min_le_right _ _
  · decide

namespace Tracker

variable {tracker : Tracker bound} {endpoint : String} {now : Instant bound}

theorem applyFailure_bounded (tracker : Tracker bound) {state : EndpointCooldownState bound}
    (h : state.Bounded) (statusCode : Code) (serverRetryDelay : Option Duration)
    (now : Instant bound) (draw : ℕ) :
    (tracker.applyFailure state statusCode serverRetryDelay now draw).2.Bounded := by
  cases statusCode with
  | resourceExhausted => exact ⟨nextFailureTier_le _ _ _ _, h.unavailable, Nat.zero_lt_succ _⟩
  | unavailable => exact ⟨h.overload, nextFailureTier_le _ _ _ _, Nat.zero_lt_succ _⟩
  | _ => exact h

/-- Every stored entry is bounded. -/
def Bounded (tracker : Tracker bound) : Prop :=
  ∀ endpoint entry, tracker.state.lookup endpoint = some entry → entry.Bounded

theorem withOptions_bounded (initialCooldown maxCooldown resetAfter : Duration) :
    (withOptions initialCooldown maxCooldown resetAfter : Tracker bound).Bounded := by
  intro endpoint entry h
  simp [withOptions] at h

theorem Bounded.insert (h : tracker.Bounded) {entry : EndpointCooldownState bound}
    (hentry : entry.Bounded) {tracker' : Tracker bound}
    (hstate : tracker'.state = tracker.state.insert endpoint entry) : tracker'.Bounded := by
  intro other found hfound
  rw [hstate, HashMap.lookup_insert_eq] at hfound
  split_ifs at hfound
  · cases hfound
    exact hentry
  · exact h other found hfound

theorem Bounded.removeEntry (h : tracker.Bounded) (endpoint : String) :
    (tracker.removeEntry endpoint).Bounded := by
  intro other found hfound
  rw [Tracker.removeEntry, HashMap.lookup_erase_eq] at hfound
  split_ifs at hfound
  exact h other found hfound

theorem Bounded.pruneIdle (h : tracker.Bounded) (endpoint : String) (now : Instant bound) :
    (tracker.pruneIdle endpoint now).2.Bounded := by
  rw [Tracker.pruneIdle]
  cases tracker.state.lookup endpoint with
  | none => exact h
  | some entry =>
      dsimp only
      split_ifs
      · exact h
      · exact h.removeEntry endpoint
      · exact h

theorem Bounded.failureState (h : tracker.Bounded) (endpoint : String) (now : Instant bound) :
    (tracker.failureState endpoint now).Bounded := by
  rw [Tracker.failureState]
  cases hlookup : tracker.state.lookup endpoint with
  | none => exact EndpointCooldownState.empty_bounded now
  | some existing =>
      dsimp only
      split_ifs
      · exact EndpointCooldownState.empty_bounded now
      · exact h endpoint existing hlookup

theorem Bounded.recordFailureInternal (h : tracker.Bounded) (hendpoint : endpoint ≠ "")
    (statusCode : Code) (serverRetryDelay : Option Duration) (now : Instant bound) (draw : ℕ) :
    (tracker.recordFailureInternal endpoint statusCode serverRetryDelay now draw).2.Bounded := by
  obtain ⟨-, hstate⟩ :=
    recordFailureInternal_spec tracker hendpoint statusCode serverRetryDelay now draw
  have happlied :=
    tracker.applyFailure_bounded (h.failureState endpoint now) statusCode serverRetryDelay now draw
  split_ifs at hstate
  · exact h.insert happlied hstate
  · intro other found hfound
    exact h other found (hstate ▸ hfound)

/-! ## The tracker without early returns -/

/-- `is_cooling_down_at` with the write lock from the start. -/
def isCoolingDownLocked (tracker : Tracker bound) (endpoint : String) (now : Instant bound) :
    Bool × Tracker bound :=
  if endpoint = "" then (false, tracker) else tracker.pruneIdle endpoint now

/-- `record_success_at` with the write lock from the start. -/
def recordSuccessLocked (tracker : Tracker bound) (endpoint : String) (now : Instant bound) :
    Tracker bound :=
  if endpoint = "" then tracker
  else
    match tracker.state.lookup endpoint with
    | none => tracker
    | some entry =>
        if entry.isIdle now tracker.resetAfter then tracker.removeEntry endpoint
        else
          let (repaired, entry) := entry.recordSuccess
          let tracker := tracker.setEntry endpoint entry
          if repaired && entry.isIdle now tracker.resetAfter then tracker.removeEntry endpoint
          else tracker

def stepLocked (tracker : Tracker bound) : Call bound → Tracker bound
  | .recordErrorWithDelay endpoint statusCode serverRetryDelay now draw =>
      (tracker.recordErrorWithDelayAt endpoint statusCode serverRetryDelay now draw).2
  | .recordSuccess endpoint now => tracker.recordSuccessLocked endpoint now
  | .isCoolingDown endpoint now => (tracker.isCoolingDownLocked endpoint now).2

def runLocked (tracker : Tracker bound) (calls : List (Call bound)) : Tracker bound :=
  calls.foldl stepLocked tracker

/-- When nothing is counted nothing is stored. -/
theorem Counted.lookup_eq_none (h : Counted tracker) (hcount : tracker.trackedEntryCount = 0)
    (endpoint : String) : tracker.state.lookup endpoint = none :=
  HashMap.lookup_of_size_eq_zero (h.symm.trans hcount) endpoint

theorem isCoolingDownAt_eq_locked (h : Counted tracker) (endpoint : String)
    (now : Instant bound) :
    tracker.isCoolingDownAt endpoint now = tracker.isCoolingDownLocked endpoint now := by
  rw [isCoolingDownAt, isCoolingDownLocked]
  by_cases hendpoint : endpoint = ""
  · simp [hendpoint]
  by_cases hcount : tracker.trackedEntryCount = 0
  · simp [hendpoint, hcount, pruneIdle, h.lookup_eq_none hcount]
  · rw [if_neg (by simp [hendpoint, hcount]), if_neg hendpoint]
    cases hlookup : tracker.state.lookup endpoint with
    | none => simp [pruneIdle, hlookup]
    | some entry =>
        simp only [pruneIdle, hlookup]
        cases hcooling : entry.isCoolingDown now with
        | true => rfl
        | false =>
            cases hidle : entry.isIdle now tracker.resetAfter with
            | true => rfl
            | false => rfl

theorem recordSuccessAt_eq_locked (h : Counted tracker) (endpoint : String)
    (now : Instant bound) :
    tracker.recordSuccessAt endpoint now = tracker.recordSuccessLocked endpoint now := by
  rw [recordSuccessAt.eq_def, recordSuccessLocked.eq_def]
  by_cases hendpoint : endpoint = ""
  · simp [hendpoint]
  by_cases hcount : tracker.trackedEntryCount = 0
  · simp [hendpoint, hcount, h.lookup_eq_none hcount]
  · exact (if_neg (by simp [hendpoint, hcount])).trans (if_neg hendpoint).symm

theorem step_eq_locked (h : Counted tracker) (call : Call bound) :
    tracker.step call = tracker.stepLocked call := by
  cases call with
  | recordErrorWithDelay endpoint statusCode serverRetryDelay now draw => rfl
  | recordSuccess endpoint now => exact recordSuccessAt_eq_locked h endpoint now
  | isCoolingDown endpoint now => exact congrArg Prod.snd (isCoolingDownAt_eq_locked h endpoint now)

theorem run_eq_locked (h : Counted tracker) (calls : List (Call bound)) :
    tracker.run calls = tracker.runLocked calls := by
  induction calls generalizing tracker with
  | nil => rfl
  | cons call calls ih =>
      rw [run, runLocked, List.foldl_cons, List.foldl_cons, ← step_eq_locked h call]
      exact ih (step_counted h call)

/-! ## Runs -/

theorem Bounded.recordSuccessLocked (h : tracker.Bounded) (endpoint : String)
    (now : Instant bound) : (tracker.recordSuccessLocked endpoint now).Bounded := by
  rw [Tracker.recordSuccessLocked.eq_def]
  split_ifs
  · exact h
  · cases hlookup : tracker.state.lookup endpoint with
    | none => exact h
    | some entry =>
        have hset : Tracker.Bounded (tracker.setEntry endpoint entry.recordSuccess.2) :=
          h.insert (h endpoint entry hlookup).recordSuccess rfl
        dsimp only
        split_ifs
        · exact h.removeEntry endpoint
        · exact hset.removeEntry endpoint
        · exact hset

theorem step_bounded (h : tracker.Bounded) (hcounted : Counted tracker) (call : Call bound) :
    (tracker.step call).Bounded := by
  rw [step_eq_locked hcounted]
  cases call with
  | recordErrorWithDelay endpoint statusCode serverRetryDelay now draw =>
      rw [stepLocked, recordErrorWithDelayAt.eq_def]
      split_ifs with hendpoint
      · exact h
      · cases statusCode with
        | resourceExhausted | unavailable =>
            exact h.recordFailureInternal hendpoint _ serverRetryDelay now draw
        | _ => exact h
  | recordSuccess endpoint now => exact h.recordSuccessLocked endpoint now
  | isCoolingDown endpoint now =>
      rw [stepLocked, isCoolingDownLocked]
      split_ifs
      · exact h
      · exact h.pruneIdle endpoint now

theorem run_bounded (h : tracker.Bounded) (hcounted : Counted tracker)
    (calls : List (Call bound)) : (tracker.run calls).Bounded := by
  induction calls generalizing tracker with
  | nil => exact h
  | cons call calls ih => exact ih (step_bounded h hcounted call) (step_counted hcounted call)

/-- After every call of a run the count is the number of entries, so that the calls answer as they
would without the early returns and leave the same entries, and all entries are bounded. -/
theorem run_fast_path_exact (initialCooldown maxCooldown resetAfter : Duration)
    (calls : List (Call bound)) :
    let start : Tracker bound := withOptions initialCooldown maxCooldown resetAfter
    let tracker := start.run calls
    tracker.trackedEntryCount = HashMap.size tracker.state ∧
      (∀ endpoint now,
        tracker.isCoolingDownAt endpoint now = tracker.isCoolingDownLocked endpoint now) ∧
      (∀ endpoint now,
        tracker.recordSuccessAt endpoint now = tracker.recordSuccessLocked endpoint now) ∧
      tracker = start.runLocked calls ∧
      ∀ endpoint entry, tracker.state.lookup endpoint = some entry →
        entry.overload.failures ≤ 6 ∧ entry.unavailable.failures ≤ 6 ∧
          entry.successesTowardRepair < 3 := by
  intro start tracker
  have hcounted : Counted tracker := run_counted withOptions_counted calls
  have hbounded : tracker.Bounded :=
    run_bounded (withOptions_bounded _ _ _) withOptions_counted calls
  refine ⟨hcounted, isCoolingDownAt_eq_locked hcounted, recordSuccessAt_eq_locked hcounted,
    run_eq_locked withOptions_counted calls, fun endpoint entry hlookup => ?_⟩
  have hentry := hbounded endpoint entry hlookup
  exact ⟨hentry.overload, hentry.unavailable, hentry.successes⟩

end Tracker

end GoogleCloudRust.EndpointCooldown
