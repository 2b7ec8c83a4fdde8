import GoogleCloudRust.Model.EndpointCooldown

/-! # Server-requested delays

A server-requested delay is honoured in every run in which no overload failure arrives
after the reset window of a lane that is still cooling down. -/

namespace GoogleCloudRust.EndpointCooldown

variable {bound : ℕ}

/-! ## Deadlines -/

/-- The hinted cooldown is at least the delay, for every draw. -/
theorem le_calculateHintedCooldown (consecutiveFailures : ℕ) (serverRetryDelay : Duration)
    (draw : ℕ) :
    serverRetryDelay ≤ Tracker.calculateHintedCooldown consecutiveFailures serverRetryDelay draw := by
  unfold Tracker.calculateHintedCooldown
  dsimp only
  have hbase : ∀ clientFloor, serverRetryDelay ≤
      max (max serverRetryDelay defaultMinHintedCooldown) clientFloor := fun clientFloor =>
    (le_max_left _ _).trans (le_max_left _ _)
  split_ifs
  · exact hbase _
  · exact (hbase _).trans (Duration.le_saturatingAdd _ _)

/-- The deadline of a cooldown can be represented, or the fallback covers the delay. -/
abbrev DeadlineFits (now : Instant bound) (serverRetryDelay cooldown : Duration) : Prop :=
  (now.checkedAdd cooldown).isSome = true ∨
    (serverRetryDelay ≤ maxOverflowFallbackCooldown ∧
      (now.checkedAdd maxOverflowFallbackCooldown).isSome = true)

theorem le_computeCooldownDeadline {now : Instant bound} {serverRetryDelay cooldown : Duration}
    (hle : serverRetryDelay ≤ cooldown) (hfits : DeadlineFits now serverRetryDelay cooldown) :
    now.1 + serverRetryDelay.1 ≤ (computeCooldownDeadline now cooldown).1 := by
  unfold computeCooldownDeadline
  cases hadd : now.checkedAdd cooldown with
  | some deadline =>
      rw [Option.some_or, Option.getD_some, ← Instant.checkedAdd_eq_some.mp hadd]
      exact Nat.add_le_add_left hle now.1
  | none =>
      rcases hfits with hsome | ⟨hcovers, hsome⟩
      · rw [hadd] at hsome
        cases hsome
      · obtain ⟨deadline, hdeadline⟩ := Option.isSome_iff_exists.mp hsome
        rw [Option.none_or, hdeadline, Option.getD_some,
          ← Instant.checkedAdd_eq_some.mp hdeadline]
        exact Nat.add_le_add_left hcovers now.1

namespace FailureLane

theorem computeCooldownDeadline_le_recordFailure (lane : FailureLane bound) (failures : ℕ)
    (cooldown : Duration) (now : Instant bound) (resetAfter : Duration) :
    computeCooldownDeadline now cooldown ≤
      (lane.recordFailure failures cooldown now resetAfter).cooldownUntil :=
  le_max_right _ _

/-- Within the reset window the deadline never moves back. -/
theorem cooldownUntil_le_recordFailure {lane : FailureLane bound} {now : Instant bound}
    {resetAfter : Duration} (hrecent : isRecent lane.lastFailureAt now resetAfter = true)
    (failures : ℕ) (cooldown : Duration) :
    lane.cooldownUntil ≤ (lane.recordFailure failures cooldown now resetAfter).cooldownUntil := by
  simp only [recordFailure, hrecent, if_true]
  exact le_max_left _ _

end FailureLane

namespace EndpointCooldownState

/-- The overload lane is cooling down until this time at least. -/
def CoolsUntil (state : EndpointCooldownState bound) (deadline : ℕ) : Prop :=
  deadline ≤ state.overload.cooldownUntil.1

variable {state : EndpointCooldownState bound} {deadline : ℕ} {now : Instant bound}

theorem CoolsUntil.overload_isCoolingDown (h : state.CoolsUntil deadline) (hnow : now.1 < deadline) :
    state.overload.isCoolingDown now = true :=
  decide_eq_true (show now.1 < state.overload.cooldownUntil.1 from hnow.trans_le h)

theorem CoolsUntil.isCoolingDown (h : state.CoolsUntil deadline) (hnow : now.1 < deadline) :
    state.isCoolingDown now = true := by
  rw [EndpointCooldownState.isCoolingDown, h.overload_isCoolingDown hnow, Bool.true_or]

theorem CoolsUntil.isIdle (h : state.CoolsUntil deadline) (hnow : now.1 < deadline)
    (resetAfter : Duration) : state.isIdle now resetAfter = false := by
  rw [EndpointCooldownState.isIdle, FailureLane.isIdle, if_pos (h.overload_isCoolingDown hnow),
    Bool.false_and]

/-- Successes repair failure tiers, never deadlines. -/
theorem CoolsUntil.recordSuccess (h : state.CoolsUntil deadline) :
    state.recordSuccess.2.CoolsUntil deadline := by
  unfold EndpointCooldownState.recordSuccess
  dsimp only
  split_ifs <;> exact h

/-- A lane that is cooling down leaves a cooldown to apply. -/
theorem CoolsUntil.effectiveCooldown (h : state.CoolsUntil deadline) (hnow : now.1 < deadline) :
    Tracker.effectiveCooldown state now ≠ Duration.zero := by
  refine Instant.saturatingDurationSince_ne_zero (lt_of_lt_of_le ?_ (le_max_left _ _))
  exact show now.1 < state.overload.cooldownUntil.1 from hnow.trans_le h

end EndpointCooldownState

namespace Tracker

/-! ## The entry count -/

/-- The count that the fast paths read is the number of entries. -/
def Counted (tracker : Tracker bound) : Prop :=
  tracker.trackedEntryCount = HashMap.size tracker.state

theorem withOptions_counted {initialCooldown maxCooldown resetAfter : Duration} :
    Counted (withOptions initialCooldown maxCooldown resetAfter : Tracker bound) :=
  rfl

variable {tracker : Tracker bound} {endpoint : String} {now : Instant bound}

theorem setEntry_counted (h : Counted tracker) {entry : EndpointCooldownState bound}
    (hlookup : tracker.state.lookup endpoint = some entry) (entry' : EndpointCooldownState bound) :
    Counted (tracker.setEntry endpoint entry') :=
  h.trans (HashMap.size_insert_of_mem (Finmap.mem_of_lookup_eq_some hlookup)).symm

theorem pruneIdle_counted (h : Counted tracker) (endpoint : String) (now : Instant bound) :
    Counted (tracker.pruneIdle endpoint now).2 := by
  unfold pruneIdle
  split
  · exact h
  · split_ifs
    · exact h
    · rfl
    · exact h

theorem isCoolingDownAt_counted (h : Counted tracker) (endpoint : String) (now : Instant bound) :
    Counted (tracker.isCoolingDownAt endpoint now).2 := by
  unfold isCoolingDownAt
  split_ifs
  · exact h
  · split
    · exact h
    · split_ifs
      · exact h
      · exact h
      · exact pruneIdle_counted h endpoint now

theorem recordSuccessAt_counted (h : Counted tracker) (endpoint : String) (now : Instant bound) :
    Counted (tracker.recordSuccessAt endpoint now) := by
  unfold recordSuccessAt
  split_ifs
  · exact h
  · split
    · exact h
    · rename_i entry hlookup
      split_ifs
      · rfl
      · dsimp only
        split_ifs
        · rfl
        · exact setEntry_counted h hlookup _

/-! ## Failures -/

/-- The state a failure is applied to. -/
def failureState (tracker : Tracker bound) (endpoint : String) (now : Instant bound) :
    EndpointCooldownState bound :=
  match tracker.state.lookup endpoint with
  | some existing => if existing.isIdle now tracker.resetAfter then .empty now else existing
  | none => .empty now

/-- A failure stores the new state if there is a cooldown to apply. -/
theorem recordFailureInternal_spec (tracker : Tracker bound) {endpoint : String}
    (hendpoint : endpoint ≠ "") (statusCode : Code) (serverRetryDelay : Option Duration)
    (now : Instant bound) (draw : ℕ) :
    let applied :=
      tracker.applyFailure (tracker.failureState endpoint now) statusCode serverRetryDelay now draw
    let tracker' :=
      (tracker.recordFailureInternal endpoint statusCode serverRetryDelay now draw).2
    (Counted tracker → Counted tracker') ∧
      tracker'.state =
        if applied.1 ≠ .zero then tracker.state.insert endpoint applied.2 else tracker.state := by
  unfold recordFailureInternal failureState
  rw [if_neg hendpoint]
  cases hlookup : tracker.state.lookup endpoint with
  | some existing =>
      dsimp only
      split_ifs
      · exact ⟨fun h => setEntry_counted h hlookup _, rfl⟩
      · exact ⟨id, rfl⟩
      · exact ⟨fun h => setEntry_counted h hlookup _, rfl⟩
      · exact ⟨id, rfl⟩
  | none =>
      dsimp only
      split_ifs
      · exact ⟨fun _ => rfl, rfl⟩
      · exact ⟨id, rfl⟩

theorem recordErrorWithDelayAt_counted (h : Counted tracker) (endpoint : String)
    (statusCode : Code) (serverRetryDelay : Option Duration) (now : Instant bound) (draw : ℕ) :
    Counted
      (tracker.recordErrorWithDelayAt endpoint statusCode serverRetryDelay now draw).2 := by
  unfold recordErrorWithDelayAt
  split_ifs with hendpoint
  · exact h
  · split
    · exact (recordFailureInternal_spec tracker hendpoint _ _ _ _).1 h
    · exact (recordFailureInternal_spec tracker hendpoint _ _ _ _).1 h
    · exact h

theorem step_counted (h : Counted tracker) (call : Call bound) : Counted (tracker.step call) := by
  cases call with
  | recordErrorWithDelay endpoint statusCode serverRetryDelay now draw =>
      exact recordErrorWithDelayAt_counted h endpoint statusCode serverRetryDelay now draw
  | recordSuccess endpoint now => exact recordSuccessAt_counted h endpoint now
  | isCoolingDown endpoint now => exact isCoolingDownAt_counted h endpoint now

theorem run_counted (h : Counted tracker) (calls : List (Call bound)) :
    Counted (tracker.run calls) :=
  List.foldlRecOn (motive := Counted) calls step h fun _ hcounted call _ =>
    step_counted hcounted call

/-! ## Cooling down -/

/-- The endpoint is on overload cooldown until this time at least. -/
def CoolsUntil (tracker : Tracker bound) (endpoint : String) (deadline : ℕ) : Prop :=
  ∃ entry, tracker.state.lookup endpoint = some entry ∧ entry.CoolsUntil deadline

variable {deadline : ℕ}

theorem CoolsUntil.isCoolingDownAt (h : tracker.CoolsUntil endpoint deadline)
    (hcounted : Counted tracker) (hendpoint : endpoint ≠ "") (hnow : now.1 < deadline) :
    tracker.isCoolingDownAt endpoint now = (true, tracker) := by
  obtain ⟨entry, hlookup, hcools⟩ := h
  have hcount : tracker.trackedEntryCount ≠ 0 := by
    have hmem := Finmap.mem_keys.mpr (Finmap.mem_of_lookup_eq_some hlookup)
    rw [hcounted]
    exact Finset.card_ne_zero_of_mem hmem
  rw [Tracker.isCoolingDownAt, if_neg (by simp [hendpoint, hcount]), hlookup]
  dsimp only
  rw [if_pos (hcools.isCoolingDown hnow)]

theorem CoolsUntil.of_lookup_eq {tracker' : Tracker bound}
    (h : tracker.CoolsUntil endpoint deadline)
    (heq : tracker'.state.lookup endpoint = tracker.state.lookup endpoint) :
    tracker'.CoolsUntil endpoint deadline := by
  obtain ⟨entry, hlookup, hcools⟩ := h
  exact ⟨entry, heq.trans hlookup, hcools⟩

/-- No overload failure of the endpoint arrives while it is cooling down and yet after the
reset window of its last one. -/
def KeepsDeadline (endpoint : String) (tracker : Tracker bound) : Call bound → Prop
  | .recordErrorWithDelay other .resourceExhausted _ now _ =>
      other = endpoint →
        ∀ entry ∈ tracker.state.lookup endpoint, entry.overload.isCoolingDown now = true →
          isRecent entry.overload.lastFailureAt now tracker.resetAfter = true
  | _ => True

/-- Every step of the run meets the condition in the state it is made in. -/
def RunKeepsDeadline (endpoint : String) (tracker : Tracker bound) : List (Call bound) → Prop
  | [] => True
  | call :: calls =>
      KeepsDeadline endpoint tracker call ∧ RunKeepsDeadline endpoint (tracker.step call) calls

/-- The failure of an endpoint that was asked to wait sets a deadline that fits. -/
abbrev HintFits (tracker : Tracker bound) (endpoint : String) (delay : Duration)
    (now : Instant bound) (draw : ℕ) : Prop :=
  DeadlineFits now delay (calculateHintedCooldown
    ((tracker.failureState endpoint now).overload.nextFailureTier now tracker.resetAfter)
    delay draw)

/-- A failure keeps the deadline of an overload lane that failed recently. -/
theorem applyFailure_coolsUntil {state : EndpointCooldownState bound}
    (h : state.CoolsUntil deadline) (hnow : now.1 < deadline) {statusCode : Code}
    (hcode : statusCode = .resourceExhausted ∨ statusCode = .unavailable)
    (hrecent : statusCode = .resourceExhausted →
      isRecent state.overload.lastFailureAt now tracker.resetAfter = true)
    (serverRetryDelay : Option Duration) (draw : ℕ) :
    let applied := tracker.applyFailure state statusCode serverRetryDelay now draw
    applied.1 ≠ .zero ∧ applied.2.CoolsUntil deadline := by
  rcases hcode with rfl | rfl
  · have hcools : EndpointCooldownState.CoolsUntil
        (tracker.applyFailure state .resourceExhausted serverRetryDelay now draw).2 deadline :=
      le_trans h (FailureLane.cooldownUntil_le_recordFailure (hrecent rfl) _ _)
    exact ⟨hcools.effectiveCooldown hnow, hcools⟩
  · have hcools : EndpointCooldownState.CoolsUntil
        (tracker.applyFailure state .unavailable serverRetryDelay now draw).2 deadline := h
    exact ⟨hcools.effectiveCooldown hnow, hcools⟩

theorem failureState_of_coolsUntil {entry : EndpointCooldownState bound}
    (hlookup : tracker.state.lookup endpoint = some entry) (hcools : entry.CoolsUntil deadline)
    (hnow : now.1 < deadline) : tracker.failureState endpoint now = entry := by
  rw [failureState, hlookup]
  dsimp only
  rw [if_neg (by simp [hcools.isIdle hnow])]

theorem recordFailureInternal_coolsUntil (h : tracker.CoolsUntil endpoint deadline)
    (hnow : now.1 < deadline) {other : String} (hother : other ≠ "") {statusCode : Code}
    (hcode : statusCode = .resourceExhausted ∨ statusCode = .unavailable)
    (serverRetryDelay : Option Duration) (draw : ℕ)
    (hkeeps : statusCode = .resourceExhausted →
      KeepsDeadline endpoint tracker
        (.recordErrorWithDelay other statusCode serverRetryDelay now draw)) :
    (tracker.recordFailureInternal other statusCode serverRetryDelay now draw).2.CoolsUntil
      endpoint deadline := by
  obtain ⟨-, hstate⟩ := recordFailureInternal_spec tracker hother statusCode serverRetryDelay now
    draw
  by_cases hself : other = endpoint
  · subst hself
    obtain ⟨entry, hlookup, hcools⟩ := h
    rw [failureState_of_coolsUntil hlookup hcools hnow] at hstate
    obtain ⟨happlied, hcools'⟩ := applyFailure_coolsUntil hcools hnow hcode
      (fun heq => by
        have hstep := hkeeps heq
        subst heq
        exact hstep rfl entry hlookup (hcools.overload_isCoolingDown hnow))
      serverRetryDelay draw
    rw [if_pos happlied] at hstate
    refine ⟨_, ?_, hcools'⟩
    rw [hstate]
    exact Finmap.lookup_insert _
  · refine h.of_lookup_eq ?_
    rw [hstate]
    split_ifs
    · exact Finmap.lookup_insert_of_ne _ (Ne.symm hself)
    · rfl

theorem recordErrorWithDelayAt_coolsUntil (h : tracker.CoolsUntil endpoint deadline)
    (hnow : now.1 < deadline) (other : String) (statusCode : Code)
    (serverRetryDelay : Option Duration) (draw : ℕ)
    (hkeeps : KeepsDeadline endpoint tracker
      (.recordErrorWithDelay other statusCode serverRetryDelay now draw)) :
    (tracker.recordErrorWithDelayAt other statusCode serverRetryDelay now draw).2.CoolsUntil
      endpoint deadline := by
  unfold recordErrorWithDelayAt
  split_ifs with hother
  · exact h
  · split
    · exact recordFailureInternal_coolsUntil h hnow hother (.inl rfl) _ _ fun _ => hkeeps
    · exact recordFailureInternal_coolsUntil h hnow hother (.inr rfl) _ _ nofun
    · exact h

theorem recordSuccessAt_coolsUntil (h : tracker.CoolsUntil endpoint deadline)
    (hnow : now.1 < deadline) (other : String) :
    (tracker.recordSuccessAt other now).CoolsUntil endpoint deadline := by
  unfold recordSuccessAt
  split_ifs
  · exact h
  · by_cases hself : other = endpoint
    · subst hself
      obtain ⟨entry, hlookup, hcools⟩ := h
      have hcools' := hcools.recordSuccess
      rw [hlookup]
      dsimp only
      rw [if_neg (by simp [hcools.isIdle hnow])]
      rw [if_neg (by simp [hcools'.isIdle hnow])]
      exact ⟨_, Finmap.lookup_insert _, hcools'⟩
    · cases tracker.state.lookup other with
      | none => exact h
      | some entry =>
          dsimp only
          split_ifs
          · exact h.of_lookup_eq (Finmap.lookup_erase_ne (Ne.symm hself))
          · refine h.of_lookup_eq ?_
            exact (Finmap.lookup_erase_ne (Ne.symm hself)).trans
              (Finmap.lookup_insert_of_ne _ (Ne.symm hself))
          · exact h.of_lookup_eq (Finmap.lookup_insert_of_ne _ (Ne.symm hself))

theorem pruneIdle_coolsUntil (h : tracker.CoolsUntil endpoint deadline) (hnow : now.1 < deadline)
    (other : String) : (tracker.pruneIdle other now).2.CoolsUntil endpoint deadline := by
  unfold pruneIdle
  by_cases hself : other = endpoint
  · subst hself
    obtain ⟨entry, hlookup, hcools⟩ := h
    rw [hlookup]
    dsimp only
    rw [if_pos (hcools.isCoolingDown hnow)]
    exact ⟨entry, hlookup, hcools⟩
  · split
    · exact h
    · split_ifs
      · exact h
      · exact h.of_lookup_eq (Finmap.lookup_erase_ne (Ne.symm hself))
      · exact h

theorem isCoolingDownAt_coolsUntil (h : tracker.CoolsUntil endpoint deadline)
    (hnow : now.1 < deadline) (other : String) :
    (tracker.isCoolingDownAt other now).2.CoolsUntil endpoint deadline := by
  unfold Tracker.isCoolingDownAt
  split_ifs
  · exact h
  · split
    · exact h
    · split_ifs
      · exact h
      · exact h
      · exact pruneIdle_coolsUntil h hnow other

/-- Before the deadline a step that meets the condition keeps the endpoint cooling. -/
theorem step_coolsUntil (h : tracker.CoolsUntil endpoint deadline) {call : Call bound}
    (hnow : call.now.1 < deadline) (hkeeps : KeepsDeadline endpoint tracker call) :
    (tracker.step call).CoolsUntil endpoint deadline := by
  cases call with
  | recordErrorWithDelay other statusCode serverRetryDelay now draw =>
      exact recordErrorWithDelayAt_coolsUntil h hnow other statusCode serverRetryDelay draw hkeeps
  | recordSuccess other now => exact recordSuccessAt_coolsUntil h hnow other
  | isCoolingDown other now => exact isCoolingDownAt_coolsUntil h hnow other

theorem run_coolsUntil (h : tracker.CoolsUntil endpoint deadline) {calls : List (Call bound)}
    (hnow : ∀ call ∈ calls, call.now.1 < deadline)
    (hkeeps : RunKeepsDeadline endpoint tracker calls) :
    (tracker.run calls).CoolsUntil endpoint deadline := by
  induction calls generalizing tracker with
  | nil => exact h
  | cons call calls ih =>
      exact ih (step_coolsUntil h (hnow call (by simp)) hkeeps.1)
        (fun call hcall => hnow call (by simp [hcall])) hkeeps.2

/-- A hinted overload failure starts a cooldown of the requested delay. -/
theorem hinted_coolsUntil (tracker : Tracker bound) (hendpoint : endpoint ≠ "")
    {delay : Duration} (hdelay : 0 < delay.1) (now : Instant bound) (draw : ℕ)
    (hfits : HintFits tracker endpoint delay now draw) :
    (tracker.recordErrorWithDelayAt endpoint .resourceExhausted (some delay) now
      draw).2.CoolsUntil endpoint (now.1 + delay.1) := by
  have hcools : EndpointCooldownState.CoolsUntil (tracker.applyFailure
      (tracker.failureState endpoint now) .resourceExhausted (some delay) now draw).2
      (now.1 + delay.1) :=
    (le_computeCooldownDeadline (le_calculateHintedCooldown _ delay draw) hfits).trans
      (FailureLane.computeCooldownDeadline_le_recordFailure ..)
  obtain ⟨-, hstate⟩ := recordFailureInternal_spec tracker hendpoint .resourceExhausted
    (some delay) now draw
  have happlied : (tracker.applyFailure (tracker.failureState endpoint now) .resourceExhausted
      (some delay) now draw).1 ≠ .zero :=
    hcools.effectiveCooldown (by omega)
  rw [if_pos happlied] at hstate
  unfold recordErrorWithDelayAt
  rw [if_neg hendpoint]
  refine ⟨_, ?_, hcools⟩
  dsimp only
  rw [hstate]
  exact Finmap.lookup_insert _

/-! ## Runs -/

/-- The server asks to wait. -/
abbrev hintedFailure (endpoint : String) (delay : Duration) (now : Instant bound) (draw : ℕ) :
    Call bound :=
  .recordErrorWithDelay endpoint .resourceExhausted (some delay) now draw

/-- The clock does not go back. -/
def Timely (calls : List (Call bound)) : Prop :=
  calls.Pairwise fun call call' => call.now ≤ call'.now

/-- In every run whose later steps meet the condition, an endpoint that was asked to wait
is cooling down at every query before the delay is over. -/
theorem run_honours_delay (initialCooldown maxCooldown resetAfter : Duration)
    (before between : List (Call bound)) (endpoint : String) (delay : Duration)
    (now later : Instant bound) (draw : ℕ) (hendpoint : endpoint ≠ "")
    (htimely : Timely (before ++ hintedFailure endpoint delay now draw :: between ++
      [.isCoolingDown endpoint later]))
    (hlater : later.1 < now.1 + delay.1)
    (hfits : HintFits ((withOptions initialCooldown maxCooldown resetAfter).run before) endpoint
      delay now draw)
    (hkeeps : RunKeepsDeadline endpoint (((withOptions initialCooldown maxCooldown
      resetAfter).run before).step (hintedFailure endpoint delay now draw)) between) :
    (((withOptions initialCooldown maxCooldown resetAfter).run
      (before ++ hintedFailure endpoint delay now draw :: between)).isCoolingDownAt
        endpoint later).1 = true := by
  have hle : ∀ call ∈ before ++ hintedFailure endpoint delay now draw :: between,
      call.now ≤ later := fun call hcall =>
    (List.pairwise_append.mp htimely).2.2 call hcall _ (List.mem_singleton_self _)
  have hnow : now.1 ≤ later.1 := hle (hintedFailure endpoint delay now draw) (by simp)
  have hstart := hinted_coolsUntil _ hendpoint (by omega) now draw hfits
  have hcools := run_coolsUntil hstart
    (fun call hcall => lt_of_le_of_lt (hle call (by simp [hcall])) hlater) hkeeps
  have hrun : (withOptions initialCooldown maxCooldown resetAfter).run
      (before ++ hintedFailure endpoint delay now draw :: between) =
      (((withOptions initialCooldown maxCooldown resetAfter).run before).step
        (hintedFailure endpoint delay now draw)).run between := by
    rw [run, List.foldl_append]
    rfl
  have hcounted : Counted ((withOptions initialCooldown maxCooldown resetAfter).run
      (before ++ hintedFailure endpoint delay now draw :: between)) :=
    run_counted withOptions_counted _
  rw [hrun] at hcounted ⊢
  exact congrArg Prod.fst (hcools.isCoolingDownAt hcounted hendpoint hlater)

/-- The last instant of a clock with signed 64-bit seconds. -/
def lastInstant : ℕ := (2 ^ 63 - 1) * 10 ^ 9 + 999999999

def atSecs (secs : ℕ) : Instant lastInstant :=
  ⟨min (secs * 10 ^ 9) lastInstant, min_le_right (secs * 10 ^ 9) lastInstant⟩

/-- Failures of both kinds and a success within the delay. -/
theorem run_honours_delay_busy :
    ((new.run ([.recordSuccess "a" (atSecs 0)] ++
      hintedFailure "a" (.fromSecs 1000) (atSecs 0) 7 ::
        [.recordErrorWithDelay "a" .unavailable none (atSecs 5) 0, .recordSuccess "a" (atSecs 6),
          .recordErrorWithDelay "a" .resourceExhausted none (atSecs 500) 3])).isCoolingDownAt
      "a" (atSecs 900)).1 = true := by
  refine run_honours_delay defaultInitialCooldown defaultMaxCooldown defaultResetAfter _ _ "a"
    (.fromSecs 1000) (atSecs 0) (atSecs 900) 7 (by decide) ?_ (by decide) (by decide) ?_
  · unfold Timely
    decide
  · exact ⟨trivial, trivial, fun _ => by decide, trivial⟩

/-- A failure after the reset window forgets the delay that the server asked for. -/
theorem run_forgets_delay :
    let calls := [hintedFailure "a" (.fromSecs 1000) (atSecs 0) 0,
      .recordErrorWithDelay "a" .resourceExhausted none (atSecs 700) 0]
    Timely (calls ++ [.isCoolingDown "a" (atSecs 800)]) ∧
      ((atSecs 0).checkedAdd (.fromSecs 1000)).isSome = true ∧
      (atSecs 800).1 < (atSecs 0).1 + (Duration.fromSecs 1000).1 ∧
      ((new.run calls).isCoolingDownAt "a" (atSecs 800)).1 = false := by
  refine ⟨?_, by decide, by decide, by decide⟩
  unfold Timely
  decide

-- Close to the last instant the jitter makes the deadline overflow, and the fallback is
-- shorter than the delay.
example :
    let now := atSecs (2 ^ 63 - 1001)
    (now.checkedAdd (.fromMillis 1000900)).isSome = true ∧
      ((new.run [hintedFailure "a" (.fromMillis 1000900) now 500]).isCoolingDownAt "a"
        (atSecs (2 ^ 63 - 201))).1 = false := by
  decide

end Tracker

end GoogleCloudRust.EndpointCooldown
