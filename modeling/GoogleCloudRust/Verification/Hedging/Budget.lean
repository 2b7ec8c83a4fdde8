import GoogleCloudRust.Verification.Hedging.Winner

/-! # Hedged publishing has a bounded budget

Deadlines are a delay after a clock that does not go back, so that the queue stays sorted. A
hedged attempt takes a token, and only a batch that succeeds brings one. -/

namespace GoogleCloudRust.Publisher

/-! ## The token bucket -/

namespace TokenBucket

variable {bucket next : TokenBucket}

theorem tryAcquire_spec (h : bucket.tryAcquire = some next) :
    next.tokens + 1000 = bucket.tokens ∧ next.maxScaledTokens = bucket.maxScaledTokens ∧
      next.refillAmount = bucket.refillAmount := by
  by_cases hfull : bucket.tokens ≥ scale
  · rw [tryAcquire, if_pos hfull] at h
    obtain rfl := Option.some.inj h
    exact ⟨Nat.sub_add_cancel hfull, rfl, rfl⟩
  · rw [tryAcquire, if_neg hfull] at h
    cases h

theorem refill_spec (bucket : TokenBucket) :
    bucket.refill.tokens ≤ bucket.tokens + bucket.refillAmount ∧
      (bucket.tokens ≤ bucket.maxScaledTokens → bucket.refill.tokens ≤ bucket.maxScaledTokens) ∧
      bucket.refill.maxScaledTokens = bucket.maxScaledTokens ∧
      bucket.refill.refillAmount = bucket.refillAmount := by
  unfold refill
  split_ifs with hfull
  · exact ⟨Nat.le_add_right _ _, id, rfl, rfl⟩
  · refine ⟨?_, fun _ => Nat.min_le_right _ _, rfl, rfl⟩
    exact (Nat.min_le_left _ _).trans (Nat.min_le_left _ _)

end TokenBucket

/-! ## The queue and the timer -/

/-- The clock that `handle_expired_hedges` has read. -/
def SchedulerPhase.now? : SchedulerPhase → Option ℕ
  | expiring now | checking now _ | acquiring now _ | spawning now _ => some now
  | waiting | ended => none

namespace HedgingScheduler

variable {scheduler : HedgingScheduler}

structure Scheduled (scheduler : HedgingScheduler) : Prop where
  sorted : scheduler.queue.Pairwise fun item later => item.deadline ≤ later.deadline
  horizon : ∀ item ∈ scheduler.queue,
    item.deadline ≤ (scheduler.phase.now?.getD scheduler.now) + scheduler.delay
  inside : ∀ now, scheduler.phase.now? = some now → now ≤ scheduler.now ∧
    ∃ deadline, scheduler.timer = some deadline ∧ deadline ≤ now ∧
      ∀ item ∈ scheduler.queue, deadline ≤ item.deadline
  waiting : scheduler.phase = .waiting →
    scheduler.timer = scheduler.queue.head?.map HedgeItem.deadline
  ended : scheduler.phase = .ended → scheduler.queue = []

/-- A deadline beyond the horizon goes to the back. -/
theorem pairwise_concat {queue : List HedgeItem} {item : HedgeItem}
    (h : queue.Pairwise fun item later => item.deadline ≤ later.deadline)
    (hhorizon : ∀ earlier ∈ queue, earlier.deadline ≤ item.deadline) :
    (queue ++ [item]).Pairwise fun item later => item.deadline ≤ later.deadline := by
  refine List.pairwise_append.mpr ⟨h, List.pairwise_singleton _ _, ?_⟩
  intro earlier hearlier last hlast
  rw [List.mem_singleton.mp hlast]
  exact hhorizon earlier hearlier

theorem Scheduled.receive (h : Scheduled scheduler) (hphase : scheduler.phase = .waiting)
    (batch : ℕ) (rx : List ℕ) : Scheduled ({ scheduler with rx := rx }.handleNewBatch batch) := by
  have hhorizon : ∀ item ∈ scheduler.queue, item.deadline ≤ scheduler.now + scheduler.delay := by
    simpa [hphase, SchedulerPhase.now?] using h.horizon
  refine ⟨pairwise_concat h.sorted hhorizon, ?_, ?_, fun _ => ?_, ?_⟩
  · simp only [handleNewBatch, hphase, SchedulerPhase.now?, Option.getD_none, List.mem_append,
      List.mem_singleton]
    rintro item (hold | rfl)
    · exact hhorizon item hold
    · exact le_rfl
  · simp [handleNewBatch, hphase, SchedulerPhase.now?]
  · have htimer := h.waiting hphase
    cases hqueue : scheduler.queue with
    | nil => simp [handleNewBatch, htimer, hqueue]
    | cons item queue => simp [handleNewBatch, htimer, hqueue]
  · simp [handleNewBatch, hphase]

theorem Scheduled.expire (h : Scheduled scheduler) (hphase : scheduler.phase = .waiting)
    {deadline : ℕ} (htimer : scheduler.timer = some deadline) (hexpired : deadline ≤ scheduler.now) :
    Scheduled { scheduler with phase := .expiring scheduler.now } := by
  refine ⟨h.sorted, ?_, ?_, by simp, by simp⟩
  · simpa [hphase, SchedulerPhase.now?] using h.horizon
  · intro now hnow
    cases hnow
    refine ⟨le_rfl, deadline, htimer, hexpired, ?_⟩
    have hfront := h.waiting hphase
    have hsorted := h.sorted
    rw [htimer] at hfront
    cases hqueue : scheduler.queue with
    | nil => simp
    | cons front queue =>
        rw [hqueue] at hfront hsorted
        cases hfront
        rintro item hitem
        obtain rfl | hitem := List.mem_cons.mp hitem
        · exact le_rfl
        · exact (List.pairwise_cons.mp hsorted).1 item hitem

theorem Scheduled.pop (h : Scheduled scheduler) {now : ℕ} (hphase : scheduler.phase = .expiring now)
    {item : HedgeItem} {queue : List HedgeItem} (hqueue : scheduler.queue = item :: queue) :
    Scheduled { scheduler with queue := queue, phase := .checking now item } := by
  have hsub : ∀ other ∈ queue, other ∈ scheduler.queue := by
    simp +contextual [hqueue]
  have hsorted := h.sorted
  rw [hqueue] at hsorted
  refine ⟨(List.pairwise_cons.mp hsorted).2, ?_, ?_, by simp, by simp⟩
  · intro other hother
    simpa [hphase, SchedulerPhase.now?] using h.horizon other (hsub other hother)
  · intro current hcurrent
    cases hcurrent
    obtain ⟨hle, deadline, htimer, hexpired, hall⟩ := h.inside now (by simp [hphase, SchedulerPhase.now?])
    exact ⟨hle, deadline, htimer, hexpired, fun other hother => hall other (hsub other hother)⟩

/-- The scheduler goes on with the same clock. -/
theorem Scheduled.continue (h : Scheduled scheduler) (now : ℕ)
    (hnow : scheduler.phase.now? = some now) {phase : SchedulerPhase} (hphase : phase.now? = some now)
    (bucket : TokenBucket) : Scheduled { scheduler with tokenBucket := bucket, phase := phase } := by
  refine ⟨h.sorted, ?_, ?_, ?_, ?_⟩
  · simpa [hnow, hphase] using h.horizon
  · simpa [hnow, hphase] using h.inside
  · rintro rfl
    cases hphase
  · rintro rfl
    cases hphase

theorem Scheduled.spawn (h : Scheduled scheduler) {now : ℕ} {item : HedgeItem}
    (hphase : scheduler.phase = .spawning now item) (attempts : List Attempt) :
    Scheduled { scheduler with
      attempts := attempts
      queue := scheduler.queue ++ [⟨item.batch, now + scheduler.delay, item.attemptCount + 1⟩]
      phase := .expiring now } := by
  have hhorizon : ∀ other ∈ scheduler.queue, other.deadline ≤ now + scheduler.delay := by
    simpa [hphase, SchedulerPhase.now?] using h.horizon
  obtain ⟨hle, deadline, htimer, hexpired, hall⟩ := h.inside now (by simp [hphase, SchedulerPhase.now?])
  refine ⟨pairwise_concat h.sorted hhorizon, ?_, ?_, by simp, by simp⟩
  · simp only [SchedulerPhase.now?, Option.getD_some, List.mem_append, List.mem_singleton]
    rintro other (hold | rfl)
    · exact hhorizon other hold
    · exact le_rfl
  · intro current hcurrent
    cases hcurrent
    refine ⟨hle, deadline, htimer, hexpired, ?_⟩
    simp only [List.mem_append, List.mem_singleton]
    rintro other (hold | rfl)
    · exact hall other hold
    · exact hexpired.trans (Nat.le_add_right _ _)

theorem Scheduled.step (h : Scheduled scheduler) (event : Event) :
    Scheduled (scheduler.step event) := by
  have hstepped := stepped scheduler event
  generalize scheduler.step event = next at hstepped ⊢
  cases hstepped with
  | idle duration closed =>
      refine ⟨h.sorted, fun item hitem => ?_, fun now hnow => ?_, h.waiting, h.ended⟩
      · have hle := h.horizon item hitem
        cases hnow : scheduler.phase.now? with
        | none =>
            simp only [hnow, Option.getD_none] at hle ⊢
            omega
        | some now => simpa only [hnow, Option.getD_some] using hle
      · obtain ⟨hle, hdeadline⟩ := h.inside now hnow
        exact ⟨hle.trans (Nat.le_add_right _ _), hdeadline⟩
  | receive hphase batch rx => exact h.receive hphase batch rx
  | ended hphase => exact ⟨.nil, by simp, by simp [SchedulerPhase.now?], by simp, by simp⟩
  | expire hphase deadline htimer hexpired => exact h.expire hphase htimer hexpired
  | pop now hphase item queue hqueue => exact h.pop hphase hqueue
  | rearm now hphase timer htimer =>
      obtain ⟨hle, -⟩ := h.inside now (by simp [hphase, SchedulerPhase.now?])
      refine ⟨h.sorted, fun item hitem => ?_, by simp [SchedulerPhase.now?], fun _ => htimer, by simp⟩
      have hhorizon := h.horizon item hitem
      simp only [hphase, SchedulerPhase.now?, Option.getD_some, Option.getD_none] at hhorizon ⊢
      omega
  | discard now item hphase =>
      refine h.continue now ?_ rfl _
      obtain hphase | hphase := hphase
      · simp [hphase, SchedulerPhase.now?]
      · simp [hphase, SchedulerPhase.now?]
  | keep now item hphase =>
      exact h.continue now (by simp [hphase, SchedulerPhase.now?]) rfl _
  | acquire now item hphase bucket hbucket =>
      exact h.continue now (by simp [hphase, SchedulerPhase.now?]) rfl _
  | spawn now item hphase => exact h.spawn hphase _
  | complete index attempt hattempt state hstate txs htxs resp hresp =>
      rw [complete_eq (scheduler.setPhase index attempt .finished) hstate htxs]
      exact ⟨h.sorted, h.horizon, h.inside, h.waiting, h.ended⟩
  | dispatch | move => exact ⟨h.sorted, h.horizon, h.inside, h.waiting, h.ended⟩

/-! ## Hedged attempts -/

def hedged (scheduler : HedgingScheduler) : ℕ :=
  scheduler.attempts.countP fun attempt => attempt.attemptCount ≠ 0

def succeeded (scheduler : HedgingScheduler) : ℕ :=
  scheduler.resolutions.countP fun resolution => resolution.outcome = .ok

/-- The items that may become attempts. -/
def items (scheduler : HedgingScheduler) : List HedgeItem :=
  match scheduler.phase with
  | .checking _ item | .acquiring _ item | .spawning _ item => item :: scheduler.queue
  | _ => scheduler.queue

/-- A token was taken for an attempt that has not been spawned. -/
def reserved (scheduler : HedgingScheduler) : ℕ :=
  match scheduler.phase with
  | .spawning _ _ => 1
  | _ => 0

structure Funded (options : HedgingOptions) (scheduler : HedgingScheduler) : Prop where
  amount : scheduler.tokenBucket.refillAmount = options.refillAmount
  level : scheduler.tokenBucket.tokens ≤ scheduler.tokenBucket.maxScaledTokens
  budget : scheduler.tokenBucket.tokens + 1000 * (scheduler.hedged + scheduler.reserved) ≤
    options.refillAmount * scheduler.succeeded
  counts : ∀ item ∈ scheduler.items, item.attemptCount ≠ 0
  initial : (scheduler.attempts.countP fun attempt => attempt.attemptCount = 0) =
    scheduler.batches.length

variable {options : HedgingOptions}

/-- An attempt that goes on is counted as before. -/
theorem countP_setPhase {index : ℕ} {attempt : Attempt}
    (hattempt : scheduler.attempts[index]? = some attempt) (phase : AttemptPhase) (p : ℕ → Bool) :
    ((scheduler.setPhase index attempt phase).attempts.countP fun attempt => p attempt.attemptCount) =
      scheduler.attempts.countP fun attempt => p attempt.attemptCount := by
  obtain ⟨hindex, rfl⟩ := List.getElem?_eq_some_iff.mp hattempt
  rw [setPhase, List.countP_set hindex]
  have hpos : (if p scheduler.attempts[index].attemptCount = true then 1 else 0) ≤
      scheduler.attempts.countP fun attempt => p attempt.attemptCount := by
    split_ifs with hp
    · exact List.countP_pos_iff.mpr ⟨_, List.getElem_mem hindex, hp⟩
    · exact Nat.zero_le _
  simp only
  omega

theorem Funded.setPhase (h : Funded options scheduler) {index : ℕ} {attempt : Attempt}
    (hattempt : scheduler.attempts[index]? = some attempt) (phase : AttemptPhase) :
    Funded options (scheduler.setPhase index attempt phase) := by
  refine ⟨h.amount, h.level, ?_, h.counts, ?_⟩
  · have hcount : (scheduler.setPhase index attempt phase).hedged = scheduler.hedged :=
      countP_setPhase hattempt phase fun count => count ≠ 0
    rw [hcount]
    exact h.budget
  · exact (countP_setPhase hattempt phase fun count => count = 0).trans h.initial

/-- A batch that succeeds brings at most the refill amount. -/
theorem Funded.complete (h : Funded options scheduler) {index batch : ℕ} {state : BatchState}
    (hstate : scheduler.batches[batch]? = some state) {txs : List BundledMessage}
    (htxs : state.txs = some txs) (resp : Response) :
    Funded options (scheduler.complete index batch resp) := by
  obtain ⟨htokens, hlevel, hmax, hamount⟩ := TokenBucket.refill_spec scheduler.tokenBucket
  have hbudget := h.budget
  have hlength (state : BatchState) :
      (scheduler.batches.set batch state).length = scheduler.batches.length := List.length_set
  rw [complete_eq scheduler hstate htxs]
  cases resp with
  | ok messageIds =>
      refine ⟨hamount.trans h.amount, hmax ▸ hlevel h.level, ?_, h.counts, h.initial.trans
        (hlength _).symm⟩
      rw [h.amount] at htokens
      simp only [succeeded, batchResolvePublishFutures, List.countP_append, List.countP_singleton,
        decide_true, if_true, Nat.mul_add, Nat.mul_one, hedged, reserved] at hbudget ⊢
      omega
  | err error | panic =>
      refine ⟨h.amount, h.level, ?_, h.counts, h.initial.trans (hlength _).symm⟩
      simpa [succeeded, batchResolvePublishFutures, hedged, reserved] using hbudget

/-- What the scheduler does changes no count. -/
theorem Funded.of_eq (h : Funded options scheduler) {next : HedgingScheduler}
    (hbucket : next.tokenBucket = scheduler.tokenBucket) (hattempts : next.attempts = scheduler.attempts)
    (hbatches : next.batches = scheduler.batches) (hresolutions : next.resolutions = scheduler.resolutions)
    (hreserved : next.reserved = scheduler.reserved)
    (hitems : ∀ item ∈ next.items, item ∈ scheduler.items ∨ item.attemptCount ≠ 0) :
    Funded options next := by
  refine ⟨?_, ?_, ?_, fun item hitem => ?_, ?_⟩
  · rw [hbucket]
    exact h.amount
  · rw [hbucket]
    exact h.level
  · rw [hbucket, hedged, hattempts, hreserved, succeeded, hresolutions]
    exact h.budget
  · obtain hold | hnew := hitems item hitem
    · exact h.counts item hold
    · exact hnew
  · rw [hattempts, hbatches]
    exact h.initial

theorem Funded.step (h : Funded options scheduler) (event : Event) :
    Funded options (scheduler.step event) := by
  have hstepped := stepped scheduler event
  generalize scheduler.step event = next at hstepped ⊢
  cases hstepped with
  | idle duration closed => exact h.of_eq rfl rfl rfl rfl rfl fun item hitem => .inl hitem
  | dispatch txs totalTimeout =>
      refine ⟨h.amount, h.level, ?_, h.counts, ?_⟩
      · simpa [hedged, reserved, succeeded] using h.budget
      · simpa using h.initial
  | receive hphase batch rx =>
      refine h.of_eq rfl rfl rfl rfl rfl fun item hitem => ?_
      simp only [items, handleNewBatch, hphase, List.mem_append, List.mem_singleton] at hitem ⊢
      obtain hold | rfl := hitem
      · exact .inl hold
      · exact .inr (by simp)
  | ended hphase =>
      refine h.of_eq rfl rfl rfl rfl (by simp [reserved, hphase]) fun item hitem => ?_
      simp [items] at hitem
  | expire hphase deadline htimer hexpired =>
      refine h.of_eq rfl rfl rfl rfl (by simp [reserved, hphase]) fun item hitem => ?_
      simpa [items, hphase] using Or.inl hitem
  | pop now hphase item queue hqueue =>
      refine h.of_eq rfl rfl rfl rfl (by simp [reserved, hphase]) fun item hitem => ?_
      simpa [items, hphase, hqueue] using Or.inl hitem
  | rearm now hphase timer htimer =>
      refine h.of_eq rfl rfl rfl rfl (by simp [reserved, hphase]) fun item hitem => ?_
      simpa [items, hphase] using Or.inl hitem
  | discard now item hphase =>
      obtain hphase | hphase := hphase
      all_goals
        refine h.of_eq rfl rfl rfl rfl (by simp [reserved, hphase]) fun other hother => ?_
        simp only [items, hphase, List.mem_cons] at hother ⊢
        exact .inl (.inr hother)
  | keep now item hphase =>
      refine h.of_eq rfl rfl rfl rfl (by simp [reserved, hphase]) fun other hother => ?_
      simpa [items, hphase] using Or.inl hother
  | acquire now item hphase bucket hbucket =>
      obtain ⟨htokens, hmax, hamount⟩ := TokenBucket.tryAcquire_spec hbucket
      have hbudget := h.budget
      have hlevel := h.level
      refine ⟨hamount.trans h.amount, ?_, ?_, ?_, h.initial⟩
      · simp only [hmax]
        omega
      · simp only [hedged, reserved, succeeded, hphase] at hbudget ⊢
        omega
      · simpa [items, hphase] using h.counts
  | spawn now item hphase =>
      have hitems := h.counts
      simp only [items, hphase, List.mem_cons, forall_eq_or_imp] at hitems
      have hbudget := h.budget
      refine ⟨h.amount, h.level, ?_, ?_, ?_⟩
      · simp only [hedged, reserved, succeeded, hphase, List.countP_append,
          List.countP_singleton] at hbudget ⊢
        simpa [hitems.1] using hbudget
      · simp only [items, List.mem_append, List.mem_singleton]
        rintro other (hold | rfl)
        · exact hitems.2 other hold
        · simp
      · simp only [List.countP_append, List.countP_singleton, hitems.1]
        simpa using h.initial
  | move index attempt hattempt phase hmoves => exact h.setPhase hattempt phase
  | complete index attempt hattempt state hstate txs htxs resp hresp =>
      exact (h.setPhase hattempt .finished).complete hstate htxs resp

/-! ## Results -/

theorem run_scheduled (options : HedgingOptions) (events : List Event) :
    Scheduled (run (new options) events) := by
  refine Interleaving.foldl_invariant (fun _ event h => h.step event) ?_ events
  exact ⟨.nil, by simp [new], by simp [new, SchedulerPhase.now?], fun _ => rfl, fun _ => rfl⟩

theorem run_funded (options : HedgingOptions) (events : List Event) :
    Funded options (run (new options) events) := by
  refine Interleaving.foldl_invariant (fun _ event h => h.step event) ?_ events
  exact ⟨rfl, Nat.zero_le _, Nat.zero_le _, by simp [new, items], rfl⟩

/-- An attempt that ends after its batch was resolved changes nothing. -/
theorem resolutions_finish (h : Winners scheduler) {index : ℕ} {attempt : Attempt}
    (hattempt : scheduler.attempts[index]? = some attempt)
    (hresolved : Resolved scheduler attempt.batch) (res : Except RpcError (List String)) :
    (scheduler.finish index res).resolutions = scheduler.resolutions := by
  have htaken : ∀ state, (scheduler.setPhase index attempt .finished).batches[attempt.batch]? =
      some state → state.txs = none := by
    intro state hstate
    obtain ⟨resolution, hmem, hbatch⟩ := hresolved
    obtain ⟨other, hother, htaken, -⟩ := h.taken resolution hmem
    rw [hbatch] at hother
    obtain rfl := Option.some.inj (hstate.symm.trans hother)
    exact htaken
  rw [finish, hattempt]
  by_cases hphase : attempt.phase = .sending
  · simp only [if_pos hphase]
    cases res with
    | ok messageIds =>
        simp only [complete_of_taken _ htaken]
        rfl
    | error error =>
        simp only [complete_of_taken _ htaken]
        split_ifs with hinitial
        · rfl
        · rfl
  · simp only [if_neg hphase]

/-- One winner for each batch, a sorted queue with its timer, and a budget of hedged attempts. -/
structure OneWinner (options : HedgingOptions) (events : List Event) : Prop where
  once : ((run (new options) events).resolutions.map Resolution.batch).Nodup
  errors : ∀ resolution ∈ (run (new options) events).resolutions, resolution.outcome ≠ .ok →
    ∃ attempt, (run (new options) events).attempts[resolution.attempt]? = some attempt ∧
      attempt.batch = resolution.batch ∧ attempt.attemptCount = 0
  starts : ∀ before index after attempt, events = before ++ Event.send index :: after →
    (run (new options) before).attempts[index]? = some attempt → attempt.attemptCount ≠ 0 →
    attempt.phase = .ready → SpawnedInTime options before index attempt.batch
  finishes : ∀ before index res after attempt, events = before ++ Event.finish index res :: after →
    (run (new options) before).attempts[index]? = some attempt →
    Resolved (run (new options) before) attempt.batch →
    ((run (new options) before).step (.finish index res)).resolutions =
      (run (new options) before).resolutions
  sorted : (run (new options) events).queue.Pairwise fun item later =>
    item.deadline ≤ later.deadline
  timer : ∀ front queue, (run (new options) events).queue = front :: queue →
    ∃ deadline, (run (new options) events).timer = some deadline ∧ deadline ≤ front.deadline
  level : (run (new options) events).tokenBucket.tokens ≤
    (run (new options) events).tokenBucket.maxScaledTokens
  initial : ((run (new options) events).attempts.countP fun attempt => attempt.attemptCount = 0) =
    (run (new options) events).batches.length
  budget : 1000 * (run (new options) events).hedged ≤
    options.refillAmount * (run (new options) events).succeeded

theorem Scheduled.timer_le (h : Scheduled scheduler) {front : HedgeItem} {queue : List HedgeItem}
    (hqueue : scheduler.queue = front :: queue) :
    ∃ deadline, scheduler.timer = some deadline ∧ deadline ≤ front.deadline := by
  have hinside : ∀ now, scheduler.phase.now? = some now →
      ∃ deadline, scheduler.timer = some deadline ∧ deadline ≤ front.deadline := by
    intro now hnow
    obtain ⟨-, deadline, htimer, -, hall⟩ := h.inside now hnow
    exact ⟨deadline, htimer, hall front (by simp [hqueue])⟩
  cases hphase : scheduler.phase with
  | waiting =>
      have htimer := h.waiting hphase
      rw [hqueue] at htimer
      exact ⟨front.deadline, htimer, le_rfl⟩
  | ended =>
      have hempty := h.ended hphase
      rw [hqueue] at hempty
      cases hempty
  | expiring now | checking now _ | acquiring now _ | spawning now _ =>
      exact hinside now (by simp [hphase, SchedulerPhase.now?])

theorem run_oneWinner (options : HedgingOptions) (events : List Event) :
    OneWinner options events := by
  have hwinners := run_winners options events
  have hscheduled := run_scheduled options events
  have hfunded := run_funded options events
  refine ⟨hwinners.once, hwinners.errors, ?_, ?_, hscheduled.sorted,
    fun front queue hqueue => hscheduled.timer_le hqueue, hfunded.level, hfunded.initial, ?_⟩
  · intro before index after attempt hevents hattempt hhedged hready
    exact spawnedInTime options before hattempt hhedged (.inl hready)
  · intro before index res after attempt hevents hattempt hresolved
    exact resolutions_finish (run_winners options before) hattempt hresolved res
  · have hbudget := hfunded.budget
    omega

-- The first batch succeeds and pays for a hedged attempt of the second one.
example :
    let scheduler := run (new ⟨100, 10, 1000⟩)
      [.dispatch [] none, .recv, .send 0, .finish 0 (.ok []), .dispatch [] none, .recv, .tick 100,
        .expire, .advance, .advance, .advance, .advance, .advance, .advance, .advance]
    scheduler.hedged = 1 ∧ scheduler.succeeded = 1 ∧ scheduler.timer = some 200 := by
  decide

end HedgingScheduler

end GoogleCloudRust.Publisher
