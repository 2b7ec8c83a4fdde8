import GoogleCloudRust.Library.Interleaving
import GoogleCloudRust.Model.Hedging
import Mathlib.Data.List.Induction
import Mathlib.Data.List.Nodup

/-! # Hedged publishing has one winner

The senders of a batch are gone once they are taken, and the batch is cancelled then. -/

namespace GoogleCloudRust.Publisher.HedgingScheduler

variable {scheduler : HedgingScheduler}

/-! ## Steps -/

/-- How an attempt goes on. -/
inductive Moves (scheduler : HedgingScheduler) (attempt : Attempt) : AttemptPhase → Prop
  | ready (hphase : attempt.phase = .spawned)
      (hcancelled : scheduler.isCancelled attempt.batch = false) : Moves scheduler attempt .ready
  | sending (hphase : attempt.phase = .ready) : Moves scheduler attempt .sending
  | finished : Moves scheduler attempt .finished

inductive Stepped (scheduler : HedgingScheduler) : HedgingScheduler → Prop
  | idle (duration : ℕ) (closed : Bool) :
      Stepped scheduler { scheduler with now := scheduler.now + duration, closed := closed }
  | dispatch (txs : List BundledMessage) (totalTimeout : Option ℕ) :
      Stepped scheduler { scheduler with
        batches := scheduler.batches ++
          [{ txs := some txs, startInstant := scheduler.now, totalTimeout := totalTimeout }]
        attempts := scheduler.attempts ++ [⟨scheduler.batches.length, 0, .ready⟩]
        rx := scheduler.rx ++ [scheduler.batches.length] }
  | receive (hphase : scheduler.phase = .waiting) (batch : ℕ) (rx : List ℕ) :
      Stepped scheduler ({ scheduler with rx := rx }.handleNewBatch batch)
  | ended (hphase : scheduler.phase = .waiting) :
      Stepped scheduler { scheduler with phase := .ended, queue := [], timer := none }
  | expire (hphase : scheduler.phase = .waiting) (deadline : ℕ)
      (htimer : scheduler.timer = some deadline) (hexpired : deadline ≤ scheduler.now) :
      Stepped scheduler { scheduler with phase := .expiring scheduler.now }
  | pop (now : ℕ) (hphase : scheduler.phase = .expiring now) (item : HedgeItem)
      (queue : List HedgeItem) (hqueue : scheduler.queue = item :: queue) :
      Stepped scheduler { scheduler with queue := queue, phase := .checking now item }
  | rearm (now : ℕ) (hphase : scheduler.phase = .expiring now) (timer : Option ℕ)
      (htimer : timer = scheduler.queue.head?.map HedgeItem.deadline) :
      Stepped scheduler { scheduler with timer := timer, phase := .waiting }
  | discard (now : ℕ) (item : HedgeItem)
      (hphase : scheduler.phase = .checking now item ∨ scheduler.phase = .acquiring now item) :
      Stepped scheduler { scheduler with phase := .expiring now }
  | keep (now : ℕ) (item : HedgeItem) (hphase : scheduler.phase = .checking now item) :
      Stepped scheduler { scheduler with phase := .acquiring now item }
  | acquire (now : ℕ) (item : HedgeItem) (hphase : scheduler.phase = .acquiring now item)
      (bucket : TokenBucket) (hbucket : scheduler.tokenBucket.tryAcquire = some bucket) :
      Stepped scheduler { scheduler with tokenBucket := bucket, phase := .spawning now item }
  | spawn (now : ℕ) (item : HedgeItem) (hphase : scheduler.phase = .spawning now item) :
      Stepped scheduler { scheduler with
        attempts := scheduler.attempts ++ [⟨item.batch, item.attemptCount, .spawned⟩]
        queue := scheduler.queue ++ [⟨item.batch, now + scheduler.delay, item.attemptCount + 1⟩]
        phase := .expiring now }
  | move (index : ℕ) (attempt : Attempt) (hattempt : scheduler.attempts[index]? = some attempt)
      (phase : AttemptPhase) (hmoves : Moves scheduler attempt phase) :
      Stepped scheduler (scheduler.setPhase index attempt phase)
  | complete (index : ℕ) (attempt : Attempt) (hattempt : scheduler.attempts[index]? = some attempt)
      (state : BatchState) (hstate : scheduler.batches[attempt.batch]? = some state)
      (txs : List BundledMessage) (htxs : state.txs = some txs) (resp : Response)
      (hresp : (∃ messageIds, resp = .ok messageIds) ∨
        (∃ error, resp = .err error) ∧ attempt.attemptCount = 0) :
      Stepped scheduler ((scheduler.setPhase index attempt .finished).complete index
        attempt.batch resp)

theorem Stepped.refl (scheduler : HedgingScheduler) : Stepped scheduler scheduler :=
  .idle 0 scheduler.closed

theorem stepped_recv : Stepped scheduler scheduler.recv := by
  unfold recv
  split
  · exact .receive (by assumption) _ _
  · split_ifs with hclosed
    · exact .ended (by assumption)
    · exact .refl scheduler
  · exact .refl scheduler

theorem stepped_expire : Stepped scheduler scheduler.expire := by
  unfold expire
  split
  · rename_i deadline hphase htimer
    split_ifs with hexpired
    · exact .expire hphase deadline htimer hexpired
    · exact .refl scheduler
  · exact .refl scheduler

theorem stepped_advance : Stepped scheduler scheduler.advance := by
  unfold advance
  split
  case h_1 now hphase =>
    split
    case h_1 item queue hqueue =>
      split_ifs with hexpired
      · exact .pop now hphase item queue hqueue
      · exact .rearm now hphase (some item.deadline) (by simp [hqueue])
    case h_2 hqueue => exact .rearm now hphase none (by simp [hqueue])
  case h_2 now item hphase =>
    split_ifs with hcancelled
    · exact .discard now item (.inl hphase)
    · exact .keep now item hphase
  case h_3 now item hphase =>
    split
    case h_1 bucket hbucket => exact .acquire now item hphase bucket hbucket
    case h_2 => exact .discard now item (.inr hphase)
  case h_4 now item hphase => exact .spawn now item hphase
  case h_5 => exact .refl scheduler
  case h_6 => exact .refl scheduler

theorem stepped_check (index : ℕ) : Stepped scheduler (scheduler.check index) := by
  unfold check
  split
  case h_1 attempt hattempt =>
    split_ifs with hphase hcancelled htimeout
    · exact .move index attempt hattempt _ .finished
    · exact .move index attempt hattempt _ .finished
    · exact .move index attempt hattempt _ (.ready hphase (Bool.not_eq_true _ ▸ hcancelled))
    · exact .refl scheduler
  case h_2 => exact .refl scheduler

theorem stepped_send (index : ℕ) : Stepped scheduler (scheduler.send index) := by
  unfold send
  split
  case h_1 attempt hattempt =>
    split_ifs with hphase
    · exact .move index attempt hattempt _ (.sending hphase)
    · exact .refl scheduler
  case h_2 => exact .refl scheduler

theorem stepped_abandon (index : ℕ) : Stepped scheduler (scheduler.abandon index) := by
  unfold abandon
  split
  case h_1 attempt hattempt =>
    split_ifs with hphase hcancelled
    · exact .move index attempt hattempt _ .finished
    · exact .refl scheduler
    · exact .refl scheduler
  case h_2 => exact .refl scheduler

/-- When the senders are gone, nothing is left to do. -/
theorem complete_of_taken (scheduler : HedgingScheduler) {index batch : ℕ} {resp : Response}
    (h : ∀ state, scheduler.batches[batch]? = some state → state.txs = none) :
    scheduler.complete index batch resp = scheduler := by
  unfold complete
  split
  · rename_i hstate
    cases h _ hstate
  · rfl

theorem stepped_complete (index : ℕ) {attempt : Attempt}
    (hattempt : scheduler.attempts[index]? = some attempt) (resp : Response)
    (hresp : (∃ messageIds, resp = .ok messageIds) ∨
      (∃ error, resp = .err error) ∧ attempt.attemptCount = 0) :
    Stepped scheduler ((scheduler.setPhase index attempt .finished).complete index
      attempt.batch resp) := by
  by_cases htaken : ∀ state, scheduler.batches[attempt.batch]? = some state → state.txs = none
  · rw [complete_of_taken (scheduler.setPhase index attempt .finished) htaken]
    exact .move index attempt hattempt _ .finished
  · simp only [not_forall] at htaken
    obtain ⟨state, hstate, hsome⟩ := htaken
    obtain ⟨txs, htxs⟩ := Option.ne_none_iff_exists'.mp hsome
    exact .complete index attempt hattempt state hstate txs htxs resp hresp

theorem stepped_finish (index : ℕ) (res : Except RpcError (List String)) :
    Stepped scheduler (scheduler.finish index res) := by
  unfold finish
  split
  case h_1 attempt hattempt =>
    by_cases hphase : attempt.phase = .sending
    · rw [if_pos hphase]
      cases res with
      | ok messageIds => exact stepped_complete index hattempt _ (.inl ⟨messageIds, rfl⟩)
      | error error =>
          by_cases hinitial : attempt.attemptCount = 0
          · simp only [if_pos hinitial]
            exact stepped_complete index hattempt _ (.inr ⟨⟨error, rfl⟩, hinitial⟩)
          · simp only [if_neg hinitial]
            exact .move index attempt hattempt _ .finished
    · rw [if_neg hphase]
      exact .refl scheduler
  case h_2 => exact .refl scheduler

theorem stepped (scheduler : HedgingScheduler) (event : Event) :
    Stepped scheduler (scheduler.step event) := by
  cases event with
  | dispatch txs totalTimeout =>
      rw [step, HedgingScheduler.dispatch]
      split_ifs with hclosed
      · exact .refl scheduler
      · exact .dispatch txs totalTimeout
  | close => exact .idle 0 true
  | recv => exact stepped_recv
  | expire => exact stepped_expire
  | advance => exact stepped_advance
  | check index => exact stepped_check index
  | send index => exact stepped_send index
  | abandon index => exact stepped_abandon index
  | finish index res => exact stepped_finish index res
  | tick duration => exact .idle duration scheduler.closed

/-- The first attempt to get here takes the senders. -/
theorem complete_eq (scheduler : HedgingScheduler) {index batch : ℕ} {resp : Response}
    {state : BatchState} {txs : List BundledMessage} (hstate : scheduler.batches[batch]? = some state)
    (htxs : state.txs = some txs) :
    scheduler.complete index batch resp = { scheduler with
      batches := scheduler.batches.set batch { state with txs := none, cancelled := true }
      tokenBucket :=
        match resp with
        | .ok _ => scheduler.tokenBucket.refill
        | _ => scheduler.tokenBucket
      resolutions := scheduler.resolutions ++
        [⟨batch, index, (batchResolvePublishFutures txs resp).1,
          (batchResolvePublishFutures txs resp).2⟩] } := by
  obtain ⟨_, startInstant, totalTimeout, cancelled⟩ := state
  cases htxs
  have hcomplete := complete.eq_def scheduler index batch resp
  rw [hstate] at hcomplete
  refine hcomplete.trans ?_
  cases resp with
  | _ => rfl

/-! ## Winners -/

def Resolved (scheduler : HedgingScheduler) (batch : ℕ) : Prop :=
  ∃ resolution ∈ scheduler.resolutions, resolution.batch = batch

structure Winners (scheduler : HedgingScheduler) : Prop where
  taken : ∀ resolution ∈ scheduler.resolutions, ∃ state,
    scheduler.batches[resolution.batch]? = some state ∧ state.txs = none ∧ state.cancelled = true
  once : (scheduler.resolutions.map Resolution.batch).Nodup
  errors : ∀ resolution ∈ scheduler.resolutions, resolution.outcome ≠ .ok →
    ∃ attempt, scheduler.attempts[resolution.attempt]? = some attempt ∧
      attempt.batch = resolution.batch ∧ attempt.attemptCount = 0

theorem isCancelled_of_resolved (h : Winners scheduler) {batch : ℕ}
    (hresolved : Resolved scheduler batch) :
    scheduler.isCancelled batch = true := by
  obtain ⟨resolution, hmem, rfl⟩ := hresolved
  obtain ⟨state, hstate, -, hcancelled⟩ := h.taken resolution hmem
  rw [isCancelled, hstate]
  exact hcancelled

theorem Winners.of_append (h : Winners scheduler) {next : HedgingScheduler}
    (hbatches : ∃ more, next.batches = scheduler.batches ++ more)
    (hattempts : ∃ more, next.attempts = scheduler.attempts ++ more)
    (hresolutions : next.resolutions = scheduler.resolutions) : Winners next := by
  obtain ⟨states, hbatches⟩ := hbatches
  obtain ⟨attempts, hattempts⟩ := hattempts
  refine ⟨?_, hresolutions ▸ h.once, ?_⟩
  · rw [hresolutions, hbatches]
    intro resolution hmem
    obtain ⟨state, hstate, htaken⟩ := h.taken resolution hmem
    refine ⟨state, ?_, htaken⟩
    rw [List.getElem?_append_left (List.getElem?_eq_some_iff.mp hstate).1]
    exact hstate
  · rw [hresolutions, hattempts]
    intro resolution hmem herror
    obtain ⟨attempt, hattempt, hinitial⟩ := h.errors resolution hmem herror
    refine ⟨attempt, ?_, hinitial⟩
    rw [List.getElem?_append_left (List.getElem?_eq_some_iff.mp hattempt).1]
    exact hattempt

theorem Winners.setPhase (h : Winners scheduler) {index : ℕ} {attempt : Attempt}
    (hattempt : scheduler.attempts[index]? = some attempt) (phase : AttemptPhase) :
    Winners (scheduler.setPhase index attempt phase) := by
  refine ⟨h.taken, h.once, ?_⟩
  intro resolution hmem herror
  obtain ⟨winner, hwinner, hbatch, hcount⟩ := h.errors resolution hmem herror
  by_cases hindex : index = resolution.attempt
  · subst hindex
    obtain rfl := Option.some.inj (hattempt.symm.trans hwinner)
    refine ⟨{ attempt with phase := phase }, ?_, hbatch, hcount⟩
    exact List.getElem?_set_self (List.getElem?_eq_some_iff.mp hattempt).1
  · refine ⟨winner, ?_, hbatch, hcount⟩
    rw [HedgingScheduler.setPhase, List.getElem?_set_ne hindex]
    exact hwinner

theorem Winners.complete (h : Winners scheduler) {index : ℕ} (attempt : Attempt)
    (hattempt : scheduler.attempts[index]? = some attempt) {state : BatchState}
    (hstate : scheduler.batches[attempt.batch]? = some state) {txs : List BundledMessage}
    (htxs : state.txs = some txs) {resp : Response}
    (hresp : (∃ messageIds, resp = .ok messageIds) ∨
      (∃ error, resp = .err error) ∧ attempt.attemptCount = 0) :
    Winners (scheduler.complete index attempt.batch resp) := by
  rw [complete_eq scheduler hstate htxs]
  have hlength := (List.getElem?_eq_some_iff.mp hstate).1
  have hfirst : attempt.batch ∉ scheduler.resolutions.map Resolution.batch := by
    intro hmem
    obtain ⟨resolution, hresolution, hbatch⟩ := List.mem_map.mp hmem
    obtain ⟨other, hother, htaken, -⟩ := h.taken resolution hresolution
    rw [hbatch, hstate] at hother
    cases hother
    rw [htxs] at htaken
    cases htaken
  refine ⟨?_, ?_, ?_⟩
  · intro resolution hmem
    by_cases hbatch : attempt.batch = resolution.batch
    · refine ⟨{ state with txs := none, cancelled := true }, ?_, rfl, rfl⟩
      rw [← hbatch]
      exact List.getElem?_set_self hlength
    · obtain hold | hnew := List.mem_append.mp hmem
      · obtain ⟨other, hother, htaken⟩ := h.taken resolution hold
        refine ⟨other, ?_, htaken⟩
        rw [List.getElem?_set_ne hbatch]
        exact hother
      · rw [List.mem_singleton.mp hnew] at hbatch
        exact absurd rfl hbatch
  · rw [List.map_append, List.map_singleton]
    refine List.nodup_append.mpr ⟨h.once, List.nodup_singleton _, ?_⟩
    rintro batch hmem other hother rfl
    rw [List.mem_singleton.mp hother] at hmem
    exact hfirst hmem
  · intro resolution hmem herror
    obtain hold | hnew := List.mem_append.mp hmem
    · exact h.errors resolution hold herror
    · rw [List.mem_singleton.mp hnew] at herror ⊢
      obtain ⟨messageIds, rfl⟩ | ⟨-, hinitial⟩ := hresp
      · exact absurd rfl herror
      · exact ⟨attempt, hattempt, rfl, hinitial⟩

theorem Winners.step (h : Winners scheduler) (event : Event) : Winners (scheduler.step event) := by
  have hstepped := stepped scheduler event
  generalize scheduler.step event = next at hstepped ⊢
  cases hstepped with
  | dispatch => exact h.of_append ⟨_, rfl⟩ ⟨_, rfl⟩ rfl
  | spawn => exact h.of_append ⟨[], (List.append_nil _).symm⟩ ⟨_, rfl⟩ rfl
  | move index attempt hattempt phase hmoves => exact h.setPhase hattempt phase
  | complete index attempt hattempt state hstate txs htxs resp hresp =>
      refine (h.setPhase hattempt .finished).complete { attempt with phase := .finished } ?_ hstate
        htxs hresp
      exact List.getElem?_set_self (List.getElem?_eq_some_iff.mp hattempt).1
  | _ => exact ⟨h.taken, h.once, h.errors⟩

/-! ## Attempts that start -/

theorem run_concat (events : List Event) (event : Event) :
    run scheduler (events ++ [event]) = (run scheduler events).step event := List.foldl_concat ..

theorem run_winners (options : HedgingOptions) (events : List Event) :
    Winners (run (new options) events) := by
  induction events using List.reverseRecOn with
  | nil => exact ⟨by simp [run, new], by simp [run, new], by simp [run, new]⟩
  | append_singleton events event ih =>
      rw [run_concat]
      exact ih.step event

/-- An attempt was spawned before its batch was resolved. -/
def SpawnedInTime (options : HedgingOptions) (events : List Event) (index batch : ℕ) : Prop :=
  ∃ earlier later, events = earlier ++ later ∧
    index < (run (new options) earlier).attempts.length ∧ ¬ Resolved (run (new options) earlier) batch

theorem SpawnedInTime.concat {options : HedgingOptions} {events : List Event} {index batch : ℕ}
    (h : SpawnedInTime options events index batch) (event : Event) :
    SpawnedInTime options (events ++ [event]) index batch := by
  obtain ⟨earlier, later, rfl, hspawned⟩ := h
  exact ⟨earlier, later ++ [event], by simp, hspawned⟩

/-- A hedged attempt that sends a request has seen that its batch was not cancelled. -/
theorem spawnedInTime (options : HedgingOptions) (events : List Event) {index : ℕ}
    {attempt : Attempt} (hattempt : (run (new options) events).attempts[index]? = some attempt)
    (hhedged : attempt.attemptCount ≠ 0) (hphase : attempt.phase = .ready ∨ attempt.phase = .sending) :
    SpawnedInTime options events index attempt.batch := by
  induction events using List.reverseRecOn generalizing attempt with
  | nil => simp [run, new] at hattempt
  | append_singleton events event ih =>
      have hwinners := run_winners options events
      rw [run_concat] at hattempt
      have hstepped := stepped (run (new options) events) event
      generalize (run (new options) events).step event = next at hattempt hstepped
      cases hstepped with
      | dispatch txs totalTimeout =>
          obtain hold | ⟨-, rfl⟩ := Interleaving.getElem?_concat_cases hattempt
          · exact (ih hold hhedged hphase).concat event
          · exact absurd rfl hhedged
      | spawn now item hspawning =>
          obtain hold | ⟨-, rfl⟩ := Interleaving.getElem?_concat_cases hattempt
          · exact (ih hold hhedged hphase).concat event
          · simp at hphase
      | move other moved hmoved phase hmoves =>
          obtain ⟨rfl, rfl⟩ | ⟨-, hold⟩ := Interleaving.getElem?_set_cases hattempt
          · cases hmoves with
            | ready hspawned hcancelled =>
                refine ⟨events, [event], rfl, (List.getElem?_eq_some_iff.mp hmoved).1, ?_⟩
                intro hresolved
                rw [isCancelled_of_resolved hwinners hresolved] at hcancelled
                cases hcancelled
            | sending hready => exact (ih hmoved hhedged (.inl hready)).concat event
            | finished => simp at hphase
          · exact (ih hold hhedged hphase).concat event
      | complete other moved hmoved state hstate txs htxs resp hresp =>
          rw [complete_eq (HedgingScheduler.setPhase _ other moved .finished) hstate htxs] at hattempt
          obtain ⟨rfl, rfl⟩ | ⟨-, hold⟩ := Interleaving.getElem?_set_cases hattempt
          · simp at hphase
          · exact (ih hold hhedged hphase).concat event
      | receive hwaiting batch rx => exact (ih hattempt hhedged hphase).concat event
      | _ => exact (ih hattempt hhedged hphase).concat event

end GoogleCloudRust.Publisher.HedgingScheduler
