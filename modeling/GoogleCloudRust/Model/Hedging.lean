import GoogleCloudRust.Model.BatchActor

/-! # Request hedging of a publisher

Model of `token_bucket.rs` and `hedging.rs`. The scheduler, the attempts and what dispatches
batches are tasks of their own, and `complete` runs under the lock of its batch. The scheduler is
cut where it looks at what other tasks change: at the cancellation token and at the token bucket.
Instants are in nanoseconds. -/

namespace GoogleCloudRust.Publisher

def scale : ℕ := 1000

structure TokenBucket where
  tokens : ℕ := 0
  maxScaledTokens : ℕ
  refillAmount : ℕ
deriving DecidableEq, Repr

namespace TokenBucket

/-- The refill amount is the rounded product of the refill ratio and the scale. -/
def new (maxTokens refillAmount : ℕ) : TokenBucket where
  maxScaledTokens := maxTokens * scale % 2 ^ 32
  refillAmount := refillAmount

def tryAcquire (bucket : TokenBucket) : Option TokenBucket :=
  if bucket.tokens ≥ scale then some { bucket with tokens := bucket.tokens - scale } else none

def refill (bucket : TokenBucket) : TokenBucket :=
  if bucket.tokens ≥ bucket.maxScaledTokens then bucket
  else
    let added := min (bucket.tokens + bucket.refillAmount) (2 ^ 32 - 1)
    { bucket with tokens := min added bucket.maxScaledTokens }

end TokenBucket

structure HedgingOptions where
  delay : ℕ
  maxTokens : ℕ
  refillAmount : ℕ

/-- The senders are taken by the winning attempt. -/
structure BatchState where
  txs : Option (List BundledMessage)
  startInstant : ℕ
  totalTimeout : Option ℕ
  cancelled : Bool := false

inductive AttemptPhase
  /-- The task of a hedged attempt has not looked at the token. -/
  | spawned
  /-- The request is about to be sent. -/
  | ready
  | sending
  | finished
deriving DecidableEq, Repr

/-- `attemptCount` is 0 for the initial attempt. -/
structure Attempt where
  batch : ℕ
  attemptCount : ℕ
  phase : AttemptPhase
deriving DecidableEq, Repr

structure HedgeItem where
  batch : ℕ
  deadline : ℕ
  attemptCount : ℕ
deriving DecidableEq, Repr

/-- Where the scheduler is; inside `handle_expired_hedges` it has read the clock once. -/
inductive SchedulerPhase
  | waiting
  | expiring (now : ℕ)
  | checking (now : ℕ) (item : HedgeItem)
  | acquiring (now : ℕ) (item : HedgeItem)
  | spawning (now : ℕ) (item : HedgeItem)
  | ended
deriving DecidableEq, Repr

/-- The senders of a batch were taken by an attempt. -/
structure Resolution where
  batch : ℕ
  attempt : ℕ
  answers : List Answer
  outcome : Outcome
deriving DecidableEq

structure HedgingScheduler where
  delay : ℕ
  tokenBucket : TokenBucket
  now : ℕ := 0
  batches : List BatchState := []
  attempts : List Attempt := []
  rx : List ℕ := []
  closed : Bool := false
  queue : List HedgeItem := []
  timer : Option ℕ := none
  phase : SchedulerPhase := .waiting
  resolutions : List Resolution := []

namespace HedgingScheduler

def new (options : HedgingOptions) : HedgingScheduler where
  delay := options.delay
  tokenBucket := .new options.maxTokens options.refillAmount

def isCancelled (scheduler : HedgingScheduler) (batch : ℕ) : Bool :=
  scheduler.batches[batch]?.any BatchState.cancelled

/-! ## Batches -/

def dispatch (scheduler : HedgingScheduler) (txs : List BundledMessage)
    (totalTimeout : Option ℕ) : HedgingScheduler :=
  if scheduler.closed then scheduler
  else
    let batch := scheduler.batches.length
    let state : BatchState :=
      { txs := some txs, startInstant := scheduler.now, totalTimeout := totalTimeout }
    { scheduler with
      batches := scheduler.batches ++ [state]
      attempts := scheduler.attempts ++ [⟨batch, 0, .ready⟩]
      rx := scheduler.rx ++ [batch] }

/-- Only the first attempt that gets here finds the senders. -/
def complete (scheduler : HedgingScheduler) (attempt batch : ℕ) (resp : Response) :
    HedgingScheduler :=
  match scheduler.batches[batch]? with
  | some { txs := some txs, startInstant, totalTimeout, .. } =>
      let (answers, outcome) := batchResolvePublishFutures txs resp
      { scheduler with
        batches := scheduler.batches.set batch
          { txs := none, startInstant, totalTimeout, cancelled := true }
        tokenBucket :=
          match resp with
          | .ok _ => scheduler.tokenBucket.refill
          | _ => scheduler.tokenBucket
        resolutions := scheduler.resolutions ++ [⟨batch, attempt, answers, outcome⟩] }
  | _ => scheduler

/-! ## Attempts -/

def maxAttemptTimeout : ℕ := 10 * 10 ^ 9

def attemptTimeout (scheduler : HedgingScheduler) (batch : ℕ) : ℕ :=
  match scheduler.batches[batch]? with
  | some state =>
      let left := state.totalTimeout.map fun t => t - (scheduler.now - state.startInstant)
      min (left.getD maxAttemptTimeout) maxAttemptTimeout
  | none => 0

def setPhase (scheduler : HedgingScheduler) (index : ℕ) (attempt : Attempt)
    (phase : AttemptPhase) : HedgingScheduler :=
  { scheduler with attempts := scheduler.attempts.set index { attempt with phase := phase } }

/-- `send_hedged_rpc` begins. -/
def check (scheduler : HedgingScheduler) (index : ℕ) : HedgingScheduler :=
  match scheduler.attempts[index]? with
  | some attempt =>
      if attempt.phase = .spawned then
        if scheduler.isCancelled attempt.batch then scheduler.setPhase index attempt .finished
        else if scheduler.attemptTimeout attempt.batch = 0 then
          scheduler.setPhase index attempt .finished
        else scheduler.setPhase index attempt .ready
      else scheduler
  | none => scheduler

/-- The request of an attempt is sent. -/
def send (scheduler : HedgingScheduler) (index : ℕ) : HedgingScheduler :=
  match scheduler.attempts[index]? with
  | some attempt =>
      if attempt.phase = .ready then scheduler.setPhase index attempt .sending else scheduler
  | none => scheduler

/-- The attempt sees that its batch is cancelled. -/
def abandon (scheduler : HedgingScheduler) (index : ℕ) : HedgingScheduler :=
  match scheduler.attempts[index]? with
  | some attempt =>
      if attempt.phase = .ready ∨ attempt.phase = .sending then
        if scheduler.isCancelled attempt.batch then scheduler.setPhase index attempt .finished
        else scheduler
      else scheduler
  | none => scheduler

/-- The request has ended. Errors from hedged attempts are ignored. -/
def finish (scheduler : HedgingScheduler) (index : ℕ) (res : Except RpcError (List String)) :
    HedgingScheduler :=
  match scheduler.attempts[index]? with
  | some attempt =>
      if attempt.phase = .sending then
        let finished := scheduler.setPhase index attempt .finished
        match res with
        | .ok messageIds => finished.complete index attempt.batch (.ok messageIds)
        | .error error =>
            if attempt.attemptCount = 0 then finished.complete index attempt.batch (.err error)
            else finished
      else scheduler
  | none => scheduler

/-! ## The scheduler -/

def handleNewBatch (scheduler : HedgingScheduler) (batch : ℕ) : HedgingScheduler :=
  let deadline := scheduler.now + scheduler.delay
  { scheduler with
    queue := scheduler.queue ++ [⟨batch, deadline, 1⟩]
    timer := if scheduler.timer.isNone then some deadline else scheduler.timer }

def recv (scheduler : HedgingScheduler) : HedgingScheduler :=
  match scheduler.phase, scheduler.rx with
  | .waiting, batch :: rx => { scheduler with rx := rx }.handleNewBatch batch
  | .waiting, [] =>
      if scheduler.closed then { scheduler with phase := .ended, queue := [], timer := none }
      else scheduler
  | _, _ => scheduler

/-- The timer has fired: `handle_expired_hedges` begins. -/
def expire (scheduler : HedgingScheduler) : HedgingScheduler :=
  match scheduler.phase, scheduler.timer with
  | .waiting, some deadline =>
      if deadline ≤ scheduler.now then { scheduler with phase := .expiring scheduler.now }
      else scheduler
  | _, _ => scheduler

/-- The next step inside `handle_expired_hedges`. -/
def advance (scheduler : HedgingScheduler) : HedgingScheduler :=
  match scheduler.phase with
  | .expiring now =>
      match scheduler.queue with
      | item :: queue =>
          if item.deadline ≤ now then { scheduler with queue := queue, phase := .checking now item }
          else { scheduler with timer := some item.deadline, phase := .waiting }
      | [] => { scheduler with timer := none, phase := .waiting }
  | .checking now item =>
      if scheduler.isCancelled item.batch then { scheduler with phase := .expiring now }
      else { scheduler with phase := .acquiring now item }
  | .acquiring now item =>
      match scheduler.tokenBucket.tryAcquire with
      | some bucket => { scheduler with tokenBucket := bucket, phase := .spawning now item }
      | none => { scheduler with phase := .expiring now }
  | .spawning now item =>
      { scheduler with
        attempts := scheduler.attempts ++ [⟨item.batch, item.attemptCount, .spawned⟩]
        queue := scheduler.queue ++
          [⟨item.batch, now + scheduler.delay, item.attemptCount + 1⟩]
        phase := .expiring now }
  | .waiting | .ended => scheduler

/-- What happens next; what does not fit the state is ignored. -/
inductive Event
  | dispatch (txs : List BundledMessage) (totalTimeout : Option ℕ)
  /-- The handles are dropped. -/
  | close
  | recv
  | expire
  | advance
  | check (index : ℕ)
  | send (index : ℕ)
  | abandon (index : ℕ)
  | finish (index : ℕ) (res : Except RpcError (List String))
  | tick (duration : ℕ)

def step (scheduler : HedgingScheduler) : Event → HedgingScheduler
  | .dispatch txs totalTimeout => scheduler.dispatch txs totalTimeout
  | .close => { scheduler with closed := true }
  | .recv => scheduler.recv
  | .expire => scheduler.expire
  | .advance => scheduler.advance
  | .check index => scheduler.check index
  | .send index => scheduler.send index
  | .abandon index => scheduler.abandon index
  | .finish index res => scheduler.finish index res
  | .tick duration => { scheduler with now := scheduler.now + duration }

def run (scheduler : HedgingScheduler) (events : List Event) : HedgingScheduler :=
  events.foldl step scheduler

end HedgingScheduler

end GoogleCloudRust.Publisher
