import GoogleCloudRust.Model.ReadWriteTransaction

/-! # The transaction runner

Model of `TransactionRunner` in `transaction_runner.rs` and of `transaction_retry_policy.rs`. An
attempt is given by what its closure and its requests return, and by the accesses of the statements
to the shared state. Instants and durations are in nanoseconds. -/

namespace GoogleCloudRust.ReadWrite

open LazyTransaction

variable {T : Type*}

/-! ## Retry policies -/

inductive RetryResult
  | permanent (error : Error)
  | exhausted (error : Error)
  | continue (error : Error)
deriving DecidableEq

/-- `on_abort` of a `TransactionRetryPolicy`, of the error, the attempts and the time elapsed. -/
abbrev TransactionRetryPolicy := Error → ℕ → ℕ → RetryResult

structure BasicTransactionRetryPolicy where
  maxAttempts : ℕ := 0
  totalTimeout : ℕ := 0
deriving DecidableEq, Repr

def BasicTransactionRetryPolicy.onAbort (policy : BasicTransactionRetryPolicy) :
    TransactionRetryPolicy := fun error attempts elapsed =>
  if policy.maxAttempts > 0 ∧ attempts ≥ policy.maxAttempts then .exhausted error
  else if policy.totalTimeout > 0 ∧ elapsed > policy.totalTimeout then .exhausted error
  else .continue error

structure AbortBackoffParams where
  retryDelay : Option ℕ
  attempts : ℕ
  elapsed : ℕ
  /-- What `on_failure` of the backoff returns. -/
  backoff : ℕ
  deadline : Option ℕ
  /-- The time at the check of the deadline. -/
  now : ℕ

def backoffIfAborted (client : DatabaseClient) (policy : TransactionRetryPolicy) (error : Error)
    (params : AbortBackoffParams) : Except Error Unit :=
  if !client.isAbortedError error then .error error
  else
    match policy error params.attempts params.elapsed with
    | .exhausted e => .error e
    | .permanent e => .error e
    | .continue abortedError =>
        let sleepDuration :=
          (params.retryDelay.or (client.extractRetryDelay abortedError)).getD params.backoff
        match params.deadline with
        | some deadline =>
            if params.now ≥ deadline ∨ deadline - params.now < sleepDuration then
              .error abortedError
            else .ok ()
        | none => .ok ()

/-! ## Attempts -/

inductive TransactionIdInheritance
  | inherit
  | discard
deriving DecidableEq, Repr

inductive PreviousTransactionIdAction
  | keep
  | set (id : Bytes)
  | clear
deriving DecidableEq

inductive AttemptError
  | aborted (spannerError : Error) (retryDelay : Option ℕ)
      (previousTransactionId : PreviousTransactionIdAction) (isFirstStatementFailed : Bool)
  | nonAborted (error : Error)
deriving DecidableEq

structure TransactionResult (T : Type*) where
  result : T
  commitResponse : CommitResponse

/-- What happens in an attempt, and what the clock and the backoff say after it. -/
structure Attempt (T : Type*) where
  /-- The answer to an explicit `BeginTransaction`. -/
  begin : Except Error Bytes
  /-- The accesses of the statements until the closure returns. -/
  accesses : List Access
  /-- What the closure returns. -/
  work : Except Error T
  /-- The accesses of statements in flight while the transaction is rolled back. -/
  duringRollback : List Access := []
  commit : CommitAnswers
  /-- The accesses of statements in flight after the attempt has failed, until its id is read. -/
  afterFailure : List Access := []
  elapsed : ℕ
  backoff : ℕ
  now : ℕ

structure TransactionRunner where
  client : DatabaseClient
  retryPolicy : TransactionRetryPolicy
  /-- `BeginTransactionOption::ExplicitBegin` is set on the builder. -/
  explicitBegin : Bool
  /-- `multiplexed_session_previous_transaction_id` in the options of the builder. -/
  previousTransactionId : Bytes := []
  deadline : Option ℕ := none

/-- An attempt that was made. -/
structure Attempted (T : Type*) where
  /-- The previous id in the options it begins with. -/
  previousTransactionId : Bytes
  /-- The error of an explicit begin. -/
  beginError : Option Error
  /-- What the closure returned, and the transaction when it did. -/
  work : Option (Except Error T × ReadWriteTransaction)
  /-- What `commit` returned. -/
  commit : Option (Except Error CommitResponse)
  /-- The transaction at the end. -/
  transaction : Option ReadWriteTransaction
  result : Except AttemptError (TransactionResult T)

namespace TransactionRunner

def handleExplicitBeginError (runner : TransactionRunner) (error : Error) : AttemptError :=
  if !runner.client.isAbortedError error then .nonAborted error
  else .aborted error (runner.client.extractRetryDelay error) .keep false

def buildAbortedAttemptError (selector : Selector) (spannerError : Error)
    (retryDelay : Option ℕ) (inheritance : TransactionIdInheritance) : AttemptError :=
  let previousTransactionId : PreviousTransactionIdAction :=
    match selector.getIdNoWait, inheritance with
    | some id, .inherit => .set id
    | some _, .discard => .clear
    | none, _ => .keep
  .aborted spannerError retryDelay previousTransactionId selector.isFirstStatementFailed

/-- `handle_work_error`, with the transaction it leaves. -/
def handleWorkError (runner : TransactionRunner) (transaction : ReadWriteTransaction)
    (attempt : Attempt T) (error : Error) : ReadWriteTransaction × AttemptError :=
  match transaction.aborted with
  | some info =>
      let transaction := transaction.disarmRollback.accesses runner.client attempt.afterFailure
      let retryDelay := info.retryDelay.or (runner.client.extractRetryDelay error)
      let spannerError := if runner.client.isAbortedError error then error else info.toError
      (transaction, buildAbortedAttemptError transaction.selector spannerError retryDelay .inherit)
  | none =>
      let transaction := transaction.rollback.accesses runner.client attempt.duringRollback
      if runner.client.isAbortedError error then
        (transaction, buildAbortedAttemptError transaction.selector error
          (runner.client.extractRetryDelay error) .discard)
      else (transaction, .nonAborted error)

/-- `handle_commit_error` once the guard is disarmed. -/
def handleCommitError (runner : TransactionRunner) (transaction : ReadWriteTransaction)
    (error : Error) : AttemptError :=
  if !runner.client.isAbortedError error then .nonAborted error
  else
    let retryDelay := (transaction.aborted.bind AbortedInfo.retryDelay).or
      (runner.client.extractRetryDelay error)
    buildAbortedAttemptError transaction.selector error retryDelay .inherit

/-- `ReadWriteTransactionBuilder::build`. -/
def build (runner : TransactionRunner) (forceExplicitBegin : Bool) (begin : Except Error Bytes) :
    Except Error ReadWriteTransaction :=
  if forceExplicitBegin || runner.explicitBegin then
    match executeBeginTransaction begin with
    | .error error => .error error
    | .ok id => .ok { selector := .fixed (.id id) }
  else .ok { selector := .lazy (.notStarted ⟨some .readWrite⟩) }

/-- The block of `run` whose result is the `attempt_result`. -/
def attempt (runner : TransactionRunner) (forceExplicitBegin : Bool) (attempt : Attempt T) :
    Attempted T :=
  let previousTransactionId := runner.previousTransactionId
  match runner.build forceExplicitBegin attempt.begin with
  | .error error =>
      { previousTransactionId, beginError := some error, work := none, commit := none
        transaction := none
        result := .error (runner.handleExplicitBeginError error) }
  | .ok transaction =>
      let transaction := transaction.accesses runner.client attempt.accesses
      let work := some (attempt.work, transaction)
      match attempt.work with
      | .error error =>
          let (transaction, attemptError) :=
            runner.handleWorkError transaction attempt error
          { previousTransactionId, beginError := none, work, commit := none
            transaction := some transaction
            result := .error attemptError }
      | .ok result =>
          match transaction.commit runner.client 0 attempt.commit with
          | (transaction, .error error) =>
              let transaction :=
                transaction.disarmRollback.accesses runner.client attempt.afterFailure
              { previousTransactionId, beginError := none, work, commit := some (.error error)
                transaction := some transaction
                result := .error (runner.handleCommitError transaction error) }
          | (transaction, .ok commitResponse) =>
              { previousTransactionId, beginError := none, work
                commit := some (.ok commitResponse), transaction := some transaction
                result := .ok ⟨result, commitResponse⟩ }

def setPreviousTransactionId (runner : TransactionRunner) (id : Bytes) : TransactionRunner :=
  { runner with previousTransactionId := id }

/-- The first step of `handle_attempt_error` for an aborted attempt. -/
def updatePreviousTransactionId (runner : TransactionRunner) :
    PreviousTransactionIdAction → TransactionRunner
  | .set id => runner.setPreviousTransactionId id
  | .clear => runner.setPreviousTransactionId []
  | .keep => runner

/-- `handle_attempt_error`: the runner to go on with, and `force_explicit_begin`. -/
def handleAttemptError (runner : TransactionRunner) (attempts : ℕ) (forceExplicitBegin : Bool)
    (attempt : Attempt T) (attemptError : AttemptError) : Except Error (TransactionRunner × Bool) :=
  match attemptError with
  | .nonAborted error => .error error
  | .aborted spannerError retryDelay previousTransactionId isFirstStatementFailed =>
      let runner := runner.updatePreviousTransactionId previousTransactionId
      if isFirstStatementFailed then .ok (runner, true)
      else
        match backoffIfAborted runner.client runner.retryPolicy spannerError
            { retryDelay, attempts, elapsed := attempt.elapsed, backoff := attempt.backoff,
              deadline := runner.deadline, now := attempt.now } with
        | .ok () => .ok (runner, forceExplicitBegin)
        | .error error => .error error

/-- The loop of `run`, with the attempts it makes. The result is `none` where the given attempts do
not suffice. -/
def loop (runner : TransactionRunner) (attempts : ℕ) (forceExplicitBegin : Bool) :
    List (Attempt T) → List (Attempted T) × Option (Except Error (TransactionResult T))
  | [] => ([], none)
  | attempt :: rest =>
      let attempted := runner.attempt forceExplicitBegin attempt
      match attempted.result with
      | .ok response => ([attempted], some (.ok response))
      | .error attemptError =>
          match runner.handleAttemptError (attempts + 1) forceExplicitBegin attempt attemptError with
          | .error error => ([attempted], some (.error error))
          | .ok (runner, forceExplicitBegin) =>
              (loop runner (attempts + 1) forceExplicitBegin rest).map (attempted :: ·) id

def run (runner : TransactionRunner) (attempts : List (Attempt T)) :
    List (Attempted T) × Option (Except Error (TransactionResult T)) :=
  runner.loop 0 false attempts

end TransactionRunner

end GoogleCloudRust.ReadWrite
