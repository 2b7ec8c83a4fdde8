import GoogleCloudRust.Model.LazyTransaction

/-! # Read/write transactions

Model of `read_write_transaction.rs` and `commit_with_precommit_retry` in `precommit.rs`, as far as
the clones of a transaction share it: the selector, the recorded abort and the guard that rolls back
on drop. Statements act on that state through `Access`, in any order. -/

namespace GoogleCloudRust.ReadWrite

open LazyTransaction

/-- `ReadContextTransactionSelector`. -/
inductive Selector
  | fixed (selector : TransactionSelector)
  | lazy (state : TransactionState)
deriving DecidableEq

namespace Selector

def getIdNoWait : Selector → Option Bytes
  | fixed selector => selector.id?
  | lazy (.started selector _) => selector.id?
  | lazy _ => none

def isFirstStatementFailed : Selector → Bool
  | lazy .firstStatementFailed => true
  | _ => false

/-- A change under the lock of a lazy selector. -/
def change (selector : Selector) (f : TransactionState → TransactionState) : Selector :=
  match selector with
  | fixed selector => fixed selector
  | lazy state => lazy (f state)

/-- A lazy selector that has to begin is left in the state `Starting`. -/
def prepareForCommit (selector : Selector) (notify : ℕ) :
    Except Error TransactionState.CommitAction × Selector :=
  match selector with
  | fixed selector => (TransactionState.prepareFixedForCommit selector, fixed selector)
  | lazy state => (state.prepareForCommit notify).map id lazy

end Selector

structure AbortedInfo where
  status : Status
  retryDelay : Option ℕ
deriving DecidableEq

def AbortedInfo.toError (info : AbortedInfo) : Error := .service info.status

/-- What retries depend on: `is_emulator`, and the delay that the details of an error ask for. -/
structure DatabaseClient where
  isEmulator : Bool
  extractRetryDelay : Error → Option ℕ

def DatabaseClient.isAbortedError (client : DatabaseClient) (error : Error) : Bool :=
  isAbortedOrEmulatorError error client.isEmulator

structure ReadWriteTransaction where
  selector : Selector
  aborted : Option AbortedInfo := none
  /-- Of the drop guard. -/
  disarmed : Bool := false
deriving DecidableEq

/-- An access of a statement to the shared state. -/
inductive Access
  | poll (notify : ℕ)
  | update (id : Bytes) (timestamp : Option Timestamp)
  | setFailed (error : Error)
  | cancelledStarting
  | recordIfAborted (error : Error)
deriving DecidableEq

structure CommitResponse where
  commitTimestamp : Option Timestamp
  /-- `multiplexed_session_retry` is set. -/
  retry : Bool := false
deriving DecidableEq, Repr

/-- The answers to the requests of `commit`, each with what statements do meanwhile. -/
structure CommitAnswers where
  begin : Except Error Bytes
  duringBegin : List Access := []
  first : Except Error CommitResponse
  duringFirst : List Access := []
  second : Except Error CommitResponse
  duringSecond : List Access := []

def executeBeginTransaction (answer : Except Error Bytes) : Except Error Bytes :=
  match answer with
  | .error error => .error error
  | .ok id =>
      if id = [] then .error (.internal "Transaction ID was not returned by Spanner") else .ok id

namespace ReadWriteTransaction

def disarmRollback (transaction : ReadWriteTransaction) : ReadWriteTransaction :=
  { transaction with disarmed := true }

def change (transaction : ReadWriteTransaction) (f : TransactionState → TransactionState) :
    ReadWriteTransaction :=
  { transaction with selector := transaction.selector.change f }

variable (client : DatabaseClient)

/-- `AbortedState::record`. -/
def recordIfAborted (transaction : ReadWriteTransaction) (error : Error) : ReadWriteTransaction :=
  if transaction.aborted.isSome || !client.isAbortedError error then transaction
  else
    match error.status with
    | some status =>
        { transaction with aborted := some ⟨status, client.extractRetryDelay error⟩ }
    | none => transaction

def access (transaction : ReadWriteTransaction) : Access → ReadWriteTransaction
  | .poll notify => transaction.change fun state => (state.pollSelectorStatus notify).2
  | .update id timestamp => transaction.change fun state => (state.update id timestamp).2.1
  | .setFailed error => transaction.change fun state => (state.setFailed error client.isEmulator).1
  | .cancelledStarting => transaction.change fun state => state.onCancelledStarting.1
  | .recordIfAborted error => transaction.recordIfAborted client error

def accesses (transaction : ReadWriteTransaction) (list : List Access) : ReadWriteTransaction :=
  list.foldl (access client) transaction

/-- `commit_with_precommit_retry`. -/
def commitWithPrecommitRetry (transaction : ReadWriteTransaction) (answers : CommitAnswers) :
    ReadWriteTransaction × Except Error CommitResponse :=
  let transaction := transaction.accesses client answers.duringFirst
  match answers.first with
  | .error error => (transaction.recordIfAborted client error, .error error)
  | .ok response =>
      if !response.retry then (transaction, .ok response)
      else
        let transaction := transaction.accesses client answers.duringSecond
        match answers.second with
        | .error error => (transaction.recordIfAborted client error, .error error)
        | .ok response =>
            if response.retry then
              (transaction, .error (.internal ("commit failed: received an unexpected " ++
                "subsequent precommit token on multiplexed session commit retry")))
            else (transaction, .ok response)

/-- `commit_internal` from the point where the guard is disarmed. -/
def sendCommit (transaction : ReadWriteTransaction) (answers : CommitAnswers) :
    ReadWriteTransaction × Except Error CommitResponse :=
  transaction.disarmRollback.commitWithPrecommitRetry client answers

/-- `begin_explicitly_for_commit`. An id that comes for a transaction that is no longer starting
leaves the start guard armed. -/
def beginExplicitlyForCommit (transaction : ReadWriteTransaction) (answers : CommitAnswers) :
    ReadWriteTransaction × Except Error Unit :=
  let transaction := transaction.accesses client answers.duringBegin
  match executeBeginTransaction answers.begin with
  | .error error =>
      ((transaction.change fun _ =>
          TransactionState.handleExplicitBeginCommitFailure error).recordIfAborted client error,
        .error error)
  | .ok id =>
      match transaction.selector with
      | .fixed _ => (transaction, .ok ())
      | .lazy state =>
          let updated := transaction.change fun state => (state.update id none).2.1
          match (state.update id none).1 with
          | .ok () => (updated, .ok ())
          | .error error => (updated.change fun state => state.onCancelledStarting.1, .error error)

/-- `commit_internal`; `notify` is the one that a begin creates. -/
def commit (transaction : ReadWriteTransaction) (notify : ℕ) (answers : CommitAnswers) :
    ReadWriteTransaction × Except Error CommitResponse :=
  match transaction.aborted with
  | some info => (transaction, .error info.toError)
  | none =>
      let (action, selector) := transaction.selector.prepareForCommit notify
      let transaction := { transaction with selector }
      match action with
      | .error error => (transaction, .error error)
      | .ok (.ready _) => transaction.sendCommit client answers
      | .ok .starting =>
          (transaction, .error (.internal ("Commit called while an asynchronous statement is " ++
            "still starting the transaction")))
      | .ok (.begin _ _) =>
          match transaction.beginExplicitlyForCommit client answers with
          | (transaction, .error error) => (transaction, .error error)
          | (transaction, .ok ()) => transaction.sendCommit client answers

/-- `rollback_internal`, up to the answer to the request, which nobody looks at. -/
def rollback (transaction : ReadWriteTransaction) : ReadWriteTransaction :=
  match transaction.selector.getIdNoWait with
  | some _ => transaction.disarmRollback
  | none => transaction

end ReadWriteTransaction

end GoogleCloudRust.ReadWrite
