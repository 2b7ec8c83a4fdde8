import GoogleCloudRust.Model.ReadWriteTransaction

/-! # The drop guard of a read/write transaction

Model of one attempt of a runner, step by step: the statements on any clone of the transaction, the
handling of the closure's result in `transaction_runner.rs`, and `ReadWriteTransactionDropGuard`. A
request is dispatched in the step before the one that waits for its answer. Waiters poll again at any
time. -/

namespace GoogleCloudRust.ReadWrite.DropGuard

open LazyTransaction

/-- Where a statement is: a query, a read, an update or a batch of updates. -/
inductive Statement
  /-- In `selector`. -/
  | polling
  /-- With a selector that begins the transaction, before the request. -/
  | elected
  /-- With a selector that has the id, before the request. -/
  | ready
  /-- Waiting for the answer, under the start guard. -/
  | leading
  /-- Waiting for the answer. -/
  | executing
  | finished
deriving DecidableEq, Repr

def Statement.inFlight : Statement → Bool
  | finished => false
  | _ => true

/-- The statement starts the transaction. -/
def Statement.starts : Statement → Bool
  | elected | leading => true
  | _ => false

/-- Where the attempt of the runner is. -/
inductive Runner
  | working
  | rollingBack
  /-- In `begin_explicitly_for_commit`, under the start guard. -/
  | beginning
  /-- Waiting for the answer to a commit, the first one or the one after a precommit token. -/
  | committing (id : Bytes) (retried : Bool)
  /-- The attempt is over, and its own clone is dropped. -/
  | ended
deriving DecidableEq

inductive Rpc
  | commit (id : Bytes)
  | rollback (id : Bytes)
deriving DecidableEq

structure System where
  client : DatabaseClient
  transaction : ReadWriteTransaction
  notifies : ℕ := 0
  statements : List Statement := []
  runner : Runner := .working
  /-- The clones of the transaction besides the runner's own. -/
  clones : ℕ := 1
  /-- The guard was dropped with the last clone. -/
  dropped : Bool := false
  /-- The ids that the server has handed out. -/
  handed : List Bytes := []
  dispatched : List Rpc := []

namespace System

/-- A new attempt with an inlined begin. -/
def inlineBegin (client : DatabaseClient) : System where
  client
  transaction := { selector := .lazy (.notStarted ⟨some .readWrite⟩) }

/-- A new attempt whose `BeginTransaction` has returned an id. -/
def explicitBegin (client : DatabaseClient) (id : Bytes) : System where
  client
  transaction := { selector := .fixed (.id id) }
  handed := [id]

def access (system : System) (access : Access) : System :=
  { system with transaction := system.transaction.access system.client access }

def dispatch (system : System) (rpc : Rpc) : System :=
  { system with dispatched := system.dispatched ++ [rpc] }

def hand (system : System) (id : Bytes) : System :=
  { system with handed := system.handed ++ [id] }

def disarm (system : System) : System :=
  { system with transaction := system.transaction.disarmRollback }

/-! ## Statements -/

def setStatement (system : System) (index : ℕ) (statement : Statement) : System :=
  { system with statements := system.statements.set index statement }

/-- `poll_selector_status`. -/
def poll (system : System) (index : ℕ) : System :=
  match system.transaction.selector with
  | .fixed _ => system.setStatement index .ready
  | .lazy state =>
      match (state.pollSelectorStatus system.notifies).1 with
      | .error _ => system.setStatement index .finished
      | .ok (.wait _) => system
      | .ok (.ready (.begin _)) =>
          { system.access (.poll system.notifies) with
            notifies := system.notifies + 1 }.setStatement index .elected
      | .ok (.ready _) => system.setStatement index .ready

/-- `record_if_aborted` of the error that an answer tells of, if it does. -/
def recordServiceError (system : System) : Option Error → System
  | some error => system.access (.recordIfAborted error)
  | none => system

/-- A statement that starts the transaction gets an answer. -/
def startAnswered (system : System) (index : ℕ) (id : Option Bytes) (error : Option Error) :
    System :=
  let system := system.recordServiceError error
  match id.filter (fun id => !id.isEmpty), error with
  | some id, _ => ((system.hand id).access (.update id none)).setStatement index .finished
  | none, some error => (system.access (.setFailed error)).setStatement index .finished
  | none, none =>
      (system.access (.setFailed
        (.internal "Transaction ID was not returned by Spanner"))).setStatement index .finished

/-- What happens to a statement. -/
inductive Action
  /-- Its next step before the request is sent. -/
  | advance
  /-- The request is answered. An answer may have an id, and it may tell of an error. -/
  | answered (id : Option Bytes) (error : Option Error)
  | failed (error : Error)
  /-- Its future is dropped. -/
  | cancel
deriving DecidableEq

def perform (system : System) (index : ℕ) (statement : Statement) (action : Action) : System :=
  match statement, action with
  | .polling, .advance => system.poll index
  | .elected, .advance =>
      if system.transaction.aborted.isSome then system.setStatement index .finished
      else system.setStatement index .leading
  | .ready, .advance =>
      if system.transaction.aborted.isSome then system.setStatement index .finished
      else system.setStatement index .executing
  | .leading, .answered id error => system.startAnswered index id error
  | .leading, .failed error =>
      ((system.access (.recordIfAborted error)).access (.setFailed error)).setStatement
        index .finished
  | .leading, .cancel => (system.access .cancelledStarting).setStatement index .finished
  | .executing, .answered _ (some error) | .executing, .failed error =>
      (system.access (.recordIfAborted error)).setStatement index .finished
  | .executing, .answered _ none | .executing, .cancel | .polling, .cancel =>
      system.setStatement index .finished
  | _, _ => system

/-! ## The runner -/

/-- `handle_work_error`. -/
def workFailed (system : System) : System :=
  if system.transaction.aborted.isSome then { system.disarm with runner := .ended }
  else
    match system.transaction.selector.getIdNoWait with
    | some id => { system.disarm.dispatch (.rollback id) with runner := .rollingBack }
    | none => { system with runner := .ended }

/-- `handle_commit_error`. -/
def commitFailed (system : System) : System := { system.disarm with runner := .ended }

/-- `commit_internal` from the point where the guard is disarmed. -/
def sendCommit (system : System) (id : Bytes) : System :=
  { system.disarm.dispatch (.commit id) with runner := .committing id false }

def commit (system : System) : System :=
  if system.transaction.aborted.isSome then system.commitFailed
  else
    let (action, selector) := system.transaction.selector.prepareForCommit system.notifies
    match action with
    | .error _ => system.commitFailed
    | .ok (.ready id) => system.sendCommit id
    | .ok .starting => system.commitFailed
    | .ok (.begin _ _) =>
        { system with
          transaction := { system.transaction with selector }
          notifies := system.notifies + 1
          runner := .beginning }

/-- The `BeginTransaction` of a commit is answered. -/
def beginAnswered (system : System) (answer : Except Error Bytes) : System :=
  match executeBeginTransaction answer with
  | .error error =>
      ({ system with
          transaction := system.transaction.change fun _ =>
            TransactionState.handleExplicitBeginCommitFailure error }.access
        (.recordIfAborted error)).commitFailed
  | .ok id =>
      let handed := system.hand id
      let updated := handed.access (.update id none)
      match system.transaction.selector with
      | .fixed _ => updated.sendCommit id
      | .lazy state =>
          match (state.update id none).1 with
          | .ok () => updated.sendCommit id
          | .error _ => (updated.access .cancelledStarting).commitFailed

/-- A commit is answered. -/
def commitAnswered (system : System) (id : Bytes) (retried : Bool)
    (answer : Except Error CommitResponse) : System :=
  match answer with
  | .error error => (system.access (.recordIfAborted error)).commitFailed
  | .ok response =>
      if !response.retry then { system with runner := .ended }
      else if retried then system.commitFailed
      else { system.dispatch (.commit id) with runner := .committing id true }

/-- The future of `run` is dropped. -/
def cancelRun (system : System) : System :=
  match system.runner with
  | .beginning => { system.access .cancelledStarting with runner := .ended }
  | _ => { system with runner := .ended }

/-! ## The guard -/

/-- `Drop` of the guard. -/
def dropGuard (system : System) : System :=
  match system.transaction.selector.getIdNoWait with
  | none => { system with dropped := true }
  | some id =>
      if system.transaction.disarmed then { system with dropped := true }
      else { system.dispatch (.rollback id) with dropped := true }

def inFlight (system : System) : Bool := system.statements.any Statement.inFlight

/-! ## Runs -/

inductive Event
  | statement
  | perform (index : ℕ) (action : Action)
  /-- A result set of the transaction meets an error. -/
  | record (error : Error)
  /-- The closure returns an error. -/
  | workFailed
  /-- The closure returns, and the runner commits. -/
  | commit
  | beginAnswered (answer : Except Error Bytes)
  | commitAnswered (answer : Except Error CommitResponse)
  | rollbackAnswered
  | cancelRun
  | clone
  | dropClone

/-- A statement borrows the clone it was started on. -/
def act (system : System) : Event → System
  | .statement =>
      if system.clones = 0 ∨ system.transaction.aborted.isSome then system
      else { system with statements := system.statements ++ [.polling] }
  | .perform index action =>
      match system.statements[index]? with
      | some statement => system.perform index statement action
      | none => system
  | .record error => system.access (.recordIfAborted error)
  | .workFailed => if system.runner = .working then system.workFailed else system
  | .commit => if system.runner = .working then system.commit else system
  | .beginAnswered answer =>
      if system.runner = .beginning then system.beginAnswered answer else system
  | .commitAnswered answer =>
      match system.runner with
      | .committing id retried => system.commitAnswered id retried answer
      | _ => system
  | .rollbackAnswered =>
      if system.runner = .rollingBack then { system with runner := .ended } else system
  | .cancelRun => system.cancelRun
  | .clone => if system.clones = 0 then system else { system with clones := system.clones + 1 }
  | .dropClone =>
      if system.clones = 1 ∧ system.inFlight then system
      else { system with clones := system.clones - 1 }

/-- When the last clone goes, so does the guard. -/
def release (system : System) : System :=
  if system.runner = .ended ∧ system.clones = 0 ∧ system.dropped = false then system.dropGuard
  else system

def step (system : System) (event : Event) : System := (system.act event).release

def run (system : System) (events : List Event) : System := events.foldl step system

end System

end GoogleCloudRust.ReadWrite.DropGuard
