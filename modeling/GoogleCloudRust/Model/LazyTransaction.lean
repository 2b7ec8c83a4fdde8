import Mathlib.Data.List.Infix
import GoogleCloudRust.Library.Bytes
import GoogleCloudRust.Model.EndpointCooldown

/-! # Lazily started transactions

Model of the lazy variant of `ReadContextTransactionSelector` in
`read_only_transaction.rs`, as the statements and commits of one transaction use it. The
bodies under the lock of the state are atomic, and the wake-up of the waiters after the
lock is released is a step of its own. A `Notify` is known by the order of its creation. -/

namespace GoogleCloudRust

/-- `Code::name`. -/
def Code.name : Code → String
  | ok => "OK"
  | cancelled => "CANCELLED"
  | unknown => "UNKNOWN"
  | invalidArgument => "INVALID_ARGUMENT"
  | deadlineExceeded => "DEADLINE_EXCEEDED"
  | notFound => "NOT_FOUND"
  | alreadyExists => "ALREADY_EXISTS"
  | permissionDenied => "PERMISSION_DENIED"
  | resourceExhausted => "RESOURCE_EXHAUSTED"
  | failedPrecondition => "FAILED_PRECONDITION"
  | aborted => "ABORTED"
  | outOfRange => "OUT_OF_RANGE"
  | unimplemented => "UNIMPLEMENTED"
  | internal => "INTERNAL"
  | unavailable => "UNAVAILABLE"
  | dataLoss => "DATA_LOSS"
  | unauthenticated => "UNAUTHENTICATED"

namespace LazyTransaction

/-! ## Errors -/

structure Status where
  code : Code
  message : String
deriving DecidableEq, Repr

inductive Error
  | service (status : Status)
  /-- `internal_error`. -/
  | internal (message : String)
  /-- Any other error, by its text. -/
  | other (text : String)
deriving DecidableEq, Repr

def Error.status : Error → Option Status
  | service status => some status
  | _ => none

/-- `str::contains`. -/
def contains (text pattern : String) : Bool := pattern.toList <:+: text.toList

def isAborted (error : Error) : Bool := error.status.any fun status => status.code = .aborted

def isInternalEmulatorError (error : Error) : Bool :=
  error.status.any fun status =>
    status.code = .internal && contains status.message "Schema generation" &&
      contains status.message "was not registered with the Action Manager"

def isAbortedOrEmulatorError (error : Error) (isEmulator : Bool) : Bool :=
  isAborted error || (isEmulator && isInternalEmulatorError error)

def abortedDueToFailedInitialStatement : Error :=
  .service ⟨.aborted, "Aborted due to failed initial statement"⟩

inductive TransactionStartFailure
  | service (status : Status)
  | internal (message : String)
deriving DecidableEq, Repr

namespace TransactionStartFailure

def fromError : Error → TransactionStartFailure
  | .service status => service status
  | .internal message => internal message
  | .other text => internal text

def toError : TransactionStartFailure → Error
  | service status =>
      let errorDescription :=
        if status.message = "" then "status code " ++ status.code.name else status.message
      .service { status with
        message := "Transaction cannot be used: initial statement failed with: " ++
          errorDescription }
  | internal message =>
      .internal ("Transaction cannot be used: initial statement failed with: " ++ message)

end TransactionStartFailure

/-! ## The state of a transaction -/

inductive Mode
  | readWrite
  | partitionedDml
  | readOnly
deriving DecidableEq, Repr

structure TransactionOptions where
  mode : Option Mode
deriving DecidableEq, Repr

/-- The `oneof` of `TransactionSelector`. -/
inductive TransactionSelector
  | singleUse (options : TransactionOptions)
  | id (bytes : Bytes)
  | begin (options : TransactionOptions)
deriving DecidableEq

def TransactionSelector.id? : TransactionSelector → Option Bytes
  | .id bytes => some bytes
  | _ => none

structure Timestamp where
  seconds : ℤ
  nanos : ℤ
deriving DecidableEq, Repr

inductive TransactionState
  | notStarted (options : TransactionOptions)
  | starting (options : TransactionOptions) (notify : ℕ)
  | started (selector : TransactionSelector) (timestamp : Option Timestamp)
  | failed (failure : TransactionStartFailure)
  | firstStatementFailed
deriving DecidableEq

namespace TransactionState

inductive SelectorStatus
  | ready (selector : TransactionSelector)
  | wait (notify : ℕ)
deriving DecidableEq

/-- `notify` is the one that a new leader creates. -/
def pollSelectorStatus (state : TransactionState) (notify : ℕ) :
    Except Error SelectorStatus × TransactionState :=
  match state with
  | started selector _ => (.ok (.ready selector), state)
  | notStarted options => (.ok (.ready (.begin options)), starting options notify)
  | failed failure => (.error failure.toError, state)
  | firstStatementFailed => (.error abortedDueToFailedInitialStatement, state)
  | starting _ notify => (.ok (.wait notify), state)

/-- The waiters to wake come last. -/
def update (state : TransactionState) (id : Bytes) (timestamp : Option Timestamp) :
    Except Error Unit × TransactionState × Option ℕ :=
  match state with
  | notStarted _ => (.ok (), started (.id id) timestamp, none)
  | starting _ notify => (.ok (), started (.id id) timestamp, some notify)
  | started existingSelector _ =>
      if existingSelector.id? = some id then (.ok (), state, none)
      else
        (.error (.internal "got a transaction id for an already Started or Failed transaction"),
          state, none)
  | _ =>
      (.error (.internal "got a transaction id for an already Started or Failed transaction"),
        state, none)

inductive CommitAction
  | ready (id : Bytes)
  | starting
  | begin (options : TransactionOptions) (notify : ℕ)
deriving DecidableEq

def prepareFixedForCommit (selector : TransactionSelector) : Except Error CommitAction :=
  match selector.id? with
  | some id => .ok (.ready id)
  | none => .error (.internal "Transaction ID is missing")

/-- `prepare_lazy_for_commit`. -/
def prepareForCommit (state : TransactionState) (notify : ℕ) :
    Except Error CommitAction × TransactionState :=
  match state with
  | started selector _ => (prepareFixedForCommit selector, state)
  | starting _ _ => (.ok .starting, state)
  | failed failure => (.error failure.toError, state)
  | firstStatementFailed => (.error abortedDueToFailedInitialStatement, state)
  | notStarted options => (.ok (.begin options notify), starting options notify)

def onCancelledStarting (state : TransactionState) : TransactionState × Option ℕ :=
  match state with
  | starting options notify =>
      (if options.mode = some .readWrite then firstStatementFailed else notStarted options,
        some notify)
  | _ => (state, none)

def setFailed (state : TransactionState) (error : Error) (isEmulator : Bool) :
    TransactionState × Option ℕ :=
  match state with
  | starting options notify =>
      (if options.mode = some .readWrite then
          if !isAbortedOrEmulatorError error isEmulator then firstStatementFailed
          else failed (.fromError error)
        else failed (.fromError error),
        some notify)
  | _ => (state, none)

/-- The assignment in `handle_explicit_begin_commit_failure`, whatever the state was. -/
def handleExplicitBeginCommitFailure (error : Error) : TransactionState :=
  failed (.fromError error)

def isStarting : TransactionState → Bool
  | starting _ _ => true
  | _ => false

end TransactionState

/-! ## Operations -/

/-- What an operation does once it has woken the waiters. -/
inductive Continuation
  | execute
  | finish
deriving DecidableEq, Repr

inductive Phase
  /-- A statement at the head of the loop in `selector`. -/
  | polling
  | waiting (notify : ℕ)
  /-- A commit before `prepare_for_commit`. -/
  | preparing
  /-- A statement that begins the transaction, under its start guard. -/
  | leading (notify : ℕ)
  /-- A commit in `begin_explicitly_for_commit`, under its start guard. -/
  | beginning (notify : ℕ)
  /-- A start guard that was not disarmed is dropped. -/
  | dropping
  | notifying (notify : ℕ) (continuation : Continuation)
  /-- A statement that can still report ids and errors but no longer begins anything. -/
  | executing
  | finished
deriving DecidableEq, Repr

def Continuation.phase : Continuation → Phase
  | execute => .executing
  | finish => .finished

/-- After the state has been changed: wake the waiters, if there may be any. -/
def afterChange (notify : Option ℕ) (continuation : Continuation) : Phase :=
  match notify with
  | some notify => .notifying notify continuation
  | none => continuation.phase

/-- `elected` remembers the `Notify` that the operation created as a leader. -/
structure Operation where
  phase : Phase
  elected : Option ℕ := none
deriving DecidableEq, Repr

structure System where
  isEmulator : Bool
  state : TransactionState
  notifies : ℕ := 0
  operations : List Operation := []

namespace System

/-- What happens to an operation next; what does not fit its phase is ignored. -/
inductive Action
  | poll
  | prepareForCommit
  /-- The server has returned the id of the transaction. -/
  | update (id : Bytes) (timestamp : Option Timestamp)
  /-- The request has failed, or an answer is not as expected. -/
  | setFailed (error : Error)
  | beginFailed (error : Error)
  | dropGuard
  | notifyWaiters
  /-- A statement returns before it sends its request, because the transaction is known to
  be aborted. The state stays as it is. -/
  | returnEarly
  | finish
  | cancel

def poll (system : System) (operation : Operation) : Operation × System :=
  let (status, state) := system.state.pollSelectorStatus system.notifies
  match status with
  | .error _ => ({ operation with phase := .finished }, { system with state := state })
  | .ok (.wait notify) =>
      ({ operation with phase := .waiting notify }, { system with state := state })
  | .ok (.ready (.begin _)) =>
      (⟨.leading system.notifies, some system.notifies⟩,
        { system with state := state, notifies := system.notifies + 1 })
  | .ok (.ready _) => ({ operation with phase := .executing }, { system with state := state })

def prepareForCommit (system : System) (operation : Operation) : Operation × System :=
  let (action, state) := system.state.prepareForCommit system.notifies
  match action with
  | .ok (.begin _ notify) =>
      (⟨.beginning notify, some notify⟩,
        { system with state := state, notifies := system.notifies + 1 })
  | _ => ({ operation with phase := .finished }, { system with state := state })

/-- `notify_waiters`: every `Notified` that was created before is woken. -/
def notifyWaiters (operations : List Operation) (notify : ℕ) : List Operation :=
  operations.map fun operation =>
    if operation.phase = .waiting notify then { operation with phase := .polling } else operation

def perform (system : System) (operation : Operation) (action : Action) : Operation × System :=
  match operation.phase, action with
  | .polling, .poll => system.poll operation
  | .preparing, .prepareForCommit => system.prepareForCommit operation
  | .leading _, .update id timestamp | .executing, .update id timestamp =>
      let (_, state, notify) := system.state.update id timestamp
      ({ operation with phase := afterChange notify .execute }, { system with state := state })
  | .beginning _, .update id timestamp =>
      let (result, state, notify) := system.state.update id timestamp
      match result with
      | .ok _ =>
          ({ operation with phase := afterChange notify .finish }, { system with state := state })
      | .error _ => ({ operation with phase := .dropping }, { system with state := state })
  | .leading _, .setFailed error | .executing, .setFailed error =>
      let (state, notify) := system.state.setFailed error system.isEmulator
      ({ operation with phase := afterChange notify .execute }, { system with state := state })
  | .beginning notify, .beginFailed error =>
      ({ operation with phase := .notifying notify .finish },
        { system with state := TransactionState.handleExplicitBeginCommitFailure error })
  | .leading _, .cancel | .beginning _, .cancel =>
      ({ operation with phase := .dropping }, system)
  | .dropping, .dropGuard =>
      let (state, notify) := system.state.onCancelledStarting
      ({ operation with phase := afterChange notify .finish }, { system with state := state })
  | .notifying notify continuation, .notifyWaiters =>
      ({ operation with phase := continuation.phase },
        { system with operations := notifyWaiters system.operations notify })
  | .leading _, .returnEarly | .executing, .finish | .polling, .cancel
  | .waiting _, .cancel | .executing, .cancel =>
      ({ operation with phase := .finished }, system)
  | _, _ => (operation, system)

inductive Event
  | statement
  | commit
  | perform (index : ℕ) (action : Action)

def step (system : System) : Event → System
  | .statement => { system with operations := system.operations ++ [{ phase := .polling }] }
  | .commit => { system with operations := system.operations ++ [{ phase := .preparing }] }
  | .perform index action =>
      match system.operations[index]? with
      | none => system
      | some operation =>
          let (operation, system) := system.perform operation action
          { system with operations := system.operations.set index operation }

def run (system : System) (events : List Event) : System := events.foldl step system

/-- A new transaction with an inlined begin. -/
def start (options : TransactionOptions) (isEmulator : Bool) : System where
  isEmulator := isEmulator
  state := .notStarted options

end System

end LazyTransaction

end GoogleCloudRust
