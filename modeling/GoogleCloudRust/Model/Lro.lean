import GoogleCloudRust.Model.RetryPolicy

/-! # Pollers of long-running operations

Model of `lro/lib.rs`, `lro/details.rs`, `lro/internal/aip151.rs`, `lro/internal/discovery.rs` and
`polling_error_policy.rs`. The messages of an operation are as they were decoded, and the errors of
the requests are not looked into. Instants and durations are in nanoseconds; a policy that reads the
clock is given the time. -/

namespace GoogleCloudRust.Lro

open Gax (Status)

variable {ε R M O : Type*}

/-- `value` and `limit` are formatted for the text of the error. -/
structure Exhausted where
  operationName : String
  limitName : String
  value : ℕ
  limit : ℕ
deriving DecidableEq, Repr

inductive Error (ε : Type*)
  | request (error : ε)
  | service (status : Status)
  | deser (text : String)
  | exhausted (source : Exhausted)
deriving DecidableEq

/-! ## Policies -/

structure PollingState where
  start : ℕ
  attemptCount : ℕ := 0
deriving DecidableEq, Repr

inductive RetryResult (ε : Type*)
  | permanent (error : Error ε)
  | exhausted (error : Error ε)
  | continue (error : Error ε)
deriving DecidableEq

/-- Each function is given the time after the state. -/
structure PollingErrorPolicy (ε : Type*) where
  onError : PollingState → ℕ → Error ε → RetryResult ε
  onInProgress : PollingState → ℕ → String → Except (Error ε) Unit := fun _ _ _ => .ok ()

/-- `AlwaysContinue`. -/
def alwaysContinue : PollingErrorPolicy ε where
  onError _ _ error := .continue error

/-- `LimitedElapsedTime`. -/
def PollingErrorPolicy.withTimeLimit (inner : PollingErrorPolicy ε) (maximumDuration : ℕ) :
    PollingErrorPolicy ε where
  onError state now error :=
    match inner.onError state now error with
    | .permanent e => .permanent e
    | .exhausted e => .exhausted e
    | .continue e =>
        if now ≥ state.start + maximumDuration then .exhausted e else .continue e
  onInProgress state now operationName :=
    match inner.onInProgress state now operationName with
    | .error e => .error e
    | .ok () =>
        if now < state.start + maximumDuration then .ok ()
        else .error (.exhausted ⟨operationName, "elapsed time", now - state.start, maximumDuration⟩)

/-- `LimitedAttemptCount`. -/
def PollingErrorPolicy.withAttemptLimit (inner : PollingErrorPolicy ε) (maximumAttempts : ℕ) :
    PollingErrorPolicy ε where
  onError state now error :=
    match inner.onError state now error with
    | .permanent e => .permanent e
    | .exhausted e => .exhausted e
    | .continue e => if state.attemptCount ≥ maximumAttempts then .exhausted e else .continue e
  onInProgress state now operationName :=
    match inner.onInProgress state now operationName with
    | .error e => .error e
    | .ok () =>
        if state.attemptCount < maximumAttempts then .ok ()
        else
          .error (.exhausted
            ⟨operationName, "attempt count", state.attemptCount, maximumAttempts⟩)

/-! ## Answers -/

inductive PollingResult (ε R M : Type*)
  | inProgress (metadata : Option M)
  | completed (result : Except (Error ε) R)
  | pollingError (error : Error ε)

/-- The result of an operation. A response may not decode as the expected type. -/
inductive OperationResult (R : Type*)
  | error (status : Status)
  | response (message : Except String R)

structure Operation (R M : Type*) where
  name : String := ""
  done : Bool := false
  metadata : Option M := none
  result : Option (OperationResult R) := none

def asResult (op : Operation R M) : Except (Error ε) R :=
  match op.result with
  | some (.response message) => message.mapError .deser
  | some (.error status) => .error (.service status)
  | none => .error (.deser "neither result nor error set in LRO result")

class DiscoveryOperation (O : Type*) where
  done : O → Bool
  name : O → Option String

def handlePollingError (state : RetryResult ε) (operationName : String) :
    Option String × PollingResult ε R M :=
  match state with
  | .continue e => (some operationName, .pollingError e)
  | .exhausted e => (none, .completed (.error e))
  | .permanent e => (none, .completed (.error e))

namespace Aip151

def handleCommon (op : Operation R M) : Option String × PollingResult ε R M :=
  if op.done then (none, .completed (asResult op)) else (some op.name, .inProgress op.metadata)

def handleStart (result : Except (Error ε) (Operation R M)) :
    Option String × PollingResult ε R M :=
  match result with
  | .error e => (none, .completed (.error e))
  | .ok op => handleCommon op

def handlePoll (errorPolicy : PollingErrorPolicy ε) (state : PollingState) (now : ℕ)
    (operationName : String) (result : Except (Error ε) (Operation R M)) :
    Option String × PollingResult ε R M :=
  match result with
  | .error e => handlePollingError (errorPolicy.onError state now e) operationName
  | .ok op =>
      match handleCommon op with
      | (name, .inProgress metadata) =>
          match errorPolicy.onInProgress state now operationName with
          | .ok () => (name, .inProgress metadata)
          | .error e => (none, .completed (.error e))
      | (name, result) => (name, result)

end Aip151

namespace Discovery

variable [DiscoveryOperation O]

def handlePollingSuccess (o : O) : Option String × PollingResult ε O O :=
  (DiscoveryOperation.name o, .inProgress (some o))

def handleStart (result : Except (Error ε) O) : Option String × PollingResult ε O O :=
  match result with
  | .error e => (none, .completed (.error e))
  | .ok o => if DiscoveryOperation.done o then (none, .completed (.ok o)) else handlePollingSuccess o

def handlePoll (errorPolicy : PollingErrorPolicy ε) (state : PollingState) (now : ℕ)
    (operationName : String) (result : Except (Error ε) O) :
    Option String × PollingResult ε O O :=
  match result with
  | .error e => handlePollingError (errorPolicy.onError state now e) operationName
  | .ok o => if DiscoveryOperation.done o then (none, .completed (.ok o)) else handlePollingSuccess o

end Discovery

/-! ## Pollers -/

/-- `start` is still to be called. -/
structure Poller (ε : Type*) where
  errorPolicy : PollingErrorPolicy ε
  start : Bool := true
  operation : Option String := none
  state : PollingState

/-- A call of one of the closures of a poller. -/
inductive Call
  | start
  | query (name : String)
deriving DecidableEq, Repr

/-- The call that `poll` makes. -/
def Poller.call (poller : Poller ε) : Option Call :=
  if poller.start then some .start else poller.operation.map .query

/-- `poll`, common to both pollers; `answer` is what its call returns, at the time `now`. -/
def Poller.pollWith {A : Type*} (handleStart : A → Option String × PollingResult ε R M)
    (handlePoll : PollingErrorPolicy ε → PollingState → ℕ → String → A →
      Option String × PollingResult ε R M)
    (poller : Poller ε) (now : ℕ) (answer : A) : Poller ε × Option (PollingResult ε R M) :=
  if poller.start then
    let (operation, poll) := handleStart answer
    ({ poller with start := false, operation }, some poll)
  else
    match poller.operation with
    | some name =>
        let state := { poller.state with attemptCount := poller.state.attemptCount + 1 }
        let (operation, poll) := handlePoll poller.errorPolicy state now name answer
        ({ poller with state, operation }, some poll)
    | none => (poller, none)

def Aip151.poll (poller : Poller ε) (now : ℕ) (answer : Except (Error ε) (Operation R M)) :
    Poller ε × Option (PollingResult ε R M) :=
  poller.pollWith handleStart handlePoll now answer

def Discovery.poll [DiscoveryOperation O] (poller : Poller ε) (now : ℕ)
    (answer : Except (Error ε) O) : Poller ε × Option (PollingResult ε O O) :=
  poller.pollWith handleStart handlePoll now answer

/-- What the loop of `until_done` has come to. -/
inductive UntilDone (ε R : Type*)
  | returned (result : Except (Error ε) R)
  /-- The branch `unreachable!`. -/
  | unreachable
  | polling

/-- `until_done`; each entry has the time and the answer of a call of `poll`. -/
def untilDone {A : Type*} (poll : Poller ε → ℕ → A → Poller ε × Option (PollingResult ε R M)) :
    Poller ε → List (ℕ × A) → UntilDone ε R
  | _, [] => .polling
  | poller, (now, answer) :: answers =>
      match poll poller now answer with
      | (_, some (.completed result)) => .returned result
      | (poller, some (.inProgress _)) => untilDone poll poller answers
      | (poller, some (.pollingError _)) => untilDone poll poller answers
      | (_, none) => .unreachable

end GoogleCloudRust.Lro
