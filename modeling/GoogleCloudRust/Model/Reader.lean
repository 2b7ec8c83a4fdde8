import GoogleCloudRust.Model.RetryPolicy
import Mathlib.Data.List.Basic

/-! # The reconnecting reader of a read stream

Model of `reader.rs`. A call of `next` goes from `await` to `await`; at each of them the caller
may drop it and call again. The delay of the backoff policy has a random part and is given. -/

namespace GoogleCloudRust.BigQuery

open Gax

structure ReadRowsResponse (Row : Type) where
  rowCount : ℤ
  rows : List Row

/-- An open `ReadRows` call: the place of the row the service sends next. -/
structure ReadStream where
  position : ℕ
deriving DecidableEq, Repr

inductive ReaderState
  | connecting (offset : ℤ) (retryState : RetryState)
  | backoff (offset : ℤ) (retryState : RetryState) (deadline : ℕ)
  | reading (offset : ℤ) (retryState : Option RetryState) (stream : ReadStream)
  | terminated (err : Option Error)

/-- The offset of the request that is sent in this state. -/
def ReaderState.requestOffset : ReaderState → Option ℤ
  | .connecting offset _ => some offset
  | _ => none

/-- When a failure is handled: the time at which the policy sees it, the time at which it is asked
for the remaining time, and the delay of the backoff policy. -/
structure FailureTime where
  now : ℕ
  later : ℕ
  delay : ℕ

structure Reader (Row : Type) where
  retryPolicy : RetryPolicy
  state : ReaderState
  /-- A call of `next` is pending. -/
  calling : Bool
  /-- What the calls of `next` have returned. -/
  returned : List (Option (Except Error (ReadRowsResponse Row)))
  /-- Failures since the last response. -/
  failures : ℕ
  /-- Where the stream was that the service has ended. -/
  ended : Option ℕ

namespace Reader

variable {Row : Type}

def new (retryPolicy : RetryPolicy) (offset : ℤ) (start : ℕ) : Reader Row where
  retryPolicy
  state := .connecting offset { idempotent := true, start }
  calling := false
  returned := []
  failures := 0
  ended := none

def handleError (reader : Reader Row) (offset : ℤ) (retryState : RetryState) (err : Error)
    (time : FailureTime) : ReaderState :=
  let retryState := { retryState with attemptCount := retryState.attemptCount + 1 }
  match reader.retryPolicy.onError retryState time.now err with
  | .permanent e | .exhausted e => .terminated (some e)
  | .continue prevErr =>
    if (reader.retryPolicy.remainingTime retryState time.later).any (· ≤ time.delay) then
      .terminated (some (.exhausted prevErr))
    else .backoff offset retryState (time.later + time.delay)

/-- What the pending `await` of `step` yields. -/
inductive Outcome
  | connected
  | connectFailed (err : Error) (time : FailureTime)
  | slept
  /-- The service sends its next `rowCount` rows. -/
  | message (rowCount : ℕ)
  | streamFailed (err : Error) (time : FailureTime)
  | streamEnded

/-- `step`, with the response if there is one. The service holds `rows`; an outcome that is not
one of the pending `await` changes nothing. -/
def step (rows : List Row) (reader : Reader Row) (outcome : Outcome) :
    Reader Row × Option (ReadRowsResponse Row) :=
  match reader.state, outcome with
  | .connecting offset retryState, .connected =>
    if 0 ≤ offset then
      ({ reader with state := .reading offset (some retryState) ⟨offset.toNat⟩ }, none)
    else (reader, none)
  | .connecting offset retryState, .connectFailed err time =>
    ({ reader with
       state := reader.handleError offset retryState err time
       failures := reader.failures + 1 }, none)
  | .backoff offset retryState _, .slept =>
    ({ reader with state := .connecting offset retryState }, none)
  | .reading offset _ stream, .message rowCount =>
    if stream.position + rowCount ≤ rows.length then
      ({ reader with
         state := .reading (offset + rowCount) none ⟨stream.position + rowCount⟩
         failures := 0 },
       some ⟨rowCount, (rows.drop stream.position).take rowCount⟩)
    else (reader, none)
  | .reading offset retryState _, .streamFailed err time =>
    ({ reader with
       state := reader.handleError offset
         (retryState.getD { idempotent := true, start := time.now }) err time
       failures := reader.failures + 1 }, none)
  | .reading _ _ stream, .streamEnded =>
    ({ reader with state := .terminated none, ended := some stream.position }, none)
  | _, _ => (reader, none)

def returns (reader : Reader Row) (value : Option (Except Error (ReadRowsResponse Row))) :
    Reader Row :=
  { reader with calling := false, returned := reader.returned ++ [value] }

/-- The check at the end of the loop of `next`. -/
def checkTerminated (reader : Reader Row) : Reader Row :=
  match reader.state with
  | .terminated err =>
    { reader with state := .terminated none }.returns (err.map .error)
  | _ => reader

/-- One round of the loop of `next`. -/
def advance (rows : List Row) (reader : Reader Row) (outcome : Outcome) : Reader Row :=
  match reader.step rows outcome with
  | (reader, some response) => reader.returns (some (.ok response))
  | (reader, none) => reader.checkTerminated

inductive Event
  | call
  | drop
  | resume (outcome : Outcome)

/-- A call runs up to its first `await`; in a terminated reader there is none. -/
def handle (rows : List Row) (reader : Reader Row) : Event → Reader Row
  | .call => if reader.calling then reader else { reader with calling := true }.checkTerminated
  | .drop => { reader with calling := false }
  | .resume outcome => if reader.calling then reader.advance rows outcome else reader

def run (rows : List Row) (reader : Reader Row) (events : List Event) : Reader Row :=
  events.foldl (handle rows) reader

/-- The responses of the successful calls. -/
def delivered (reader : Reader Row) : List (ReadRowsResponse Row) :=
  reader.returned.filterMap fun value =>
    match value with
    | some (.ok response) => some response
    | _ => none

end Reader

end GoogleCloudRust.BigQuery
