import GoogleCloudRust.Model.Duration
import GoogleCloudRust.Model.LazyTransaction

/-! # Commits with precommit tokens

Model of `precommit.rs`, of `create_commit_request` in `write_only_transaction.rs`, and of what
`commit_internal` in `read_write_transaction.rs` sends. The types of mutations and of transaction
ids are given. Answers come with the tokens that the responses to other requests of the transaction
bring meanwhile. -/

namespace GoogleCloudRust.Precommit

open LazyTransaction (Error Timestamp)

/-- `MultiplexedSessionPrecommitToken`. -/
structure PrecommitToken where
  precommitToken : Bytes
  seqNum : Int32
deriving DecidableEq

inductive PrecommitTokenTracker
  | noOp
  | track (token : Option PrecommitToken)
deriving DecidableEq

namespace PrecommitTokenTracker

def new : PrecommitTokenTracker := .track none

def update (tracker : PrecommitTokenTracker) (token : Option PrecommitToken) :
    PrecommitTokenTracker :=
  match token with
  | none => tracker
  | some token =>
      match tracker with
      | .noOp => .noOp
      | .track guard =>
          if guard.all fun current => current.seqNum < token.seqNum then .track (some token)
          else .track guard

def get : PrecommitTokenTracker → Option PrecommitToken
  | .noOp => none
  | .track guard => guard

/-- The tokens of responses, in the order in which they come. -/
def updates (tracker : PrecommitTokenTracker) (tokens : List (Option PrecommitToken)) :
    PrecommitTokenTracker :=
  tokens.foldl update tracker

end PrecommitTokenTracker

/-! ## Requests -/

inductive Priority
  | unspecified
  | low
  | medium
  | high
  | unknownValue (value : Int32)
deriving DecidableEq

structure RequestOptions where
  priority : Priority := .unspecified
  transactionTag : String := ""
deriving DecidableEq

/-- A `Duration` of the standard library. -/
structure StdDuration where
  secs : UInt64
  subsecNanos : ℕ
  lt : subsecNanos < 1000000000
deriving DecidableEq

/-- The seconds and nanoseconds that `clamp` gives. -/
def toWktDuration (duration : StdDuration) : Option (ℤ × ℤ) :=
  let seconds :=
    if duration.secs.toNat < 2 ^ 63 then Int64.ofNat duration.secs.toNat else Int64.maxValue
  Wkt.Duration.clamp seconds (Int32.ofNat duration.subsecNanos)

structure CommitRequest (Mutation : Type) where
  session : String
  transactionId : Bytes
  mutations : List Mutation
  precommitToken : Option PrecommitToken
  requestOptions : Option RequestOptions
  maxCommitDelay : Option (ℤ × ℤ)
  returnCommitStats : Bool
deriving DecidableEq

structure CommitResponse where
  commitTimestamp : Option Timestamp
  multiplexedSessionRetry : Option PrecommitToken
deriving DecidableEq

section

variable {Mutation : Type}

def createCommitRequest (sessionName : String) (transactionId : Bytes) (mutations : List Mutation)
    (precommitToken : Option PrecommitToken) (requestOptions : Option RequestOptions)
    (maxCommitDelay : Option StdDuration) (returnCommitStats : Bool) : CommitRequest Mutation where
  session := sessionName
  transactionId := transactionId
  mutations := mutations
  precommitToken := precommitToken
  requestOptions := requestOptions
  maxCommitDelay := maxCommitDelay.bind toWktDuration
  returnCommitStats := returnCommitStats

def createRetryCommitRequest (sessionName : String) (transactionId : Bytes)
    (precommitToken : Option PrecommitToken) (requestOptions : Option RequestOptions)
    (maxCommitDelay : Option StdDuration) (returnCommitStats : Bool) : CommitRequest Mutation :=
  createCommitRequest sessionName transactionId [] precommitToken requestOptions maxCommitDelay
    returnCommitStats

/-! ## Commits -/

/-- The answers to the requests of a commit. -/
structure Answers where
  first : Except Error CommitResponse
  duringFirst : List (Option PrecommitToken) := []
  /-- Between the update of the tracker and its reading. -/
  beforeSecond : List (Option PrecommitToken) := []
  second : Except Error CommitResponse
  duringSecond : List (Option PrecommitToken) := []

/-- The requests that were sent, and what is returned. -/
structure Outcome (Mutation : Type) where
  tracker : PrecommitTokenTracker
  requests : List (CommitRequest Mutation)
  result : Except Error CommitResponse

def commitWithPrecommitRetry (commitRequest : CommitRequest Mutation)
    (tracker : PrecommitTokenTracker)
    (buildRetryRequest : Option PrecommitToken → CommitRequest Mutation) (answers : Answers) :
    Outcome Mutation :=
  let tracker := tracker.updates answers.duringFirst
  match answers.first with
  | .error error => ⟨tracker, [commitRequest], .error error⟩
  | .ok response =>
      match response.multiplexedSessionRetry with
      | none => ⟨tracker, [commitRequest], .ok response⟩
      | some newPrecommitToken =>
          let tracker := (tracker.update (some newPrecommitToken)).updates answers.beforeSecond
          let retryRequest := buildRetryRequest tracker.get
          let tracker := tracker.updates answers.duringSecond
          let requests := [commitRequest, retryRequest]
          match answers.second with
          | .error error => ⟨tracker, requests, .error error⟩
          | .ok retryResponse =>
              if retryResponse.multiplexedSessionRetry.isSome then
                ⟨tracker, requests, .error (.internal ("commit failed: received an unexpected " ++
                  "subsequent precommit token on multiplexed session commit retry"))⟩
              else ⟨tracker, requests, .ok retryResponse⟩

/-- What a commit reads of a read/write transaction. -/
structure ReadWriteTransaction (Mutation : Type) where
  sessionName : String
  transactionTag : Option String
  precommitTokenTracker : PrecommitTokenTracker := .new
  maxCommitDelay : Option StdDuration
  returnCommitStats : Bool
  commitPriority : Priority
  mutations : List Mutation := []

namespace ReadWriteTransaction

variable (transaction : ReadWriteTransaction Mutation)

def amendRequestOptions (options : Option RequestOptions) : Option RequestOptions :=
  match transaction.transactionTag with
  | some tag => some { options.getD {} with transactionTag := tag }
  | none => options

def commitRequestOptions : Option RequestOptions :=
  let options := transaction.amendRequestOptions none
  if transaction.commitPriority ≠ .unspecified then
    some { options.getD {} with priority := transaction.commitPriority }
  else options

def buildCommitRequest (transactionId : Bytes) (mutations : List Mutation)
    (precommitToken : Option PrecommitToken) : CommitRequest Mutation :=
  createCommitRequest transaction.sessionName transactionId mutations precommitToken
    transaction.commitRequestOptions transaction.maxCommitDelay transaction.returnCommitStats

def buildRetryCommitRequest (transactionId : Bytes) (precommitToken : Option PrecommitToken) :
    CommitRequest Mutation :=
  createRetryCommitRequest transaction.sessionName transactionId precommitToken
    transaction.commitRequestOptions transaction.maxCommitDelay transaction.returnCommitStats

/-- The responses of begin, statements and streams. -/
def receive (tokens : List (Option PrecommitToken)) : ReadWriteTransaction Mutation :=
  { transaction with precommitTokenTracker := transaction.precommitTokenTracker.updates tokens }

/-- `commit_internal`, with the transaction id that the selector or a `BeginTransaction` gives. -/
def commitInternal (transactionId : Except Error Bytes) (answers : Answers) :
    ReadWriteTransaction Mutation × Outcome Mutation :=
  match transactionId with
  | .error error => (transaction, ⟨transaction.precommitTokenTracker, [], .error error⟩)
  | .ok transactionId =>
      let request := transaction.buildCommitRequest transactionId transaction.mutations
        transaction.precommitTokenTracker.get
      let outcome := commitWithPrecommitRetry request transaction.precommitTokenTracker
        (transaction.buildRetryCommitRequest transactionId) answers
      ({ transaction with mutations := [], precommitTokenTracker := outcome.tracker }, outcome)

end ReadWriteTransaction

end

end GoogleCloudRust.Precommit
