import GoogleCloudRust.Library.Bytes
import GoogleCloudRust.Model.RetryPolicy

/-! # Connecting appendable uploads

Model of `connector.rs`, `state.rs`, `redirect.rs` and `retry_redirect.rs` of
`storage/bidi_write`. An attempt ends as the network lets it, and the loop around the attempts
may also give up because of its throttler or its deadline. The log has the opening requests and
what the connector has read of the answers, in order. -/

namespace GoogleCloudRust.BidiWriteConnector

open Gax (RetryPolicy RetryResult RetryState)

/-! ## Messages -/

structure Object where
  bucket : String := ""
  name : String := ""
  generation : ℤ := 0
  size : ℤ := 0
deriving DecidableEq, Repr

structure WriteObjectSpec where
  resource : Option Object
  predefinedAcl : String := ""
  ifGenerationMatch : Option ℤ := none
  ifGenerationNotMatch : Option ℤ := none
  ifMetagenerationMatch : Option ℤ := none
  ifMetagenerationNotMatch : Option ℤ := none
  objectSize : Option ℤ := none
  appendable : Option Bool := none
deriving DecidableEq, Repr

structure AppendObjectSpec where
  bucket : String
  object : String
  generation : ℤ := 0
  ifMetagenerationMatch : Option ℤ := none
  ifMetagenerationNotMatch : Option ℤ := none
  routingToken : Option String := none
  writeHandle : Option Bytes := none
deriving DecidableEq, Repr

structure CommonObjectRequestParams where
  encryptionAlgorithm : String
  encryptionKeyBytes : Bytes
  encryptionKeySha256Bytes : Bytes
deriving DecidableEq, Repr

inductive FirstMessage
  | writeObjectSpec (spec : WriteObjectSpec)
  | appendObjectSpec (spec : AppendObjectSpec)
deriving DecidableEq, Repr

structure ChecksummedData where
  content : Bytes
  crc32c : Option UInt32
deriving DecidableEq, Repr

/-- A `BidiWriteObjectRequest` that opens a stream; its other fields have their defaults. -/
structure BidiWriteObjectRequest where
  firstMessage : FirstMessage
  writeOffset : ℤ := 0
  data : Option ChecksummedData
  commonObjectRequestParams : Option CommonObjectRequestParams
  stateLookup : Bool
deriving DecidableEq, Repr

inductive WriteStatus
  | persistedSize (size : ℤ)
  | resource (object : Object)
deriving DecidableEq, Repr

structure BidiWriteObjectResponse where
  writeStatus : Option WriteStatus := none
  writeHandle : Option Bytes := none
deriving DecidableEq, Repr

namespace BidiWriteObjectResponse

def persistedSize (response : BidiWriteObjectResponse) : Option ℤ :=
  match response.writeStatus with
  | some (.persistedSize size) => some size
  | some (.resource resource) => some resource.size
  | none => none

/-- The generation of the resource, if there is one. -/
def newGeneration (response : BidiWriteObjectResponse) : Option ℤ :=
  match response.writeStatus with
  | some (.resource resource) => some resource.generation
  | _ => none

end BidiWriteObjectResponse

structure BidiWriteObjectRedirectedError where
  routingToken : Option String := none
  writeHandle : Option Bytes := none
  generation : Option ℤ := none
deriving DecidableEq, Repr

/-- An error, by `to_gax_error` where it is a status, and the first detail of this status that
decodes as a redirect. -/
structure Failure where
  error : Gax.Error
  redirect : Option BidiWriteObjectRedirectedError := none
deriving DecidableEq, Repr

def isRedirect (failure : Failure) : Bool :=
  failure.error.status.any (fun status => status.code = .aborted) && failure.redirect.isSome

/-! ## What the next stream opens with -/

inductive AppendObjectSpecState
  | write (spec : WriteObjectSpec) (routingToken : Option String) (initialChunk : Option Bytes)
  | append (spec : AppendObjectSpec) (initialChunk : Option Bytes)
deriving DecidableEq, Repr

namespace AppendObjectSpecState

def handleResponse (m : BidiWriteObjectResponse) : AppendObjectSpecState → AppendObjectSpecState
  | write spec routingToken _ =>
      let (bucket, object) := (spec.resource.map fun r => (r.bucket, r.name)).getD ("", "")
      append
        { bucket, object
          generation := m.newGeneration.getD 0
          writeHandle := m.writeHandle
          ifMetagenerationMatch := spec.ifMetagenerationMatch
          ifMetagenerationNotMatch := spec.ifMetagenerationNotMatch
          routingToken }
        none
  | append spec _ =>
      append
        { spec with
          generation := m.newGeneration.getD spec.generation
          writeHandle := m.writeHandle.or spec.writeHandle }
        none

def handleRedirect (redirect : BidiWriteObjectRedirectedError) :
    AppendObjectSpecState → AppendObjectSpecState
  | write spec _ initialChunk =>
      match redirect.generation with
      | some generation =>
          let (bucket, object) := (spec.resource.map fun r => (r.bucket, r.name)).getD ("", "")
          append
            { bucket, object, generation
              ifMetagenerationMatch := spec.ifMetagenerationMatch
              ifMetagenerationNotMatch := spec.ifMetagenerationNotMatch
              routingToken := redirect.routingToken
              writeHandle := redirect.writeHandle }
            initialChunk
      | none => write spec redirect.routingToken initialChunk
  | append spec initialChunk =>
      append
        { spec with
          routingToken := redirect.routingToken
          writeHandle := redirect.writeHandle.or spec.writeHandle
          generation := redirect.generation.getD spec.generation }
        initialChunk

end AppendObjectSpecState

section Requests

variable (crc32c : Bytes → UInt32) (enc : String → String)

def checksummedData (initialChunk : Option Bytes) : Option ChecksummedData :=
  match initialChunk with
  | some chunk => if chunk ≠ [] then some ⟨chunk, some (crc32c chunk)⟩ else none
  | none => none

/-- `strip_prefix("projects/_/buckets/")` leaves a name. -/
def isBucketName (bucketName : String) : Bool :=
  let stem := "projects/_/buckets/".toList
  stem.isPrefixOf bucketName.toList && decide (stem.length < bucketName.toList.length)

/-- The request with the value of `x-goog-request-params`. -/
def prepareRequest (state : AppendObjectSpecState) (params : Option CommonObjectRequestParams) :
    Except Gax.Error (BidiWriteObjectRequest × String) :=
  let (firstMessage, routingToken, initialChunk) :=
    match state with
    | .write spec routingToken initialChunk =>
        (FirstMessage.writeObjectSpec spec, routingToken, initialChunk)
    | .append spec initialChunk =>
        (FirstMessage.appendObjectSpec spec, spec.routingToken, initialChunk)
  let stateLookup :=
    match firstMessage with
    | .appendObjectSpec _ => true
    | .writeObjectSpec _ => false
  let request : BidiWriteObjectRequest :=
    { firstMessage
      data := checksummedData crc32c initialChunk
      commonObjectRequestParams := params
      stateLookup }
  let bucketName :=
    match firstMessage with
    | .writeObjectSpec spec => (spec.resource.map Object.bucket).getD ""
    | .appendObjectSpec spec => spec.bucket
  if !isBucketName bucketName then .error .binding
  else
    let token :=
      match routingToken with
      | some token => "&routing_token=" ++ enc token
      | none => ""
    .ok (request, "bucket=" ++ enc bucketName ++ token)

end Requests

/-! ## Policies -/

def maxRedirectsFollowed : ℕ := 3

namespace RetryRedirect

/-- `RetryRedirect::on_error`, with the redirects counted before and after it. -/
def onError (inner : RetryPolicy) (redirectsFollowed : ℕ) (state : RetryState) (now : ℕ)
    (failure : Failure) : RetryResult × ℕ :=
  let result := inner.onError state now failure.error
  if !isRedirect failure then (result, redirectsFollowed)
  else if redirectsFollowed < maxRedirectsFollowed then
    match result with
    | .continue e | .permanent e | .exhausted e => (.continue e, redirectsFollowed + 1)
  else
    match result with
    | .continue e | .exhausted e => (.exhausted e, redirectsFollowed + 1)
    | .permanent e => (.permanent e, redirectsFollowed + 1)

end RetryRedirect

/-- The part of `RequestOptions` that the decisions depend on. -/
structure Options where
  retryPolicy : RetryPolicy
  backoffPolicy : RetryState → ℕ

/-! ## The connector -/

inductive Phase
  | idle
  /-- In the loop of `connect_open` or `connect_reopen`, with its own redirects. -/
  | opening (attempts redirectsFollowed : ℕ)
  /-- In the loop of `reconnect`. -/
  | reconnecting (attempts : ℕ)
  | connected
  | failed
deriving DecidableEq, Repr

inductive Entry
  | request (request : BidiWriteObjectRequest) (params : String)
  | response (response : BidiWriteObjectResponse)
  | redirect (redirect : BidiWriteObjectRedirectedError)
deriving DecidableEq, Repr

structure Connector where
  spec : AppendObjectSpecState
  params : Option CommonObjectRequestParams := none
  retryState : Option RetryState := none
  /-- The redirects that the shared `RetryRedirect` has counted. -/
  retryRedirect : Option ℕ := none
  lastPersistedSize : ℤ := 0
  phase : Phase := .idle
  log : List Entry := []

inductive Outcome
  | response (response : BidiWriteObjectResponse)
  /-- The call or the stream fails, the stream is closed, or the time is over. -/
  | failure (failure : Failure)
deriving DecidableEq, Repr

/-- What happens next; what does not fit the phase is ignored. -/
inductive Event
  | connectOpenAndAppend (spec : WriteObjectSpec) (params : Option CommonObjectRequestParams)
      (initialChunk : Option Bytes)
  | connectReopen (spec : AppendObjectSpec) (params : Option CommonObjectRequestParams)
  /-- The loop has started at the first time, and the attempt ends at the second. -/
  | attempt (loopStart now : ℕ) (outcome : Outcome)
  /-- The loop ends because of its throttler or its deadline. -/
  | giveUp
  /-- The worker has read a message from the live stream. -/
  | handleResponse (response : BidiWriteObjectResponse)
  | reconnect (now : ℕ) (lastError : Failure) (persisted : ℤ)

namespace Connector

def new : Connector where
  spec := .write { resource := none } none none

def handleResponse (self : Connector) (response : BidiWriteObjectResponse) : Connector :=
  { self with
    spec := self.spec.handleResponse response
    log := self.log ++ [.response response] }

def handleRedirect (self : Connector) (failure : Failure) : Connector :=
  match failure.redirect with
  | some redirect =>
      { self with
        spec := self.spec.handleRedirect redirect
        log := self.log ++ [.redirect redirect] }
  | none => self

/-- New bytes reset the budgets. -/
def recordProgress (self : Connector) (persisted : ℤ) : Connector :=
  if self.lastPersistedSize < persisted then
    { self with lastPersistedSize := persisted, retryState := none, retryRedirect := none }
  else self

variable (crc32c : Bytes → UInt32) (enc : String → String) (options : Options)

/-- What the loop does after a failed attempt. -/
def attemptFailed (self : Connector) (loopStart now : ℕ) (failure : Failure) : Connector :=
  let state (attempts : ℕ) : RetryState :=
    { idempotent := true, start := loopStart, attemptCount := attempts }
  match self.phase with
  | .opening attempts redirectsFollowed =>
      let (flow, redirectsFollowed) := RetryRedirect.onError options.retryPolicy redirectsFollowed
        (state (attempts + 1)) now failure
      match flow with
      | .continue _ => { self with phase := .opening (attempts + 1) redirectsFollowed }
      | .permanent _ | .exhausted _ => { self with phase := .failed }
  | .reconnecting attempts =>
      let (flow, redirectsFollowed) := RetryRedirect.onError options.retryPolicy
        (self.retryRedirect.getD 0) (state (attempts + 1)) now failure
      let self := { self with retryRedirect := some redirectsFollowed }
      match flow with
      | .continue _ => { self with phase := .reconnecting (attempts + 1) }
      | .permanent _ | .exhausted _ => { self with phase := .failed }
  | _ => self

/-- The stream is open: the rest of `connect_open`, `connect_reopen` or `reconnect`. -/
def attemptSucceeded (self : Connector) (initial : BidiWriteObjectResponse) : Connector :=
  match self.phase with
  | .opening _ _ =>
      { self with
        lastPersistedSize := initial.persistedSize.getD 0
        retryState := none
        retryRedirect := none
        phase := .connected }
  | .reconnecting _ =>
      let self := { self with phase := .connected }
      match initial.persistedSize with
      | some initialPersisted => self.recordProgress initialPersisted
      | none => self
  | _ => self

/-- `connect_attempt` in the loop around it. -/
def connectAttempt (self : Connector) (loopStart now : ℕ) (outcome : Outcome) : Connector :=
  match prepareRequest crc32c enc self.spec self.params with
  | .error error => self.attemptFailed options loopStart now { error }
  | .ok (request, params) =>
      let self := { self with log := self.log ++ [Entry.request request params] }
      match outcome with
      | .response initial => (self.handleResponse initial).attemptSucceeded initial
      | .failure failure => (self.handleRedirect failure).attemptFailed options loopStart now failure

/-- `reconnect` up to its loop. -/
def reconnect (self : Connector) (now : ℕ) (lastError : Failure) (persisted : ℤ) : Connector :=
  let self := (self.handleRedirect lastError).recordProgress persisted
  let redirectsFollowed := self.retryRedirect.getD 0
  if isRedirect lastError then
    let (flow, redirectsFollowed) := RetryRedirect.onError options.retryPolicy redirectsFollowed
      { idempotent := true, start := now } now lastError
    let self := { self with retryRedirect := some redirectsFollowed }
    match flow with
    | .continue _ => { self with phase := .reconnecting 0 }
    | .permanent _ | .exhausted _ => { self with phase := .failed }
  else
    let state := self.retryState.getD { idempotent := true, start := now }
    let state := { state with attemptCount := state.attemptCount + 1 }
    let (flow, redirectsFollowed) := RetryRedirect.onError options.retryPolicy redirectsFollowed
      state now lastError
    let self :=
      { self with retryState := some state, retryRedirect := some redirectsFollowed }
    match flow with
    | .continue _ =>
        let delay := options.backoffPolicy state
        if (options.retryPolicy.remainingTime state now).any fun remaining => remaining < delay then
          { self with phase := .failed }
        else { self with phase := .reconnecting 0 }
    | .permanent _ | .exhausted _ => { self with phase := .failed }

def step (self : Connector) (event : Event) : Connector :=
  match self.phase, event with
  | .idle, .connectOpenAndAppend spec params initialChunk =>
      { self with params, spec := .write spec none initialChunk, phase := .opening 0 0 }
  | .idle, .connectReopen spec params =>
      { self with params, spec := .append spec none, phase := .opening 0 0 }
  | .opening _ _, .attempt loopStart now outcome
  | .reconnecting _, .attempt loopStart now outcome =>
      self.connectAttempt crc32c enc options loopStart now outcome
  | .opening _ _, .giveUp | .reconnecting _, .giveUp => { self with phase := .failed }
  | .connected, .handleResponse response => self.handleResponse response
  | .connected, .reconnect now lastError persisted =>
      self.reconnect options now lastError persisted
  | _, _ => self

def run (self : Connector) (events : List Event) : Connector :=
  events.foldl (step crc32c enc options) self

end Connector

end GoogleCloudRust.BidiWriteConnector
