import GoogleCloudRust.Library.Fallible
import GoogleCloudRust.Model.Proto

/-! # Result sets

Model of `result_set.rs`. The rows of a result set arrive in partial result sets over a
stream that can fail and be reopened. What the surroundings decide (whether a message or an
error arrives, what the retry policy and the transaction selector say) comes with the
events of a run. Metrics, headers and the updates of other components are left out. -/

namespace GoogleCloudRust

namespace ResultSet

/-! ## Messages -/

inductive Error
  /-- `internal_error`. -/
  | internal (message : String)
  /-- An error of the transport, the service or the transaction. -/
  | status (code : UInt32) (message : String)
  /-- The thread panics. -/
  | panic (message : String)
deriving DecidableEq, Repr

/-- The generated conversion of the statistics. -/
structure StatsConversion where
  Message : Type
  Stats : Type
  cnv : Message → Except String Stats

/-- `v1::ResultSetMetadata`; fields are given by name and type. -/
structure MetadataMessage where
  rowType : Option (List (String × Option SpannerType))
  transactionId : Option Bytes

variable {conversion : StatsConversion}

structure PartialResultSet (conversion : StatsConversion) where
  metadata : Option MetadataMessage
  values : List Value
  chunkedValue : Bool
  resumeToken : Bytes
  stats : Option conversion.Message
  last : Bool

structure ResultSetMetadata where
  columnNames : List String
  columnTypes : List SpannerType

/-- `Type::default`. -/
def defaultType : SpannerType := .mk .unspecified .unspecified "" none none

def ResultSetMetadata.new (metadata : MetadataMessage) : ResultSetMetadata :=
  let fields := metadata.rowType.getD []
  ⟨fields.map Prod.fst, fields.map fun field => field.2.getD defaultType⟩

structure Row where
  values : List Value
  metadata : ResultSetMetadata

/-! ## Chunked values -/

/-- Only the last element of a list can go on in the first element of the next one. -/
def mergeValues : Value → Value → Except Error Value
  | .stringValue target, .stringValue source => .ok (.stringValue (target ++ source))
  | .listValue target, .listValue [] => .ok (.listValue target)
  | .listValue target, .listValue (sourceFirst :: source) =>
      match target.getLast? with
      | none => .ok (.listValue (sourceFirst :: source))
      | some targetLast => do
          let joint ← match targetLast, sourceFirst with
            | .stringValue _, .stringValue _ | .listValue _, .listValue _ => do
                let merged ← mergeValues targetLast sourceFirst
                pure [merged]
            | _, _ => pure [targetLast, sourceFirst]
          return .listValue (target.dropLast ++ joint ++ source)
  | _, _ => .error (.internal "Incompatible types for merging chunked values")

end ResultSet

open ResultSet

/-! ## The result set -/

/-- The stream is given by the messages that it has still to deliver. -/
structure ResultSet (conversion : StatsConversion) where
  stream : Option (List (PartialResultSet conversion))
  bufferedValues : List Value
  chunked : Bool
  seenLast : Bool
  readyRows : List Row
  localMetadata : Option ResultSetMetadata
  stats : Option conversion.Stats
  lastResumeToken : Bytes
  partialResultSetsBuffer : List (PartialResultSet conversion)
  safeToRetry : Bool
  maxBufferedPartialResultSets : ℕ

namespace ResultSet

variable {conversion : StatsConversion}

def new (maxBufferedPartialResultSets : ℕ) : ResultSet conversion where
  stream := none
  bufferedValues := []
  chunked := false
  seenLast := false
  readyRows := []
  localMetadata := none
  stats := none
  lastResumeToken := []
  partialResultSetsBuffer := []
  safeToRetry := true
  maxBufferedPartialResultSets := maxBufferedPartialResultSets

abbrev Step (conversion : StatsConversion) := Fallible Error (ResultSet conversion)

/-- Cuts complete rows off the buffered values. A last value that is not complete keeps its
row back. -/
def drainRows (columnCount : ℕ) (chunked : Bool) (values : List Value) :
    List (List Value) × List Value :=
  if 0 < columnCount ∧ columnCount ≤ values.length ∧ ¬(values.length = columnCount ∧ chunked) then
    let (rows, rest) := drainRows columnCount chunked (values.drop columnCount)
    (values.take columnCount :: rows, rest)
  else ([], values)
termination_by values.length
decreasing_by
  rw [List.length_drop]
  omega

/-- Appends new values to the buffered ones, the first of them to a chunked value. -/
def extendValues (chunked : Bool) (bufferedValues values : List Value) :
    Except Error (List Value) :=
  match chunked, bufferedValues.getLast?, values with
  | true, some lastValue, firstNew :: rest => do
      let merged ← mergeValues lastValue firstNew
      return bufferedValues.dropLast ++ merged :: rest
  | _, _, _ => .ok (bufferedValues ++ values)

def storeStats (stats : Option conversion.Message) : Step conversion Unit := do
  let resultSet ← get
  match resultSet.stats, stats with
  | some _, some _ => throw (.internal "Additional stats received after first")
  | none, some message =>
      match conversion.cnv message with
      | .ok converted => set { resultSet with stats := some converted }
      | .error error => throw (.internal ("failed to convert stats: " ++ error))
  | _, none => pure ()

/-- Moves complete rows from the buffered values to the ready rows. -/
def pushRows (resultSet : ResultSet conversion) (metadata : ResultSetMetadata) (chunked : Bool)
    (bufferedValues : List Value) : ResultSet conversion :=
  let (rows, rest) := drainRows metadata.columnTypes.length chunked bufferedValues
  { resultSet with
    chunked := chunked
    bufferedValues := rest
    readyRows := resultSet.readyRows ++ rows.map fun values => Row.mk values metadata }

def processPartialResultSet (partialResultSet : PartialResultSet conversion) :
    Step conversion Unit := do
  storeStats partialResultSet.stats
  let resultSet ← get
  if partialResultSet.values.isEmpty then pure ()
  else
    match resultSet.localMetadata with
    | none => throw (.panic "metadata is guaranteed on initialized ResultSet")
    | some metadata =>
        if metadata.columnTypes.isEmpty then
          throw (.internal "PartialResultSet contained values but no column metadata was provided")
        else do
          let bufferedValues ← Fallible.ofResult
            (extendValues resultSet.chunked resultSet.bufferedValues partialResultSet.values)
          set (resultSet.pushRows metadata partialResultSet.chunkedValue bufferedValues)

def processAll : List (PartialResultSet conversion) → Step conversion Unit
  | [] => pure ()
  | partialResultSet :: rest => do
      processPartialResultSet partialResultSet
      processAll rest

def flushBuffer : Step conversion Unit := do
  let resultSet ← get
  set { resultSet with partialResultSetsBuffer := [] }
  processAll resultSet.partialResultSetsBuffer

/-! ## Messages of the stream -/

/-- What the transaction selector answers. -/
structure SelectorView where
  isLazy : Bool
  isStarted : Bool
  update : Except Error Unit

/-- The selector learns the id of the transaction that the statement has begun. -/
def updateSelector (transactionId : Option Bytes) : Option SelectorView → Except Error Unit
  | none => .ok ()
  | some selector =>
      match transactionId.filter fun id => !id.isEmpty with
      | some _ => selector.update
      | none =>
          if selector.isLazy && !selector.isStarted then
            .error (.internal "Spanner failed to return a transaction ID for a query that included a BeginTransaction option")
          else .ok ()

def handleMetadata (metadata : MetadataMessage) (selector : Option SelectorView) :
    Step conversion Unit := do
  Fallible.ofResult (updateSelector metadata.transactionId selector)
  modify fun resultSet => { resultSet with localMetadata := some (.new metadata) }

def checkMetadata (metadata : Option MetadataMessage) (selector : Option SelectorView) :
    Step conversion Unit := do
  let resultSet ← get
  match resultSet.localMetadata, metadata with
  | some _, none => pure ()
  | none, none => throw (.internal "First PartialResultSet did not contain metadata")
  | some _, some metadata =>
      if resultSet.lastResumeToken.isEmpty then handleMetadata metadata selector
      else throw (.internal "Additional metadata after first result set")
  | none, some metadata => handleMetadata metadata selector

def pushBack (partialResultSet : PartialResultSet conversion) : Step conversion Unit :=
  modify fun resultSet => { resultSet with
    partialResultSetsBuffer := resultSet.partialResultSetsBuffer ++ [partialResultSet] }

/-- Makes room in a full buffer, after which the stream cannot be resumed. -/
def processOldest : Step conversion Unit := do
  let resultSet ← get
  if resultSet.partialResultSetsBuffer.length < resultSet.maxBufferedPartialResultSets then pure ()
  else
    match resultSet.partialResultSetsBuffer with
    | [] => set { resultSet with safeToRetry := false }
    | oldest :: rest => do
        set { resultSet with safeToRetry := false, partialResultSetsBuffer := rest }
        processPartialResultSet oldest

def handlePartialResultSet (partialResultSet : PartialResultSet conversion)
    (selector : Option SelectorView) : Step conversion Unit := do
  modify fun resultSet => { resultSet with
    seenLast := resultSet.seenLast || partialResultSet.last }
  checkMetadata partialResultSet.metadata selector
  let partialResultSet := { partialResultSet with metadata := none }
  if !partialResultSet.resumeToken.isEmpty then
    modify fun resultSet => { resultSet with
      lastResumeToken := partialResultSet.resumeToken
      safeToRetry := true }
    pushBack partialResultSet
    flushBuffer
  else
    processOldest
    pushBack partialResultSet
    if (← get).seenLast then
      flushBuffer

def handleStreamEnd : Step conversion Unit := do
  modify fun resultSet => { resultSet with stream := none, seenLast := true }
  flushBuffer

/-! ## Retries -/

/-- What happens in the retry loop: reopening the stream fails with the given errors, each of
which the policy wants to retry, until the policy refuses or the stream is open. -/
structure Retry where
  restartErrors : List Error
  refusal : Option Error

variable (server : Bytes → List (PartialResultSet conversion))

/-- The server answers with the messages that follow the resume token. -/
def reopen : Step conversion Unit :=
  modify fun resultSet => { resultSet with stream := some (server resultSet.lastResumeToken) }

def retryLoop : List Error → Option Error → Step conversion Unit
  | _ :: restartErrors, refusal => do
      modify fun resultSet => { resultSet with partialResultSetsBuffer := [] }
      retryLoop restartErrors refusal
  | [], none => do
      modify fun resultSet => { resultSet with partialResultSetsBuffer := [] }
      reopen server
  | [], some error => throw error

def handleStreamError (error : Error) (retry : Retry) : Step conversion Unit := do
  if (← get).safeToRetry then
    retryLoop server retry.restartErrors retry.refusal
  else throw error

/-! ## Calls -/

/-- What the stream of a waiting call yields: its next message or its end, or an error. -/
inductive Delivery
  | next (selector : Option SelectorView) (retry : Retry)
  | failure (error : Error) (retry : Retry)

/-- `next_message` and what is done with it, in a call of `next`. -/
def receive (messages : List (PartialResultSet conversion)) : Delivery → Step conversion Unit
  | .next selector _ =>
      match messages with
      | partialResultSet :: rest => do
          modify fun resultSet => { resultSet with stream := some rest }
          handlePartialResultSet partialResultSet selector
      | [] => handleStreamEnd
  | .failure error retry => handleStreamError server error retry

/-- The state of the first message: it is the end of the initialization or starts another
attempt. -/
inductive Initialized
  | ready
  | again

def receiveFirst (messages : List (PartialResultSet conversion)) :
    Delivery → Step conversion Initialized
  | .next selector retry =>
      match messages with
      | partialResultSet :: rest => do
          modify fun resultSet => { resultSet with stream := some rest }
          handlePartialResultSet partialResultSet selector
          return .ready
      | [] => do
          handleStreamError server
            (.internal "Query stream ended without metadata or error") retry
          return .again
  | .failure error retry => do
      handleStreamError server error retry
      return .again

def validateStreamTermination (resultSet : ResultSet conversion) : Except Error Unit :=
  if resultSet.chunked then .error (.internal "Stream ended with chunked_value=true")
  else if !resultSet.bufferedValues.isEmpty then
    .error (.internal "Stream ended before row is complete")
  else .ok ()

abbrev Returned := Option (Except Error Row)

def recordErrorAndReturn (resultSet : ResultSet conversion) (error : Error) :
    Returned × ResultSet conversion :=
  (some (.error error), { resultSet with
    seenLast := true
    stream := none
    readyRows := []
    bufferedValues := []
    chunked := false
    lastResumeToken := []
    partialResultSetsBuffer := []
    safeToRetry := false })

/-- The end of the stream. -/
def terminate (resultSet : ResultSet conversion) : Returned × ResultSet conversion :=
  let resultSet := { resultSet with stream := none }
  match validateStreamTermination resultSet with
  | .error error => recordErrorAndReturn resultSet error
  | .ok () => (none, resultSet)

/-- The head of the loop of `next`, where it returns or begins to wait for the stream. -/
def poll (resultSet : ResultSet conversion) (abortedInfo : Option Error) :
    Option Returned × ResultSet conversion :=
  match resultSet.readyRows with
  | row :: rest => (some (some (.ok row)), { resultSet with readyRows := rest })
  | [] =>
      if resultSet.seenLast then resultSet.terminate.map some id
      else
        match abortedInfo with
        | some info => (recordErrorAndReturn resultSet info).map some id
        | none =>
            match resultSet.stream with
            | none => (some none, resultSet)
            | some _ => (none, resultSet)

/-! ## Runs -/

inductive Phase
  | new
  | initializing
  | idle
  | calling
  | failed
deriving DecidableEq, Repr

/-- A result set and what its calls have returned. -/
structure System (conversion : StatsConversion) where
  resultSet : ResultSet conversion
  phase : Phase
  returned : List Returned

inductive Event
  /-- The stream is opened for the first time. -/
  | create (restartError : Option Error) (retry : Retry)
  /-- A call of `next`, with what it finds out about the transaction. -/
  | call (abortedInfo : Option Error)
  /-- The stream answers, and the loop goes on. -/
  | deliver (delivery : Delivery) (abortedInfo : Option Error)

namespace System

def new (maxBufferedPartialResultSets : ℕ) : System conversion :=
  ⟨.new maxBufferedPartialResultSets, .new, []⟩

/-- Goes on at the head of the loop. -/
def poll (system : System conversion) (resultSet : ResultSet conversion)
    (abortedInfo : Option Error) : System conversion :=
  match resultSet.poll abortedInfo with
  | (some returned, resultSet) => ⟨resultSet, .idle, system.returned ++ [returned]⟩
  | (none, resultSet) => ⟨resultSet, .calling, system.returned⟩

def step (system : System conversion) (event : Event) : System conversion :=
  let resultSet := system.resultSet
  match system.phase, event with
  | .new, .create restartError retry =>
      let opened := match restartError with
        | none => reopen server
        | some error => handleStreamError server error retry
      match opened.exec resultSet with
      | (.ok (), resultSet) => { system with resultSet := resultSet, phase := .initializing }
      | (.error _, resultSet) => { system with resultSet := resultSet, phase := .failed }
  | .initializing, .deliver delivery _ =>
      match resultSet.stream with
      | none => { system with phase := .failed }
      | some messages =>
          match (receiveFirst server messages delivery).exec resultSet with
          | (.ok .ready, resultSet) => { system with resultSet := resultSet, phase := .idle }
          | (.ok .again, resultSet) => { system with resultSet := resultSet }
          | (.error _, resultSet) => { system with resultSet := resultSet, phase := .failed }
  | .idle, .call abortedInfo => system.poll resultSet abortedInfo
  | .calling, .deliver delivery abortedInfo =>
      match resultSet.stream with
      | none => system
      | some messages =>
          match (receive server messages delivery).exec resultSet with
          | (.ok (), resultSet) => system.poll resultSet abortedInfo
          | (.error error, resultSet) =>
              let (returned, resultSet) := resultSet.recordErrorAndReturn error
              ⟨resultSet, .idle, system.returned ++ [returned]⟩
  | _, _ => system

def run (system : System conversion) (events : List Event) : System conversion :=
  events.foldl (step server) system

end System

end ResultSet

end GoogleCloudRust
