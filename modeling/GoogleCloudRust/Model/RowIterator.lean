import GoogleCloudRust.Model.QueryHandle

/-! # Rows of a complete query

Model of `bigquery/src/query/iterator.rs`, of `storage_reader.rs`, and of the record batch readers
in `arrow.rs`. The Arrow decoder and the conversion of the cells are given, and so is what the
service answers: the responses of a Storage stream, and each request for a page by its number. -/

namespace GoogleCloudRust.QueryJob

variable {Struct Schema : Type}

inductive RowError
  | columnNotFound (column : String)
  | indexOutOfRange (index len : ℕ)
  | typeConversion (column sqlType source : String)
  | invalidRowFormat (message : String)
  | rpc (source : RpcError)
deriving DecidableEq, Repr

/-- The conversions of rows, and the `StreamDecoder` of Arrow: a step of `decode` returns what is
left of the buffer and of the decoder. -/
structure Codec (Struct Schema : Type) where
  SqlValue : Type
  RecordBatch : Type
  Decoder : Type
  convertRow : Struct → Schema → Except RowError (List SqlValue)
  schemaLen : Schema → ℕ
  schemaDefault : Schema
  fromArrowSchema : Bytes → Except RowError Schema
  numColumns : RecordBatch → ℕ
  numRows : RecordBatch → ℕ
  new : Decoder
  decode : Decoder → Bytes → Except String (Option RecordBatch) × Bytes × Decoder
  finish : Decoder → Except String Unit

structure ReadRowsResponse where
  /-- `serialized_schema` of an Arrow schema. -/
  schema : Option Bytes := none
  /-- `serialized_record_batch` of Arrow rows. -/
  rows : Option Bytes := none
deriving DecidableEq

structure GetQueryResultsRequest where
  projectId : String
  jobId : String
  location : Option String
  maxResults : Option ℕ
  pageToken : String
deriving DecidableEq, Repr

structure Service (Struct Schema : Type) where
  restRowThreshold : ℕ := 10000
  /-- The stream that `read_rows` opens, of a name and an offset. -/
  readRows : String → ℕ → Except RpcError (List (Except RpcError ReadRowsResponse))
  /-- The answer to a request for a page, of the number of such requests before it. -/
  getQueryResults :
    ℕ → GetQueryResultsRequest → Except RpcError (GetQueryResultsResponse Struct Schema)

variable (codec : Codec Struct Schema)

/-! ## Rows -/

inductive RowInner
  | json (values : List codec.SqlValue)
  | arrow (batch : codec.RecordBatch) (rowIdx : ℕ)

structure Row where
  inner : RowInner codec
  schema : Schema

variable {codec}

def Row.tryNew (row : Struct) (schema : Schema) : Except RowError (Row codec) := do
  let values ← codec.convertRow row schema
  return { inner := .json values, schema }

def Row.tryNewFromArrow (batch : codec.RecordBatch) (rowIdx : ℕ) (schema : Schema) :
    Except RowError (Row codec) :=
  let expected := codec.schemaLen schema
  let got := codec.numColumns batch
  let numRows := codec.numRows batch
  if got ≠ expected then
    .error (.invalidRowFormat s!"schema and row cell mismatch (expected {expected}, got {got})")
  else if rowIdx ≥ numRows then
    .error (.invalidRowFormat
      s!"row index out of bounds (row_idx {rowIdx}, num_rows {numRows})")
  else .ok { inner := .arrow batch rowIdx, schema }

/-! ## Readers of record batches -/

section

variable (codec)

/-- `ArrowStreamDecoder::set_schema_bytes`. -/
def setSchemaBytes (decoder : codec.Decoder) (schemaBytes : Bytes) :
    Except RowError codec.Decoder :=
  match codec.decode decoder schemaBytes with
  | (.ok _, _, decoder) => .ok decoder
  | (.error e, _, _) => .error (.invalidRowFormat s!"failed to decode arrow schema: {e}")

/-- `ArrowStreamDecoder::decode_buffer`, with what is left of the buffer. -/
def decodeBuffer (decoder : codec.Decoder) (buf : Bytes) :
    Except RowError (Option codec.RecordBatch × Bytes × codec.Decoder) :=
  match codec.decode decoder buf with
  | (.ok batch, rest, decoder) => .ok (batch, rest, decoder)
  | (.error e, _, _) => .error (.invalidRowFormat s!"failed to decode arrow batch: {e}")

/-- `ArrowStreamDecoder::finish`. -/
def finishDecoder (decoder : codec.Decoder) : Except RowError Unit :=
  match codec.finish decoder with
  | .ok () => .ok ()
  | .error e => .error (.invalidRowFormat s!"failed to decode arrow stream: {e}")

structure ArrowResponseReader where
  decoder : codec.Decoder
  schemaBytes : Option Bytes
  batchBuf : Bytes

inductive ReaderState
  | unopened
  | streaming (stream : List (Except RpcError ReadRowsResponse))
  | completed

structure StorageReader where
  jobRef : JobReference
  decoder : codec.Decoder
  state : ReaderState

inductive ArrowReader
  | response (reader : ArrowResponseReader codec)
  | storage (reader : StorageReader codec)

end

namespace ArrowResponseReader

def new (serializedSchema serializedRecordBatch : Bytes) : ArrowResponseReader codec where
  decoder := codec.new
  schemaBytes := some serializedSchema
  batchBuf := serializedRecordBatch

/-- The loop of `next_record_batch` and what follows it; it does not return when the fuel runs
out, that is, when the decoder consumes nothing. -/
def decodeBatches : ℕ → ArrowResponseReader codec →
    Option (Except RowError (Option codec.RecordBatch) × ArrowResponseReader codec)
  | 0, reader =>
      if reader.batchBuf = [] then
        some ((finishDecoder codec reader.decoder).map fun _ => none, reader)
      else none
  | fuel + 1, reader =>
      if reader.batchBuf = [] then
        some ((finishDecoder codec reader.decoder).map fun _ => none, reader)
      else
        match decodeBuffer codec reader.decoder reader.batchBuf with
        | .error err => some (.error err, reader)
        | .ok (some batch, batchBuf, decoder) =>
            if codec.numRows batch > 0 then
              some (.ok (some batch), { reader with batchBuf, decoder })
            else decodeBatches fuel { reader with batchBuf, decoder }
        | .ok (none, batchBuf, decoder) =>
            decodeBatches fuel { reader with batchBuf, decoder }

def nextRecordBatch (reader : ArrowResponseReader codec) :
    Option (Except RowError (Option codec.RecordBatch) × ArrowResponseReader codec) :=
  if reader.batchBuf = [] then
    some ((finishDecoder codec reader.decoder).map fun _ => none, reader)
  else
    match reader.schemaBytes with
    | some schemaBytes =>
        match setSchemaBytes codec reader.decoder schemaBytes with
        | .error err => some (.error err, { reader with schemaBytes := none })
        | .ok decoder =>
            decodeBatches reader.batchBuf.length { reader with schemaBytes := none, decoder }
    | none => decodeBatches reader.batchBuf.length reader

end ArrowResponseReader

namespace StorageReader

def new (jobRef : JobReference) : StorageReader codec where
  jobRef := jobRef
  decoder := codec.new
  state := .unopened

def streamName (jobRef : JobReference) : String :=
  let location := jobRef.location.getD "US"
  s!"projects/{jobRef.projectId}/locations/{location}/jobs/{jobRef.jobId}/streams/_default"

def completed (reader : StorageReader codec) : StorageReader codec :=
  { reader with state := .completed }

/-- The record batch of a response, and the decoder after it. -/
def decodeResponse (decoder : codec.Decoder) (response : ReadRowsResponse) :
    Except RowError (Option codec.RecordBatch × codec.Decoder) := do
  let decoder ←
    match response.schema with
    | some schemaBytes => setSchemaBytes codec decoder schemaBytes
    | none => .ok decoder
  match response.rows with
  | some batchBytes =>
      -- `decode_batch` drops what is left of the buffer.
      let (batch, _, decoder) ← decodeBuffer codec decoder batchBytes
      return (batch, decoder)
  | none => return (none, decoder)

/-- The loop of `next_record_batch` over an open stream. -/
def readStream (reader : StorageReader codec) :
    List (Except RpcError ReadRowsResponse) →
    Except RowError (Option codec.RecordBatch) × StorageReader codec
  | [] => (.ok none, reader.completed)
  | .error err :: _ => (.error (.rpc err), reader.completed)
  | .ok response :: stream =>
      match decodeResponse reader.decoder response with
      | .error err => (.error err, reader.completed)
      | .ok (some batch, decoder) =>
          if codec.numRows batch > 0 then
            (.ok (some batch), { reader with decoder, state := .streaming stream })
          else readStream { reader with decoder } stream
      | .ok (none, decoder) => readStream { reader with decoder } stream

def nextRecordBatch (service : Service Struct Schema) (reader : StorageReader codec) :
    Except RowError (Option codec.RecordBatch) × StorageReader codec :=
  match reader.state with
  | .completed => (.ok none, reader)
  | .unopened =>
      match service.readRows (streamName reader.jobRef) 0 with
      | .error err => (.error (.rpc err), reader.completed)
      | .ok stream => reader.readStream stream
  | .streaming stream => reader.readStream stream

end StorageReader

def ArrowReader.nextRecordBatch (service : Service Struct Schema) :
    ArrowReader codec →
    Option (Except RowError (Option codec.RecordBatch) × ArrowReader codec)
  | .response reader => reader.nextRecordBatch.map fun (batch, reader) => (batch, .response reader)
  | .storage reader =>
      let (batch, reader) := reader.nextRecordBatch service
      some (batch, .storage reader)

/-! ## The iterator -/

variable (codec)

structure RowIterator where
  jobRef : Option JobReference
  schema : Schema
  pageToken : Option String
  currentBatch : Option codec.RecordBatch
  rowIndex : ℕ
  rows : List Struct
  pageSize : Option ℕ
  arrowReader : Option (ArrowReader codec)

/-- What a call of `next` comes to; it counts the requests for pages. -/
inductive Outcome
  | returned (result : Option (Except RowError (Row codec))) (iterator : RowIterator codec)
      (calls : ℕ)
  /-- The iteration ends with the loop going on, or the fuel of the loop runs out. -/
  | running (iterator : RowIterator codec) (calls : ℕ)
  /-- There is a page token and no job reference. -/
  | panicked
  /-- A reader does not return. -/
  | stuck

variable {codec}

namespace RowIterator

def extractSchema (codec : Codec Struct Schema) (q : CompleteQuery Struct Schema) : Schema :=
  match q.cachedData with
  | .arrow _ serializedSchema =>
      if serializedSchema ≠ [] then
        (codec.fromArrowSchema serializedSchema).toOption.getD codec.schemaDefault
      else q.metadata.schema.getD codec.schemaDefault
  | .rows _ => q.metadata.schema.getD codec.schemaDefault

def makeStorageReader (service : Service Struct Schema) (q : CompleteQuery Struct Schema) :
    Option (ArrowReader codec) :=
  match q.readClient, q.jobRef with
  | true, some jobRef =>
      let hasCached : Bool :=
        match q.cachedData with
        | .rows rows => !rows.isEmpty
        | .arrow serializedRecordBatch _ => !serializedRecordBatch.isEmpty
      let hasRemainingRows :=
        q.pageToken.isSome || (!hasCached && q.metadata.totalRows.getD 0 > 0)
      let exceedsRestThreshold :=
        match q.metadata.totalRows with
        | none => true
        | some r => r > service.restRowThreshold
      if hasRemainingRows && exceedsRestThreshold then some (.storage (.new jobRef)) else none
  | _, _ => none

def new (codec : Codec Struct Schema) (service : Service Struct Schema)
    (q : CompleteQuery Struct Schema) : RowIterator codec :=
  let schema := extractSchema codec q
  let (rows, pageToken, arrowReader) :
      List Struct × Option String × Option (ArrowReader codec) :=
    match makeStorageReader service q with
    | some reader => ([], none, some reader)
    | none =>
        match q.cachedData with
        | .rows rows => (rows, q.pageToken, none)
        | .arrow serializedRecordBatch serializedSchema =>
            ([], q.pageToken, some (.response (.new serializedSchema serializedRecordBatch)))
  { jobRef := q.jobRef, schema, pageToken, currentBatch := none, rowIndex := 0, rows
    pageSize := q.pageSize, arrowReader }

def setPageSize (it : RowIterator codec) (pageSize : ℕ) : RowIterator codec :=
  { it with pageSize := some pageSize }

/-- The rows of the next page and its page token. -/
def fetchPage (service : Service Struct Schema) (calls : ℕ) (jobRef : JobReference)
    (pageSize : Option ℕ) (token : String) : Except RowError (List Struct × Option String) :=
  let req : GetQueryResultsRequest :=
    { projectId := jobRef.projectId, jobId := jobRef.jobId, location := jobRef.location
      maxResults := pageSize, pageToken := token }
  match service.getQueryResults calls req with
  | .error source => .error (.rpc source)
  | .ok res => .ok (res.rows, if res.pageToken.isEmpty then none else some res.pageToken)

/-- `try_fetch_page` and what follows it in the loop. -/
def tryFetchPage (service : Service Struct Schema) (it : RowIterator codec) (calls : ℕ) :
    Outcome codec :=
  match it.pageToken with
  | none =>
      if it.rows.isEmpty then .returned none it calls else .running it calls
  | some token =>
      match it.jobRef with
      | none => .panicked
      | some jobRef =>
          match fetchPage service calls jobRef it.pageSize token with
          | .error e => .returned (some (.error e)) it (calls + 1)
          | .ok (fetchedRows, nextToken) =>
              let it :=
                if fetchedRows.isEmpty ∧ nextToken = some token then { it with pageToken := none }
                else { it with pageToken := nextToken, rows := it.rows ++ fetchedRows }
              if it.rows.isEmpty ∧ it.pageToken.isNone then .returned none it (calls + 1)
              else .running it (calls + 1)

/-- The part of the loop after the record batches. -/
def popRow (service : Service Struct Schema) (it : RowIterator codec) (calls : ℕ) :
    Outcome codec :=
  match it.rows with
  | rawRow :: rows => .returned (some (Row.tryNew rawRow it.schema)) { it with rows } calls
  | [] => it.tryFetchPage service calls

/-- The part of the loop after the current batch. -/
def readBatch (service : Service Struct Schema) (it : RowIterator codec) (calls : ℕ) :
    Outcome codec :=
  match it.arrowReader with
  | none => it.popRow service calls
  | some arrowReader =>
      match arrowReader.nextRecordBatch service with
      | none => .stuck
      | some (.ok (some batch), arrowReader) =>
          .running { it with arrowReader := some arrowReader, currentBatch := some batch
                             rowIndex := 0 } calls
      | some (.ok none, _) => popRow service { it with arrowReader := none } calls
      | some (.error err, _) =>
          .returned (some (.error err)) { it with arrowReader := none } calls

/-- An iteration of the loop of `next`. -/
def iteration (service : Service Struct Schema) (it : RowIterator codec) (calls : ℕ) :
    Outcome codec :=
  match it.currentBatch with
  | some batch =>
      if it.rowIndex < codec.numRows batch then
        .returned (some (Row.tryNewFromArrow batch it.rowIndex it.schema))
          { it with rowIndex := it.rowIndex + 1 } calls
      else readBatch service { it with currentBatch := none, rowIndex := 0 } calls
  | none => it.readBatch service calls

/-- `next`, with the iterations its loop may take. -/
def next (service : Service Struct Schema) : ℕ → RowIterator codec → ℕ → Outcome codec
  | 0, it, calls => .running it calls
  | fuel + 1, it, calls =>
      match it.iteration service calls with
      | .running it calls => next service fuel it calls
      | outcome => outcome

end RowIterator

end GoogleCloudRust.QueryJob
