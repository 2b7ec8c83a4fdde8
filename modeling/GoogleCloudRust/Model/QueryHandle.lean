import GoogleCloudRust.Model.RetryPolicy
import GoogleCloudRust.Library.Text

/-! # Query handles

Model of `bigquery/src/query/query_handle.rs`, of the errors of a query in `error.rs` and of the
job retry policy in `retry_policy.rs`. Of the messages of the service only the fields that a query
or its rows depend on are kept, and of an RPC error what its accessors return. -/

namespace GoogleCloudRust.QueryJob

/-! ## Messages of the service -/

structure ErrorProto where
  reason : String
  message : String := ""
deriving DecidableEq, Repr

structure JobReference where
  projectId : String
  jobId : String
  location : Option String := none
deriving DecidableEq, Repr

structure JobStatus where
  state : String
  errorResult : Option ErrorProto := none
  errors : List ErrorProto := []
deriving DecidableEq, Repr

structure JobConfiguration where
  dryRun : Option Bool
deriving DecidableEq, Repr

structure Job (Schema : Type) where
  jobReference : Option JobReference := none
  configuration : Option JobConfiguration := none
  status : Option JobStatus := none
  /-- The schema in the query statistics. -/
  schema : Option Schema := none
deriving DecidableEq

abbrev Bytes := List UInt8

inductive CachedData (Struct : Type)
  | rows (rows : List Struct)
  | arrow (serializedRecordBatch serializedSchema : Bytes)
deriving DecidableEq

structure QueryResponse (Struct Schema : Type) where
  jobComplete : Option Bool := none
  errors : List ErrorProto := []
  jobReference : Option JobReference := none
  /-- `serialized_schema` of an Arrow `results_schema`. -/
  resultsSchema : Option Bytes := none
  /-- `serialized_record_batch` of Arrow `results`. -/
  results : Option Bytes := none
  rows : List Struct := []
  schema : Option Schema := none
  totalRows : Option ℕ := none
  pageToken : String := ""
deriving DecidableEq

structure GetQueryResultsResponse (Struct Schema : Type) where
  jobComplete : Option Bool := none
  errors : List ErrorProto := []
  jobReference : Option JobReference := none
  rows : List Struct := []
  schema : Option Schema := none
  totalRows : Option ℕ := none
  pageToken : String := ""
deriving DecidableEq

/-! ## Errors -/

inductive StatusDetails
  | errorInfo (reason : String)
  | other
deriving DecidableEq, Repr

structure Status where
  code : Gax.Code
  message : String := ""
  details : List StatusDetails := []
deriving DecidableEq, Repr

structure RpcError where
  httpStatusCode : Option ℕ := none
  status : Option Status := none
deriving DecidableEq, Repr

inductive QueryError
  | unsupportedJobType
  | dryRun
  | jobFailed (errors : List ErrorProto)
  | rpc (source : RpcError)
deriving DecidableEq, Repr

/-! ## Job retry policy -/

def isRetryableErrorReason (reason : String) : Bool :=
  reason ∈ ["backendError", "jobBackendError", "rateLimitExceeded", "jobRateLimitExceeded",
    "internalError", "jobInternalError"]

def isRetryableErrors (errors : List ErrorProto) : Bool :=
  !errors.isEmpty && errors.all fun e => isRetryableErrorReason e.reason

def isRpcErrorRetryable (error : RpcError) : Bool :=
  match error.status with
  | some status =>
      status.details.any fun
        | .errorInfo reason => isRetryableErrorReason reason
        | .other => false
  | none => false

def isQueryErrorRetryable : QueryError → Bool
  | .jobFailed errors => isRetryableErrors errors
  | .rpc source => isRpcErrorRetryable source
  | _ => false

def isDuplicateJobError : QueryError → Bool
  | .rpc source =>
      source.httpStatusCode = some 409 || source.status.any fun s => s.code = .alreadyExists
  | _ => false

inductive JobRetryResult
  | continue (error : QueryError)
  | exhausted (error : QueryError)
  | permanent (error : QueryError)
deriving DecidableEq, Repr

structure RetryableJobErrors where
  attemptLimit : ℕ := 3
deriving DecidableEq, Repr

/-- `on_error`, without the delay. -/
def RetryableJobErrors.onError (policy : RetryableJobErrors) (attemptCount : ℕ)
    (error : QueryError) : JobRetryResult :=
  if !isQueryErrorRetryable error then .permanent error
  else if attemptCount ≥ policy.attemptLimit then .exhausted error
  else .continue error

/-! ## Handles -/

/-- The builder of a query: what its requests and its handles are made from. -/
structure QueryBuilder where
  projectId : Option String := none
  location : String := ""
  /-- A field that only `jobs.insert` has is set in the request. -/
  forceJobPath : Bool := false
  dryRun : Bool := false
  pageSize : Option ℕ := none
  readClient : Bool := false
  jobRetryPolicy : RetryableJobErrors := {}
deriving DecidableEq, Repr

structure RetryContext where
  template : QueryBuilder
  attemptCount : ℕ := 0
deriving DecidableEq, Repr

structure QueryMetadata (Schema : Type) where
  configuration : Option JobConfiguration := none
  jobReference : Option JobReference := none
  schema : Option Schema := none
  totalRows : Option ℕ := none
  pageToken : String := ""
deriving DecidableEq

structure Query (Struct Schema : Type) where
  completed : Bool
  metadata : QueryMetadata Schema
  cachedData : Option (CachedData Struct)
  pageSize : Option ℕ
  readClient : Bool
  retryContext : Option RetryContext
deriving DecidableEq

structure CompleteQueryMetadata (Schema : Type) where
  jobReference : Option JobReference
  schema : Option Schema
  totalRows : Option ℕ
  pageToken : String
deriving DecidableEq

structure CompleteQuery (Struct Schema : Type) where
  readClient : Bool
  jobRef : Option JobReference
  cachedData : CachedData Struct
  pageToken : Option String
  metadata : CompleteQueryMetadata Schema
  pageSize : Option ℕ
deriving DecidableEq

section

variable {Struct Schema : Type}

def buildQueryMetadataFromJob (resp : Job Schema) : QueryMetadata Schema where
  configuration := resp.configuration
  jobReference := resp.jobReference
  schema := resp.schema

def QueryMetadata.ofQueryResponse (resp : QueryResponse Struct Schema) : QueryMetadata Schema where
  jobReference := resp.jobReference
  schema := resp.schema
  totalRows := resp.totalRows
  pageToken := resp.pageToken

def CompleteQueryMetadata.ofQueryMetadata (md : QueryMetadata Schema) :
    CompleteQueryMetadata Schema where
  jobReference := md.jobReference
  schema := md.schema
  totalRows := md.totalRows
  pageToken := md.pageToken

def buildCompleteQueryMetadataFromGetQueryResults (initialMetadata : QueryMetadata Schema)
    (res : GetQueryResultsResponse Struct Schema) : CompleteQueryMetadata Schema :=
  let metadata := CompleteQueryMetadata.ofQueryMetadata initialMetadata
  { jobReference := res.jobReference.or metadata.jobReference
    schema := res.schema.or metadata.schema
    totalRows := res.totalRows.or metadata.totalRows
    pageToken := if res.pageToken.isEmpty then metadata.pageToken else res.pageToken }

namespace CompleteQuery

def fromCompleteMetadata (jobRef : Option JobReference) (metadata : CompleteQueryMetadata Schema)
    (cachedData : CachedData Struct) (pageSize : Option ℕ) (readClient : Bool) :
    CompleteQuery Struct Schema :=
  { readClient, jobRef, cachedData
    pageToken := if metadata.pageToken.isEmpty then none else some metadata.pageToken
    metadata, pageSize }

def fromGetQueryResultsResponse (jobRef : JobReference)
    (res : GetQueryResultsResponse Struct Schema) (initialMetadata : QueryMetadata Schema)
    (pageSize : Option ℕ) (readClient : Bool) : CompleteQuery Struct Schema :=
  let metadata := buildCompleteQueryMetadataFromGetQueryResults initialMetadata res
  fromCompleteMetadata (some jobRef) metadata (.rows res.rows) pageSize readClient

def fromQueryMetadata (metadata : QueryMetadata Schema) (cachedData : CachedData Struct)
    (pageSize : Option ℕ) (readClient : Bool) : CompleteQuery Struct Schema :=
  fromCompleteMetadata metadata.jobReference (.ofQueryMetadata metadata) cachedData pageSize
    readClient

end CompleteQuery

namespace Query

def fromJob (initialJob : Job Schema) (retryContext : Option RetryContext) (pageSize : Option ℕ)
    (readClient : Bool) : Query Struct Schema :=
  let completed := (initialJob.status.map fun s => decide (s.state = "DONE")).getD false
  { completed
    metadata := buildQueryMetadataFromJob initialJob
    cachedData := none
    pageSize, readClient
    retryContext := retryContext.filter fun _ => !completed }

def fromQueryResponse (queryResponse : QueryResponse Struct Schema)
    (retryContext : Option RetryContext) (pageSize : Option ℕ) (readClient : Bool) :
    Query Struct Schema :=
  let completed := queryResponse.jobComplete.getD false
  let cachedData : CachedData Struct :=
    match queryResponse.resultsSchema, queryResponse.results with
    | some schema, some results => .arrow results schema
    | _, _ => .rows queryResponse.rows
  { completed
    metadata := .ofQueryResponse queryResponse
    cachedData := some cachedData
    pageSize, readClient
    retryContext := retryContext.filter fun _ => !completed }

def isDryRun (query : Query Struct Schema) : Bool :=
  (query.metadata.configuration.bind JobConfiguration.dryRun).getD false

end Query

end

end GoogleCloudRust.QueryJob
