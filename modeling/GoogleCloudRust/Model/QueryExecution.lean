import GoogleCloudRust.Model.QueryHandle

/-! # Execution of queries

Model of `bigquery/src/query/execution.rs`, of `Query::send` and of `until_done`. The requests of
one attempt are given with their answers. The life of a query is a run of events: an attempt of
`execute`, the call of `until_done`, and the answers to its polls. -/

namespace GoogleCloudRust.QueryJob

variable {Struct Schema : Type}

/-! ## The job named by a duplicate job error -/

/-- `str::split_at_checked`: the middle is a number of bytes. -/
def splitAtChecked (mid : ℕ) (text : List Char) : Option (List Char × List Char) :=
  match mid, text with
  | 0, text => some ([], text)
  | _ + 1, [] => none
  | mid + 1, c :: text =>
      if c.utf8Size ≤ mid + 1 then
        (splitAtChecked (mid + 1 - c.utf8Size) text).map fun (front, back) => (c :: front, back)
      else none
termination_by structural text

/-- `str::eq_ignore_ascii_case`. -/
def eqIgnoreAsciiCase (a b : List Char) : Bool :=
  a.map Char.toLower = b.map Char.toLower

def parseJobName (name : List Char) : Option JobReference := do
  let (projectId, rest) ←
    match ← Text.splitOnce ':' name with
    | (domain, rest) =>
        if '.' ∈ domain then
          (Text.splitOnce ':' rest).map fun (projectId, rest) =>
            (domain ++ ':' :: projectId, rest)
        else some (domain, rest)
  let (location, jobId) : Option (List Char) × List Char :=
    match Text.splitOnce '.' rest with
    | some (location, jobId) => (some location, jobId)
    | none => (none, rest)
  if projectId = [] ∨ jobId = [] ∨ ':' ∈ jobId ∨ location = some [] then none
  else
    some { projectId := .ofList projectId, jobId := .ofList jobId
           location := location.map .ofList }

def parseDuplicateJobReference : QueryError → Option JobReference
  | .rpc source => do
      let status ← source.status
      let message := status.message.toList.dropWhile Text.isWhitespace
      let front := "already exists: job ".toList
      let (start, name) ← splitAtChecked front.length message
      if !eqIgnoreAsciiCase start front then none
      else parseJobName (← (Text.splitWhitespace name).head?)
  | _ => none

/-! ## Attempts -/

/-- What the service answers to the requests an attempt may make. -/
structure Attempt (Struct Schema : Type) where
  /-- The id generated for the job. -/
  jobId : String
  /-- The answer to `jobs.insert`. -/
  insertJob : Except RpcError (Job Schema)
  /-- The answer to `jobs.query`. -/
  postQuery : Except RpcError (QueryResponse Struct Schema)
  /-- The answer to `jobs.get`. -/
  getJob : Except RpcError (Job Schema)

def checkJobStatus (job : Job Schema) : Except QueryError (Job Schema) :=
  match job.status with
  | some status =>
      if status.errorResult.isSome then .error (.jobFailed status.errors) else .ok job
  | none => .ok job

/-- `PostQueryExecutor::execute`. -/
def executePostQuery (answer : Except RpcError (QueryResponse Struct Schema)) :
    Except QueryError (QueryResponse Struct Schema) :=
  match answer with
  | .error source => .error (.rpc source)
  | .ok res => if res.errors.isEmpty then .ok res else .error (.jobFailed res.errors)

/-- `InsertJobExecutor::execute` of a job configuration that may have no query. -/
def executeInsertJob (isQuery : Bool) (answer : Except RpcError (Job Schema)) :
    Except QueryError (Job Schema) :=
  if !isQuery then .error .unsupportedJobType
  else
    match answer with
    | .error source => .error (.rpc source)
    | .ok res => checkJobStatus res

/-- `build_get_job` and the answer to its request, without the error. -/
def sendGetJob (jobRef : JobReference) (answer : Except RpcError (Job Schema)) :
    Option (Job Schema) :=
  if jobRef.jobId.isEmpty then none else answer.toOption

def generateJobReference (projectId location jobId : String) : JobReference where
  projectId := projectId
  jobId := jobId
  location := if location.isEmpty then none else some location

namespace RetryContext

def new (template : QueryBuilder) : RetryContext := { template }

def onError (ctx : RetryContext) (error : QueryError) : JobRetryResult :=
  ctx.template.jobRetryPolicy.onError ctx.attemptCount error

/-- Whether the query uses `jobs.insert`. -/
def forceJobPath (ctx : RetryContext) : Bool :=
  ctx.template.forceJobPath || ctx.template.dryRun

/-- The job of a duplicate job error: `none` when no `jobs.get` succeeds. -/
def existingJob (ctx : RetryContext) (attempt : Attempt Struct Schema) (error : QueryError) :
    Option (Job Schema) :=
  let jobRef :=
    if ctx.forceJobPath then
      some (generateJobReference (ctx.template.projectId.getD "") ctx.template.location
        attempt.jobId)
    else parseDuplicateJobReference error
  jobRef.bind fun jobRef => sendGetJob jobRef attempt.getJob

def fromJob (ctx : RetryContext) (job : Job Schema) : Query Struct Schema :=
  .fromJob job (some ctx) ctx.template.pageSize ctx.template.readClient

def executeJobsInsert (ctx : RetryContext) (attempt : Attempt Struct Schema) :
    Except QueryError (Query Struct Schema) := do
  -- The configuration made from a query request always has a query.
  let job ←
    match executeInsertJob true attempt.insertJob with
    | .ok job => .ok job
    | .error err =>
        if isDuplicateJobError err then
          match ctx.existingJob attempt err with
          | some existingJob => checkJobStatus existingJob
          | none => .error err
        else .error err
  return ctx.fromJob job

def executeJobsQuery (ctx : RetryContext) (attempt : Attempt Struct Schema) :
    Except QueryError (Query Struct Schema) :=
  match executePostQuery attempt.postQuery with
  | .ok res =>
      .ok (.fromQueryResponse res (some ctx) ctx.template.pageSize ctx.template.readClient)
  | .error err =>
      if isDuplicateJobError err then
        match ctx.existingJob attempt err with
        | some existingJob => do return ctx.fromJob (← checkJobStatus existingJob)
        | none => .error err
      else .error err

def executeOnce (ctx : RetryContext) (attempt : Attempt Struct Schema) :
    Except QueryError (Query Struct Schema) :=
  if ctx.forceJobPath then ctx.executeJobsInsert attempt else ctx.executeJobsQuery attempt

end RetryContext

/-! ## The life of a query -/

/-- Where a query stands. -/
inductive Stage (Struct Schema : Type)
  /-- In the loop of `execute`, before an attempt; in `until_done` when the query is reissued. -/
  | executing (ctx : RetryContext) (reissued : Bool)
  /-- `send` has returned the handle. -/
  | sent (handle : Query Struct Schema)
  /-- In `poll_query_results` of `until_done`. -/
  | polling (handle : Query Struct Schema) (jobRef : JobReference)
  | complete (query : CompleteQuery Struct Schema)
  | failed (error : QueryError)
  /-- A handle without a job reference is polled. -/
  | panicked

/-- What happens to the jobs of a query: a new one is requested, or the last one fails. -/
inductive Entry
  | requested
  | failed (error : QueryError)
deriving DecidableEq, Repr

structure Life (Struct Schema : Type) where
  stage : Stage Struct Schema
  log : List Entry := []

inductive Event (Struct Schema : Type)
  | attempt (attempt : Attempt Struct Schema)
  /-- The call of `until_done` on the handle that was sent. -/
  | untilDone
  | poll (answer : Except RpcError (GetQueryResultsResponse Struct Schema))

namespace Life

/-- `Query::send`, up to the first attempt. -/
def send (query : QueryBuilder) : Life Struct Schema where
  stage := .executing (.new query) false

def requests (life : Life Struct Schema) : ℕ := life.log.count .requested

/-- The loop of `until_done`, up to the poll. -/
def untilDone (handle : Query Struct Schema) : Stage Struct Schema :=
  match handle.completed, handle.cachedData, handle.metadata.jobReference with
  | true, some cachedData, _ =>
      .complete (.fromQueryMetadata handle.metadata cachedData handle.pageSize handle.readClient)
  | _, _, some jobRef => .polling handle jobRef
  | _, _, none => .panicked

/-- What follows an error of a job whose handle, or whose attempt, has the context. -/
def onError (ctx : RetryContext) (error : QueryError) (reissued : Bool) : Stage Struct Schema :=
  match ctx.onError error with
  | .continue _ => .executing ctx reissued
  | .permanent e => .failed e
  | .exhausted e => .failed e

/-- An iteration of the loop of `execute`. -/
def execute (life : Life Struct Schema) (ctx : RetryContext) (reissued : Bool)
    (attempt : Attempt Struct Schema) : Life Struct Schema :=
  let ctx := { ctx with attemptCount := ctx.attemptCount + 1 }
  let log := life.log ++ [.requested]
  match ctx.executeOnce attempt with
  | .ok handle => { stage := if reissued then untilDone handle else .sent handle, log }
  | .error err => { stage := onError ctx err reissued, log := log ++ [.failed err] }

/-- An iteration of the loop of `poll_query_results`; `none` while the job is not complete. -/
def pollQueryResults (answer : Except RpcError (GetQueryResultsResponse Struct Schema)) :
    Option (Except QueryError (GetQueryResultsResponse Struct Schema)) :=
  match answer with
  | .error source => some (.error (.rpc source))
  | .ok res =>
      if !res.errors.isEmpty then some (.error (.jobFailed res.errors))
      else if res.jobComplete.getD false then some (.ok res)
      else none

def poll (life : Life Struct Schema) (handle : Query Struct Schema) (jobRef : JobReference)
    (answer : Except RpcError (GetQueryResultsResponse Struct Schema)) : Life Struct Schema :=
  match pollQueryResults answer with
  | none => life
  | some (.ok res) =>
      { life with stage := .complete (.fromGetQueryResultsResponse jobRef res handle.metadata
          handle.pageSize handle.readClient) }
  | some (.error err) =>
      { stage :=
          match handle.retryContext with
          | none => .failed err
          | some ctx => onError ctx err true
        log := life.log ++ [.failed err] }

/-- An event that the stage does not wait for leaves the query as it is. -/
def step (life : Life Struct Schema) : Event Struct Schema → Life Struct Schema
  | .attempt attempt =>
      match life.stage with
      | .executing ctx reissued => life.execute ctx reissued attempt
      | _ => life
  | .untilDone =>
      match life.stage with
      | .sent handle =>
          { life with stage := if handle.isDryRun then .failed .dryRun else untilDone handle }
      | _ => life
  | .poll answer =>
      match life.stage with
      | .polling handle jobRef => life.poll handle jobRef answer
      | _ => life

def run (life : Life Struct Schema) (events : List (Event Struct Schema)) : Life Struct Schema :=
  events.foldl step life

end Life

end GoogleCloudRust.QueryJob
