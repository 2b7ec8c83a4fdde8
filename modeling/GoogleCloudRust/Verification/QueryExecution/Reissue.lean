import GoogleCloudRust.Model.QueryExecution

/-! # Reissued queries

Every request for a new job but the first follows a retryable error of the last job, and the count
of the attempts goes with the context into the handle and back, so that it is the number of jobs
requested. -/

namespace GoogleCloudRust.QueryJob

variable {Struct Schema : Type}

/-! ## Attempts -/

/-- The context of a handle: none once the job is complete, else the one it was made with. -/
structure Keeps (ctx : RetryContext) (handle : Query Struct Schema) : Prop where
  completed : handle.completed = true → handle.retryContext = none
  context : ∀ c ∈ handle.retryContext, c = ctx

theorem fromJob_keeps (ctx : RetryContext) (job : Job Schema) :
    Keeps ctx (ctx.fromJob job : Query Struct Schema) where
  completed h := by
    simp only [RetryContext.fromJob, Query.fromJob] at h ⊢
    simp [h]
  context c hc := by
    simp only [RetryContext.fromJob, Query.fromJob, Option.mem_def, Option.filter_eq_some_iff,
      Option.some.injEq] at hc
    exact hc.1.symm

theorem fromQueryResponse_keeps (ctx : RetryContext) (res : QueryResponse Struct Schema)
    (pageSize : Option ℕ) (readClient : Bool) :
    Keeps ctx (.fromQueryResponse res (some ctx) pageSize readClient) where
  completed h := by
    simp only [Query.fromQueryResponse] at h ⊢
    simp [h]
  context c hc := by
    simp only [Query.fromQueryResponse, Option.mem_def, Option.filter_eq_some_iff,
      Option.some.injEq] at hc
    exact hc.1.symm

namespace RetryContext

/-- What the request for a new job returns, with the handle made from its answer. -/
def submission (ctx : RetryContext) (attempt : Attempt Struct Schema) :
    Except QueryError (Query Struct Schema) :=
  if ctx.forceJobPath then (executeInsertJob true attempt.insertJob).map ctx.fromJob
  else
    (executePostQuery attempt.postQuery).map fun res =>
      .fromQueryResponse res (some ctx) ctx.template.pageSize ctx.template.readClient

/-- Both paths handle the errors of the request in the same way. -/
theorem executeOnce_eq (ctx : RetryContext) (attempt : Attempt Struct Schema) :
    ctx.executeOnce attempt =
      match ctx.submission attempt with
      | .ok handle => .ok handle
      | .error err =>
          if isDuplicateJobError err then
            match ctx.existingJob attempt err with
            | some job => (checkJobStatus job).map ctx.fromJob
            | none => .error err
          else .error err := by
  by_cases hpath : ctx.forceJobPath = true
  · cases hinsert : executeInsertJob true attempt.insertJob with
    | ok job => simp [executeOnce, executeJobsInsert, submission, hpath, hinsert, bind,
        Except.bind, Except.map, pure, Except.pure]
    | error err =>
      simp only [executeOnce, executeJobsInsert, submission, hpath, hinsert, if_true, Except.map]
      by_cases hduplicate : isDuplicateJobError err = true
      · cases hjob : ctx.existingJob attempt err with
        | none => simp [hduplicate, bind, Except.bind]
        | some job =>
          cases checkJobStatus job <;>
            simp [hduplicate, bind, Except.bind, pure, Except.pure]
      · simp [hduplicate, bind, Except.bind]
  · cases hpost : executePostQuery attempt.postQuery with
    | ok res => simp [executeOnce, executeJobsQuery, submission, hpath, hpost, Except.map]
    | error err =>
      simp only [executeOnce, executeJobsQuery, submission, hpath, hpost, Bool.false_eq_true,
        if_false, Except.map]
      by_cases hduplicate : isDuplicateJobError err = true
      · cases hjob : ctx.existingJob attempt err with
        | none => simp [hduplicate]
        | some job =>
          cases checkJobStatus job <;>
            simp [hduplicate, bind, Except.bind, pure, Except.pure]
      · simp [hduplicate]

theorem submission_keeps {ctx : RetryContext} {attempt : Attempt Struct Schema}
    {handle : Query Struct Schema} (h : ctx.submission attempt = .ok handle) :
    Keeps ctx handle := by
  by_cases hpath : ctx.forceJobPath = true
  · cases hinsert : executeInsertJob true attempt.insertJob with
    | error err => simp [submission, hpath, hinsert, Except.map] at h
    | ok job =>
      have hhandle : ctx.fromJob job = handle := by
        simpa [submission, hpath, hinsert, Except.map] using h
      exact hhandle ▸ fromJob_keeps ctx job
  · cases hpost : executePostQuery attempt.postQuery with
    | error err => simp [submission, hpath, hpost, Except.map] at h
    | ok res =>
      simp only [submission, hpath, hpost, Except.map, Bool.false_eq_true, if_false,
        Except.ok.injEq] at h
      exact h ▸ fromQueryResponse_keeps ctx res _ _

theorem executeOnce_keeps {ctx : RetryContext} {attempt : Attempt Struct Schema}
    {handle : Query Struct Schema} (h : ctx.executeOnce attempt = .ok handle) :
    Keeps ctx handle := by
  rw [executeOnce_eq] at h
  cases hsubmission : ctx.submission attempt with
  | ok handle' =>
    have hhandle : handle' = handle := by simpa [hsubmission] using h
    exact submission_keeps (hhandle ▸ hsubmission)
  | error err =>
    by_cases hduplicate : isDuplicateJobError err = true
    · cases hjob : ctx.existingJob attempt err with
      | none => simp [hsubmission, hduplicate, hjob] at h
      | some job =>
        cases hstatus : checkJobStatus job with
        | error e => simp [hsubmission, hduplicate, hjob, hstatus, Except.map] at h
        | ok job' =>
          have hhandle : ctx.fromJob job' = handle := by
            simpa [hsubmission, hduplicate, hjob, hstatus, Except.map] using h
          exact hhandle ▸ fromJob_keeps ctx job'
    · simp [hsubmission, hduplicate] at h

/-- What follows an error: another attempt only when it is retryable and the limit allows. -/
theorem onError_spec (ctx : RetryContext) (err : QueryError) :
    (ctx.onError err = .continue err ∧ isQueryErrorRetryable err = true ∧
      ctx.attemptCount < ctx.template.jobRetryPolicy.attemptLimit) ∨
    ctx.onError err = .permanent err ∨ ctx.onError err = .exhausted err := by
  simp only [onError, RetryableJobErrors.onError]
  by_cases hretryable : isQueryErrorRetryable err = true
  · by_cases hlimit : ctx.attemptCount ≥ ctx.template.jobRetryPolicy.attemptLimit
    · simp [hretryable, hlimit]
    · simp only [hretryable, hlimit, Bool.not_true, Bool.false_eq_true, if_false, true_and]
      exact .inl (by omega)
  · simp [hretryable]

end RetryContext

/-! ## Runs -/

/-- Every request but the first follows at once a retryable error of the last job. -/
def Justified (log : List Entry) : Prop :=
  ∀ i, log[i + 1]? = some .requested →
    ∃ err, log[i]? = some (.failed err) ∧ isQueryErrorRetryable err = true

theorem Justified.append_failed {log : List Entry} (h : Justified log) (err : QueryError) :
    Justified (log ++ [.failed err]) := by
  intro i hi
  rw [List.getElem?_append] at hi
  split_ifs at hi with hlt
  · rw [List.getElem?_append_left (by omega)]
    exact h i hi
  · have hsome := List.mem_of_getElem? hi
    simp at hsome

theorem Justified.append_requested {log : List Entry} (h : Justified log)
    (hlast : log = [] ∨ ∃ err, log.getLast? = some (.failed err) ∧
      isQueryErrorRetryable err = true) : Justified (log ++ [.requested]) := by
  intro i hi
  rw [List.getElem?_append] at hi
  split_ifs at hi with hlt
  · rw [List.getElem?_append_left (by omega)]
    exact h i hi
  · have hi : i + 1 = log.length := by
      have hbound := (List.getElem?_eq_some_iff.1 hi).1
      simp only [List.length_singleton] at hbound
      omega
    rcases hlast with rfl | ⟨err, hlast, hretryable⟩
    · simp at hi
    · refine ⟨err, ?_, hretryable⟩
      rw [List.getElem?_append_left (by omega), ← hlast, List.getLast?_eq_getElem?]
      congr 1
      omega

namespace Life

/-- The handle of the last job. -/
def handle (life : Life Struct Schema) : Option (Query Struct Schema) :=
  match life.stage with
  | .sent handle => some handle
  | .polling handle _ => some handle
  | _ => none

/-- The context counts the jobs requested. -/
def Counts (query : QueryBuilder) (requests : ℕ) (ctx : RetryContext) : Prop :=
  ctx.template = query ∧ ctx.attemptCount = requests

/-- What holds of a query between two events. -/
structure Sound (query : QueryBuilder) (life : Life Struct Schema) : Prop where
  bounded : life.requests ≤ max 1 query.jobRetryPolicy.attemptLimit
  justified : Justified life.log
  executing : ∀ ctx reissued, life.stage = .executing ctx reissued →
    Counts query life.requests ctx ∧
      (life.log = [] ∨ life.requests < query.jobRetryPolicy.attemptLimit ∧
        ∃ err, life.log.getLast? = some (.failed err) ∧ isQueryErrorRetryable err = true)
  handle : ∀ handle ∈ life.handle, (handle.completed = true → handle.retryContext = none) ∧
    ∀ ctx ∈ handle.retryContext, Counts query life.requests ctx

theorem sound_send (query : QueryBuilder) : (send query : Life Struct Schema).Sound query where
  bounded := by simp [send, requests]
  justified := by
    intro i hi
    simp [send] at hi
  executing := by
    intro ctx reissued h
    simp only [send, Stage.executing.injEq] at h
    exact ⟨by simp [Counts, ← h.1, RetryContext.new, requests, send], .inl rfl⟩
  handle := by simp [Life.handle, send]

/-- The stage after an error of the last job. -/
theorem onError_stage (ctx : RetryContext) (err : QueryError) (reissued : Bool)
    {stage : Stage Struct Schema} (hstage : onError ctx err reissued = stage) :
    (stage = .executing ctx reissued ∧ isQueryErrorRetryable err = true ∧
      ctx.attemptCount < ctx.template.jobRetryPolicy.attemptLimit) ∨ stage = .failed err := by
  subst hstage
  rcases ctx.onError_spec err with ⟨h, hretryable, hlimit⟩ | h | h
  · exact .inl ⟨by simp [onError, h], hretryable, hlimit⟩
  · exact .inr (by simp [onError, h])
  · exact .inr (by simp [onError, h])

theorem sound_failed {query : QueryBuilder} {log : List Entry} {err : QueryError}
    (hbound : log.count .requested ≤ max 1 query.jobRetryPolicy.attemptLimit)
    (hjustified : Justified log) : Sound query (⟨.failed err, log⟩ : Life Struct Schema) where
  bounded := hbound
  justified := hjustified
  executing := by simp
  handle := by simp [Life.handle]

/-- The error of the last job is logged, and the query goes on only when the policy allows. -/
theorem sound_onError {query : QueryBuilder} {log : List Entry} {ctx : RetryContext}
    (hbound : log.count .requested ≤ max 1 query.jobRetryPolicy.attemptLimit)
    (hjustified : Justified log) (hctx : Counts query (log.count .requested) ctx)
    (err : QueryError) (reissued : Bool) :
    Sound query (⟨onError ctx err reissued, log ++ [.failed err]⟩ : Life Struct Schema) := by
  have hcount : (log ++ [Entry.failed err]).count .requested = log.count .requested := by simp
  obtain ⟨htemplate, hattempts⟩ := hctx
  cases hstage : (onError ctx err reissued : Stage Struct Schema) with
  | executing ctx' reissued' =>
    rcases onError_stage ctx err reissued hstage with ⟨heq, hretryable, hlimit⟩ | heq
    · simp only [Stage.executing.injEq] at heq
      obtain ⟨rfl, rfl⟩ := heq
      refine ⟨hcount.trans_le hbound, hjustified.append_failed err, ?_, by simp [Life.handle]⟩
      intro ctx'' reissued'' h
      simp only [Stage.executing.injEq] at h
      obtain ⟨rfl, rfl⟩ := h
      rw [htemplate, hattempts] at hlimit
      exact ⟨⟨htemplate, hattempts.trans hcount.symm⟩,
        .inr ⟨hcount.trans_lt hlimit, err, by simp, hretryable⟩⟩
    · simp at heq
  | failed err' => exact sound_failed (hcount.trans_le hbound) (hjustified.append_failed err)
  | _ => rcases onError_stage ctx err reissued hstage with ⟨heq, -⟩ | heq <;> simp at heq

/-- A handle made with the context that counts the jobs. -/
theorem sound_handle {query : QueryBuilder} {log : List Entry} {stage : Stage Struct Schema}
    {ctx : RetryContext} {handle : Query Struct Schema}
    (hbound : log.count .requested ≤ max 1 query.jobRetryPolicy.attemptLimit)
    (hjustified : Justified log) (hkeeps : Keeps ctx handle)
    (hctx : Counts query (log.count .requested) ctx)
    (hstage : stage = .sent handle ∨ stage = untilDone handle) : Sound query ⟨stage, log⟩ := by
  have hhandle : ∀ h ∈ (⟨stage, log⟩ : Life Struct Schema).handle, h = handle := by
    intro h hh
    rcases hstage with rfl | rfl
    · simpa [Life.handle, eq_comm] using hh
    · simp only [Life.handle, untilDone] at hh
      split at hh <;> rename_i heq <;> split at heq <;> simp_all
  refine ⟨hbound, hjustified, ?_, ?_⟩
  · intro ctx' reissued h
    rcases hstage with rfl | rfl
    · simp at h
    · simp only [untilDone] at h
      split at h <;> simp at h
  · intro h hh
    rw [hhandle h hh]
    refine ⟨hkeeps.completed, fun c hc => ?_⟩
    rw [hkeeps.context c hc]
    exact hctx

/-- The context an attempt is made with. -/
def counted (ctx : RetryContext) : RetryContext :=
  { ctx with attemptCount := ctx.attemptCount + 1 }

theorem execute_eq (life : Life Struct Schema) (ctx : RetryContext) (reissued : Bool)
    (attempt : Attempt Struct Schema) :
    life.execute ctx reissued attempt =
      match (counted ctx).executeOnce attempt with
      | .ok handle =>
          { stage := if reissued then Life.untilDone handle else .sent handle
            log := life.log ++ [.requested] }
      | .error err =>
          { stage := onError (counted ctx) err reissued
            log := life.log ++ [.requested] ++ [.failed err] } := rfl

theorem Sound.execute {query : QueryBuilder} {life : Life Struct Schema} (hsound : life.Sound query)
    {ctx : RetryContext} {reissued : Bool} (hstage : life.stage = .executing ctx reissued)
    (attempt : Attempt Struct Schema) : (life.execute ctx reissued attempt).Sound query := by
  obtain ⟨⟨htemplate, hattempts⟩, hgoes⟩ := hsound.executing ctx reissued hstage
  have hcount : (life.log ++ [Entry.requested]).count .requested = life.requests + 1 := by
    simp [requests]
  have hbound : life.requests + 1 ≤ max 1 query.jobRetryPolicy.attemptLimit := by
    rcases hgoes with hnil | ⟨hlimit, -⟩
    · simp [requests, hnil]
    · omega
  have hjustified : Justified (life.log ++ [.requested]) :=
    hsound.justified.append_requested (hgoes.imp_right And.right)
  have hctx : Counts query ((life.log ++ [Entry.requested]).count .requested) (counted ctx) :=
    ⟨htemplate, by rw [hcount, counted, hattempts]⟩
  rw [← hcount] at hbound
  rw [execute_eq]
  cases hexecute : (counted ctx).executeOnce attempt with
  | error err => exact sound_onError hbound hjustified hctx err reissued
  | ok handle =>
    refine sound_handle hbound hjustified (RetryContext.executeOnce_keeps hexecute) hctx ?_
    cases reissued <;> simp

theorem Sound.poll {query : QueryBuilder} {life : Life Struct Schema} (hsound : life.Sound query)
    {handle : Query Struct Schema} {jobRef : JobReference}
    (hstage : life.stage = .polling handle jobRef)
    (answer : Except RpcError (GetQueryResultsResponse Struct Schema)) :
    (life.poll handle jobRef answer).Sound query := by
  obtain ⟨-, hcontext⟩ := hsound.handle handle (by simp [Life.handle, hstage])
  rw [Life.poll]
  cases hpoll : pollQueryResults answer with
  | none => exact hsound
  | some result =>
    cases result with
    | ok res => exact ⟨hsound.bounded, hsound.justified, by simp, by simp [Life.handle]⟩
    | error err =>
      cases hretry : handle.retryContext with
      | none =>
        refine sound_failed ?_ (hsound.justified.append_failed err)
        have hbounded := hsound.bounded
        simpa [requests] using hbounded
      | some ctx =>
        exact sound_onError hsound.bounded hsound.justified (hcontext ctx hretry) err true

theorem Sound.untilDone {query : QueryBuilder} {life : Life Struct Schema}
    (hsound : life.Sound query) {handle : Query Struct Schema} (hstage : life.stage = .sent handle) :
    (life.step .untilDone).Sound query := by
  obtain ⟨hcompleted, hcontext⟩ := hsound.handle handle (by simp [Life.handle, hstage])
  simp only [step, hstage]
  by_cases hdry : handle.isDryRun = true
  · simp only [hdry, if_true]
    exact sound_failed hsound.bounded hsound.justified
  · simp only [hdry, Bool.false_eq_true, if_false]
    cases hretry : handle.retryContext with
    | none =>
      -- No context is left: the handle keeps any.
      have hkeeps : Keeps { template := query, attemptCount := life.requests } handle :=
        ⟨hcompleted, by simp [hretry]⟩
      exact sound_handle hsound.bounded hsound.justified hkeeps ⟨rfl, rfl⟩ (.inr rfl)
    | some ctx =>
      exact sound_handle hsound.bounded hsound.justified
        ⟨hcompleted, by simp [hretry, eq_comm]⟩ (hcontext ctx hretry) (.inr rfl)

theorem Sound.step {query : QueryBuilder} {life : Life Struct Schema} (hsound : life.Sound query)
    (event : Event Struct Schema) : (life.step event).Sound query := by
  cases event with
  | attempt attempt =>
    cases hstage : life.stage with
    | executing ctx reissued =>
      simpa [Life.step, hstage] using hsound.execute hstage attempt
    | _ => simpa [Life.step, hstage] using hsound
  | untilDone =>
    cases hstage : life.stage with
    | sent handle => exact hsound.untilDone hstage
    | _ => simpa [Life.step, hstage] using hsound
  | poll answer =>
    cases hstage : life.stage with
    | polling handle jobRef => simpa [Life.step, hstage] using hsound.poll hstage answer
    | _ => simpa [Life.step, hstage] using hsound

theorem Sound.run {query : QueryBuilder} {life : Life Struct Schema} (hsound : life.Sound query)
    (events : List (Event Struct Schema)) : (life.run events).Sound query := by
  induction events generalizing life with
  | nil => exact hsound
  | cons event events ih => exact ih (hsound.step event)

/-! ## Queries that request no more jobs -/

/-- No context is left to request a job with. -/
def Closed (life : Life Struct Schema) : Prop :=
  (∀ ctx reissued, life.stage ≠ .executing ctx reissued) ∧
    ∀ handle ∈ life.handle, handle.retryContext = none

theorem closed_untilDone {handle : Query Struct Schema} (h : handle.retryContext = none)
    (log : List Entry) : Closed ⟨untilDone handle, log⟩ := by
  simp only [Closed, Life.handle, untilDone]
  split <;> simp [h]

theorem Closed.step {life : Life Struct Schema} (hclosed : life.Closed)
    (event : Event Struct Schema) :
    (life.step event).Closed ∧ (life.step event).requests = life.requests := by
  cases event with
  | attempt attempt =>
    cases hstage : life.stage with
    | executing ctx reissued => exact absurd hstage (hclosed.1 ctx reissued)
    | _ => simpa [Life.step, hstage] using hclosed
  | untilDone =>
    cases hstage : life.stage with
    | sent handle =>
      have hnone := hclosed.2 handle (by simp [Life.handle, hstage])
      by_cases hdry : handle.isDryRun = true
      · simp [Life.step, hstage, hdry, Closed, Life.handle, requests]
      · simp only [Life.step, hstage, hdry, Bool.false_eq_true, if_false]
        exact ⟨closed_untilDone hnone life.log, rfl⟩
    | _ => simpa [Life.step, hstage] using hclosed
  | poll answer =>
    cases hstage : life.stage with
    | polling handle jobRef =>
      have hnone := hclosed.2 handle (by simp [Life.handle, hstage])
      simp only [Life.step, hstage, Life.poll]
      cases hpoll : pollQueryResults answer with
      | none => exact ⟨hclosed, rfl⟩
      | some result => cases result <;> simp [hnone, Closed, Life.handle, requests]
    | _ => simpa [Life.step, hstage] using hclosed

theorem Closed.requests_run {life : Life Struct Schema} (hclosed : life.Closed)
    (events : List (Event Struct Schema)) : (life.run events).requests = life.requests := by
  induction events generalizing life with
  | nil => rfl
  | cons event events ih =>
    obtain ⟨hnext, hrequests⟩ := hclosed.step event
    exact (ih hnext).trans hrequests

theorem closed_of_completed {query : QueryBuilder} {life : Life Struct Schema}
    (hsound : life.Sound query) {handle : Query Struct Schema} (hhandle : handle ∈ life.handle)
    (hcompleted : handle.completed = true) : life.Closed := by
  refine ⟨?_, ?_⟩
  · intro ctx reissued hstage
    simp [Life.handle, hstage] at hhandle
  · intro handle' hhandle'
    obtain rfl : handle' = handle := Option.mem_unique hhandle' hhandle
    exact (hsound.handle handle' hhandle').1 hcompleted

/-! ## Duplicate job errors -/

/-- What an attempt leaves when its request for a new job returns a duplicate job error. -/
inductive AfterDuplicate (ctx : RetryContext) (reissued : Bool) (attempt : Attempt Struct Schema)
    (err : QueryError) (life after : Life Struct Schema) : Prop
  /-- The existing job is adopted. -/
  | adopted (job : Job Schema) (existing : ctx.existingJob attempt err = some job)
      (status : checkJobStatus job = .ok job)
      (log : after.log = life.log ++ [.requested])
      (stage : after.stage =
        if reissued then untilDone (ctx.fromJob job) else .sent (ctx.fromJob job))
  /-- The original error is returned, and no job is requested any more. -/
  | surfaced (existing : ctx.existingJob attempt err = none) (stage : after.stage = .failed err)
      (later : ∀ events, (after.run events).requests = after.requests)
  /-- The existing job is reported as failed: its error counts as the one of the attempt. -/
  | existingFailed (job : Job Schema) (errors : List ErrorProto)
      (existing : ctx.existingJob attempt err = some job)
      (status : checkJobStatus job = .error (.jobFailed errors))
      (log : after.log = life.log ++ [.requested, .failed (.jobFailed errors)])
      (stage : after.stage = onError ctx (.jobFailed errors) reissued)

theorem checkJobStatus_spec (job : Job Schema) :
    checkJobStatus job = .ok job ∨ ∃ errors, checkJobStatus job = .error (.jobFailed errors) := by
  cases hstatus : job.status with
  | none => simp [checkJobStatus, hstatus]
  | some status =>
    by_cases h : status.errorResult.isSome = true <;> simp [checkJobStatus, hstatus, h]

theorem afterDuplicate {life : Life Struct Schema} {ctx : RetryContext} {reissued : Bool}
    (hstage : life.stage = .executing ctx reissued) {attempt : Attempt Struct Schema}
    {err : QueryError} (hsubmission : (counted ctx).submission attempt = .error err)
    (hduplicate : isDuplicateJobError err = true) (hreason : isQueryErrorRetryable err = false) :
    AfterDuplicate (counted ctx) reissued attempt err life (life.step (.attempt attempt)) := by
  have hexecute := (counted ctx).executeOnce_eq attempt
  simp only [hsubmission, hduplicate, if_true] at hexecute
  have hstep : life.step (.attempt attempt) = life.execute ctx reissued attempt := by
    simp [Life.step, hstage]
  rw [hstep, execute_eq, hexecute]
  cases hjob : (counted ctx).existingJob attempt err with
  | none =>
    have hfailed : (onError (counted ctx) err reissued : Stage Struct Schema) = .failed err := by
      simp [onError, RetryContext.onError, RetryableJobErrors.onError, hreason]
    refine .surfaced hjob hfailed (Closed.requests_run ?_)
    simp [Closed, Life.handle, hfailed]
  | some job =>
    rcases checkJobStatus_spec job with hstatus | ⟨errors, hstatus⟩
    · simp only [hstatus, Except.map]
      exact .adopted job hjob hstatus rfl rfl
    · simp only [hstatus, Except.map]
      exact .existingFailed job errors hjob hstatus (by simp) rfl

/-- Jobs are requested at most as often as the limit allows, each after a retryable error of the
last one; a duplicate job error alone leads to no other request, and neither does a job that is
complete when its handle is made. -/
theorem reissue_bounded_and_justified (query : QueryBuilder)
    (events : List (Event Struct Schema)) :
    ((send query).run events).requests ≤ max 1 query.jobRetryPolicy.attemptLimit ∧
    Justified ((send query).run events).log ∧
    (∀ ctx reissued attempt err,
      ((send query).run events).stage = .executing ctx reissued →
      (counted ctx).submission attempt = .error err →
      isDuplicateJobError err = true → isQueryErrorRetryable err = false →
      AfterDuplicate (counted ctx) reissued attempt err ((send query).run events)
        (((send query).run events).step (.attempt attempt))) ∧
    (∀ handle ∈ ((send query).run events).handle, handle.completed = true →
      ∀ later, (((send query).run events).run later).requests =
        ((send query).run events).requests) := by
  have hsound := (sound_send query).run events
  refine ⟨hsound.bounded, hsound.justified, ?_, ?_⟩
  · intro ctx reissued attempt err hstage hsubmission hduplicate hreason
    exact afterDuplicate hstage hsubmission hduplicate hreason
  · intro handle hhandle hcompleted later
    exact (closed_of_completed hsound hhandle hcompleted).requests_run later

/-- A failed job that is done, with an error the policy retries. -/
def failedJob : Job Unit where
  status := some
    { state := "DONE", errorResult := some ⟨"backendError", ""⟩, errors := [⟨"backendError", ""⟩] }

def duplicateJob : RpcError where
  httpStatusCode := some 409
  status := some { code := .alreadyExists, message := "Already Exists: Job project:US.job_1" }

/-- The job is a duplicate that failed, or is inserted and failed at once. -/
def failedAttempt : Attempt Unit Unit where
  jobId := "job_1"
  insertJob := .ok failedJob
  postQuery := .error duplicateJob
  getJob := .ok failedJob

/-- After a duplicate job error another job is requested when the existing job has failed, and so
it is after an inserted job that is done. -/
theorem failed_existing_job_reissued :
    (counted (.new {})).submission failedAttempt = .error (.rpc duplicateJob) ∧
    isDuplicateJobError (.rpc duplicateJob) = true ∧
    isQueryErrorRetryable (.rpc duplicateJob) = false ∧
    ((send {}).run [.attempt failedAttempt, .attempt failedAttempt]).requests = 2 ∧
    ((RetryContext.new {}).fromJob failedJob : Query Unit Unit).completed = true ∧
    ((send { forceJobPath := true }).run
      [.attempt failedAttempt, .attempt failedAttempt]).requests = 2 := by
  refine ⟨rfl, ?_, ?_, ?_, ?_, ?_⟩ <;> decide +kernel

end Life

end GoogleCloudRust.QueryJob
