import GoogleCloudRust.Verification.RowIterator.Readers

/-! # Pending rows

The rows that an iterator has still to return: those of the current batch, of the batches of the
reader, of the page in memory, and of the pages that the token stands for. An iteration of the loop
returns the first of them or keeps them. -/

namespace GoogleCloudRust.QueryJob

variable {Struct Schema : Type} {codec : Codec Struct Schema} {ρ : Type*}

/-! ## Rows and their conversions -/

/-- The row that a result reads as. -/
def rowOf (value : RowInner codec → ρ) : Except RowError (Row codec) → Option ρ
  | .ok row => some (value row.inner)
  | .error _ => none

/-- Every result is a row, and they read as the given rows. -/
def Reads (value : RowInner codec → ρ) (results : List (Except RowError (Row codec)))
    (rows : List ρ) : Prop :=
  results.map (rowOf value) = rows.map some

def jsonRows (schema : Schema) (rows : List Struct) : List (Except RowError (Row codec)) :=
  rows.map fun row => Row.tryNew row schema

/-- The results for the rows of a batch from an index on. -/
def batchRows (schema : Schema) (rowIndex : ℕ) (batch : codec.RecordBatch) :
    List (Except RowError (Row codec)) :=
  ((List.range (codec.numRows batch)).drop rowIndex).map fun i =>
    Row.tryNewFromArrow batch i schema

namespace Reads

variable {value : RowInner codec → ρ}

theorem nil : Reads value [] [] := rfl

theorem eq_nil {rows : List ρ} (h : Reads value [] rows) : rows = [] := by
  simpa [Reads] using h.symm

theorem cons {result : Except RowError (Row codec)} {results : List (Except RowError (Row codec))}
    {rows : List ρ} (h : Reads value (result :: results) rows) :
    ∃ row rest, rows = row :: rest ∧ rowOf value result = some row ∧ Reads value results rest := by
  cases rows with
  | nil => simp [Reads] at h
  | cons row rest =>
    simp only [Reads, List.map_cons, List.cons.injEq] at h
    exact ⟨row, rest, rfl, h.1, h.2⟩

end Reads

theorem batchRows_zero_eq_nil (schema : Schema) {batch : codec.RecordBatch}
    (h : codec.numRows batch = 0) : batchRows schema 0 batch = [] := by
  simp [batchRows, h]

theorem batchRows_eq_cons (schema : Schema) {rowIndex : ℕ} {batch : codec.RecordBatch}
    (h : rowIndex < codec.numRows batch) :
    batchRows schema rowIndex batch =
      Row.tryNewFromArrow batch rowIndex schema :: batchRows schema (rowIndex + 1) batch := by
  have hlength : rowIndex < (List.range (codec.numRows batch)).length := by simpa using h
  rw [batchRows, List.drop_eq_getElem_cons hlength]
  simp [batchRows]

theorem batchRows_eq_nil (schema : Schema) {rowIndex : ℕ} {batch : codec.RecordBatch}
    (h : ¬rowIndex < codec.numRows batch) : batchRows schema rowIndex batch = [] := by
  rw [batchRows, List.drop_eq_nil_of_le (by simpa using h)]
  rfl

/-- Batches without rows add nothing. -/
theorem flatMap_batchRows_empty (schema : Schema) {batches : List codec.RecordBatch}
    (h : Empty batches) : batches.flatMap (batchRows schema 0) = [] := by
  simp only [List.flatMap_eq_nil_iff]
  intro batch hbatch
  exact batchRows_zero_eq_nil schema (h batch hbatch)

/-! ## What the service returns -/

/-- The rows cached in the query. -/
def CachedHolds (value : RowInner codec → ρ) (q : CompleteQuery Struct Schema) (rows : List ρ) :
    Prop :=
  match q.cachedData with
  | .rows cached => Reads value (jsonRows (RowIterator.extractSchema codec q) cached) rows
  | .arrow serializedRecordBatch serializedSchema =>
      ∃ batches, Inline codec codec.new (some serializedSchema) serializedRecordBatch batches ∧
        Reads value (batches.flatMap (batchRows (RowIterator.extractSchema codec q) 0)) rows

/-- A page for a token that stands after `i` rows, up to the row `j`. -/
structure Page (value : RowInner codec → ρ) (schema : Schema) (rows : List ρ)
    (position : String → Option ℕ) (token : String) (i j : ℕ)
    (res : GetQueryResultsResponse Struct Schema) : Prop where
  le : i ≤ j
  reads : Reads value (jsonRows schema res.rows) ((rows.take j).drop i)
  /-- There is a token when rows remain. -/
  remain : res.pageToken = "" → rows.length ≤ j
  stands : res.pageToken ≠ "" → position res.pageToken = some j
  /-- There is none when no row remains; an empty page may repeat the one requested. -/
  ends : rows.length ≤ j → res.pageToken = "" ∨ res.rows = [] ∧ res.pageToken = token
  /-- An empty page has another token unless nothing is left. -/
  fresh : res.rows = [] → res.pageToken = token → rows.length ≤ j

/-- The rows of a completed query as the service returns them. -/
structure Serves (codec : Codec Struct Schema) (service : Service Struct Schema)
    (q : CompleteQuery Struct Schema) (value : RowInner codec → ρ) (rows : List ρ)
    (position : String → Option ℕ) : Prop where
  /-- The cached data is a prefix, and there is a token when rows remain after it. -/
  cached : ∃ c, CachedHolds value q (rows.take c) ∧ (q.pageToken = none → rows.length ≤ c) ∧
    ∀ token ∈ q.pageToken, position token = some c
  /-- Only queries with a job reference have page tokens. -/
  job : q.pageToken.isSome = true → q.jobRef.isSome = true
  pages : ∀ calls req res i, service.getQueryResults calls req = .ok res →
    position req.pageToken = some i →
    ∃ j, Page value (RowIterator.extractSchema codec q) rows position req.pageToken i j res
  /-- The Storage stream yields all rows. -/
  storage : q.readClient = true → ∀ jobRef ∈ q.jobRef, ∃ stream batches,
    service.readRows (StorageReader.streamName jobRef) 0 = .ok stream ∧
    Streams codec codec.new stream batches ∧
    Reads value (batches.flatMap (batchRows (RowIterator.extractSchema codec q) 0)) rows

/-- Again and again a request for a page succeeds, with rows when some remain. -/
def Live (service : Service Struct Schema) (rows : List ρ) (position : String → Option ℕ) : Prop :=
  ∀ calls, ∃ later, calls ≤ later ∧ ∀ req i, position req.pageToken = some i →
    ∃ res, service.getQueryResults later req = .ok res ∧ (i < rows.length → res.rows ≠ [])

/-! ## Pending rows -/

/-- The results for the rows in memory: of the current batch, the reader and the page. -/
def RowIterator.front (it : RowIterator codec) (batches : List codec.RecordBatch) :
    List (Except RowError (Row codec)) :=
  (match it.currentBatch with
    | some batch => batchRows it.schema it.rowIndex batch
    | none => []) ++ batches.flatMap (batchRows it.schema 0) ++ jsonRows it.schema it.rows

section

variable (service : Service Struct Schema) (q : CompleteQuery Struct Schema)
  (value : RowInner codec → ρ) (rows : List ρ) (position : String → Option ℕ)

/-- The rows that the pages of the token hold. -/
def RowIterator.Rest (it : RowIterator codec) (rest : List ρ) : Prop :=
  match it.pageToken with
  | none => rest = []
  | some token => it.jobRef.isSome = true ∧ ∃ i, position token = some i ∧ rest = rows.drop i

structure Pending (it : RowIterator codec) (pending : List ρ) : Prop where
  schema : it.schema = RowIterator.extractSchema codec q
  parts : ∃ batches front rest,
    (∀ reader ∈ it.arrowReader, reader.Holds service batches) ∧
    (it.arrowReader = none → batches = []) ∧
    Reads value (it.front batches) front ∧
    it.Rest rows position rest ∧
    pending = front ++ rest

/-- Nothing is left in memory. -/
structure Waiting (it : RowIterator codec) : Prop where
  batch : it.currentBatch = none
  reader : it.arrowReader = none
  rows : it.rows = []

/-- A row is in memory. -/
def Ready (it : RowIterator codec) : Prop :=
  (∃ batch, it.currentBatch = some batch ∧ it.rowIndex < codec.numRows batch) ∨
    (it.currentBatch = none ∧ it.arrowReader = none ∧ it.rows ≠ [])

/-- What an iteration of the loop comes to when the rows are pending. -/
inductive Goes (pending : List ρ) (calls : ℕ) : Outcome codec → Prop
  | row {result it calls' row rest} (pending_eq : pending = row :: rest)
      (row_eq : rowOf value result = some row)
      (next : Pending service q value rows position it rest) :
      Goes pending calls (.returned (some result) it calls')
  | finished {it calls'} (pending_eq : pending = [])
      (next : Pending service q value rows position it []) :
      Goes pending calls (.returned none it calls')
  | failure {source it} (waiting : Waiting it)
      (next : Pending service q value rows position it pending) :
      Goes pending calls (.returned (some (.error (.rpc source))) it (calls + 1))
  | waiting {it} (waiting : Waiting it) (next : Pending service q value rows position it pending) :
      Goes pending calls (.running it (calls + 1))
  | ready {it calls'} (ready : Ready it) (next : Pending service q value rows position it pending) :
      Goes pending calls (.running it calls')

end

section

variable {service : Service Struct Schema} {q : CompleteQuery Struct Schema}
  {value : RowInner codec → ρ} {rows : List ρ} {position : String → Option ℕ}
  {it : RowIterator codec} {pending : List ρ}

/-! ## Iterations -/

theorem Waiting.front_eq (h : Waiting it) : it.front [] = [] := by
  simp [RowIterator.front, h.batch, h.rows, jsonRows]

/-- With nothing in memory the pending rows are those of the pages. -/
theorem Pending.rest (h : Pending service q value rows position it pending) (hwaiting : Waiting it) :
    it.Rest rows position pending := by
  obtain ⟨batches, front, rest, -, hnone, hreads, hrest, rfl⟩ := h.parts
  rw [hnone hwaiting.reader, hwaiting.front_eq] at hreads
  simpa [hreads.eq_nil] using hrest

theorem pending_of_waiting (hwaiting : Waiting it)
    (hschema : it.schema = RowIterator.extractSchema codec q) {rest : List ρ}
    (hrest : it.Rest rows position rest) :
    Pending service q value rows position it rest where
  schema := hschema
  parts := by
    refine ⟨[], [], rest, by simp [hwaiting.reader], fun _ => rfl, ?_, hrest, by simp⟩
    rw [hwaiting.front_eq]
    exact .nil

/-- The rows after `i`, cut at `j`. -/
theorem drop_eq_page {i j : ℕ} (h : i ≤ j) :
    rows.drop i = (rows.take j).drop i ++ rows.drop j := by
  rw [List.drop_take]
  conv_lhs => rw [← List.take_append_drop (j - i) (rows.drop i)]
  rw [List.drop_drop, Nat.add_sub_cancel' h]

/-- The iterator with a page in memory. -/
def RowIterator.withPage (it : RowIterator codec) (res : GetQueryResultsResponse Struct Schema) :
    RowIterator codec :=
  { it with
    pageToken := if res.pageToken.isEmpty then none else some res.pageToken
    rows := it.rows ++ res.rows }

theorem pending_withPage (hschema : it.schema = RowIterator.extractSchema codec q)
    (hwaiting : Waiting it) (hjob : it.jobRef.isSome = true) {token : String} {i j : ℕ}
    {res : GetQueryResultsResponse Struct Schema}
    (hpage : Page value (RowIterator.extractSchema codec q) rows position token i j res) :
    Pending service q value rows position (it.withPage res) (rows.drop i) where
  schema := hschema
  parts := by
    refine ⟨[], (rows.take j).drop i, rows.drop j, by simp [RowIterator.withPage, hwaiting.reader],
      fun _ => rfl, ?_, ?_, drop_eq_page hpage.le⟩
    · have hreads := hpage.reads
      simpa [RowIterator.front, RowIterator.withPage, hwaiting.batch, hwaiting.rows, hschema]
        using hreads
    · by_cases hempty : res.pageToken = ""
      · have hle := hpage.remain hempty
        simpa [RowIterator.Rest, RowIterator.withPage, hempty] using hle
      · have hstands := hpage.stands hempty
        simp [RowIterator.Rest, RowIterator.withPage, hempty, hjob, hstands]

section

variable {calls : ℕ} {token : String} {jobRef : JobReference}
  {res : GetQueryResultsResponse Struct Schema}

/-- An empty page with the token of the request ends the pages. -/
theorem tryFetchPage_same (hwaiting : Waiting it) (htoken : it.pageToken = some token)
    (hjobRef : it.jobRef = some jobRef) (hrows : res.rows = []) (hempty : token ≠ "")
    (hsame : res.pageToken = token)
    (hanswer : service.getQueryResults calls
      ⟨jobRef.projectId, jobRef.jobId, jobRef.location, it.pageSize, token⟩ = .ok res) :
    it.tryFetchPage service calls = .returned none { it with pageToken := none } (calls + 1) := by
  simp [RowIterator.tryFetchPage, htoken, hjobRef, RowIterator.fetchPage, hanswer, hrows, hempty,
    hsame, hwaiting.rows]

theorem tryFetchPage_next (hwaiting : Waiting it) (htoken : it.pageToken = some token)
    (hjobRef : it.jobRef = some jobRef)
    (hother : res.rows = [] → res.pageToken ≠ "" → res.pageToken ≠ token)
    (hanswer : service.getQueryResults calls
      ⟨jobRef.projectId, jobRef.jobId, jobRef.location, it.pageSize, token⟩ = .ok res) :
    it.tryFetchPage service calls =
      if res.rows = [] ∧ res.pageToken = "" then .returned none (it.withPage res) (calls + 1)
      else .running (it.withPage res) (calls + 1) := by
  have hcontinue : ¬(res.rows.isEmpty = true ∧
      (if res.pageToken.isEmpty = true then none else some res.pageToken) = some token) := by
    rintro ⟨hrows, hsame⟩
    by_cases hempty : res.pageToken = ""
    · simp [hempty] at hsame
    · simp only [String.isEmpty_iff, hempty, if_false, Option.some.injEq] at hsame
      exact hother (by simpa using hrows) hempty hsame
  simp only [RowIterator.tryFetchPage, htoken, hjobRef, RowIterator.fetchPage, hanswer,
    if_neg hcontinue]
  by_cases hempty : res.pageToken = "" <;>
    by_cases hrows : res.rows = [] <;>
      simp [RowIterator.withPage, hempty, hrows, hwaiting.rows, hjobRef]

/-- A page ends the rows, brings some, or is empty with rows left after it. -/
theorem tryFetchPage_page (hserves : Serves codec service q value rows position)
    (h : Pending service q value rows position it pending) (hwaiting : Waiting it)
    (htoken : it.pageToken = some token) (hjobRef : it.jobRef = some jobRef) {i : ℕ}
    (hposition : position token = some i) (hpending : pending = rows.drop i)
    (hanswer : service.getQueryResults calls
      ⟨jobRef.projectId, jobRef.jobId, jobRef.location, it.pageSize, token⟩ = .ok res) :
    (∃ it', it.tryFetchPage service calls = .returned none it' (calls + 1) ∧ pending = [] ∧
      Pending service q value rows position it' []) ∨
    (∃ it', it.tryFetchPage service calls = .running it' (calls + 1) ∧ Ready it' ∧
      Pending service q value rows position it' pending) ∨
    (∃ it', it.tryFetchPage service calls = .running it' (calls + 1) ∧ Waiting it' ∧
      Pending service q value rows position it' pending ∧ res.rows = [] ∧ i < rows.length) := by
  obtain ⟨j, hpage⟩ := hserves.pages calls _ res i hanswer hposition
  have hjob : it.jobRef.isSome = true := by simp [hjobRef]
  have hnext : Pending service q value rows position (it.withPage res) pending :=
    hpending ▸ pending_withPage h.schema hwaiting hjob hpage
  by_cases hrows : res.rows = []
  · -- The page is empty: what is pending comes after `j`.
    have hafter : pending = rows.drop j := by
      have hreads := hpage.reads
      rw [hrows] at hreads
      rw [hpending, drop_eq_page hpage.le, hreads.eq_nil]
      rfl
    by_cases hempty : res.pageToken = ""
    · have hnil : pending = [] := hafter.trans (List.drop_eq_nil_of_le (hpage.remain hempty))
      refine .inl ⟨it.withPage res, ?_, hnil, hnil ▸ hnext⟩
      rw [tryFetchPage_next hwaiting htoken hjobRef (fun _ h => absurd hempty h) hanswer]
      simp [hrows, hempty]
    · by_cases hsame : res.pageToken = token
      · have hnil : pending = [] :=
          hafter.trans (List.drop_eq_nil_of_le (hpage.fresh hrows hsame))
        have htoken' : token ≠ "" := hsame ▸ hempty
        have hended : Waiting { it with pageToken := none } :=
          ⟨hwaiting.batch, hwaiting.reader, hwaiting.rows⟩
        have hrest : RowIterator.Rest rows position { it with pageToken := none } [] := rfl
        exact .inl ⟨{ it with pageToken := none },
          tryFetchPage_same hwaiting htoken hjobRef hrows htoken' hsame hanswer, hnil,
          pending_of_waiting hended h.schema hrest⟩
      · have hleft : i < rows.length := by
          by_contra hlast
          rcases hpage.ends (le_trans (not_lt.1 hlast) hpage.le) with hend | ⟨-, hend⟩
          · exact hempty hend
          · exact hsame hend
        refine .inr (.inr ⟨it.withPage res, ?_, ⟨hwaiting.batch, hwaiting.reader, ?_⟩, hnext,
          hrows, hleft⟩)
        · rw [tryFetchPage_next hwaiting htoken hjobRef (fun _ _ => hsame) hanswer]
          simp [hempty]
        · simp [RowIterator.withPage, hrows, hwaiting.rows]
  · refine .inr (.inl ⟨it.withPage res, ?_, .inr ⟨hwaiting.batch, hwaiting.reader, ?_⟩, hnext⟩)
    · rw [tryFetchPage_next hwaiting htoken hjobRef (fun h => absurd h hrows) hanswer]
      simp [hrows]
    · simp [RowIterator.withPage, hrows]

end

/-- A request for a page keeps the pending rows; when it fails, the token stays. -/
theorem tryFetchPage_goes (hserves : Serves codec service q value rows position)
    (h : Pending service q value rows position it pending) (hwaiting : Waiting it) (calls : ℕ) :
    Goes service q value rows position pending calls (it.tryFetchPage service calls) := by
  have hrest := h.rest hwaiting
  cases htoken : it.pageToken with
  | none =>
    have hpending : pending = [] := by simpa [RowIterator.Rest, htoken] using hrest
    have hresult : it.tryFetchPage service calls = .returned none it calls := by
      simp [RowIterator.tryFetchPage, htoken, hwaiting.rows]
    rw [hresult]
    exact .finished hpending (hpending ▸ h)
  | some token =>
    simp only [RowIterator.Rest, htoken] at hrest
    obtain ⟨hjob, i, hposition, hpending⟩ := hrest
    obtain ⟨jobRef, hjobRef⟩ := Option.isSome_iff_exists.1 hjob
    cases hanswer : service.getQueryResults calls
        ⟨jobRef.projectId, jobRef.jobId, jobRef.location, it.pageSize, token⟩ with
    | error source =>
      have hresult : it.tryFetchPage service calls =
          .returned (some (.error (.rpc source))) it (calls + 1) := by
        simp [RowIterator.tryFetchPage, htoken, hjobRef, RowIterator.fetchPage, hanswer]
      rw [hresult]
      exact .failure hwaiting h
    | ok res =>
      rcases tryFetchPage_page hserves h hwaiting htoken hjobRef hposition hpending hanswer with
        ⟨it', hresult, hnil, hnext⟩ | ⟨it', hresult, hready, hnext⟩ |
        ⟨it', hresult, hwaiting', hnext, -⟩
      · rw [hresult]
        exact .finished hnil hnext
      · rw [hresult]
        exact .ready hready hnext
      · rw [hresult]
        exact .waiting hwaiting' hnext

/-- The pages after the readers: the current batch is used up and there is no reader. -/
theorem popRow_goes (hserves : Serves codec service q value rows position)
    (h : Pending service q value rows position it pending) (hbatch : it.currentBatch = none)
    (hreader : it.arrowReader = none) (calls : ℕ) :
    Goes service q value rows position pending calls (it.popRow service calls) := by
  cases hrows : it.rows with
  | nil =>
    have hresult : it.popRow service calls = it.tryFetchPage service calls := by
      simp [RowIterator.popRow, hrows]
    rw [hresult]
    exact tryFetchPage_goes hserves h ⟨hbatch, hreader, hrows⟩ calls
  | cons rawRow rest =>
    obtain ⟨batches, front, after, -, hnone, hreads, hrest, rfl⟩ := h.parts
    have hresult : it.popRow service calls =
        .returned (some (Row.tryNew rawRow it.schema)) { it with rows := rest } calls := by
      simp [RowIterator.popRow, hrows]
    have hfront : it.front batches =
        Row.tryNew rawRow it.schema :: RowIterator.front { it with rows := rest } [] := by
      simp [RowIterator.front, hbatch, hnone hreader, hrows, jsonRows]
    rw [hfront] at hreads
    obtain ⟨row, front', rfl, hrow, hreads⟩ := hreads.cons
    rw [hresult]
    exact .row rfl hrow ⟨h.schema, [], front', after, by simp [hreader], fun _ => rfl, hreads,
      hrest, rfl⟩

/-- The batches of the reader, and the pages after them. -/
theorem readBatch_goes (hserves : Serves codec service q value rows position)
    (h : Pending service q value rows position it pending) (hbatch : it.currentBatch = none)
    (calls : ℕ) :
    Goes service q value rows position pending calls (it.readBatch service calls) := by
  cases hreader : it.arrowReader with
  | none =>
    have hresult : it.readBatch service calls = it.popRow service calls := by
      simp [RowIterator.readBatch, hreader]
    rw [hresult]
    exact popRow_goes hserves h hbatch hreader calls
  | some reader =>
    obtain ⟨batches, front, after, hholds, -, hreads, hrest, hpending⟩ := h.parts
    obtain ⟨result, reader', hresult, hyields⟩ :=
      ArrowReader.nextRecordBatch_spec (hholds reader hreader)
    cases result with
    | none =>
      -- No batch has rows: the reader is dropped.
      have hread : it.readBatch service calls =
          RowIterator.popRow service { it with arrowReader := none } calls := by
        simp [RowIterator.readBatch, hreader, hresult]
      rw [hread]
      have hfront : it.front batches =
          RowIterator.front { it with arrowReader := none } [] := by
        simp [RowIterator.front, hbatch, flatMap_batchRows_empty it.schema hyields]
      rw [hfront] at hreads
      have hnext : Pending service q value rows position { it with arrowReader := none } pending :=
        ⟨h.schema, [], front, after, by simp, fun _ => rfl, hreads, hrest, hpending⟩
      exact popRow_goes hserves hnext hbatch rfl calls
    | some batch =>
      obtain ⟨skipped, batches', rfl, hskipped, hrows, hholds'⟩ := hyields
      have hread : it.readBatch service calls =
          .running { it with arrowReader := some reader', currentBatch := some batch
                             rowIndex := 0 } calls := by
        simp [RowIterator.readBatch, hreader, hresult]
      have hfront : it.front (skipped ++ batch :: batches') =
          RowIterator.front { it with
            arrowReader := some reader', currentBatch := some batch, rowIndex := 0 } batches' := by
        simp [RowIterator.front, hbatch, flatMap_batchRows_empty it.schema hskipped]
      rw [hfront] at hreads
      rw [hread]
      refine .ready (.inl ⟨batch, rfl, hrows⟩) ?_
      exact ⟨h.schema, batches', front, after, by simpa using hholds', by simp, hreads, hrest,
        hpending⟩

/-- What is pending before an iteration is what it returns and what is pending after it. -/
theorem iteration_goes (hserves : Serves codec service q value rows position)
    (h : Pending service q value rows position it pending) (calls : ℕ) :
    Goes service q value rows position pending calls (it.iteration service calls) := by
  cases hbatch : it.currentBatch with
  | none =>
    have hresult : it.iteration service calls = it.readBatch service calls := by
      simp [RowIterator.iteration, hbatch]
    rw [hresult]
    exact readBatch_goes hserves h hbatch calls
  | some batch =>
    obtain ⟨batches, front, after, hholds, hnone, hreads, hrest, hpending⟩ := h.parts
    by_cases hindex : it.rowIndex < codec.numRows batch
    · have hresult : it.iteration service calls =
          .returned (some (Row.tryNewFromArrow batch it.rowIndex it.schema))
            { it with rowIndex := it.rowIndex + 1 } calls := by
        simp [RowIterator.iteration, hbatch, hindex]
      have hfront : it.front batches = Row.tryNewFromArrow batch it.rowIndex it.schema ::
          RowIterator.front { it with rowIndex := it.rowIndex + 1 } batches := by
        simp [RowIterator.front, hbatch, batchRows_eq_cons it.schema hindex]
      rw [hfront] at hreads
      obtain ⟨row, front', rfl, hrow, hreads⟩ := hreads.cons
      rw [hresult]
      exact .row hpending hrow ⟨h.schema, batches, front', after, hholds, hnone, hreads, hrest,
        rfl⟩
    · have hresult : it.iteration service calls =
          RowIterator.readBatch service { it with currentBatch := none, rowIndex := 0 } calls := by
        simp [RowIterator.iteration, hbatch, hindex]
      have hfront : it.front batches =
          RowIterator.front { it with currentBatch := none, rowIndex := 0 } batches := by
        simp [RowIterator.front, hbatch, batchRows_eq_nil it.schema hindex]
      rw [hfront] at hreads
      have hnext : Pending service q value rows position
          { it with currentBatch := none, rowIndex := 0 } pending :=
        ⟨h.schema, batches, front, after, hholds, hnone, hreads, hrest, hpending⟩
      rw [hresult]
      exact readBatch_goes hserves hnext rfl calls

end

end GoogleCloudRust.QueryJob
