import GoogleCloudRust.Verification.RowIterator.Pending

/-! # Rows are returned once and in order

At every call the rows already returned and the rows still pending are the rows of the query. -/

namespace GoogleCloudRust.QueryJob

variable {Struct Schema : Type} {codec : Codec Struct Schema} {ρ : Type*}

section

variable {service : Service Struct Schema} {q : CompleteQuery Struct Schema}
  {value : RowInner codec → ρ} {rows : List ρ} {position : String → Option ℕ}

/-! ## A new iterator -/

theorem makeStorageReader_eq {reader : ArrowReader codec}
    (h : RowIterator.makeStorageReader service q = some reader) :
    q.readClient = true ∧ ∃ jobRef, q.jobRef = some jobRef ∧
      reader = .storage (StorageReader.new jobRef) := by
  cases hclient : q.readClient with
  | false => simp [RowIterator.makeStorageReader, hclient] at h
  | true =>
    cases hjob : q.jobRef with
    | none => simp [RowIterator.makeStorageReader, hclient, hjob] at h
    | some jobRef =>
      simp only [RowIterator.makeStorageReader, hclient, hjob, Option.ite_none_right_eq_some,
        Option.some.injEq] at h
      exact ⟨rfl, jobRef, rfl, h.2.symm⟩

/-- Whichever source is chosen, all rows are pending. -/
theorem pending_new (hserves : Serves codec service q value rows position) :
    Pending service q value rows position (RowIterator.new codec service q) rows := by
  cases hstorage : (RowIterator.makeStorageReader service q : Option (ArrowReader codec)) with
  | some reader =>
    obtain ⟨hclient, jobRef, hjob, rfl⟩ := makeStorageReader_eq hstorage
    obtain ⟨stream, batches, hopen, hstream, hreads⟩ := hserves.storage hclient jobRef hjob
    refine ⟨by simp [RowIterator.new, hstorage], batches, rows, [], ?_, ?_, ?_, ?_, by simp⟩
    · intro reader hreader
      simp only [RowIterator.new, hstorage, Option.mem_def, Option.some.injEq] at hreader
      subst hreader
      exact ⟨stream, hopen, hstream⟩
    · simp [RowIterator.new, hstorage]
    · simpa [RowIterator.front, RowIterator.new, hstorage, jsonRows] using hreads
    · simp [RowIterator.Rest, RowIterator.new, hstorage]
  | none =>
    obtain ⟨c, hcached, hlast, htoken⟩ := hserves.cached
    have hsplit : rows = rows.take c ++ rows.drop c := (List.take_append_drop c rows).symm
    have hrest : ∀ it : RowIterator codec, it.pageToken = q.pageToken → it.jobRef = q.jobRef →
        it.Rest rows position (rows.drop c) := by
      intro it hpage hjob
      cases hq : q.pageToken with
      | none => simpa [RowIterator.Rest, hpage, hq] using hlast hq
      | some token =>
        have hsome := hserves.job (by simp [hq])
        simp [RowIterator.Rest, hpage, hq, hjob, hsome, htoken token hq]
    cases hdata : q.cachedData with
    | rows cached =>
      simp only [CachedHolds, hdata] at hcached
      refine ⟨by simp [RowIterator.new, hstorage, hdata], [], rows.take c, rows.drop c, ?_,
        fun _ => rfl, ?_, hrest _ ?_ ?_, hsplit⟩
      · simp [RowIterator.new, hstorage, hdata]
      · simpa [RowIterator.front, RowIterator.new, hstorage, hdata] using hcached
      · simp [RowIterator.new, hstorage, hdata]
      · simp [RowIterator.new]
    | arrow serializedRecordBatch serializedSchema =>
      simp only [CachedHolds, hdata] at hcached
      obtain ⟨batches, hinline, hreads⟩ := hcached
      refine ⟨by simp [RowIterator.new, hstorage, hdata], batches, rows.take c, rows.drop c, ?_, ?_,
        ?_, hrest _ ?_ ?_, hsplit⟩
      · intro reader hreader
        simp only [RowIterator.new, hstorage, hdata, Option.mem_def, Option.some.injEq] at hreader
        subst hreader
        exact hinline
      · simp [RowIterator.new, hstorage, hdata]
      · simpa [RowIterator.front, RowIterator.new, hstorage, hdata, jsonRows] using hreads
      · simp [RowIterator.new, hstorage, hdata]
      · simp [RowIterator.new]

/-! ## Calls -/

end

/-- Successive calls of `next` and what they return; the page size may be set before any. -/
inductive Calls (service : Service Struct Schema) : RowIterator codec → ℕ →
    List (Option (Except RowError (Row codec))) → RowIterator codec → ℕ → Prop
  | nil {it calls} : Calls service it calls [] it calls
  | setPageSize {it calls pageSize results it' calls'}
      (next : Calls service (it.setPageSize pageSize) calls results it' calls') :
      Calls service it calls results it' calls'
  | cons {it calls fuel result it₁ calls₁ results it' calls'}
      (call : it.next service fuel calls = .returned result it₁ calls₁)
      (next : Calls service it₁ calls₁ results it' calls') :
      Calls service it calls (result :: results) it' calls'

/-- The rows that calls return. -/
def delivered (value : RowInner codec → ρ) (results : List (Option (Except RowError (Row codec)))) :
    List ρ :=
  results.filterMap fun result => result.bind (rowOf value)

section

variable {service : Service Struct Schema} {q : CompleteQuery Struct Schema}
  {value : RowInner codec → ρ} {rows : List ρ} {position : String → Option ℕ}
  {it : RowIterator codec} {pending : List ρ}

theorem Pending.setPageSize (h : Pending service q value rows position it pending) (pageSize : ℕ) :
    Pending service q value rows position (it.setPageSize pageSize) pending :=
  ⟨h.schema, h.parts⟩

/-- What a call returns: the next row, the error of a page, or nothing after the last row. -/
inductive Returns (service : Service Struct Schema) (q : CompleteQuery Struct Schema)
    (value : RowInner codec → ρ) (rows : List ρ) (position : String → Option ℕ)
    (pending : List ρ) (it : RowIterator codec) : Option (Except RowError (Row codec)) → Prop
  | row {result row rest} (pending_eq : pending = row :: rest)
      (row_eq : rowOf value result = some row)
      (next : Pending service q value rows position it rest) :
      Returns service q value rows position pending it (some result)
  | failure {source} (next : Pending service q value rows position it pending) :
      Returns service q value rows position pending it (some (.error (.rpc source)))
  | finished (pending_eq : pending = []) (next : Pending service q value rows position it []) :
      Returns service q value rows position pending it none

theorem next_returns (hserves : Serves codec service q value rows position) {fuel : ℕ}
    (h : Pending service q value rows position it pending) {calls : ℕ}
    {result : Option (Except RowError (Row codec))} {it' : RowIterator codec} {calls' : ℕ}
    (hnext : it.next service fuel calls = .returned result it' calls') :
    Returns service q value rows position pending it' result := by
  induction fuel generalizing it calls with
  | zero => simp [RowIterator.next] at hnext
  | succ fuel ih =>
    have hgoes := iteration_goes hserves h calls
    rw [RowIterator.next] at hnext
    cases hiteration : it.iteration service calls with
    | panicked => simp [hiteration] at hnext
    | stuck => simp [hiteration] at hnext
    | running it₁ calls₁ =>
      rw [hiteration] at hgoes hnext
      cases hgoes with
      | waiting _ hpending => exact ih hpending hnext
      | ready _ hpending => exact ih hpending hnext
    | returned result₁ it₁ calls₁ =>
      rw [hiteration] at hgoes hnext
      simp only [Outcome.returned.injEq] at hnext
      obtain ⟨rfl, rfl, rfl⟩ := hnext
      cases hgoes with
      | row hpending hrow hnext => exact .row hpending hrow hnext
      | finished hpending hnext => exact .finished hpending hnext
      | failure _ hnext => exact .failure hnext

/-- Calls never panic, and no reader gets stuck. -/
theorem next_safe (hserves : Serves codec service q value rows position)
    (h : Pending service q value rows position it pending) (fuel calls : ℕ) :
    it.next service fuel calls ≠ .panicked ∧ it.next service fuel calls ≠ .stuck := by
  induction fuel generalizing it calls with
  | zero => simp [RowIterator.next]
  | succ fuel ih =>
    have hgoes := iteration_goes hserves h calls
    rw [RowIterator.next]
    cases hiteration : it.iteration service calls with
    | panicked =>
      rw [hiteration] at hgoes
      cases hgoes
    | stuck =>
      rw [hiteration] at hgoes
      cases hgoes
    | returned result it₁ calls₁ => simp
    | running it₁ calls₁ =>
      rw [hiteration] at hgoes
      cases hgoes with
      | waiting _ hpending => exact ih hpending _
      | ready _ hpending => exact ih hpending _

/-- What calls return and what is pending after them is what was pending before. -/
theorem calls_deliver (hserves : Serves codec service q value rows position)
    {calls calls' : ℕ} {results : List (Option (Except RowError (Row codec)))}
    {it' : RowIterator codec} (hcalls : Calls service it calls results it' calls')
    (h : Pending service q value rows position it pending) :
    ∃ rest, Pending service q value rows position it' rest ∧
      pending = delivered value results ++ rest ∧ (none ∈ results → rest = []) ∧
      ∀ error, some (.error error) ∈ results → ∃ source, error = .rpc source := by
  induction hcalls generalizing pending with
  | nil => exact ⟨pending, h, by simp [delivered], by simp, by simp⟩
  | setPageSize next ih => exact ih (h.setPageSize _)
  | cons call next ih =>
    cases next_returns hserves h call with
    | row hpending hrow hnext =>
      obtain ⟨rest, hrest, hdelivered, hnone, herror⟩ := ih hnext
      refine ⟨rest, hrest, ?_, by simpa using hnone, ?_⟩
      · simp [hpending, delivered, hrow, hdelivered]
      · intro error hmem
        rcases List.mem_cons.1 hmem with heq | hmem
        · have hresult := Option.some.inj heq
          rw [← hresult] at hrow
          simp [rowOf] at hrow
        · exact herror error hmem
    | failure hnext =>
      obtain ⟨rest, hrest, hdelivered, hnone, herror⟩ := ih hnext
      refine ⟨rest, hrest, ?_, by simpa using hnone, ?_⟩
      · rw [delivered, List.filterMap_cons_none rfl]
        exact hdelivered
      · intro error hmem
        rcases List.mem_cons.1 hmem with heq | hmem
        · simp only [Option.some.injEq, Except.error.injEq] at heq
          exact ⟨_, heq⟩
        · exact herror error hmem
    | finished hpending hnext =>
      obtain ⟨rest, hrest, hdelivered, -, herror⟩ := ih hnext
      have hnil := List.append_eq_nil_iff.1 hdelivered.symm
      refine ⟨rest, hrest, ?_, fun _ => hnil.2, ?_⟩
      · simpa [hpending, delivered] using hdelivered
      · intro error hmem
        exact herror error (by simpa using hmem)

/-! ## All calls -/

/-- Iterations from here on come to the end. -/
inductive Finishes (service : Service Struct Schema) : RowIterator codec → ℕ → Prop
  | finished {it calls it' calls'} (h : it.iteration service calls = .returned none it' calls') :
      Finishes service it calls
  | returned {it calls result it' calls'}
      (h : it.iteration service calls = .returned (some result) it' calls')
      (next : Finishes service it' calls') : Finishes service it calls
  | running {it calls it' calls'} (h : it.iteration service calls = .running it' calls')
      (next : Finishes service it' calls') : Finishes service it calls

/-- The first call returns, and the calls after it come to the end unless it did. -/
theorem Finishes.next {calls : ℕ} (h : Finishes service it calls) :
    ∃ fuel result it' calls', it.next service fuel calls = .returned result it' calls' ∧
      (result = none ∨
        ∃ results it'' calls'', Calls service it' calls' (results ++ [none]) it'' calls'') := by
  induction h with
  | @finished it calls it' calls' h =>
    exact ⟨1, none, it', calls', by simp [RowIterator.next, h], .inl rfl⟩
  | @returned it calls result it' calls' h _ ih =>
    obtain ⟨fuel, result', it₁, calls₁, hnext, hafter⟩ := ih
    refine ⟨1, some result, it', calls', by simp [RowIterator.next, h], .inr ?_⟩
    rcases hafter with rfl | ⟨results, it'', calls'', hcalls⟩
    · exact ⟨[], it₁, calls₁, .cons hnext .nil⟩
    · exact ⟨result' :: results, it'', calls'', .cons hnext hcalls⟩
  | @running it calls it' calls' h _ ih =>
    obtain ⟨fuel, result, it₁, calls₁, hnext, hafter⟩ := ih
    exact ⟨fuel + 1, result, it₁, calls₁, by simp [RowIterator.next, h, hnext], hafter⟩

theorem Finishes.calls {calls : ℕ} (h : Finishes service it calls) :
    ∃ results it' calls', Calls service it calls (results ++ [none]) it' calls' := by
  obtain ⟨fuel, result, it₁, calls₁, hnext, hafter⟩ := h.next
  rcases hafter with rfl | ⟨results, it'', calls'', hcalls⟩
  · exact ⟨[], it₁, calls₁, .cons hnext .nil⟩
  · exact ⟨result :: results, it'', calls'', .cons hnext hcalls⟩

theorem Ready.iteration_eq (hready : Ready it) (service : Service Struct Schema) (calls : ℕ) :
    ∃ result it', it.iteration service calls = .returned (some result) it' calls := by
  rcases hready with ⟨batch, hbatch, hindex⟩ | ⟨hbatch, hreader, hrows⟩
  · simp [RowIterator.iteration, hbatch, hindex]
  · cases hcons : it.rows with
    | nil => exact absurd hcons hrows
    | cons rawRow rest =>
      simp [RowIterator.iteration, RowIterator.readBatch, RowIterator.popRow, hbatch, hreader,
        hcons]

theorem Waiting.iteration_eq (hwaiting : Waiting it) (calls : ℕ) :
    it.iteration service calls = it.tryFetchPage service calls := by
  simp [RowIterator.iteration, RowIterator.readBatch, RowIterator.popRow, hwaiting.batch,
    hwaiting.reader, hwaiting.rows]

/-- The request that succeeds ends the rows or brings some. -/
theorem Waiting.iteration_live (hserves : Serves codec service q value rows position)
    (h : Pending service q value rows position it pending) (hwaiting : Waiting it) {calls : ℕ}
    (hlive : ∀ req i, position req.pageToken = some i →
      ∃ res, service.getQueryResults calls req = .ok res ∧ (i < rows.length → res.rows ≠ [])) :
    (∃ it' calls', it.iteration service calls = .returned none it' calls') ∨
    ∃ it' calls', it.iteration service calls = .running it' calls' ∧ Ready it' ∧
      Pending service q value rows position it' pending := by
  rw [hwaiting.iteration_eq]
  have hrest := h.rest hwaiting
  cases htoken : it.pageToken with
  | none => exact .inl ⟨it, calls, by simp [RowIterator.tryFetchPage, htoken, hwaiting.rows]⟩
  | some token =>
    simp only [RowIterator.Rest, htoken] at hrest
    obtain ⟨hjob, i, hposition, hpending⟩ := hrest
    obtain ⟨jobRef, hjobRef⟩ := Option.isSome_iff_exists.1 hjob
    obtain ⟨res, hanswer, hrows⟩ :=
      hlive ⟨jobRef.projectId, jobRef.jobId, jobRef.location, it.pageSize, token⟩ i hposition
    rcases tryFetchPage_page hserves h hwaiting htoken hjobRef hposition hpending hanswer with
      ⟨it', hresult, -⟩ | ⟨it', hresult, hready, hnext⟩ | ⟨-, -, -, -, hempty, hleft⟩
    · exact .inl ⟨it', _, hresult⟩
    · exact .inr ⟨it', _, hresult, hready, hnext⟩
    · exact absurd hempty (hrows hleft)

section

variable (hserves : Serves codec service q value rows position)
  (hshorter : ∀ (it : RowIterator codec) (calls : ℕ) (rest : List ρ),
    rest.length < pending.length → Pending service q value rows position it rest →
    Finishes service it calls)

include hserves hshorter

/-- A row in memory is returned, and fewer rows are pending. -/
theorem finishes_of_ready (h : Pending service q value rows position it pending)
    (hready : Ready it) (calls : ℕ) : Finishes service it calls := by
  obtain ⟨result, it', hiteration⟩ := hready.iteration_eq service calls
  have hgoes := iteration_goes hserves h calls
  rw [hiteration] at hgoes
  cases hgoes with
  | row hpending _ hnext =>
    refine .returned hiteration (hshorter it' _ _ ?_ hnext)
    simp [hpending]

/-- Waiting for the request that succeeds: those before it fail or return an empty page. -/
theorem finishes_of_waiting {later : ℕ}
    (hlive : ∀ req i, position req.pageToken = some i →
      ∃ res, service.getQueryResults later req = .ok res ∧ (i < rows.length → res.rows ≠ []))
    (h : Pending service q value rows position it pending) (hwaiting : Waiting it) {calls d : ℕ}
    (hcalls : calls + d = later) : Finishes service it calls := by
  induction d generalizing it calls with
  | zero =>
    obtain rfl : calls = later := hcalls
    rcases hwaiting.iteration_live hserves h hlive with
      ⟨it', calls', hiteration⟩ | ⟨it', calls', hiteration, hready, hnext⟩
    · exact .finished hiteration
    · exact .running hiteration (finishes_of_ready hserves hshorter hnext hready calls')
  | succ d ih =>
    have hgoes := iteration_goes hserves h calls
    cases hiteration : it.iteration service calls with
    | panicked => rw [hiteration] at hgoes; cases hgoes
    | stuck => rw [hiteration] at hgoes; cases hgoes
    | returned result it' calls' =>
      rw [hiteration] at hgoes
      cases hgoes with
      | row hpending _ hnext =>
        exact .returned hiteration (hshorter it' calls' _ (by simp [hpending]) hnext)
      | finished => exact .finished hiteration
      | failure hwaiting' hnext => exact .returned hiteration (ih hnext hwaiting' (by omega))
    | running it' calls' =>
      rw [hiteration] at hgoes
      cases hgoes with
      | waiting hwaiting' hnext => exact .running hiteration (ih hnext hwaiting' (by omega))
      | ready hready hnext =>
        exact .running hiteration (finishes_of_ready hserves hshorter hnext hready calls')

end

theorem finishes (hserves : Serves codec service q value rows position)
    (hlive : Live service rows position) (h : Pending service q value rows position it pending)
    (calls : ℕ) : Finishes service it calls := by
  induction hlength : pending.length using Nat.strong_induction_on generalizing it calls pending with
  | _ n ih =>
    have hshorter : ∀ (it : RowIterator codec) (calls : ℕ) (rest : List ρ),
        rest.length < pending.length → Pending service q value rows position it rest →
        Finishes service it calls := fun it calls rest hrest hpending =>
      ih rest.length (hlength ▸ hrest) hpending calls rfl
    have hwait : ∀ (it : RowIterator codec) (calls : ℕ),
        Pending service q value rows position it pending → Waiting it →
        Finishes service it calls := by
      intro it calls hpending hwaiting
      obtain ⟨later, hle, hlive⟩ := hlive calls
      exact finishes_of_waiting hserves hshorter hlive hpending hwaiting (Nat.add_sub_cancel' hle)
    have hgoes := iteration_goes hserves h calls
    cases hiteration : it.iteration service calls with
    | panicked => rw [hiteration] at hgoes; cases hgoes
    | stuck => rw [hiteration] at hgoes; cases hgoes
    | returned result it' calls' =>
      rw [hiteration] at hgoes
      cases hgoes with
      | row hpending _ hnext =>
        exact .returned hiteration (hshorter it' calls' _ (by simp [hpending]) hnext)
      | finished => exact .finished hiteration
      | failure hwaiting hnext => exact .returned hiteration (hwait it' _ hnext hwaiting)
    | running it' calls' =>
      rw [hiteration] at hgoes
      cases hgoes with
      | waiting hwaiting hnext => exact .running hiteration (hwait it' _ hnext hwaiting)
      | ready hready hnext =>
        exact .running hiteration (finishes_of_ready hserves hshorter hnext hready calls')

/-- The rows that calls of `next` return are the rows of the query in order, whatever requests for
pages fail in between, and all of them once a call returns nothing; and there is such a call when
the service goes on answering. -/
theorem rows_returned_once_in_order {codec : Codec Struct Schema} {service : Service Struct Schema}
    {q : CompleteQuery Struct Schema} {value : RowInner codec → ρ} {rows : List ρ}
    {position : String → Option ℕ} (hserves : Serves codec service q value rows position) :
    (∀ results it calls, Calls service (RowIterator.new codec service q) 0 results it calls →
      delivered value results <+: rows ∧
      (none ∈ results → delivered value results = rows) ∧
      (∀ error, some (.error error) ∈ results → ∃ source, error = .rpc source) ∧
      ∀ fuel, it.next service fuel calls ≠ .panicked ∧ it.next service fuel calls ≠ .stuck) ∧
    (Live service rows position → ∃ results it calls,
      Calls service (RowIterator.new codec service q) 0 (results ++ [none]) it calls) := by
  have hnew := pending_new hserves
  refine ⟨?_, ?_⟩
  · intro results it calls hcalls
    obtain ⟨rest, hrest, hrows, hnone, herror⟩ := calls_deliver hserves hcalls hnew
    refine ⟨⟨rest, hrows.symm⟩, ?_, herror, fun fuel => next_safe hserves hrest fuel calls⟩
    intro hmem
    rw [hrows, hnone hmem, List.append_nil]
  · intro hlive
    exact (finishes hserves hlive hnew 0).calls

/-! ## An inline batch, then pages -/

/-- Every byte is a frame: of the schema, or of a batch with one row. -/
def frameCodec : Codec ℕ Unit where
  SqlValue := ℕ
  RecordBatch := List ℕ
  Decoder := Unit
  convertRow row _ := .ok [row]
  schemaLen _ := 1
  schemaDefault := ()
  fromArrowSchema _ := .ok ()
  numColumns _ := 1
  numRows batch := batch.length
  new := ()
  decode _ buf :=
    match buf with
    | [] => (.ok none, [], ())
    | frame :: rest => (.ok (if frame = 0 then none else some [frame.toNat]), rest, ())
  finish _ := .ok ()

def frameValue : RowInner frameCodec → ℕ
  | .json (values : List ℕ) => values.headD 0
  | .arrow (batch : List ℕ) rowIdx => batch.getD rowIdx 0

/-- The first request fails, and the first page is empty. -/
def failingService : Service ℕ Unit where
  readRows _ _ := .ok []
  getQueryResults calls req :=
    if calls = 0 then .error {}
    else if req.pageToken = "t" ∧ calls = 1 then .ok { rows := [], pageToken := "u" }
    else if req.pageToken = "v" then .ok { rows := [3], pageToken := "" }
    else .ok { rows := [2], pageToken := "v" }

def tokenPosition (token : String) : Option ℕ :=
  if token = "t" ∨ token = "u" then some 1 else if token = "v" then some 2 else none

def inlineQuery : CompleteQuery ℕ Unit where
  readClient := false
  jobRef := some { projectId := "p", jobId := "j" }
  cachedData := .arrow [1] [0]
  pageToken := some "t"
  metadata := { jobReference := none, schema := none, totalRows := some 3, pageToken := "t" }
  pageSize := none

theorem failingService_serves :
    Serves frameCodec failingService inlineQuery frameValue [1, 2, 3] tokenPosition where
  cached := by
    refine ⟨1, ⟨[[1]], ?_, rfl⟩, by simp [inlineQuery], by simp [inlineQuery, tokenPosition]⟩
    refine ⟨(), rfl, ?_⟩
    exact .batch rfl (by decide) (.done rfl)
  job := by simp [inlineQuery]
  pages := by
    intro calls req res i hanswer hposition
    by_cases hv : req.pageToken = "v"
    · simp only [tokenPosition, hv] at hposition
      obtain rfl : 2 = i := by simpa using hposition
      by_cases hcalls : calls = 0
      · simp [failingService, hcalls] at hanswer
      · simp only [failingService, hv, hcalls, if_false, if_true] at hanswer
        simp only [String.reduceEq, false_and, if_false, Except.ok.injEq] at hanswer
        subst hanswer
        exact ⟨3, by decide, rfl, by simp, by simp, by simp, by simp⟩
    · obtain ⟨htu, rfl⟩ : (req.pageToken = "t" ∨ req.pageToken = "u") ∧ 1 = i := by
        simp only [tokenPosition, hv, if_false] at hposition
        split_ifs at hposition with htu
        exact ⟨htu, by simpa using hposition⟩
      simp only [failingService, hv, if_false] at hanswer
      split_ifs at hanswer with hcalls hempty
      · obtain rfl := Except.ok.inj hanswer
        exact ⟨1, le_rfl, rfl, by simp, by simp [tokenPosition], by simp, by simp [hempty.1]⟩
      · obtain rfl := Except.ok.inj hanswer
        exact ⟨2, by decide, rfl, by simp, by simp [tokenPosition], by simp, by simp⟩
  storage := by simp [inlineQuery]

theorem failingService_live : Live failingService [1, 2, 3] tokenPosition := by
  intro calls
  refine ⟨calls + 2, by omega, ?_⟩
  intro req i hposition
  by_cases hv : req.pageToken = "v"
  · exact ⟨_, by simp [failingService, hv]; rfl, by simp⟩
  · exact ⟨_, by simp [failingService, hv]; rfl, by simp⟩

/-- The result of a call for a row of a page. -/
def pageResult (n : ℕ) : Option (Except RowError (Row frameCodec)) :=
  some (.ok ⟨.json [n], ()⟩)

theorem rows_returned_once_in_order_inline_then_pages :
    (∃ it calls, Calls failingService (RowIterator.new frameCodec failingService inlineQuery) 0
      [some (.ok ⟨.arrow [1] 0, ()⟩), some (.error (.rpc {})), pageResult 2, pageResult 3, none]
      it calls) ∧
    ∃ results it calls, Calls failingService
      (RowIterator.new frameCodec failingService inlineQuery) 0 (results ++ [none]) it calls ∧
      delivered frameValue (results ++ [none]) = [1, 2, 3] := by
  have hresult := rows_returned_once_in_order failingService_serves
  refine ⟨?_, ?_⟩
  · exact ⟨_, _,
      .cons (rfl : RowIterator.next failingService 2 _ _ = _) <|
      .cons (rfl : RowIterator.next failingService 1 _ _ = _) <|
      .cons (rfl : RowIterator.next failingService 3 _ _ = _) <|
      .cons (rfl : RowIterator.next failingService 2 _ _ = _) <|
      .cons (rfl : RowIterator.next failingService 1 _ _ = _) .nil⟩
  · obtain ⟨results, it, calls, hcalls⟩ := hresult.2 failingService_live
    exact ⟨results, it, calls, hcalls, (hresult.1 _ it calls hcalls).2.1 (by simp)⟩

end

end GoogleCloudRust.QueryJob
