import GoogleCloudRust.Library.Interleaving
import GoogleCloudRust.Verification.ResultSet.Reassembly

/-! # Rows are delivered once

Whatever fails and whatever is retried, the rows that a result set returns are the rows of
the logical stream of the server, each of them once. -/

namespace GoogleCloudRust.ResultSet

open Interleaving

variable {conversion : StatsConversion}

/-! ## The server -/

/-- The messages after the one with the given resume token. -/
def resumeAfter (token : Bytes) :
    List (PartialResultSet conversion) → List (PartialResultSet conversion)
  | [] => []
  | partialResultSet :: rest =>
      if partialResultSet.resumeToken = token then rest else resumeAfter token rest

/-- All that the server sends if nothing fails. -/
structure LogicalStream (conversion : StatsConversion) where
  first : PartialResultSet conversion
  others : List (PartialResultSet conversion)
  metadataMessage : MetadataMessage
  first_metadata : first.metadata = some metadataMessage
  others_metadata : ∀ partialResultSet ∈ others, partialResultSet.metadata = none
  columns : (ResultSetMetadata.new metadataMessage).columnTypes ≠ []
  tokens : (((first :: others).map PartialResultSet.resumeToken).filter (· ≠ [])).Nodup
  last : ∀ partialResultSet ∈ (first :: others).dropLast, partialResultSet.last = false

namespace LogicalStream

variable (stream : LogicalStream conversion)

def messages : List (PartialResultSet conversion) := stream.first :: stream.others

def metadata : ResultSetMetadata := .new stream.metadataMessage

/-- A stream that is opened with a resume token starts after the message that carries it. -/
def serve (token : Bytes) : List (PartialResultSet conversion) :=
  if token = [] then stream.messages else resumeAfter token stream.messages

variable {stream} {before after : List (PartialResultSet conversion)}
  {partialResultSet : PartialResultSet conversion}

theorem serve_token (h : stream.messages = before ++ partialResultSet :: after)
    (htoken : partialResultSet.resumeToken ≠ []) :
    stream.serve partialResultSet.resumeToken = after := by
  have htokens := stream.tokens
  change ((stream.messages.map _).filter _).Nodup at htokens
  rw [serve, if_neg htoken, h]
  rw [h] at htokens
  clear h
  induction before with
  | nil => exact if_pos rfl
  | cons other before ih =>
      rw [List.cons_append, resumeAfter, if_neg]
      · refine ih (htokens.sublist ?_)
        exact ((List.sublist_cons_self _ _).map _).filter _
      · -- Another message with the same token would be listed twice.
        intro heq
        rw [List.cons_append, List.map_cons, heq, List.filter_cons_of_pos (by simpa using htoken),
          List.nodup_cons] at htokens
        exact htokens.1 (by simp [htoken])

theorem metadata_of_mem (h : partialResultSet ∈ stream.messages) {metadata : MetadataMessage}
    (hmetadata : partialResultSet.metadata = some metadata) :
    ResultSetMetadata.new metadata = stream.metadata := by
  rcases List.mem_cons.mp h with rfl | hother
  · rw [stream.first_metadata] at hmetadata
    cases hmetadata
    rfl
  · rw [stream.others_metadata _ hother] at hmetadata
    cases hmetadata

theorem after_last (h : stream.messages = before ++ partialResultSet :: after)
    (hlast : partialResultSet.last = true) : after = [] := by
  by_contra hne
  have hmem : partialResultSet ∈ stream.messages.dropLast := by
    rw [h, List.dropLast_append_of_ne_nil (List.cons_ne_nil _ _), List.dropLast_cons_of_ne_nil hne]
    simp
  rw [stream.last _ hmem] at hlast
  cases hlast

end LogicalStream

/-- A result set is created once. -/
theorem System.step_create_of_ne {system : System conversion} (hphase : system.phase ≠ .new)
    (server : Bytes → List (PartialResultSet conversion)) (restartError : Option Error)
    (retry : Retry) : system.step server (.create restartError retry) = system := by
  cases hother : system.phase <;> simp_all [System.step]

/-! ## Messages under way -/

/-- Buffered messages have lost their metadata. -/
def withoutMetadata (partialResultSet : PartialResultSet conversion) :
    PartialResultSet conversion :=
  { partialResultSet with metadata := none }

theorem tryAddAll_withoutMetadata (assembly : Assembly)
    (partialResultSets : List (PartialResultSet conversion)) :
    assembly.tryAddAll (partialResultSets.map withoutMetadata) =
      assembly.tryAddAll partialResultSets := by
  induction partialResultSets generalizing assembly with
  | nil => rfl
  | cons partialResultSet rest ih =>
      rw [List.map_cons, Assembly.tryAddAll, Assembly.tryAddAll]
      exact congrArg _ (funext ih)

/-- The messages that became rows, and those that wait in the buffer. -/
structure Reading (metadata : ResultSetMetadata) (resultSet : ResultSet conversion)
    (rows : List Row) (processed pending : List (PartialResultSet conversion)) : Prop where
  buffer : resultSet.partialResultSetsBuffer = pending.map withoutMetadata
  made : ∃ assembly, Assembly.empty.tryAddAll processed = .ok assembly ∧
    Holds metadata resultSet (rows ++ resultSet.readyRows) assembly

variable {metadata : ResultSetMetadata} {resultSet next : ResultSet conversion} {rows : List Row}
  {processed pending : List (PartialResultSet conversion)}

/-- A change outside the buffer and the rows. -/
theorem Reading.congr (h : Reading metadata resultSet rows processed pending)
    (hbuffer : next.partialResultSetsBuffer = resultSet.partialResultSetsBuffer)
    (hready : next.readyRows = resultSet.readyRows)
    (hbuffered : next.bufferedValues = resultSet.bufferedValues)
    (hchunked : next.chunked = resultSet.chunked) :
    Reading metadata next rows processed pending := by
  obtain ⟨assembly, hassembly, hholds⟩ := h.made
  refine ⟨hbuffer.trans h.buffer, assembly, hassembly, ?_⟩
  rw [hready]
  exact hholds.congr hchunked hbuffered

/-- The rows of the processed messages are a part of the rows of the stream. -/
theorem Reading.rows_isPrefixOf (h : Reading metadata resultSet rows processed pending)
    (rest : List (PartialResultSet conversion)) :
    rows <+: reassemble metadata (processed ++ rest) := by
  obtain ⟨assembly, hassembly, hholds⟩ := h.made
  refine (List.prefix_append rows resultSet.readyRows).trans ?_
  rw [← hholds.rows_eq, reassemble, Assembly.addAll_of_tryAddAll hassembly]
  exact (groups_mono (assembly.addAll_complete rest)).map _

theorem flushBuffer_reading (hexec : flushBuffer.exec resultSet = (.ok (), next))
    (hmetadata : resultSet.localMetadata = some metadata)
    (h : Reading metadata resultSet rows processed pending) :
    Reading metadata next rows (processed ++ pending) [] ∧
      Processed { resultSet with partialResultSetsBuffer := [] } next := by
  obtain ⟨assembly, hassembly, hholds⟩ := h.made
  rw [flushBuffer, Fallible.exec_bind_ok (Fallible.exec_get resultSet),
    Fallible.exec_bind_ok (Fallible.exec_set _ _), h.buffer] at hexec
  obtain ⟨assembly', new, hadd, hholds', hready, hprocessed⟩ :=
    processAll_holds hexec hmetadata (hholds.congr rfl rfl)
  refine ⟨⟨hprocessed.buffer, assembly', ?_, ?_⟩, hprocessed⟩
  · rw [tryAddAll_withoutMetadata] at hadd
    exact Assembly.tryAddAll_append hassembly hadd
  · rw [hready, ← List.append_assoc]
    exact hholds'

theorem pushBack_reading (h : Reading metadata resultSet rows processed pending)
    (partialResultSet : PartialResultSet conversion) :
    Reading metadata { resultSet with partialResultSetsBuffer :=
      resultSet.partialResultSetsBuffer ++ [withoutMetadata partialResultSet] } rows processed
      (pending ++ [partialResultSet]) := by
  obtain ⟨assembly, hassembly, hholds⟩ := h.made
  exact ⟨by rw [h.buffer, List.map_append, List.map_singleton], assembly, hassembly,
    hholds.congr rfl rfl⟩

/-- A full buffer gives its oldest message away and is no longer safe. -/
theorem processOldest_reading (hmetadata : resultSet.localMetadata = some metadata)
    (h : Reading metadata resultSet rows processed pending)
    (hexec : processOldest.exec resultSet = (.ok (), next)) :
    ∃ moved kept, pending = moved ++ kept ∧
      Reading metadata next rows (processed ++ moved) kept ∧
      next.stream = resultSet.stream ∧ next.seenLast = resultSet.seenLast ∧
      next.localMetadata = resultSet.localMetadata ∧
      (next.safeToRetry = true → moved = [] ∧ resultSet.safeToRetry = true ∧
        next.lastResumeToken = resultSet.lastResumeToken) := by
  rw [processOldest, Fallible.exec_bind_ok (Fallible.exec_get resultSet)] at hexec
  split_ifs at hexec with hroom
  · cases hexec
    exact ⟨[], pending, rfl, by rwa [List.append_nil], rfl, rfl, rfl, fun hsafe => ⟨rfl, hsafe, rfl⟩⟩
  · have hbuffer := h.buffer
    cases pending with
    | nil =>
        rw [List.map_nil] at hbuffer
        simp only [hbuffer] at hexec
        cases hexec
        refine ⟨[], [], rfl, ?_, rfl, rfl, rfl, nofun⟩
        rw [List.append_nil]
        exact h.congr hbuffer.symm rfl rfl rfl
    | cons oldest kept =>
        rw [List.map_cons] at hbuffer
        simp only [hbuffer] at hexec
        rw [Fallible.exec_bind_ok (Fallible.exec_set _ _)] at hexec
        obtain ⟨assembly, hassembly, hholds⟩ := h.made
        obtain ⟨assembly', new, hadd, hholds', hready, hprocessed⟩ :=
          processPartialResultSet_holds hexec hmetadata (hholds.congr rfl rfl)
        refine ⟨[oldest], kept, rfl, ⟨hprocessed.buffer, assembly', ?_, ?_⟩, hprocessed.stream,
          hprocessed.seenLast, hprocessed.localMetadata, fun hsafe => ?_⟩
        · refine Assembly.tryAddAll_append hassembly ?_
          have hadd' : assembly.add oldest = .ok assembly' := hadd
          rw [Assembly.tryAddAll, hadd']
          rfl
        · rw [hready, ← List.append_assoc]
          exact hholds'
        · rw [hprocessed.safeToRetry] at hsafe
          cases hsafe

/-- Metadata is stored once and for all. -/
theorem checkMetadata_eq_ok {message : Option MetadataMessage} {selector : Option SelectorView}
    (hexec : (checkMetadata message selector).exec resultSet = (.ok (), next))
    (hlocal : resultSet.localMetadata = some metadata ∨ resultSet.localMetadata = none)
    (hmessage : ∀ m, message = some m → ResultSetMetadata.new m = metadata) :
    next = { resultSet with localMetadata := some metadata } := by
  have hhandle : ∀ {m : MetadataMessage}, message = some m →
      (handleMetadata m selector).exec resultSet = (.ok (), next) →
      next = { resultSet with localMetadata := some metadata } := by
    intro m hm hexec
    rw [handleMetadata, Fallible.exec_bind_eq_ok] at hexec
    obtain ⟨⟨⟩, updated, hupdate, hset⟩ := hexec
    rw [Fallible.exec_ofResult, Prod.mk.injEq] at hupdate
    obtain ⟨-, rfl⟩ := hupdate
    cases hset
    rw [hmessage m hm]
  rw [checkMetadata, Fallible.exec_bind_ok (Fallible.exec_get resultSet)] at hexec
  split at hexec
  · rename_i hsome
    cases hexec
    rcases hlocal with hlocal | hlocal
    · rw [← hlocal]
    · rw [hlocal] at hsome
      cases hsome
  · cases hexec
  · split_ifs at hexec
    · exact hhandle rfl hexec
    · cases hexec
  · exact hhandle rfl hexec

/-! ## Reading and finished result sets -/

variable (stream : LogicalStream conversion)

/-- The stream goes on where the buffer ends, and the resume token stands for the processed
messages as long as the result set may retry. -/
structure LiveAt (resultSet : ResultSet conversion) (rows : List Row)
    (processed pending rest : List (PartialResultSet conversion)) : Prop where
  messages : stream.messages = processed ++ pending ++ rest
  reading : Reading stream.metadata resultSet rows processed pending
  localMetadata : resultSet.localMetadata = some stream.metadata ∨ resultSet.localMetadata = none
  unread : resultSet.localMetadata = none → processed ++ pending = []
  resumable : resultSet.safeToRetry = true →
    stream.serve resultSet.lastResumeToken = pending ++ rest
  seenLast : resultSet.seenLast = false

/-- More messages are to be read. -/
def Live (resultSet : ResultSet conversion) (rows : List Row) : Prop :=
  ∃ processed pending rest, LiveAt stream resultSet rows processed pending rest ∧
    resultSet.stream = some rest

/-- All messages became rows. -/
structure Finished (resultSet : ResultSet conversion) (rows : List Row) : Prop where
  reading : Reading stream.metadata resultSet rows stream.messages []
  seenLast : resultSet.seenLast = true

/-- Nothing is left to return. -/
structure Closed (resultSet : ResultSet conversion) : Prop where
  seenLast : resultSet.seenLast = true
  readyRows : resultSet.readyRows = []
  bufferedValues : resultSet.bufferedValues = []
  chunked : resultSet.chunked = false

variable {stream} {rest : List (PartialResultSet conversion)}
  {partialResultSet : PartialResultSet conversion}

/-- The buffered messages, the received one among them, become rows. -/
theorem flushed_live {received : ResultSet conversion}
    (hreading : Reading stream.metadata received rows processed (pending ++ [partialResultSet]))
    (hmessages : stream.messages = processed ++ pending ++ partialResultSet :: rest)
    (hlocal : received.localMetadata = some stream.metadata)
    (hstream : received.stream = some rest) (hlast : received.seenLast = partialResultSet.last)
    (hresumable : partialResultSet.last = false →
      stream.serve received.lastResumeToken = rest)
    (hexec : flushBuffer.exec received = (.ok (), next)) :
    Live stream next rows ∨ Finished stream next rows := by
  obtain ⟨hflushed, hprocessed⟩ := flushBuffer_reading hexec hlocal hreading
  have hall : stream.messages = processed ++ (pending ++ [partialResultSet]) ++ rest := by
    simpa using hmessages
  cases hseen : partialResultSet.last with
  | true =>
      have hrest := stream.after_last hmessages hseen
      rw [hrest, List.append_nil] at hall
      rw [← hall] at hflushed
      exact .inr ⟨hflushed, hprocessed.seenLast.trans (hlast.trans hseen)⟩
  | false =>
      refine .inl ⟨_, [], rest, ⟨by rw [hall, List.append_nil], hflushed,
        .inl (hprocessed.localMetadata.trans hlocal), fun hnone => ?_, fun _ => ?_,
        hprocessed.seenLast.trans (hlast.trans hseen)⟩, hprocessed.stream.trans hstream⟩
      · rw [hprocessed.localMetadata.trans hlocal] at hnone
        cases hnone
      · rw [hprocessed.lastResumeToken]
        exact hresumable hseen

theorem handlePartialResultSet_live {selector : Option SelectorView}
    (h : LiveAt stream resultSet rows processed pending (partialResultSet :: rest))
    (hexec : (handlePartialResultSet partialResultSet selector).exec
      { resultSet with stream := some rest } = (.ok (), next)) :
    Live stream next rows ∨ Finished stream next rows := by
  rw [handlePartialResultSet, Fallible.exec_bind_ok (Fallible.exec_modify _ _),
    Fallible.exec_bind_eq_ok] at hexec
  obtain ⟨⟨⟩, checked, hcheck, hexec⟩ := hexec
  have hchecked := checkMetadata_eq_ok hcheck h.localMetadata fun m hm =>
    stream.metadata_of_mem (by rw [h.messages]; simp) hm
  dsimp only at hexec
  have hreading : Reading stream.metadata checked rows processed pending := by
    rw [hchecked]
    exact h.reading.congr rfl rfl rfl rfl
  have hlocal : checked.localMetadata = some stream.metadata := by rw [hchecked]
  have hlast : checked.seenLast = partialResultSet.last := by
    rw [hchecked]
    simp [h.seenLast]
  have hstream : checked.stream = some rest := by rw [hchecked]
  split_ifs at hexec with htoken
  · -- The token of the message stands for all messages so far.
    rw [Fallible.exec_bind_ok (Fallible.exec_modify _ _), pushBack,
      Fallible.exec_bind_ok (Fallible.exec_modify _ _)] at hexec
    have hmarked : Reading stream.metadata { checked with
        lastResumeToken := partialResultSet.resumeToken
        safeToRetry := true } rows processed pending := hreading.congr rfl rfl rfl rfl
    exact flushed_live (pushBack_reading hmarked partialResultSet) h.messages hlocal hstream hlast
      (fun _ => stream.serve_token h.messages (by simpa using htoken)) hexec
  · rw [Fallible.exec_bind_eq_ok] at hexec
    obtain ⟨⟨⟩, roomy, holdest, hexec⟩ := hexec
    obtain ⟨moved, kept, rfl, hroomy, hstream', hlast', hlocal', hsafe⟩ :=
      processOldest_reading hlocal hreading holdest
    rw [pushBack, Fallible.exec_bind_ok (Fallible.exec_modify _ _),
      Fallible.exec_bind_ok (Fallible.exec_get _)] at hexec
    have hmessages : stream.messages = (processed ++ moved) ++ kept ++ partialResultSet :: rest := by
      simpa using h.messages
    have hpushed := pushBack_reading hroomy partialResultSet
    dsimp only at hexec
    split_ifs at hexec with hseen
    · have hlast'' : partialResultSet.last = true := hlast.symm.trans (hlast'.symm.trans hseen)
      exact flushed_live hpushed hmessages (hlocal'.trans hlocal) (hstream'.trans hstream)
        (hlast'.trans hlast) (fun hfalse => by rw [hlast''] at hfalse; cases hfalse) hexec
    · cases hexec
      refine .inl ⟨_, _, rest, ⟨by simpa using hmessages, hpushed, .inl (hlocal'.trans hlocal),
        fun hnone => ?_, fun hretry => ?_, by simpa using hseen⟩, hstream'.trans hstream⟩
      · rw [hlocal'.trans hlocal] at hnone
        cases hnone
      · -- The buffer has only grown at its end.
        obtain ⟨rfl, hretry', htoken'⟩ := hsafe hretry
        have hresume := h.resumable (by rw [hchecked] at hretry'; exact hretry')
        rw [htoken', hchecked]
        simpa using hresume

/-- The stream was reopened behind the processed messages. -/
theorem reopened_live (h : LiveAt stream resultSet rows processed pending rest)
    (hsafe : resultSet.safeToRetry = true) :
    Live stream { resultSet with
      partialResultSetsBuffer := []
      stream := some (stream.serve resultSet.lastResumeToken) } rows := by
  obtain ⟨assembly, hassembly, hholds⟩ := h.reading.made
  refine ⟨processed, [], pending ++ rest, ⟨?_, ⟨rfl, assembly, hassembly, hholds.congr rfl rfl⟩,
    h.localMetadata, fun hnone => ?_, fun _ => h.resumable hsafe, h.seenLast⟩, ?_⟩
  · rw [h.messages, List.append_nil, List.append_assoc]
  · exact List.append_eq_nil_iff.mpr ⟨(List.append_eq_nil_iff.mp (h.unread hnone)).1, rfl⟩
  · exact congrArg some (h.resumable hsafe)

/-- The retry loop ends with an empty buffer and a new stream. -/
theorem retryLoop_eq_ok {server : Bytes → List (PartialResultSet conversion)}
    {restartErrors : List Error} {refusal : Option Error}
    (hexec : (retryLoop server restartErrors refusal).exec resultSet = (.ok (), next)) :
    next = { resultSet with
      partialResultSetsBuffer := []
      stream := some (server resultSet.lastResumeToken) } := by
  induction restartErrors generalizing resultSet with
  | nil =>
      cases refusal with
      | none =>
          rw [retryLoop, Fallible.exec_bind_ok (Fallible.exec_modify _ _)] at hexec
          cases hexec
          rfl
      | some error => cases hexec
  | cons error restartErrors ih =>
      rw [retryLoop, Fallible.exec_bind_ok (Fallible.exec_modify _ _)] at hexec
      have hnext := ih hexec
      exact hnext

theorem handleStreamError_live (h : LiveAt stream resultSet rows processed pending rest)
    {error : Error} {retry : Retry}
    (hexec : (handleStreamError stream.serve error retry).exec resultSet = (.ok (), next)) :
    Live stream next rows := by
  rw [handleStreamError, Fallible.exec_bind_ok (Fallible.exec_get _)] at hexec
  split_ifs at hexec with hsafe
  · rw [retryLoop_eq_ok hexec]
    exact reopened_live h hsafe
  · cases hexec

theorem handleStreamEnd_finished (h : LiveAt stream resultSet rows processed pending [])
    (hexec : handleStreamEnd.exec resultSet = (.ok (), next)) : Finished stream next rows := by
  have hlocal : resultSet.localMetadata ≠ none := by
    -- The first message has been read.
    intro hnone
    have hmessages := h.messages
    rw [h.unread hnone, List.append_nil] at hmessages
    cases hmessages
  rw [handleStreamEnd, Fallible.exec_bind_ok (Fallible.exec_modify _ _)] at hexec
  have hreading : Reading stream.metadata { resultSet with stream := none, seenLast := true } rows
      processed pending := h.reading.congr rfl rfl rfl rfl
  obtain ⟨hflushed, hprocessed⟩ := flushBuffer_reading hexec
    (h.localMetadata.resolve_right hlocal) hreading
  refine ⟨?_, hprocessed.seenLast⟩
  rw [h.messages, List.append_nil]
  exact hflushed

/-! ## What calls return -/

variable (stream)

/-- What has been returned so far: rows of the stream from the beginning on. After all rows
or an error there is nothing more. -/
inductive Delivered : ResultSet conversion → List Returned → Prop
  | live {resultSet : ResultSet conversion} {rows : List Row} (h : Live stream resultSet rows) :
      Delivered resultSet (rows.map fun row => some (.ok row))
  | finished {resultSet : ResultSet conversion} {rows : List Row}
      (h : Finished stream resultSet rows) : Delivered resultSet (rows.map fun row => some (.ok row))
  | exhausted {resultSet : ResultSet conversion} (h : Closed resultSet) (calls : ℕ) :
      Delivered resultSet
        (((reassemble stream.metadata stream.messages).map fun row => some (.ok row)) ++
          List.replicate (calls + 1) none)
  | failed {resultSet : ResultSet conversion} {rows : List Row} (h : Closed resultSet)
      (hrows : rows <+: reassemble stream.metadata stream.messages) (error : Error) (calls : ℕ) :
      Delivered resultSet ((rows.map fun row => some (.ok row)) ++
        some (.error error) :: List.replicate calls none)

variable {stream}

theorem recordErrorAndReturn_closed (resultSet : ResultSet conversion) (error : Error) :
    Closed (resultSet.recordErrorAndReturn error).2 :=
  ⟨rfl, rfl, rfl, rfl⟩

theorem Live.rows_isPrefixOf (h : Live stream resultSet rows) :
    rows <+: reassemble stream.metadata stream.messages := by
  obtain ⟨processed, pending, rest, h, -⟩ := h
  rw [h.messages, List.append_assoc]
  exact h.reading.rows_isPrefixOf _

theorem Finished.rows_isPrefixOf (h : Finished stream resultSet rows) :
    rows <+: reassemble stream.metadata stream.messages := by
  have hprefix := h.reading.rows_isPrefixOf []
  rwa [List.append_nil] at hprefix

/-- A ready row is the next one in the order of the stream. -/
theorem Reading.pop (h : Reading metadata resultSet rows processed pending) {row : Row}
    {ready : List Row} (hready : resultSet.readyRows = row :: ready) :
    Reading metadata { resultSet with readyRows := ready } (rows ++ [row]) processed pending := by
  obtain ⟨assembly, hassembly, hholds⟩ := h.made
  rw [hready] at hholds
  refine ⟨h.buffer, assembly, hassembly, ?_⟩
  rw [List.append_assoc, List.singleton_append]
  exact hholds.congr rfl rfl

/-- A finished result set without a rest has returned all rows. -/
theorem Finished.exhausted (h : Finished stream resultSet rows) (hready : resultSet.readyRows = []) :
    rows = reassemble stream.metadata stream.messages := by
  obtain ⟨assembly, hassembly, hholds⟩ := h.reading.made
  have hrows := hholds.rows_eq
  rw [hready, List.append_nil] at hrows
  have hall := Assembly.addAll_of_tryAddAll hassembly []
  rw [List.append_nil] at hall
  rw [← hrows, reassemble, hall]
  rfl

theorem map_concat_row (rows : List Row) (row : Row) :
    (rows.map fun row => (some (.ok row) : Returned)) ++ [some (.ok row)] =
      (rows ++ [row]).map fun row => some (.ok row) := by
  simp

theorem Delivered.pop {returned : List Returned} (h : Delivered stream resultSet returned)
    {row : Row} {ready : List Row} (hready : resultSet.readyRows = row :: ready) :
    Delivered stream { resultSet with readyRows := ready } (returned ++ [some (.ok row)]) := by
  cases h with
  | live h =>
      obtain ⟨processed, pending, rest, h, hstream⟩ := h
      rw [map_concat_row]
      exact .live ⟨processed, pending, rest, ⟨h.messages, h.reading.pop hready, h.localMetadata,
        h.unread, h.resumable, h.seenLast⟩, hstream⟩
  | finished h =>
      rw [map_concat_row]
      exact .finished ⟨h.reading.pop hready, h.seenLast⟩
  | exhausted h calls =>
      rw [h.readyRows] at hready
      cases hready
  | failed h hrows error calls =>
      rw [h.readyRows] at hready
      cases hready

theorem Closed.stop (h : Closed resultSet) : Closed { resultSet with stream := none } :=
  ⟨h.seenLast, h.readyRows, h.bufferedValues, h.chunked⟩

theorem Closed.terminate_eq (h : Closed resultSet) :
    resultSet.terminate = (none, { resultSet with stream := none }) := by
  simp [terminate, validateStreamTermination, h.chunked, h.bufferedValues]

/-- The end of a stream is reported once all rows are returned. -/
theorem Delivered.terminate {returned : List Returned} (h : Delivered stream resultSet returned)
    (hready : resultSet.readyRows = []) (hseen : resultSet.seenLast = true) :
    Delivered stream resultSet.terminate.2 (returned ++ [resultSet.terminate.1]) := by
  cases h with
  | live h =>
      obtain ⟨processed, pending, rest, h, -⟩ := h
      rw [h.seenLast] at hseen
      cases hseen
  | finished h =>
      simp only [ResultSet.terminate]
      split
      · exact .failed (recordErrorAndReturn_closed _ _) h.rows_isPrefixOf _ 0
      · rename_i hok
        have hclosed : Closed { resultSet with stream := none } := by
          simp only [validateStreamTermination] at hok
          split_ifs at hok with hchunked hbuffered
          exact ⟨hseen, hready, by simpa using hbuffered, by simpa using hchunked⟩
        rw [h.exhausted hready]
        exact .exhausted hclosed 0
  | exhausted h calls =>
      rw [h.terminate_eq, List.append_assoc, ← List.replicate_succ']
      exact .exhausted h.stop (calls + 1)
  | failed h hrows error calls =>
      rw [h.terminate_eq, List.append_assoc, List.cons_append, ← List.replicate_succ']
      exact .failed h.stop hrows error (calls + 1)

/-- The head of the loop returns what comes next, or begins to wait. -/
theorem poll_delivered {returned : List Returned} (h : Delivered stream resultSet returned)
    (abortedInfo : Option Error) :
    (∃ result, (resultSet.poll abortedInfo).1 = some result ∧
      Delivered stream (resultSet.poll abortedInfo).2 (returned ++ [result])) ∨
    (resultSet.poll abortedInfo = (none, resultSet) ∧
      ∃ rows, Live stream resultSet rows ∧ returned = rows.map fun row => some (.ok row)) := by
  cases hready : resultSet.readyRows with
  | cons row ready =>
      have hpoll : resultSet.poll abortedInfo =
          (some (some (.ok row)), { resultSet with readyRows := ready }) := by
        simp only [poll, hready]
      rw [hpoll]
      exact .inl ⟨_, rfl, h.pop hready⟩
  | nil =>
      cases hseen : resultSet.seenLast with
      | true =>
          have hpoll : resultSet.poll abortedInfo = resultSet.terminate.map some id := by
            simp [poll, hready, hseen]
          rw [hpoll]
          exact .inl ⟨_, rfl, h.terminate hready hseen⟩
      | false =>
          cases h with
          | live h =>
              obtain ⟨processed, pending, rest, hlive, hstream⟩ := id h
              cases abortedInfo with
              | some info =>
                  have hpoll : resultSet.poll (some info) =
                      (recordErrorAndReturn resultSet info).map some id := by
                    simp [poll, hready, hseen]
                  rw [hpoll]
                  exact .inl ⟨_, rfl, .failed (recordErrorAndReturn_closed resultSet info)
                    h.rows_isPrefixOf info 0⟩
              | none =>
                  refine .inr ⟨?_, _, h, rfl⟩
                  simp [poll, hready, hseen, hstream]
          | finished h =>
              rw [h.seenLast] at hseen
              cases hseen
          | exhausted h calls =>
              rw [h.seenLast] at hseen
              cases hseen
          | failed h hrows error calls =>
              rw [h.seenLast] at hseen
              cases hseen

/-! ## Runs -/

theorem new_live (stream : LogicalStream conversion) (maxBufferedPartialResultSets : ℕ) :
    LiveAt stream (.new maxBufferedPartialResultSets) [] [] [] stream.messages where
  messages := rfl
  reading := ⟨rfl, .empty, rfl, rfl, rfl, nofun, List.length_pos_iff.mpr stream.columns, nofun⟩
  localMetadata := .inr rfl
  unread := fun _ => rfl
  resumable := fun _ => if_pos rfl
  seenLast := rfl

/-- What every run maintains. -/
def Sound (stream : LogicalStream conversion) (system : System conversion) : Prop :=
  match system.phase with
  | .new => system.returned = [] ∧ LiveAt stream system.resultSet [] [] [] stream.messages ∧
      system.resultSet.safeToRetry = true ∧ system.resultSet.partialResultSetsBuffer = []
  | .initializing => system.returned = [] ∧ Live stream system.resultSet []
  | .idle => Delivered stream system.resultSet system.returned
  | .calling => ∃ rows, Live stream system.resultSet rows ∧
      system.returned = rows.map fun row => some (.ok row)
  | .failed => system.returned = []

theorem receive_delivered (h : Live stream resultSet rows)
    {messages : List (PartialResultSet conversion)} (hmessages : resultSet.stream = some messages)
    {delivery : Delivery}
    (hexec : (receive stream.serve messages delivery).exec resultSet = (.ok (), next)) :
    Live stream next rows ∨ Finished stream next rows := by
  obtain ⟨processed, pending, rest, hlive, hstream⟩ := h
  obtain rfl := Option.some.inj (hmessages.symm.trans hstream)
  cases delivery with
  | next selector retry =>
      cases messages with
      | nil => exact .inr (handleStreamEnd_finished hlive hexec)
      | cons partialResultSet rest =>
          rw [receive, Fallible.exec_bind_ok (Fallible.exec_modify _ _)] at hexec
          exact handlePartialResultSet_live hlive hexec
  | failure error retry => exact .inl (handleStreamError_live hlive hexec)

theorem receiveFirst_delivered (h : Live stream resultSet rows)
    {messages : List (PartialResultSet conversion)} (hmessages : resultSet.stream = some messages)
    {delivery : Delivery} {initialized : Initialized}
    (hexec : (receiveFirst stream.serve messages delivery).exec resultSet =
      (.ok initialized, next)) :
    match initialized with
    | .ready => Live stream next rows ∨ Finished stream next rows
    | .again => Live stream next rows := by
  obtain ⟨processed, pending, rest, hlive, hstream⟩ := h
  obtain rfl := Option.some.inj (hmessages.symm.trans hstream)
  cases delivery with
  | next selector retry =>
      cases messages with
      | nil =>
          rw [receiveFirst, Fallible.exec_bind_eq_ok] at hexec
          obtain ⟨⟨⟩, handled, hhandled, hpure⟩ := hexec
          cases hpure
          exact handleStreamError_live hlive hhandled
      | cons partialResultSet rest =>
          rw [receiveFirst, Fallible.exec_bind_ok (Fallible.exec_modify _ _),
            Fallible.exec_bind_eq_ok] at hexec
          obtain ⟨⟨⟩, handled, hhandled, hpure⟩ := hexec
          cases hpure
          exact handlePartialResultSet_live hlive hhandled
  | failure error retry =>
      rw [receiveFirst, Fallible.exec_bind_eq_ok] at hexec
      obtain ⟨⟨⟩, handled, hhandled, hpure⟩ := hexec
      cases hpure
      exact handleStreamError_live hlive hhandled

theorem poll_sound {system : System conversion}
    (h : Delivered stream resultSet system.returned) (abortedInfo : Option Error) :
    Sound stream (system.poll resultSet abortedInfo) := by
  rcases poll_delivered h abortedInfo with ⟨result, hresult, hdelivered⟩ | ⟨hpoll, hlive⟩
  · rcases hpoll : resultSet.poll abortedInfo with ⟨returned, polled⟩
    rw [hpoll] at hresult hdelivered
    obtain rfl : returned = some result := hresult
    rw [System.poll, hpoll]
    exact hdelivered
  · rw [System.poll, hpoll]
    exact hlive

theorem create_sound {system : System conversion} (h : Sound stream system)
    (hphase : system.phase = .new) (restartError : Option Error) (retry : Retry) :
    Sound stream (system.step stream.serve (.create restartError retry)) := by
  rw [Sound, hphase] at h
  obtain ⟨hreturned, hlive, hsafe, hbuffer⟩ := h
  cases restartError with
  | none =>
      simp only [System.step, hphase]
      split
      · rename_i hexec
        cases hexec
        have hreopened := reopened_live hlive hsafe
        rw [← hbuffer] at hreopened
        exact ⟨hreturned, hreopened⟩
      · exact hreturned
  | some error =>
      simp only [System.step, hphase]
      split
      · rename_i hexec
        exact ⟨hreturned, handleStreamError_live hlive hexec⟩
      · exact hreturned

theorem initializing_sound {system : System conversion} (h : Sound stream system)
    (hphase : system.phase = .initializing) (delivery : Delivery) (abortedInfo : Option Error) :
    Sound stream (system.step stream.serve (.deliver delivery abortedInfo)) := by
  rw [Sound, hphase] at h
  obtain ⟨hreturned, hlive⟩ := h
  simp only [System.step, hphase]
  split
  · exact hreturned
  · rename_i hmessages
    split
    · rename_i hexec
      rw [Sound]
      simp only [hreturned]
      rcases receiveFirst_delivered hlive hmessages hexec with hnext | hnext
      · exact .live hnext
      · exact .finished hnext
    · rename_i hexec
      simp only [Sound]
      exact ⟨hreturned, receiveFirst_delivered hlive hmessages hexec⟩
    · exact hreturned

theorem calling_sound {system : System conversion} (h : Sound stream system)
    (hphase : system.phase = .calling) (delivery : Delivery) (abortedInfo : Option Error) :
    Sound stream (system.step stream.serve (.deliver delivery abortedInfo)) := by
  have hsound := h
  rw [Sound, hphase] at h
  obtain ⟨rows, hlive, hreturned⟩ := h
  simp only [System.step, hphase]
  split
  · exact hsound
  · rename_i hmessages
    split
    · rename_i hexec
      refine poll_sound ?_ abortedInfo
      rw [hreturned]
      rcases receive_delivered hlive hmessages hexec with hnext | hnext
      · exact .live hnext
      · exact .finished hnext
    · rename_i error failed hexec
      rw [Sound, hreturned]
      exact .failed (recordErrorAndReturn_closed failed error) hlive.rows_isPrefixOf error 0

theorem step_sound {system : System conversion} (h : Sound stream system) (event : Event) :
    Sound stream (system.step stream.serve event) := by
  cases event with
  | create restartError retry =>
      by_cases hphase : system.phase = .new
      · exact create_sound h hphase restartError retry
      · rwa [System.step_create_of_ne hphase]
  | call abortedInfo =>
      by_cases hphase : system.phase = .idle
      · simp only [System.step, hphase]
        rw [Sound, hphase] at h
        exact poll_sound h abortedInfo
      · cases hother : system.phase <;> simp_all [System.step]
  | deliver delivery abortedInfo =>
      cases hphase : system.phase with
      | initializing => exact initializing_sound h hphase delivery abortedInfo
      | calling => exact calling_sound h hphase delivery abortedInfo
      | _ => simp_all [System.step]

/-- Rows from the beginning of the given ones on, in order and once each. If they end without
an error, they are all of them; after an error or the end there is nothing more. -/
def Delivers (all : List Row) (returned : List Returned) : Prop :=
  ∃ rows rest, returned = (rows.map fun row => some (.ok row)) ++ rest ∧ rows <+: all ∧
    (rest = [] ∨ (rows = all ∧ ∃ calls, rest = List.replicate (calls + 1) none) ∨
      ∃ error calls, rest = some (.error error) :: List.replicate calls none)

theorem Delivers.of_rows {all rows : List Row} (h : rows <+: all) :
    Delivers all (rows.map fun row => some (.ok row)) :=
  ⟨rows, [], (List.append_nil _).symm, h, .inl rfl⟩

theorem Sound.delivers {system : System conversion} (h : Sound stream system) :
    Delivers (reassemble stream.metadata stream.messages) system.returned := by
  rcases system with ⟨resultSet, phase, returned⟩
  have hnothing : returned = [] →
      Delivers (reassemble stream.metadata stream.messages) returned := by
    rintro rfl
    exact .of_rows (List.nil_prefix : [] <+: _)
  cases phase with
  | new => exact hnothing h.1
  | initializing => exact hnothing h.1
  | idle =>
      cases h with
      | live h => exact .of_rows h.rows_isPrefixOf
      | finished h => exact .of_rows h.rows_isPrefixOf
      | exhausted h calls => exact ⟨_, _, rfl, List.prefix_rfl, .inr (.inl ⟨rfl, calls, rfl⟩)⟩
      | failed h hrows error calls => exact ⟨_, _, rfl, hrows, .inr (.inr ⟨error, calls, rfl⟩)⟩
  | calling =>
      obtain ⟨rows, hlive, rfl⟩ := h
      exact .of_rows hlive.rows_isPrefixOf
  | failed => exact hnothing h

theorem new_sound (stream : LogicalStream conversion) (maxBufferedPartialResultSets : ℕ) :
    Sound stream (.new maxBufferedPartialResultSets) :=
  ⟨rfl, new_live stream maxBufferedPartialResultSets, rfl, rfl⟩

/-- Whatever fails and is retried, the calls of a result set return the rows of the stream. -/
theorem run_delivers (stream : LogicalStream conversion) (maxBufferedPartialResultSets : ℕ)
    (events : List Event) :
    Delivers (reassemble stream.metadata stream.messages)
      ((System.new maxBufferedPartialResultSets).run stream.serve events).returned :=
  (foldl_invariant (motive := Sound stream) (fun _ event hs => step_sound hs event)
    (new_sound stream maxBufferedPartialResultSets) events).delivers

/-- A row in two messages, the first of which can be resumed. -/
def twoMessages : LogicalStream ⟨Empty, Empty, nofun⟩ where
  first :=
    ⟨some ⟨some [("a", none), ("b", none)], none⟩, [.stringValue "x"], true, [1], none, false⟩
  others := [⟨none, [.stringValue "y", .boolValue false], false, [], none, true⟩]
  metadataMessage := ⟨some [("a", none), ("b", none)], none⟩
  first_metadata := rfl
  others_metadata := by simp
  columns := by simp [ResultSetMetadata.new]
  tokens := by decide
  last := by simp

/-- The stream fails while the row is incomplete, and is reopened behind the first message. -/
theorem run_delivers_resumed :
    let events : List Event := [.create none ⟨[], none⟩, .deliver (.next none ⟨[], none⟩) none,
      .call none, .deliver (.failure (.status 14 "unavailable") ⟨[], none⟩) none,
      .deliver (.next none ⟨[], none⟩) none, .call none]
    let returned := ((System.new 2).run twoMessages.serve events).returned
    Delivers (reassemble twoMessages.metadata twoMessages.messages) returned ∧
      returned.map (Option.map Except.isOk) = [some true, none] := by
  intro events returned
  exact ⟨run_delivers twoMessages 2 events, by decide +kernel⟩

end GoogleCloudRust.ResultSet
