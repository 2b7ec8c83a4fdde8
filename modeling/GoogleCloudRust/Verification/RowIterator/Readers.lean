import GoogleCloudRust.Model.RowIterator

/-! # Readers of record batches

A reader holds the batches its bytes or its stream decode to, and returns those that have rows one
after the other. -/

namespace GoogleCloudRust.QueryJob

variable {Struct Schema : Type}

section

variable (codec : Codec Struct Schema)

/-- The batches that a buffer decodes to. -/
inductive Decodes : codec.Decoder → Bytes → List codec.RecordBatch → Prop
  | done {decoder} (finish : codec.finish decoder = .ok ()) : Decodes decoder [] []
  | batch {decoder buf batch rest decoder' batches}
      (decode : codec.decode decoder buf = (.ok (some batch), rest, decoder'))
      (consumed : rest.length < buf.length) (next : Decodes decoder' rest batches) :
      Decodes decoder buf (batch :: batches)
  | none {decoder buf rest decoder' batches}
      (decode : codec.decode decoder buf = (.ok none, rest, decoder'))
      (consumed : rest.length < buf.length) (next : Decodes decoder' rest batches) :
      Decodes decoder buf batches

/-- The batches that the responses of a stream decode to. -/
inductive Streams : codec.Decoder → List (Except RpcError ReadRowsResponse) →
    List codec.RecordBatch → Prop
  | done {decoder} : Streams decoder [] []
  | response {decoder response batch decoder' stream batches}
      (decode : StorageReader.decodeResponse decoder response = .ok (batch, decoder'))
      (next : Streams decoder' stream batches) :
      Streams decoder (.ok response :: stream) (batch.toList ++ batches)

/-- The batches of the bytes of an inline response; without any the schema is not decoded. -/
def Inline (decoder : codec.Decoder) (schemaBytes : Option Bytes) (buf : Bytes)
    (batches : List codec.RecordBatch) : Prop :=
  if buf = [] then batches = [] ∧ codec.finish decoder = .ok ()
  else
    match schemaBytes with
    | some schemaBytes =>
        ∃ decoder', setSchemaBytes codec decoder schemaBytes = .ok decoder' ∧
          Decodes codec decoder' buf batches
    | none => Decodes codec decoder buf batches

end

variable {codec : Codec Struct Schema}

/-- The batches that a reader has still to return. -/
def ArrowReader.Holds (service : Service Struct Schema) (batches : List codec.RecordBatch) :
    ArrowReader codec → Prop
  | .response reader => Inline codec reader.decoder reader.schemaBytes reader.batchBuf batches
  | .storage reader =>
      match reader.state with
      | .completed => batches = []
      | .unopened =>
          ∃ stream, service.readRows (StorageReader.streamName reader.jobRef) 0 = .ok stream ∧
            Streams codec reader.decoder stream batches
      | .streaming stream => Streams codec reader.decoder stream batches

def Empty (batches : List codec.RecordBatch) : Prop := ∀ batch ∈ batches, codec.numRows batch = 0

/-- What a reader returns: the first batch that has rows, or nothing when none has. -/
def Yields (holds : List codec.RecordBatch → Prop) (batches : List codec.RecordBatch) :
    Option codec.RecordBatch → Prop
  | some batch => ∃ skipped rest, batches = skipped ++ batch :: rest ∧ Empty skipped ∧
      0 < codec.numRows batch ∧ holds rest
  | none => Empty batches

theorem Yields.cons_empty {holds : List codec.RecordBatch → Prop} {batch : codec.RecordBatch}
    {batches : List codec.RecordBatch} {result : Option codec.RecordBatch}
    (hempty : ¬codec.numRows batch > 0) (h : Yields holds batches result) :
    Yields holds (batch :: batches) result := by
  have hzero : codec.numRows batch = 0 := by omega
  cases result with
  | none =>
    intro b hb
    rcases List.mem_cons.1 hb with rfl | hb
    · exact hzero
    · exact h b hb
  | some next =>
    obtain ⟨skipped, rest, rfl, hskipped, hpos, hrest⟩ := h
    refine ⟨batch :: skipped, rest, rfl, ?_, hpos, hrest⟩
    intro b hb
    rcases List.mem_cons.1 hb with rfl | hb
    · exact hzero
    · exact hskipped b hb

theorem Yields.first {holds : List codec.RecordBatch → Prop} {batch : codec.RecordBatch}
    {batches : List codec.RecordBatch} (hpos : codec.numRows batch > 0) (h : holds batches) :
    Yields holds (batch :: batches) (some batch) :=
  ⟨[], batches, rfl, by simp [Empty], hpos, h⟩

/-! ## Inline responses -/

theorem inline_of_decodes {decoder : codec.Decoder} {buf : Bytes}
    {batches : List codec.RecordBatch} (h : Decodes codec decoder buf batches) :
    Inline codec decoder none buf batches := by
  by_cases hbuf : buf = []
  · subst hbuf
    cases h with
    | done finish => simp [Inline, finish]
    | batch _ consumed => simp at consumed
    | none _ consumed => simp at consumed
  · simpa [Inline, hbuf] using h

namespace ArrowResponseReader

/-- The loop over the buffer, with fuel for each of its bytes. -/
theorem decodeBatches_spec (service : Service Struct Schema) {decoder : codec.Decoder}
    {buf : Bytes} {batches : List codec.RecordBatch} (h : Decodes codec decoder buf batches)
    {fuel : ℕ} (hfuel : buf.length ≤ fuel) :
    ∃ result reader, decodeBatches fuel ⟨decoder, none, buf⟩ = some (.ok result, reader) ∧
      Yields (fun rest => (ArrowReader.response reader).Holds service rest) batches result := by
  induction h generalizing fuel with
  | @done decoder finish =>
    refine ⟨none, ⟨decoder, none, []⟩, ?_, by simp [Yields, Empty]⟩
    cases fuel <;> simp [decodeBatches, finishDecoder, finish, Except.map]
  | @batch decoder buf batch rest decoder' batches decode consumed next ih =>
    obtain ⟨fuel, rfl⟩ : ∃ n, fuel = n + 1 := ⟨fuel - 1, by omega⟩
    have hbuf : buf ≠ [] := by
      rintro rfl
      simp at consumed
    by_cases hrows : codec.numRows batch > 0
    · refine ⟨some batch, ⟨decoder', none, rest⟩, ?_, .first hrows (inline_of_decodes next)⟩
      simp [decodeBatches, hbuf, decodeBuffer, decode, hrows]
    · obtain ⟨result, reader, hresult, hyields⟩ := ih (show rest.length ≤ fuel by omega)
      refine ⟨result, reader, ?_, hyields.cons_empty hrows⟩
      simpa [decodeBatches, hbuf, decodeBuffer, decode, hrows] using hresult
  | @none decoder buf rest decoder' batches decode consumed next ih =>
    obtain ⟨fuel, rfl⟩ : ∃ n, fuel = n + 1 := ⟨fuel - 1, by omega⟩
    have hbuf : buf ≠ [] := by
      rintro rfl
      simp at consumed
    obtain ⟨result, reader, hresult, hyields⟩ := ih (show rest.length ≤ fuel by omega)
    refine ⟨result, reader, ?_, hyields⟩
    simpa [decodeBatches, hbuf, decodeBuffer, decode] using hresult

theorem nextRecordBatch_spec (service : Service Struct Schema)
    {reader : ArrowResponseReader codec} {batches : List codec.RecordBatch}
    (h : (ArrowReader.response reader).Holds service batches) :
    ∃ result reader', reader.nextRecordBatch = some (.ok result, reader') ∧
      Yields (fun rest => (ArrowReader.response reader').Holds service rest) batches result := by
  obtain ⟨decoder, schemaBytes, buf⟩ := reader
  simp only [ArrowReader.Holds, Inline] at h
  by_cases hbuf : buf = []
  · simp only [hbuf, if_true] at h
    refine ⟨none, ⟨decoder, schemaBytes, buf⟩, ?_, ?_⟩
    · simp [nextRecordBatch, hbuf, finishDecoder, h.2, Except.map]
    · simp [Yields, Empty, h.1]
  · simp only [hbuf, if_false] at h
    cases schemaBytes with
    | none =>
      obtain ⟨result, reader', hresult, hyields⟩ := decodeBatches_spec service h le_rfl
      exact ⟨result, reader', by simpa [nextRecordBatch, hbuf] using hresult, hyields⟩
    | some schemaBytes =>
      obtain ⟨decoder', hschema, h⟩ := h
      obtain ⟨result, reader', hresult, hyields⟩ := decodeBatches_spec service h le_rfl
      exact ⟨result, reader', by simpa [nextRecordBatch, hbuf, hschema] using hresult, hyields⟩

end ArrowResponseReader

/-! ## Storage streams -/

namespace StorageReader

theorem readStream_spec (service : Service Struct Schema) {decoder : codec.Decoder}
    {stream : List (Except RpcError ReadRowsResponse)} {batches : List codec.RecordBatch}
    (h : Streams codec decoder stream batches) (jobRef : JobReference) (state : ReaderState) :
    ∃ result reader, readStream ⟨jobRef, decoder, state⟩ stream = (.ok result, reader) ∧
      Yields (fun rest => (ArrowReader.storage reader).Holds service rest) batches result := by
  induction h with
  | done => exact ⟨none, _, rfl, by simp [Yields, Empty]⟩
  | @response decoder response batch decoder' stream batches decode next ih =>
    obtain ⟨result, reader, hresult, hyields⟩ := ih
    cases batch with
    | none =>
      refine ⟨result, reader, ?_, by simpa using hyields⟩
      simpa [readStream, decode] using hresult
    | some batch =>
      by_cases hrows : codec.numRows batch > 0
      · refine ⟨some batch, ⟨jobRef, decoder', .streaming stream⟩, ?_, ?_⟩
        · simp [readStream, decode, hrows]
        · exact .first hrows next
      · refine ⟨result, reader, ?_, hyields.cons_empty hrows⟩
        simpa [readStream, decode, hrows] using hresult

theorem nextRecordBatch_spec (service : Service Struct Schema) {reader : StorageReader codec}
    {batches : List codec.RecordBatch} (h : (ArrowReader.storage reader).Holds service batches) :
    ∃ result reader', reader.nextRecordBatch service = (.ok result, reader') ∧
      Yields (fun rest => (ArrowReader.storage reader').Holds service rest) batches result := by
  obtain ⟨jobRef, decoder, state⟩ := reader
  cases state with
  | completed =>
    refine ⟨none, ⟨jobRef, decoder, .completed⟩, rfl, ?_⟩
    simp [Yields, Empty, show batches = [] from h]
  | unopened =>
    obtain ⟨stream, hopen, hstream⟩ := h
    simp only [nextRecordBatch, hopen]
    exact readStream_spec service hstream jobRef .unopened
  | streaming stream => exact readStream_spec service h jobRef (.streaming stream)

end StorageReader

/-- A reader returns its batches that have rows, in order, and then nothing. -/
theorem ArrowReader.nextRecordBatch_spec {service : Service Struct Schema}
    {reader : ArrowReader codec} {batches : List codec.RecordBatch}
    (h : reader.Holds service batches) :
    ∃ result reader', reader.nextRecordBatch service = some (.ok result, reader') ∧
      Yields (fun rest => reader'.Holds service rest) batches result := by
  cases reader with
  | response reader =>
    obtain ⟨result, reader', hresult, hyields⟩ := reader.nextRecordBatch_spec service h
    exact ⟨result, .response reader', by simp [nextRecordBatch, hresult], hyields⟩
  | storage reader =>
    obtain ⟨result, reader', hresult, hyields⟩ := reader.nextRecordBatch_spec service h
    exact ⟨result, .storage reader', by simp [nextRecordBatch, hresult], hyields⟩

end GoogleCloudRust.QueryJob
