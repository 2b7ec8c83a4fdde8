import GoogleCloudRust.Library.Crc32c
import GoogleCloudRust.Model.AppendableWriter
import Mathlib.Data.List.Infix

/-! # What the writer asks of its worker

The coalescing buffer gives out complete chunks only, in the order of the bytes, and keeps the rest.
The intents cut the appended bytes at flushes and at complete chunks, and each of them comes at the
offset where the ones before it end. -/

namespace GoogleCloudRust.AppendableWriter

open BidiWrite

/-! ## Coalescing appends into chunks -/

theorem sliceChunks_spec (chunk : Bytes) :
    (sliceChunks chunk).1.flatten ++ (sliceChunks chunk).2 = chunk ∧
      (∀ slice ∈ (sliceChunks chunk).1, slice.length = coalescingChunkSize) ∧
      (sliceChunks chunk).2.length = chunk.length % coalescingChunkSize := by
  induction chunk using sliceChunks.induct with
  | case1 chunk hfull ih =>
      obtain ⟨hflatten, hsize, hrest⟩ := ih
      rw [sliceChunks, if_pos hfull]
      refine ⟨?_, ?_, ?_⟩
      · rw [List.flatten_cons, List.append_assoc, hflatten, List.take_append_drop]
      · intro slice hslice
        rcases List.mem_cons.mp hslice with rfl | hslice
        · rw [List.length_take, Nat.min_eq_left hfull]
        · exact hsize slice hslice
      · rw [hrest, List.length_drop, ← Nat.mod_eq_sub_mod hfull]
  | case2 chunk hshort =>
      rw [sliceChunks, if_neg hshort]
      refine ⟨rfl, ?_, ?_⟩
      · intro slice hslice
        cases hslice
      · exact (Nat.mod_eq_of_lt (Nat.lt_of_not_le hshort)).symm

namespace CoalescingBuffer

variable (self : CoalescingBuffer)

theorem push_spec (chunk : Bytes) :
    (self.push chunk).2.flatten ++ (self.push chunk).1.buffer = self.buffer ++ chunk ∧
      (∀ ready ∈ (self.push chunk).2, ready.length = coalescingChunkSize) ∧
      (self.push chunk).1.buffer.length =
        (self.buffer.length + chunk.length) % coalescingChunkSize := by
  have hlt := self.isShort
  unfold push
  cases hempty : self.buffer.isEmpty with
  | true =>
      have hnil : self.buffer = [] := List.isEmpty_iff.mp hempty
      simpa [hnil] using sliceChunks_spec chunk
  | false =>
      simp only [Bool.false_eq_true, if_false]
      by_cases hshort : chunk.length < coalescingChunkSize - self.buffer.length
      · rw [dif_pos hshort]
        refine ⟨rfl, ?_, ?_⟩
        · intro ready hready
          cases hready
        · rw [List.length_append, Nat.mod_eq_of_lt (by omega)]
      · rw [dif_neg hshort]
        obtain ⟨hflatten, hsize, hrest⟩ :=
          sliceChunks_spec (chunk.drop (coalescingChunkSize - self.buffer.length))
        refine ⟨?_, ?_, ?_⟩
        · rw [List.flatten_cons, List.append_assoc, hflatten, List.append_assoc,
            List.take_append_drop]
        · intro ready hready
          rcases List.mem_cons.mp hready with rfl | hready
          · rw [List.length_append, List.length_take]
            omega
          · exact hsize ready hready
        · -- The first chunk takes exactly one chunk size out of the sum.
          have hsum : self.buffer.length + chunk.length =
              chunk.length - (coalescingChunkSize - self.buffer.length) + coalescingChunkSize := by
            omega
          rw [hrest, List.length_drop, hsum, Nat.add_mod_right]

theorem flush_spec :
    (self.flush.2.getD []) = self.buffer ∧ self.flush.1.buffer = [] ∧
      ∀ residual ∈ self.flush.2, residual ≠ [] ∧ residual.length < coalescingChunkSize := by
  unfold flush
  cases hempty : self.buffer.isEmpty with
  | true =>
      have hnil : self.buffer = [] := List.isEmpty_iff.mp hempty
      refine ⟨hnil.symm, hnil, ?_⟩
      intro residual hresidual
      cases hresidual
  | false =>
      refine ⟨rfl, rfl, ?_⟩
      intro residual hresidual
      cases hresidual
      exact ⟨List.isEmpty_eq_false_iff.mp hempty, self.isShort⟩

end CoalescingBuffer

variable {crc32c : Bytes → UInt32} {crc32cCombine : UInt32 → UInt32 → ℕ → UInt32}

/-! ## What the caller wrote -/

/-- All appended bytes, how many of them the last flush covers, and how many came before each
flush. -/
structure Written where
  appended : Bytes := []
  flushed : ℕ := 0
  marks : List ℕ := []

namespace Written

def append (written : Written) (chunk : Bytes) : Written :=
  { written with appended := written.appended ++ chunk }

def flush (written : Written) : Written :=
  { written with
    flushed := written.appended.length
    marks := written.marks ++ [written.appended.length] }

def call (written : Written) : Transport.Call → Written
  | .append chunk => written.append chunk
  | .flush _ => written.flush

def run (written : Written) (calls : List Transport.Call) : Written := calls.foldl call written

/-- Where the last flush or the last complete chunk after it ends. -/
def cut (written : Written) : ℕ :=
  written.flushed +
    (written.appended.length - written.flushed) / coalescingChunkSize * coalescingChunkSize

end Written

/-! ## What the channel was given -/

def content : UploadIntent → Bytes
  | .append request => (request.data.map (·.content)).getD []
  | _ => []

def contents (intents : List UploadIntent) : Bytes := intents.flatMap content

/-- The offsets of the flush and finalize requests. -/
def requestOffsets (intents : List UploadIntent) : List ℤ :=
  (intents.filterMap (·.pending)).map (·.request.writeOffset)

/-- The request of a chunk with its checksum. -/
def chunkRequest (crc32c : Bytes → UInt32) (writeOffset : ℤ) (chunk : Bytes) :
    BidiWriteObjectRequest where
  writeOffset
  data := some { content := chunk, crc32c := some (crc32c chunk) }

/-- Every intent comes at the offset where the chunks before it end. -/
def InOrder (crc32c : Bytes → UInt32) : ℤ → List UploadIntent → Prop
  | _, [] => True
  | offset, .append request :: intents =>
      ∃ chunk, request = chunkRequest crc32c offset chunk ∧ chunk ≠ [] ∧
        chunk.length ≤ maxWriteChunkSize ∧ InOrder crc32c (offset + chunk.length) intents
  | offset, .flush request _ _ :: intents =>
      request.writeOffset = offset ∧ InOrder crc32c offset intents
  | offset, .finalize request _ _ :: intents =>
      request.writeOffset = offset ∧ InOrder crc32c offset intents

theorem contents_append (intents intents' : List UploadIntent) :
    contents (intents ++ intents') = contents intents ++ contents intents' :=
  List.flatMap_append

theorem requestOffsets_append (intents intents' : List UploadIntent) :
    requestOffsets (intents ++ intents') = requestOffsets intents ++ requestOffsets intents' := by
  simp [requestOffsets]

theorem InOrder.append {start : ℤ} {intents intents' : List UploadIntent}
    (h : InOrder crc32c start intents)
    (h' : InOrder crc32c (start + (contents intents).length) intents') :
    InOrder crc32c start (intents ++ intents') := by
  induction intents generalizing start with
  | nil => simpa [contents] using h'
  | cons intent intents ih =>
      cases intent with
      | append request =>
          obtain ⟨chunk, rfl, hne, hfits, htail⟩ := h
          refine ⟨chunk, rfl, hne, hfits, ih htail ?_⟩
          have hlength : (contents (.append (chunkRequest crc32c start chunk) :: intents)).length =
              chunk.length + (contents intents).length := by
            simp [contents, content, chunkRequest]
          rw [hlength, Int.natCast_add, ← Int.add_assoc] at h'
          exact h'
      | flush request sender flags => exact ⟨h.1, ih h.2 h'⟩
      | finalize request sender flags => exact ⟨h.1, ih h.2 h'⟩

/-! ## Steps of the transport -/

namespace Transport

variable {start : ℤ} {written : Written} {rest : Bytes} {transport : Transport}

/-- The bytes of `rest` were appended and are not in the channel. A channel that has refused an
intent has got a part of what was appended, and takes no more. -/
structure Tracks (crc32c : Bytes → UInt32) (start : ℤ) (written : Written) (rest : Bytes)
    (transport : Transport) : Prop where
  inOrder : InOrder crc32c start transport.tx.sent
  offset : transport.writeOffset = start + (contents transport.tx.sent).length
  closed : transport.tx.refused = true → transport.tx.room = 0
  isPrefix : contents transport.tx.sent <+: written.appended
  held : transport.tx.refused = false →
    contents transport.tx.sent ++ rest = written.appended
  marks_prefix : requestOffsets transport.tx.sent <+: written.marks.map (start + ·)
  marks : transport.tx.refused = false →
    requestOffsets transport.tx.sent = written.marks.map (start + ·)

theorem Tracks.of_eq (h : transport.Tracks crc32c start written rest) {transport' : Transport}
    (htx : transport'.tx = transport.tx) (hoffset : transport'.writeOffset = transport.writeOffset) :
    transport'.Tracks crc32c start written rest := by
  cases transport'
  cases htx
  cases hoffset
  exact ⟨h.inOrder, h.offset, h.closed, h.isPrefix, h.held, h.marks_prefix, h.marks⟩

theorem Tracks.isOpen (h : transport.Tracks crc32c start written rest) {room : ℕ}
    (hroom : transport.tx.room = room + 1) : transport.tx.refused = false := by
  cases hrefused : transport.tx.refused with
  | false => rfl
  | true => cases (h.closed hrefused).symm.trans hroom

/-- After a refusal nothing is said about the bytes that are not in the channel. -/
theorem Tracks.of_refused (h : transport.Tracks crc32c start written rest)
    (hrefused : transport.tx.refused = true) (rest' : Bytes) :
    transport.Tracks crc32c start written rest' := by
  refine ⟨h.inOrder, h.offset, h.closed, h.isPrefix, ?_, h.marks_prefix, h.marks⟩
  intro hnot
  cases hrefused.symm.trans hnot

inductive SubChunk (crc32c : Bytes → UInt32) (crc32cCombine : UInt32 → UInt32 → ℕ → UInt32)
    (transport : Transport) (chunk : Bytes) : Transport × Except Error Unit → Prop
  | refused (error : Error) (hroom : transport.tx.room = 0) :
      SubChunk crc32c crc32cCombine transport chunk
        ({ transport with tx := { transport.tx with refused := true }, workerHandle := none },
          .error error)
  | sent (room : ℕ) (hroom : transport.tx.room = room + 1) :
      SubChunk crc32c crc32cCombine transport chunk
        ({ transport with
           tx := { transport.tx with
             sent := transport.tx.sent ++
               [UploadIntent.append (chunkRequest crc32c transport.writeOffset chunk)]
             room }
           writeOffset := transport.writeOffset + chunk.length
           runningCrc32c := transport.runningCrc32c.map fun running =>
             crc32cCombine running (crc32c chunk) chunk.length },
          .ok ())

theorem subChunk (crc32c : Bytes → UInt32) (crc32cCombine : UInt32 → UInt32 → ℕ → UInt32)
    (transport : Transport) (chunk : Bytes) :
    SubChunk crc32c crc32cCombine transport chunk
      (transport.appendSubChunk crc32c crc32cCombine chunk) := by
  cases transport with
  | mk tx =>
      cases tx with
      | mk sent room =>
          cases room with
          | zero => exact .refused _ rfl
          | succ room => exact .sent room rfl

theorem Tracks.appendSubChunk (crc32cCombine : UInt32 → UInt32 → ℕ → UInt32) {chunk : Bytes}
    (h : transport.Tracks crc32c start written (chunk ++ rest)) (hne : chunk ≠ [])
    (hfits : chunk.length ≤ maxWriteChunkSize) :
    (transport.appendSubChunk crc32c crc32cCombine chunk).1.Tracks crc32c start written rest := by
  have hcases := subChunk crc32c crc32cCombine transport chunk
  generalize transport.appendSubChunk crc32c crc32cCombine chunk = result at hcases ⊢
  cases hcases with
  | refused error hroom =>
      refine ⟨h.inOrder, h.offset, fun _ => hroom, h.isPrefix, ?_, h.marks_prefix, ?_⟩
      · intro hnot
        cases hnot
      · intro hnot
        cases hnot
  | sent room hroom =>
      have hopen := h.isOpen hroom
      have hcontents : contents (transport.tx.sent ++
          [UploadIntent.append (chunkRequest crc32c transport.writeOffset chunk)]) =
          contents transport.tx.sent ++ chunk := by
        simp [contents, content, chunkRequest]
      have hheld := h.held hopen
      rw [← List.append_assoc, ← hcontents] at hheld
      refine ⟨?_, ?_, ?_, ⟨rest, hheld⟩, fun _ => hheld, ?_, ?_⟩
      · apply h.inOrder.append
        exact ⟨chunk, by rw [h.offset], hne, hfits, trivial⟩
      · dsimp only
        rw [hcontents, List.length_append, Int.natCast_add, h.offset, Int.add_assoc]
      · intro hrefused
        cases hopen.symm.trans hrefused
      · dsimp only
        rw [requestOffsets_append]
        simpa [requestOffsets, UploadIntent.pending] using h.marks_prefix
      · intro _
        dsimp only
        rw [requestOffsets_append]
        simpa [requestOffsets, UploadIntent.pending] using h.marks hopen

/-- A failed send is the end of the channel. -/
theorem refused_of_error {chunk : Bytes} {error : Error} {transport' : Transport}
    (h : transport.appendSubChunk crc32c crc32cCombine chunk = (transport', .error error)) :
    transport'.tx.refused = true := by
  have hcases := subChunk crc32c crc32cCombine transport chunk
  rw [h] at hcases
  cases hcases with
  | refused => rfl

theorem Tracks.appendSubChunks {chunks : List Bytes}
    (h : transport.Tracks crc32c start written (chunks.flatten ++ rest))
    (hchunks : ∀ chunk ∈ chunks, chunk ≠ [] ∧ chunk.length ≤ maxWriteChunkSize) :
    (transport.appendSubChunks crc32c crc32cCombine chunks).1.Tracks crc32c start written rest := by
  induction chunks generalizing transport with
  | nil => exact h
  | cons chunk chunks ih =>
      rw [List.flatten_cons, List.append_assoc] at h
      obtain ⟨hne, hfits⟩ := hchunks chunk List.mem_cons_self
      have hstep := h.appendSubChunk crc32cCombine hne hfits
      rw [Transport.appendSubChunks]
      cases hresult : transport.appendSubChunk crc32c crc32cCombine chunk with
      | mk transport' result =>
          rw [hresult] at hstep
          cases result with
          | error error => exact hstep.of_refused (refused_of_error hresult) rest
          | ok =>
              apply ih hstep
              intro later hlater
              exact hchunks later (List.mem_cons_of_mem _ hlater)

theorem appendSubChunk_buffer (crc32c : Bytes → UInt32)
    (crc32cCombine : UInt32 → UInt32 → ℕ → UInt32) (transport : Transport) (chunk : Bytes) :
    (transport.appendSubChunk crc32c crc32cCombine chunk).1.coalescingBuffer =
      transport.coalescingBuffer := by
  have hcases := subChunk crc32c crc32cCombine transport chunk
  generalize transport.appendSubChunk crc32c crc32cCombine chunk = result at hcases ⊢
  cases hcases with
  | refused => rfl
  | sent => rfl

theorem appendSubChunks_buffer (transport : Transport) (chunks : List Bytes) :
    (transport.appendSubChunks crc32c crc32cCombine chunks).1.coalescingBuffer =
      transport.coalescingBuffer := by
  induction chunks generalizing transport with
  | nil => rfl
  | cons chunk chunks ih =>
      have hstep := appendSubChunk_buffer crc32c crc32cCombine transport chunk
      rw [appendSubChunks]
      cases hresult : transport.appendSubChunk crc32c crc32cCombine chunk with
      | mk transport' result =>
          rw [hresult] at hstep
          cases result with
          | error error => exact hstep
          | ok => exact (ih transport').trans hstep

/-- Between two calls the buffer holds the appended bytes that are not in the channel, which are
less than a chunk. -/
structure Coalesces (crc32c : Bytes → UInt32) (start : ℤ) (written : Written)
    (transport : Transport) : Prop where
  tracks : transport.Tracks crc32c start written transport.coalescingBuffer.buffer
  flushed_le : written.flushed ≤ written.appended.length
  buffered : transport.coalescingBuffer.buffer.length =
    (written.appended.length - written.flushed) % coalescingChunkSize

theorem Tracks.grow (h : transport.Tracks crc32c start written rest) (chunk : Bytes) :
    transport.Tracks crc32c start (written.append chunk) (rest ++ chunk) := by
  refine ⟨h.inOrder, h.offset, h.closed, ?_, ?_, h.marks_prefix, h.marks⟩
  · exact h.isPrefix.trans (List.prefix_append written.appended chunk)
  · intro hopen
    rw [← List.append_assoc, h.held hopen]
    rfl

theorem Coalesces.append (h : transport.Coalesces crc32c start written) (chunk : Bytes) :
    (transport.append crc32c crc32cCombine chunk).1.Coalesces crc32c start
      (written.append chunk) := by
  unfold Transport.append
  cases hempty : chunk.isEmpty with
  | true =>
      have hnil : chunk = [] := List.isEmpty_iff.mp hempty
      have hsame : written.append chunk = written := by
        rw [hnil, Written.append, List.append_nil]
      rw [hsame]
      exact h
  | false =>
      obtain ⟨hflatten, hsize, hlength⟩ := transport.coalescingBuffer.push_spec chunk
      simp only [Bool.false_eq_true, if_false]
      have hgrown : Tracks crc32c start (written.append chunk)
          ((transport.coalescingBuffer.push chunk).2.flatten ++
            (transport.coalescingBuffer.push chunk).1.buffer)
          { transport with coalescingBuffer := (transport.coalescingBuffer.push chunk).1 } := by
        rw [hflatten]
        exact (h.tracks.grow chunk).of_eq rfl rfl
      refine ⟨?_, ?_, ?_⟩
      · rw [appendSubChunks_buffer]
        apply hgrown.appendSubChunks
        intro ready hready
        refine ⟨?_, (hsize ready hready).le⟩
        rw [← List.length_pos_iff, hsize ready hready]
        exact coalescingChunkSize_pos
      · exact h.flushed_le.trans (List.prefix_append written.appended chunk).length_le
      · have hle := h.flushed_le
        rw [appendSubChunks_buffer]
        simp only [hlength, h.buffered, Written.append, List.length_append, Nat.mod_add_mod]
        rw [Nat.sub_add_comm hle]

theorem Coalesces.flushResidual (crc32cCombine : UInt32 → UInt32 → ℕ → UInt32)
    (h : transport.Coalesces crc32c start written) :
    (transport.flushResidual crc32c crc32cCombine).1.Tracks crc32c start written [] ∧
      (transport.flushResidual crc32c crc32cCombine).1.coalescingBuffer.buffer = [] := by
  obtain ⟨hbuffer, hempty, hresidual⟩ := transport.coalescingBuffer.flush_spec
  have htracks := h.tracks
  rw [← hbuffer] at htracks
  unfold Transport.flushResidual
  cases hflush : transport.coalescingBuffer.flush with
  | mk coalescingBuffer residual =>
      rw [hflush] at htracks hempty hresidual
      cases residual with
      | none => exact ⟨htracks.of_eq rfl rfl, hempty⟩
      | some residual =>
          obtain ⟨hne, hlt⟩ := hresidual residual rfl
          have hpart : Tracks crc32c start written (residual ++ [])
              { transport with coalescingBuffer } := by
            rw [List.append_nil]
            exact htracks.of_eq rfl rfl
          refine ⟨hpart.appendSubChunk crc32cCombine hne hlt.le, ?_⟩
          dsimp only
          rw [appendSubChunk_buffer]
          exact hempty

theorem await_frame (transport : Transport) (intent : UploadIntent) (reply : Reply) :
    (transport.await intent reply).1.tx = (transport.tx.send intent).1 ∧
      (transport.await intent reply).1.writeOffset = transport.writeOffset ∧
      (transport.await intent reply).1.runningCrc32c = transport.runningCrc32c ∧
      (transport.await intent reply).1.coalescingBuffer = transport.coalescingBuffer := by
  unfold await
  cases transport.tx.send intent with
  | mk tx sent =>
      cases sent with
      | false => exact ⟨rfl, rfl, rfl, rfl⟩
      | true =>
          cases reply with
          | none => exact ⟨rfl, rfl, rfl, rfl⟩
          | some result => exact ⟨rfl, rfl, rfl, rfl⟩

theorem Tracks.flush_of_refused (h : transport.Tracks crc32c start written rest)
    (hrefused : transport.tx.refused = true) :
    transport.Tracks crc32c start written.flush rest := by
  refine ⟨h.inOrder, h.offset, h.closed, h.isPrefix, h.held, ?_, ?_⟩
  · apply h.marks_prefix.trans
    simp [Written.flush]
  · intro hopen
    cases hrefused.symm.trans hopen

theorem InOrder.request {offset : ℤ} {intent : UploadIntent} {pending : PendingRequest}
    (hpending : intent.pending = some pending) (hoffset : pending.request.writeOffset = offset) :
    InOrder crc32c offset [intent] ∧ contents [intent] = [] := by
  cases intent with
  | append request => cases hpending
  | flush request sender flags =>
      cases hpending
      exact ⟨⟨hoffset, trivial⟩, rfl⟩
  | finalize request sender flags =>
      cases hpending
      exact ⟨⟨hoffset, trivial⟩, rfl⟩

/-- A flush or a finalization asks for all that was appended. -/
theorem Tracks.request (h : transport.Tracks crc32c start written []) {intent : UploadIntent}
    {pending : PendingRequest} (hpending : intent.pending = some pending)
    (hoffset : pending.request.writeOffset = transport.writeOffset) (reply : Reply) :
    (transport.await intent reply).1.Tracks crc32c start written.flush [] := by
  obtain ⟨htx, hsame, -, -⟩ := transport.await_frame intent reply
  generalize (transport.await intent reply).1 = transport' at htx hsame ⊢
  obtain ⟨horder, hcontent⟩ : InOrder crc32c transport.writeOffset [intent] ∧ _ :=
    InOrder.request hpending hoffset
  unfold Channel.send at htx
  cases hroom : transport.tx.room with
  | zero =>
      rw [hroom] at htx
      have hrefused : Tracks crc32c start written []
          { transport with tx := { transport.tx with room := 0, refused := true } } := by
        refine ⟨h.inOrder, h.offset, fun _ => rfl, h.isPrefix, ?_, h.marks_prefix, ?_⟩
        · intro hopen
          cases hopen
        · intro hopen
          cases hopen
      exact (hrefused.flush_of_refused rfl).of_eq htx hsame
  | succ room =>
      rw [hroom] at htx
      have hopen := h.isOpen hroom
      have hcontents : contents (transport.tx.sent ++ [intent]) = contents transport.tx.sent := by
        rw [contents_append, hcontent, List.append_nil]
      have hlength : (contents transport.tx.sent).length = written.appended.length := by
        rw [← h.held hopen, List.append_nil]
      have hmarks : requestOffsets (transport.tx.sent ++ [intent]) =
          written.flush.marks.map (start + ·) := by
        rw [requestOffsets_append, h.marks hopen]
        simp [requestOffsets, hpending, hoffset, h.offset, hlength, Written.flush]
      have hsent : Tracks crc32c start written.flush []
          { transport with
            tx := { transport.tx with sent := transport.tx.sent ++ [intent], room } } := by
        refine ⟨?_, ?_, ?_, ?_, ?_, ?_, fun _ => hmarks⟩
        · apply h.inOrder.append
          rw [← h.offset]
          exact horder
        · dsimp only
          rw [hcontents]
          exact h.offset
        · intro hrefused
          cases hopen.symm.trans hrefused
        · dsimp only
          rw [hcontents]
          exact h.isPrefix
        · intro _
          dsimp only
          rw [hcontents]
          exact h.held hopen
        · exact hmarks ▸ List.prefix_rfl
      exact hsent.of_eq htx hsame

theorem refused_of_residual_error {error : Error} {transport' : Transport}
    (h : transport.flushResidual crc32c crc32cCombine = (transport', .error error)) :
    transport'.tx.refused = true := by
  unfold flushResidual at h
  split at h
  · exact refused_of_error h
  · cases h

/-- A request that is sent, or the channel that the bytes before it did not get through. -/
theorem Coalesces.request (h : transport.Coalesces crc32c start written)
    {transport' : Transport} {result : Except Error Unit}
    (hresidual : transport.flushResidual crc32c crc32cCombine = (transport', result)) :
    (∀ error, result = .error error → transport'.Coalesces crc32c start written.flush) ∧
      ∀ (intent : UploadIntent) (pending : PendingRequest) (reply : Reply),
        intent.pending = some pending → pending.request.writeOffset = transport'.writeOffset →
          (transport'.await intent reply).1.Coalesces crc32c start written.flush := by
  have hflushed := h.flushResidual crc32cCombine
  rw [hresidual] at hflushed
  obtain ⟨htracks, hempty⟩ := hflushed
  have hcoalesces : ∀ transport'' : Transport,
      transport''.Tracks crc32c start written.flush [] →
        transport''.coalescingBuffer = transport'.coalescingBuffer →
          transport''.Coalesces crc32c start written.flush := by
    intro transport'' htracks' hbuffer
    have hnil : transport''.coalescingBuffer.buffer = [] := by
      rw [hbuffer]
      exact hempty
    refine ⟨?_, le_rfl, ?_⟩
    · rw [hnil]
      exact htracks'
    · simp [hnil, Written.flush]
  refine ⟨?_, ?_⟩
  · rintro error rfl
    exact hcoalesces transport'
      (htracks.flush_of_refused (refused_of_residual_error hresidual)) rfl
  · intro intent pending reply hpending hoffset
    exact hcoalesces _ (htracks.request hpending hoffset reply)
      (transport'.await_frame intent reply).2.2.2

theorem Coalesces.flush (h : transport.Coalesces crc32c start written) (reply : Reply) :
    (transport.flush crc32c crc32cCombine reply).1.Coalesces crc32c start written.flush := by
  unfold Transport.flush
  cases hresidual : transport.flushResidual crc32c crc32cCombine with
  | mk transport' result =>
      obtain ⟨herror, hsent⟩ := h.request hresidual
      cases result with
      | error error => exact herror error rfl
      | ok =>
          dsimp only
          have hawait := hsent
            (.flush { writeOffset := transport'.writeOffset, flush := true, stateLookup := true }
              transport'.made ⟨rfl, rfl⟩) _ reply rfl rfl
          generalize transport'.await _ reply = outcome at hawait ⊢
          cases outcome with
          | mk awaited result =>
              cases result with
              | error error => exact hawait
              | ok response =>
                  dsimp only
                  cases response.persistedSize with
                  | none => exact hawait
                  | some size =>
                      exact ⟨hawait.tracks.of_eq rfl rfl, hawait.flushed_le, hawait.buffered⟩

theorem Coalesces.finalize (h : transport.Coalesces crc32c start written) (reply : Reply) :
    (transport.finalize crc32c crc32cCombine reply).1.Coalesces crc32c start written.flush := by
  unfold Transport.finalize
  cases hresidual : transport.flushResidual crc32c crc32cCombine with
  | mk transport' result =>
      obtain ⟨herror, hsent⟩ := h.request hresidual
      cases result with
      | error error => exact herror error rfl
      | ok =>
          dsimp only
          have hawait := hsent
            (.finalize { writeOffset := transport'.writeOffset,
                         objectChecksums := transport'.runningCrc32c,
                         flush := true, finishWrite := true }
              transport'.made ⟨rfl, rfl⟩) _ reply rfl rfl
          generalize transport'.await _ reply = outcome at hawait ⊢
          cases outcome with
          | mk awaited result =>
              cases result with
              | error error => exact hawait
              | ok response =>
                  dsimp only
                  split
                  · split
                    · exact hawait
                    · exact hawait
                  · exact hawait

theorem Coalesces.run (h : transport.Coalesces crc32c start written) (calls : List Call) :
    (transport.run crc32c crc32cCombine calls).Coalesces crc32c start (written.run calls) := by
  induction calls generalizing transport written with
  | nil => exact h
  | cons call calls ih =>
      cases call with
      | append chunk => exact ih (h.append chunk)
      | flush reply => exact ih (h.flush reply)

/-- The channel holds the bytes up to the cut, if it took everything. -/
theorem Coalesces.contents_eq (h : transport.Coalesces crc32c start written)
    (hopen : transport.tx.refused = false) :
    contents transport.tx.sent = written.appended.take written.cut := by
  have hheld := h.tracks.held hopen
  have hlength : (contents transport.tx.sent).length = written.cut := by
    have hsum : (contents transport.tx.sent).length +
        transport.coalescingBuffer.buffer.length = written.appended.length := by
      rw [← List.length_append, hheld]
    have hdiv := Nat.div_add_mod' (written.appended.length - written.flushed) coalescingChunkSize
    have hle := h.flushed_le
    have hbuffered := h.buffered
    unfold Written.cut
    omega
  rw [← hheld, ← hlength, List.take_left]

end Transport

end GoogleCloudRust.AppendableWriter
