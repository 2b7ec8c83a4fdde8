import GoogleCloudRust.Library.Crc32c
import GoogleCloudRust.Verification.AppendableWriter.Intents

/-! # Every appended byte, in order and with its checksum

However a writer was opened, its intents carry what was appended, and the running checksum is
that of the object. -/

namespace GoogleCloudRust.AppendableWriter

open BidiWrite

variable {crc32c : Bytes → UInt32} {crc32cCombine : UInt32 → UInt32 → ℕ → UInt32}

/-- What `crc32c` and `crc32c_combine` compute. -/
structure Combines (crc32c : Bytes → UInt32) (crc32cCombine : UInt32 → UInt32 → ℕ → UInt32) :
    Prop where
  nil : crc32c [] = 0
  append (a b : Bytes) : crc32cCombine (crc32c a) (crc32c b) b.length = crc32c (a ++ b)

theorem combines_crc32c : Combines (Crc32c.append 0) Crc32c.combine where
  nil := Crc32c.append_nil 0
  append := Crc32c.combine_append

/-! ## The running checksum -/

namespace Transport

variable {start : ℤ} {written : Written} {object : Bytes} {transport : Transport}

/-- The checksum, where there is one, of the object that was opened and of what the channel was
given; the object has not been finalized. -/
structure Summed (crc32c : Bytes → UInt32) (object : Bytes) (transport : Transport) : Prop where
  running : ∀ running ∈ transport.runningCrc32c,
    running = crc32c (object ++ contents transport.tx.sent)
  unfinished : ∀ intent ∈ transport.tx.sent, ∀ request sender flags,
    intent ≠ .finalize request sender flags

theorem Summed.of_eq (h : transport.Summed crc32c object) {transport' : Transport}
    (htx : transport'.tx = transport.tx)
    (hrunning : transport'.runningCrc32c = transport.runningCrc32c) :
    transport'.Summed crc32c object := by
  cases transport'
  cases htx
  cases hrunning
  exact ⟨h.running, h.unfinished⟩

theorem Summed.withBuffer (h : transport.Summed crc32c object)
    (coalescingBuffer : CoalescingBuffer) :
    Summed crc32c object { transport with coalescingBuffer } :=
  h.of_eq rfl rfl

theorem Summed.appendSubChunk (hlaws : Combines crc32c crc32cCombine)
    (h : transport.Summed crc32c object) (chunk : Bytes) :
    (transport.appendSubChunk crc32c crc32cCombine chunk).1.Summed crc32c object := by
  have hcases := subChunk crc32c crc32cCombine transport chunk
  generalize transport.appendSubChunk crc32c crc32cCombine chunk = result at hcases ⊢
  cases hcases with
  | refused => exact ⟨h.running, h.unfinished⟩
  | sent =>
      refine ⟨?_, ?_⟩
      · intro running hrunning
        obtain ⟨before, hbefore, rfl⟩ := Option.map_eq_some_iff.mp hrunning
        have hcontents : contents [UploadIntent.append
            (chunkRequest crc32c transport.writeOffset chunk)] = chunk := List.append_nil chunk
        rw [h.running before hbefore, hlaws.append, contents_append, hcontents, List.append_assoc]
      · intro intent hintent request sender flags
        rcases List.mem_append.mp hintent with hold | hnew
        · exact h.unfinished intent hold request sender flags
        · cases List.mem_singleton.mp hnew
          intro heq
          cases heq

theorem Summed.appendSubChunks (hlaws : Combines crc32c crc32cCombine)
    (h : transport.Summed crc32c object) (chunks : List Bytes) :
    (transport.appendSubChunks crc32c crc32cCombine chunks).1.Summed crc32c object := by
  induction chunks generalizing transport with
  | nil => exact h
  | cons chunk chunks ih =>
      have hstep := h.appendSubChunk hlaws chunk
      rw [Transport.appendSubChunks]
      cases hresult : transport.appendSubChunk crc32c crc32cCombine chunk with
      | mk transport' result =>
          rw [hresult] at hstep
          cases result with
          | error error => exact hstep
          | ok => exact ih hstep

theorem Summed.append (hlaws : Combines crc32c crc32cCombine)
    (h : transport.Summed crc32c object) (chunk : Bytes) :
    (transport.append crc32c crc32cCombine chunk).1.Summed crc32c object := by
  unfold Transport.append
  split
  · exact h
  · exact (h.withBuffer _).appendSubChunks hlaws _

theorem Summed.flushResidual (hlaws : Combines crc32c crc32cCombine)
    (h : transport.Summed crc32c object) :
    (transport.flushResidual crc32c crc32cCombine).1.Summed crc32c object := by
  unfold Transport.flushResidual
  split
  · exact (h.withBuffer _).appendSubChunk hlaws _
  · exact h.withBuffer _

theorem Summed.requestFlush (h : transport.Summed crc32c object)
    (request : BidiWriteObjectRequest) (sender : ℕ)
    (flags : request.stateLookup = true ∧ request.flush = true) (reply : Reply) :
    (transport.await (.flush request sender flags) reply).1.Summed crc32c object := by
  obtain ⟨htx, -, hrunning, -⟩ := transport.await_frame (.flush request sender flags) reply
  generalize (transport.await (.flush request sender flags) reply).1 = transport' at htx hrunning ⊢
  unfold Channel.send at htx
  cases hroom : transport.tx.room with
  | zero =>
      rw [hroom] at htx
      refine ⟨?_, ?_⟩
      · rw [htx, hrunning]
        exact h.running
      · rw [htx]
        exact h.unfinished
  | succ room =>
      rw [hroom] at htx
      have hcontents : contents [UploadIntent.flush request sender flags] = [] := rfl
      refine ⟨?_, ?_⟩
      · rw [htx, hrunning]
        dsimp only
        rw [contents_append, hcontents, List.append_nil]
        exact h.running
      · rw [htx]
        intro intent hintent request' sender' flags'
        rcases List.mem_append.mp hintent with hold | hnew
        · exact h.unfinished intent hold request' sender' flags'
        · cases List.mem_singleton.mp hnew
          intro heq
          cases heq

theorem Summed.flush (hlaws : Combines crc32c crc32cCombine)
    (h : transport.Summed crc32c object) (reply : Reply) :
    (transport.flush crc32c crc32cCombine reply).1.Summed crc32c object := by
  have hflushed := h.flushResidual hlaws
  unfold Transport.flush
  cases hresidual : transport.flushResidual crc32c crc32cCombine with
  | mk transport' result =>
      rw [hresidual] at hflushed
      cases result with
      | error error => exact hflushed
      | ok =>
          dsimp only
          have hawait := hflushed.requestFlush
            { writeOffset := transport'.writeOffset, flush := true, stateLookup := true }
            transport'.made ⟨rfl, rfl⟩ reply
          generalize transport'.await _ reply = outcome at hawait ⊢
          cases outcome with
          | mk awaited result =>
              cases result with
              | error error => exact hawait
              | ok response =>
                  dsimp only
                  cases response.persistedSize with
                  | none => exact hawait
                  | some size => exact hawait.of_eq rfl rfl

theorem Summed.run (hlaws : Combines crc32c crc32cCombine) (h : transport.Summed crc32c object)
    (calls : List Call) : (transport.run crc32c crc32cCombine calls).Summed crc32c object := by
  induction calls generalizing transport with
  | nil => exact h
  | cons call calls ih =>
      cases call with
      | append chunk => exact ih (h.append hlaws chunk)
      | flush reply => exact ih (h.flush hlaws reply)

def finalizeRequest (transport : Transport) : BidiWriteObjectRequest where
  writeOffset := transport.writeOffset
  objectChecksums := transport.runningCrc32c
  flush := true
  finishWrite := true

/-- The finalization is the last intent, if the channel takes it. -/
theorem finalize_tx (crc32c : Bytes → UInt32) (crc32cCombine : UInt32 → UInt32 → ℕ → UInt32)
    (transport : Transport) (reply : Reply) :
    (transport.finalize crc32c crc32cCombine reply).1.tx =
        (transport.flushResidual crc32c crc32cCombine).1.tx ∨
      ∃ sender flags,
        (transport.finalize crc32c crc32cCombine reply).1.tx =
          ((transport.flushResidual crc32c crc32cCombine).1.tx.send
            (.finalize (transport.flushResidual crc32c crc32cCombine).1.finalizeRequest
              sender flags)).1 := by
  unfold Transport.finalize
  cases transport.flushResidual crc32c crc32cCombine with
  | mk transport' result =>
      cases result with
      | error error => exact .inl rfl
      | ok =>
          right
          refine ⟨transport'.made, ⟨rfl, rfl⟩, ?_⟩
          dsimp only
          rw [← (transport'.await_frame (.finalize transport'.finalizeRequest transport'.made
            ⟨rfl, rfl⟩) reply).1]
          unfold finalizeRequest
          generalize transport'.await _ reply = outcome
          cases outcome with
          | mk awaited result =>
              cases result with
              | error error => rfl
              | ok response =>
                  dsimp only
                  split
                  · split
                    · rfl
                    · rfl
                  · rfl

theorem Summed.finalize (hlaws : Combines crc32c crc32cCombine)
    (h : transport.Summed crc32c object) (hcoalesces : transport.Coalesces crc32c start written)
    {request : BidiWriteObjectRequest} {sender : ℕ}
    {flags : request.flush = true ∧ request.finishWrite = true} {reply : Reply}
    (hmem : UploadIntent.finalize request sender flags ∈
      (transport.finalize crc32c crc32cCombine reply).1.tx.sent)
    {checksum : UInt32} (hchecksum : checksum ∈ request.objectChecksums) :
    checksum = crc32c (object ++ written.appended) := by
  have hflushed := h.flushResidual hlaws
  have htracks := (hcoalesces.flushResidual crc32cCombine).1
  have htx := transport.finalize_tx crc32c crc32cCombine reply
  generalize (transport.flushResidual crc32c crc32cCombine).1 = transport' at hflushed htracks htx
  have hold : UploadIntent.finalize request sender flags ∉ transport'.tx.sent := by
    intro hmem
    exact hflushed.unfinished _ hmem request sender flags rfl
  rcases htx with htx | ⟨sender', flags', htx⟩
  · rw [htx] at hmem
    exact (hold hmem).elim
  · rw [htx] at hmem
    unfold Channel.send at hmem
    cases hroom : transport'.tx.room with
    | zero =>
        rw [hroom] at hmem
        exact (hold hmem).elim
    | succ room =>
        rw [hroom] at hmem
        rcases List.mem_append.mp hmem with hmem | hnew
        · exact (hold hmem).elim
        · cases List.mem_singleton.mp hnew
          rw [hflushed.running checksum hchecksum, ← htracks.held (htracks.isOpen hroom),
            List.append_nil]

end Transport

/-! ## Ways of opening a writer -/

inductive Opening
  | new
  | append (chunk : Bytes)
  | reopen (generation : ℤ)

namespace Opening

variable {opening : Opening} {initial : InitialResponse} {object : Bytes}

def openWriter (crc32c : Bytes → UInt32) (crc32cCombine : UInt32 → UInt32 → ℕ → UInt32)
    (connected : Except Error InitialResponse) (task : Task) :
    Opening → Except Error Transport
  | new => Transport.newOpen connected task
  | append chunk => Transport.newOpenAndAppend crc32c crc32cCombine connected task chunk
  | reopen generation => Transport.newReopen connected task generation

/-- What the opening request carries. -/
def payload : Opening → Bytes
  | append chunk => chunk.take maxWriteChunkSize
  | _ => []

/-- What is appended once the stream is open. -/
def remaining : Opening → Bytes
  | append chunk => chunk.drop maxWriteChunkSize
  | _ => []

/-- The offset at which the appended bytes begin. -/
def size (opening : Opening) (initial : InitialResponse) : ℤ :=
  max (initial.persistedSize.getD 0) opening.payload.length

/-- The object of the size at which the writer begins, of which the service has said the truth. -/
structure Honest (crc32c : Bytes → UInt32) (opening : Opening) (initial : InitialResponse)
    (object : Bytes) : Prop where
  length : (object.length : ℤ) = opening.size initial
  payload : opening.payload ≠ [] → object = opening.payload
  checksum : opening.payload = [] →
    ∀ checksum ∈ initial.persistedCrc32c, checksum = crc32c object

def initialLength : Option InitialPayload → ℕ
  | some payload => payload.data.length
  | none => 0

theorem coalesces_startWorker {task : Task} {generation : ℤ} {payload : Option InitialPayload}
    {transport : Transport}
    (h : Transport.startWorker initial task generation payload = .ok transport) :
    transport.Coalesces crc32c (max (initial.persistedSize.getD 0) (initialLength payload)) {} := by
  unfold Transport.startWorker at h
  cases hfinalized : initial.isFinalized with
  | true =>
      rw [hfinalized] at h
      cases h
  | false =>
      rw [hfinalized] at h
      cases h
      refine ⟨⟨trivial, ?_, ?_, ⟨[], rfl⟩, fun _ => rfl, ⟨[], rfl⟩, fun _ => rfl⟩, le_rfl, rfl⟩
      · cases payload with
        | none => exact (Int.add_zero _).symm
        | some payload => exact (Int.add_zero _).symm
      · intro hrefused
        cases hrefused

theorem summed_startWorker (hlaws : Combines crc32c crc32cCombine) {task : Task} {generation : ℤ}
    {payload : Option InitialPayload} {transport : Transport}
    (h : Transport.startWorker initial task generation payload = .ok transport)
    (hpayload : ∀ initialPayload ∈ payload, initialPayload.crc32c = crc32c object)
    (hempty : payload = none → initial.persistedSize.getD 0 = 0 → object = [])
    (hchecksum : payload = none → ∀ checksum ∈ initial.persistedCrc32c, checksum = crc32c object) :
    transport.Summed crc32c object := by
  unfold Transport.startWorker at h
  cases hfinalized : initial.isFinalized with
  | true =>
      rw [hfinalized] at h
      cases h
  | false =>
      rw [hfinalized] at h
      cases h
      refine ⟨?_, ?_⟩
      · intro running hrunning
        have hnil : contents [] = [] := rfl
        dsimp only at hrunning ⊢
        rw [hnil, List.append_nil]
        cases payload with
        | some payload =>
            cases hrunning
            exact hpayload payload rfl
        | none =>
            dsimp only at hrunning
            by_cases hzero : initial.persistedSize.getD 0 = 0
            · rw [if_pos hzero] at hrunning
              cases hrunning
              rw [hempty rfl hzero, hlaws.nil]
            · rw [if_neg hzero] at hrunning
              exact hchecksum rfl running hrunning
      · intro intent hintent
        cases hintent

/-- The bytes of the opening call beyond its first message are appended before it returns. -/
theorem newOpenAndAppend_cases {task : Task} {chunk : Bytes} {transport : Transport}
    (h : Transport.newOpenAndAppend crc32c crc32cCombine (.ok initial) task chunk =
      .ok transport) :
    (chunk = [] ∧ Transport.startWorker initial task 0 none = .ok transport) ∨
      ∃ opened, chunk ≠ [] ∧
        Transport.startWorker initial task 0
          (some ⟨chunk.take maxWriteChunkSize, crc32c (chunk.take maxWriteChunkSize)⟩) =
            .ok opened ∧
        transport = (opened.append crc32c crc32cCombine (chunk.drop maxWriteChunkSize)).1 := by
  unfold Transport.newOpenAndAppend at h
  cases hempty : chunk.isEmpty with
  | true =>
      rw [hempty] at h
      exact .inl ⟨List.isEmpty_iff.mp hempty, h⟩
  | false =>
      right
      have hfirst : chunk.take (min chunk.length maxWriteChunkSize) =
          chunk.take maxWriteChunkSize := by
        rw [Nat.min_comm, ← List.take_eq_take_min]
      simp only [hempty, Bool.false_eq_true, if_false, hfirst] at h
      cases hstart : Transport.startWorker initial task 0
          (some ⟨chunk.take maxWriteChunkSize, crc32c (chunk.take maxWriteChunkSize)⟩) with
      | error error =>
          rw [hstart] at h
          cases h
      | ok opened =>
          refine ⟨opened, List.isEmpty_eq_false_iff.mp hempty, rfl, ?_⟩
          rw [hstart] at h
          dsimp only at h
          by_cases hlong : maxWriteChunkSize < chunk.length
          · rw [if_pos hlong] at h
            cases happend : opened.append crc32c crc32cCombine (chunk.drop maxWriteChunkSize) with
            | mk appended result =>
                rw [happend] at h
                cases result with
                | error error => cases h
                | ok => exact (Except.ok.inj h).symm
          · rw [if_neg hlong] at h
            rw [List.drop_eq_nil_of_le (Nat.le_of_not_lt hlong)]
            exact (Except.ok.inj h).symm

theorem coalesces {task : Task} {transport : Transport}
    (h : opening.openWriter crc32c crc32cCombine (.ok initial) task = .ok transport) :
    transport.Coalesces crc32c (opening.size initial) { appended := opening.remaining } := by
  cases opening with
  | new =>
      have hstart : Transport.startWorker initial task 0 none = .ok transport := h
      exact coalesces_startWorker hstart
  | reopen generation =>
      have hstart : Transport.startWorker initial task generation none = .ok transport := h
      exact coalesces_startWorker hstart
  | append chunk =>
      rcases newOpenAndAppend_cases h with ⟨rfl, hstart⟩ | ⟨opened, hne, hstart, rfl⟩
      · exact coalesces_startWorker hstart
      · exact (coalesces_startWorker hstart).append _

theorem summed (hlaws : Combines crc32c crc32cCombine) {task : Task} {transport : Transport}
    (h : opening.openWriter crc32c crc32cCombine (.ok initial) task = .ok transport)
    (hhonest : opening.Honest crc32c initial object) : transport.Summed crc32c object := by
  have hbare : ∀ generation, opening.payload = [] →
      Transport.startWorker initial task generation none = .ok transport →
        transport.Summed crc32c object := by
    intro generation hpayload hstart
    apply summed_startWorker hlaws hstart
    · intro payload hmem
      cases hmem
    · intro _ hzero
      have hlength := hhonest.length
      rw [size, hpayload, hzero] at hlength
      exact List.eq_nil_of_length_eq_zero (Int.ofNat_inj.mp hlength)
    · exact fun _ => hhonest.checksum hpayload
  cases opening with
  | new => exact hbare 0 rfl h
  | reopen generation => exact hbare generation rfl h
  | append chunk =>
      rcases newOpenAndAppend_cases h with ⟨rfl, hstart⟩ | ⟨opened, hne, hstart, rfl⟩
      · exact hbare 0 rfl hstart
      · have hobject : object = chunk.take maxWriteChunkSize := by
          apply hhonest.payload
          intro hnil
          rcases List.take_eq_nil_iff.mp hnil with hzero | hnil
          · exact absurd hzero (by decide)
          · exact hne hnil
        have hopened : opened.Summed crc32c object := by
          apply summed_startWorker hlaws hstart
          · intro payload hmem
            cases hmem
            rw [hobject]
          · intro hnone
            cases hnone
          · intro hnone
            cases hnone
        exact hopened.append hlaws _

end Opening

/-! ## Every sequence of calls -/

/-- What the channel was given: nonempty chunks of a limited size with their checksums, one after
the other from `start`, that end at the last cut; and requests for what was appended before. -/
structure Recorded (crc32c : Bytes → UInt32) (start : ℤ) (written : Written) (tx : Channel) :
    Prop where
  inOrder : InOrder crc32c start tx.sent
  isPrefix : contents tx.sent <+: written.appended
  upToCut : tx.refused = false → contents tx.sent = written.appended.take written.cut
  requests_prefix : requestOffsets tx.sent <+: written.marks.map (start + ·)
  requests : tx.refused = false → requestOffsets tx.sent = written.marks.map (start + ·)

theorem Transport.Coalesces.recorded {start : ℤ} {written : Written} {transport : Transport}
    (h : transport.Coalesces crc32c start written) : Recorded crc32c start written transport.tx :=
  ⟨h.tracks.inOrder, h.tracks.isPrefix, h.contents_eq, h.tracks.marks_prefix, h.tracks.marks⟩

theorem every_byte_once (opening : Opening) {initial : InitialResponse} {task : Task}
    {transport : Transport}
    (hopen : opening.openWriter crc32c crc32cCombine (.ok initial) task = .ok transport)
    (calls : List Transport.Call) :
    let written := Written.run { appended := opening.remaining } calls
    let final := transport.run crc32c crc32cCombine calls
    Recorded crc32c (opening.size initial) written final.tx ∧
      (∀ reply, Recorded crc32c (opening.size initial) written.flush
        (final.finalize crc32c crc32cCombine reply).1.tx) ∧
      ∀ object, Combines crc32c crc32cCombine → opening.Honest crc32c initial object →
        (∀ running ∈ final.runningCrc32c, running = crc32c (object ++ contents final.tx.sent)) ∧
        ∀ reply request sender flags, UploadIntent.finalize request sender flags ∈
          (final.finalize crc32c crc32cCombine reply).1.tx.sent →
            ∀ checksum ∈ request.objectChecksums,
              checksum = crc32c (object ++ written.appended) := by
  intro written final
  have hcoalesces : final.Coalesces crc32c (opening.size initial) written :=
    (Opening.coalesces hopen).run calls
  refine ⟨hcoalesces.recorded, ?_, ?_⟩
  · intro reply
    exact (hcoalesces.finalize reply).recorded
  · intro object hlaws hhonest
    have hsummed : final.Summed crc32c object := (Opening.summed hlaws hopen hhonest).run hlaws calls
    refine ⟨hsummed.running, ?_⟩
    intro reply request sender flags hmem checksum hchecksum
    exact hsummed.finalize hlaws hcoalesces hmem hchecksum

theorem every_byte_once_two :
    ∃ transport, Opening.openWriter (Crc32c.append 0) Crc32c.combine
        (.ok { writeStatus := some (.persistedSize 0) }) ⟨8, .returned (.ok ())⟩
        (.append [1, 2]) = .ok transport ∧
      Recorded (Crc32c.append 0) 2 (Written.run {} [.append [3], .flush none])
        (transport.run (Crc32c.append 0) Crc32c.combine [.append [3], .flush none]).tx ∧
      ∀ running ∈ (transport.run (Crc32c.append 0) Crc32c.combine
          [.append [3], .flush none]).runningCrc32c,
        running = Crc32c.append 0 ([1, 2] ++ contents
          (transport.run (Crc32c.append 0) Crc32c.combine [.append [3], .flush none]).tx.sent) := by
  have hopen : ∃ transport, Opening.openWriter (Crc32c.append 0) Crc32c.combine
      (.ok { writeStatus := some (.persistedSize 0) }) ⟨8, .returned (.ok ())⟩
      (.append [1, 2]) = .ok transport := ⟨_, rfl⟩
  obtain ⟨transport, hopen⟩ := hopen
  obtain ⟨hrecorded, -, hsums⟩ := every_byte_once (.append [1, 2]) hopen [.append [3], .flush none]
  have hhonest : Opening.Honest (Crc32c.append 0) (.append [1, 2])
      { writeStatus := some (.persistedSize 0) } [1, 2] :=
    ⟨by decide, fun _ => rfl, fun hnil => absurd hnil (by decide)⟩
  exact ⟨transport, hopen, hrecorded, (hsums [1, 2] combines_crc32c hhonest).1⟩

end GoogleCloudRust.AppendableWriter
