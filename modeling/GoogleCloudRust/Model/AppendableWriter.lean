import GoogleCloudRust.Model.BidiWrite

/-! # The writer of an appendable object

Model of `coalescing_buffer.rs` and of `AppendableObjectWriterTransport` in `transport.rs`. The
task of the worker is an input: how many intents its channel accepts before it closes, and what
joining the task returns; so are the responses of the service. `crc32c` and `crc32c_combine` are
parameters. -/

namespace GoogleCloudRust.AppendableWriter

open BidiWrite

/-! ## Coalescing -/

def coalescingChunkSize : ℕ := maxWriteChunkSize

theorem coalescingChunkSize_pos : 0 < coalescingChunkSize := by decide

/-- The loop of `push`: the complete chunks, and the bytes after them. -/
def sliceChunks (chunk : Bytes) : List Bytes × Bytes :=
  if coalescingChunkSize ≤ chunk.length then
    let slices := sliceChunks (chunk.drop coalescingChunkSize)
    (chunk.take coalescingChunkSize :: slices.1, slices.2)
  else ([], chunk)
termination_by chunk.length
decreasing_by
  have := coalescingChunkSize_pos
  simp only [List.length_drop]
  omega

theorem sliceChunks_rest (chunk : Bytes) : (sliceChunks chunk).2.length < coalescingChunkSize := by
  induction chunk using sliceChunks.induct with
  | case1 chunk hfull ih =>
      rw [sliceChunks, if_pos hfull]
      exact ih
  | case2 chunk hshort =>
      rw [sliceChunks, if_neg hshort]
      exact Nat.lt_of_not_le hshort

/-- The buffer never holds a complete chunk. -/
structure CoalescingBuffer where
  buffer : Bytes
  isShort : buffer.length < coalescingChunkSize

namespace CoalescingBuffer

def new : CoalescingBuffer := ⟨[], coalescingChunkSize_pos⟩

def push (self : CoalescingBuffer) (chunk : Bytes) : CoalescingBuffer × List Bytes :=
  if self.buffer.isEmpty then
    (⟨(sliceChunks chunk).2, sliceChunks_rest chunk⟩, (sliceChunks chunk).1)
  else
    let needed := coalescingChunkSize - self.buffer.length
    if hshort : chunk.length < needed then
      (⟨self.buffer ++ chunk, by simp only [List.length_append]; omega⟩, [])
    else
      (⟨(sliceChunks (chunk.drop needed)).2, sliceChunks_rest _⟩,
        (self.buffer ++ chunk.take needed) :: (sliceChunks (chunk.drop needed)).1)

def flush (self : CoalescingBuffer) : CoalescingBuffer × Option Bytes :=
  if self.buffer.isEmpty then (self, none) else (new, some self.buffer)

end CoalescingBuffer

/-! ## The channel to the worker -/

/-- What joining the task of the worker returns; it panicked or was cancelled in the first case. -/
inductive Join
  | error (text : String)
  | returned (result : Except Error Unit)

/-- The intents that the channel has accepted, how many more it accepts before the worker is gone,
and whether it has refused one. -/
structure Channel where
  sent : List UploadIntent := []
  room : ℕ
  refused : Bool := false

def Channel.send (channel : Channel) (intent : UploadIntent) : Channel × Bool :=
  match channel.room with
  | 0 => ({ channel with refused := true }, false)
  | room + 1 => ({ channel with sent := channel.sent ++ [intent], room }, true)

/-- The response that opens a stream, with the generation of the resource if there is one. -/
structure InitialResponse extends BidiWriteObjectResponse where
  resourceGeneration : ℤ := 0
  /-- The checksum in `persisted_data_checksums`. -/
  persistedCrc32c : Option UInt32 := none

structure InitialPayload where
  data : Bytes
  crc32c : UInt32

/-! ## The transport -/

structure Transport where
  tx : Channel
  generation : ℤ
  persistedSize : ℤ
  writeOffset : ℤ
  runningCrc32c : Option UInt32
  coalescingBuffer : CoalescingBuffer
  workerHandle : Option Join
  /-- The number of `oneshot` channels made. -/
  made : ℕ := 0

/-- The task that `start_worker` spawns. -/
structure Task where
  room : ℕ
  join : Join

namespace Transport

variable (crc32c : Bytes → UInt32) (crc32cCombine : UInt32 → UInt32 → ℕ → UInt32)

def startWorker (initial : InitialResponse) (task : Task) (generation : ℤ)
    (initialPayload : Option InitialPayload) : Except Error Transport :=
  if initial.isFinalized then .error (.io "object is already finalized")
  else
    let persistedSize := initial.persistedSize.getD 0
    let generation := match initial.writeStatus with
      | some (.resource _) => initial.resourceGeneration
      | _ => generation
    let runningCrc32c := match initialPayload with
      | some payload => some payload.crc32c
      | none => if persistedSize = 0 then some 0 else initial.persistedCrc32c
    let initialLen : ℤ := match initialPayload with
      | some payload => payload.data.length
      | none => 0
    .ok {
      tx := { room := task.room }
      generation
      persistedSize
      writeOffset := max persistedSize initialLen
      runningCrc32c
      coalescingBuffer := .new
      workerHandle := some task.join }

def extractWorkerError (self : Transport) (defaultErrMessage : String) : Transport × Error :=
  ({ self with workerHandle := none },
    match self.workerHandle with
    | some (.returned (.error workerErr)) => workerErr
    | some (.returned (.ok ())) => .io "worker terminated successfully but channel was closed"
    | some (.error joinErr) => .io s!"worker task error: {joinErr}"
    | none => .io defaultErrMessage)

def dropAndJoinWorker (self : Transport) : Except Error Unit :=
  match self.workerHandle with
  | some (.returned (.error e)) => .error e
  | some (.error joinErr) => .error (.io s!"worker task error: {joinErr}")
  | _ => .ok ()

def appendSubChunk (self : Transport) (chunk : Bytes) : Transport × Except Error Unit :=
  let request : BidiWriteObjectRequest := {
    writeOffset := self.writeOffset
    data := some { content := chunk, crc32c := some (crc32c chunk) } }
  match self.tx.send (.append request) with
  | (tx, false) =>
      let (self, error) := { self with tx }.extractWorkerError "channel closed"
      (self, .error error)
  | (tx, true) =>
      ({ self with
         tx
         writeOffset := self.writeOffset + chunk.length
         runningCrc32c := self.runningCrc32c.map fun running =>
           crc32cCombine running (crc32c chunk) chunk.length },
        .ok ())

/-- The loop of `append`. -/
def appendSubChunks (self : Transport) : List Bytes → Transport × Except Error Unit
  | [] => (self, .ok ())
  | chunk :: chunks =>
      match self.appendSubChunk crc32c crc32cCombine chunk with
      | (self, .error error) => (self, .error error)
      | (self, .ok ()) => self.appendSubChunks chunks

def append (self : Transport) (chunk : Bytes) : Transport × Except Error Unit :=
  if chunk.isEmpty then (self, .ok ())
  else
    let (coalescingBuffer, readyChunks) := self.coalescingBuffer.push chunk
    { self with coalescingBuffer }.appendSubChunks crc32c crc32cCombine readyChunks

/-- The first statement of `flush` and of `finalize`. -/
def flushResidual (self : Transport) : Transport × Except Error Unit :=
  match self.coalescingBuffer.flush with
  | (coalescingBuffer, some residual) =>
      { self with coalescingBuffer }.appendSubChunk crc32c crc32cCombine residual
  | (coalescingBuffer, none) => ({ self with coalescingBuffer }, .ok ())

/-- What the `oneshot` channel of a request returns; `none` when the worker dropped the sender. -/
abbrev Reply := Option (Except Error BidiWriteObjectResponse)

/-- The request was put into the channel if there is no error, and its reply comes. -/
def await (self : Transport) (intent : UploadIntent) (reply : Reply) :
    Transport × Except Error BidiWriteObjectResponse :=
  match { self with made := self.made + 1 }, self.tx.send intent with
  | self, (tx, false) =>
      let (self, error) := { self with tx }.extractWorkerError "channel closed"
      (self, .error error)
  | self, (tx, true) =>
      match reply with
      | some result => ({ self with tx }, result)
      | none =>
          let (self, error) := { self with tx }.extractWorkerError "channel closed"
          (self, .error error)

def flush (self : Transport) (reply : Reply) : Transport × Except Error ℤ :=
  match self.flushResidual crc32c crc32cCombine with
  | (self, .error error) => (self, .error error)
  | (self, .ok ()) =>
      let request : BidiWriteObjectRequest := {
        writeOffset := self.writeOffset
        flush := true
        stateLookup := true }
      match self.await (.flush request self.made ⟨rfl, rfl⟩) reply with
      | (self, .error error) => (self, .error error)
      | (self, .ok response) =>
          match response.persistedSize with
          | some size => ({ self with persistedSize := size }, .ok size)
          | none => (self, .error (.io "flush response missing write_status"))

/-- With the resource that is returned, before its conversion. -/
def finalize (self : Transport) (reply : Reply) : Transport × Except Error Object :=
  match self.flushResidual crc32c crc32cCombine with
  | (self, .error error) => (self, .error error)
  | (self, .ok ()) =>
      let request : BidiWriteObjectRequest := {
        writeOffset := self.writeOffset
        objectChecksums := self.runningCrc32c
        flush := true
        finishWrite := true }
      match self.await (.finalize request self.made ⟨rfl, rfl⟩) reply with
      | (self, .error error) => (self, .error error)
      | (self, .ok response) =>
          match response.writeStatus with
          | some (.resource resource) =>
              if resource.finalizeTime.isSome then
                (self, self.dropAndJoinWorker.map fun _ => resource)
              else (self, .error (.io "finalize did not return a finalized resource"))
          | _ => (self, .error (.io "finalize did not return a finalized resource"))

def close (self : Transport) (reply : Reply) : Transport × Except Error ℤ :=
  match self.flush crc32c crc32cCombine reply with
  | (self, .error error) => (self, .error error)
  | (self, .ok size) => (self, self.dropAndJoinWorker.map fun _ => size)

/-! ## Opening

The connector's result is an input. -/

def newOpen (connected : Except Error InitialResponse) (task : Task) : Except Error Transport :=
  match connected with
  | .error error => .error error
  | .ok initial => startWorker initial task 0 none

def newOpenAndAppend (connected : Except Error InitialResponse) (task : Task) (chunk : Bytes) :
    Except Error Transport :=
  if chunk.isEmpty then newOpen connected task
  else
    let firstChunk := chunk.take (min chunk.length maxWriteChunkSize)
    match connected with
    | .error error => .error error
    | .ok initial =>
        match startWorker initial task 0 (some ⟨firstChunk, crc32c firstChunk⟩) with
        | .error error => .error error
        | .ok transport =>
            if maxWriteChunkSize < chunk.length then
              match transport.append crc32c crc32cCombine (chunk.drop maxWriteChunkSize) with
              | (_, .error error) => .error error
              | (transport, .ok ()) => .ok transport
            else .ok transport

def newReopen (connected : Except Error InitialResponse) (task : Task) (generation : ℤ) :
    Except Error Transport :=
  match connected with
  | .error error => .error error
  | .ok initial => startWorker initial task generation none

/-! ## A run of calls -/

inductive Call
  | append (chunk : Bytes)
  | flush (reply : Reply)

def call (self : Transport) : Call → Transport
  | .append chunk => (self.append crc32c crc32cCombine chunk).1
  | .flush reply => (self.flush crc32c crc32cCombine reply).1

def run (self : Transport) (calls : List Call) : Transport :=
  calls.foldl (call crc32c crc32cCombine) self

end Transport

end GoogleCloudRust.AppendableWriter
