import GoogleCloudRust.Library.Bytes

/-! # Appendable uploads

Model of `replay_buffer.rs`, of `worker.rs` and of the requests that `transport.rs` makes. The
worker is one task; callers put intents into its channel, which has no capacity here. What the
connector returns for a failed stream is an input, and so is the number of requests a stream
accepts before its channel closes. A `oneshot` channel is the number of the request it was made
for. -/

namespace GoogleCloudRust.BidiWrite

structure ChecksummedData where
  content : Bytes
  crc32c : Option UInt32 := none
deriving DecidableEq, Repr

structure BidiWriteObjectRequest where
  writeOffset : ℤ
  data : Option ChecksummedData := none
  objectChecksums : Option UInt32 := none
  flush : Bool := false
  stateLookup : Bool := false
  finishWrite : Bool := false
deriving DecidableEq, Repr

structure Object where
  size : ℤ
  finalizeTime : Option ℤ := none
deriving DecidableEq, Repr

inductive WriteStatus
  | persistedSize (size : ℤ)
  | resource (object : Object)
deriving DecidableEq, Repr

structure BidiWriteObjectResponse where
  writeStatus : Option WriteStatus
deriving DecidableEq, Repr

namespace BidiWriteObjectResponse

def persistedSize (response : BidiWriteObjectResponse) : Option ℤ :=
  match response.writeStatus with
  | some (.persistedSize size) => some size
  | some (.resource resource) => some resource.size
  | none => none

def isFinalized (response : BidiWriteObjectResponse) : Bool :=
  match response.writeStatus with
  | some (.resource resource) => resource.finalizeTime.isSome
  | _ => false

end BidiWriteObjectResponse

inductive Error
  | io (text : String)
  /-- The status of a failed stream, by `to_gax_error`. -/
  | status (text : String)
  /-- What the connector gives up with. -/
  | connector (text : String)
  /-- An `Error::ser` around a shared error. -/
  | ser (error : Error)
deriving DecidableEq, Repr

def maxWriteChunkSize : ℕ := 2 * 1024 * 1024

/-! ## Chunks to replay -/

def defaultReplayBufferSize : ℕ := 32 * 1024 * 1024

def minReplayBufferSize : ℕ := 2 * maxWriteChunkSize + 1

structure ReplayChunk where
  writeOffset : ℤ
  data : Bytes
  crc32c : UInt32
deriving DecidableEq, Repr

namespace ReplayChunk

def endOffset (chunk : ReplayChunk) : ℤ := chunk.writeOffset + chunk.data.length

def toRequest (chunk : ReplayChunk) : BidiWriteObjectRequest where
  writeOffset := chunk.writeOffset
  data := some { content := chunk.data, crc32c := some chunk.crc32c }

end ReplayChunk

structure ReplayBuffer where
  queue : List ReplayChunk
  unpersistedBytes : ℕ
  capacity : ℕ
deriving DecidableEq, Repr

namespace ReplayBuffer

def withCapacity (capacity : ℕ) : ReplayBuffer where
  queue := []
  unpersistedBytes := 0
  capacity := max capacity minReplayBufferSize

def new : ReplayBuffer := withCapacity defaultReplayBufferSize

def push (buffer : ReplayBuffer) (chunk : ReplayChunk) : ReplayBuffer :=
  { buffer with
    unpersistedBytes := buffer.unpersistedBytes + chunk.data.length
    queue := buffer.queue ++ [chunk] }

/-- The loop of `ack`, over the queue and the number of unpersisted bytes. -/
def popAcknowledged (persistedSize : ℤ) : List ReplayChunk → ℕ → List ReplayChunk × ℕ
  | [], unpersistedBytes => ([], unpersistedBytes)
  | front :: queue, unpersistedBytes =>
      if front.endOffset ≤ persistedSize then
        popAcknowledged persistedSize queue (unpersistedBytes - front.data.length)
      else (front :: queue, unpersistedBytes)

def ack (crc32c : Bytes → UInt32) (buffer : ReplayBuffer) (persistedSize : ℤ) : ReplayBuffer :=
  match popAcknowledged persistedSize buffer.queue buffer.unpersistedBytes with
  | ([], unpersistedBytes) => { buffer with queue := [], unpersistedBytes }
  | (front :: queue, unpersistedBytes) =>
      if front.writeOffset < persistedSize then
        let trimmedBytes := (persistedSize - front.writeOffset).toNat
        let data := front.data.drop trimmedBytes
        { buffer with
          queue := { data, writeOffset := persistedSize, crc32c := crc32c data } :: queue
          unpersistedBytes := unpersistedBytes - trimmedBytes }
      else { buffer with queue := front :: queue, unpersistedBytes }

def isFull (buffer : ReplayBuffer) : Bool := buffer.capacity ≤ buffer.unpersistedBytes

def endOffset (buffer : ReplayBuffer) : Option ℤ := buffer.queue.getLast?.map (·.endOffset)

end ReplayBuffer

/-! ## Requests and intents -/

inductive PendingKind
  | flush
  | finalize
deriving DecidableEq, Repr

structure PendingRequest where
  kind : PendingKind
  request : BidiWriteObjectRequest
  sender : ℕ
deriving DecidableEq, Repr

/-- A request with what its `oneshot` channel was given. -/
structure Answer where
  pending : PendingRequest
  result : Except Error BidiWriteObjectResponse

namespace PendingRequest

def isSatisfied (pending : PendingRequest) (response : BidiWriteObjectResponse)
    (persistedSize : ℤ) : Bool :=
  if persistedSize < pending.request.writeOffset then false
  else
    match pending.kind with
    | .flush => !response.isFinalized
    | .finalize => response.isFinalized

def complete (pending : PendingRequest) (result : Except Error BidiWriteObjectResponse) : Answer :=
  ⟨pending, result⟩

end PendingRequest

/-- The worker asserts the flags of a request, which every caller sets. -/
inductive UploadIntent
  | append (request : BidiWriteObjectRequest)
  | flush (request : BidiWriteObjectRequest) (sender : ℕ)
      (flags : request.stateLookup = true ∧ request.flush = true)
  | finalize (request : BidiWriteObjectRequest) (sender : ℕ)
      (flags : request.flush = true ∧ request.finishWrite = true)

def UploadIntent.pending : UploadIntent → Option PendingRequest
  | .append _ => none
  | .flush request sender _ => some ⟨.flush, request, sender⟩
  | .finalize request sender _ => some ⟨.finalize, request, sender⟩

/-- The request channel of a stream: what it was given, and how many more requests it accepts
before the other end of it is gone. -/
structure Connection where
  sent : List BidiWriteObjectRequest := []
  room : ℕ
deriving DecidableEq, Repr

namespace Connection

def send (connection : Connection) (request : BidiWriteObjectRequest) : Connection × Bool :=
  match connection.room with
  | 0 => (connection, false)
  | room + 1 => ({ sent := connection.sent ++ [request], room }, true)

/-- Sends up to the first failure. -/
def sendAll (connection : Connection) : List BidiWriteObjectRequest → Connection × Bool
  | [] => (connection, true)
  | request :: requests =>
      match connection.send request with
      | (connection, true) => connection.sendAll requests
      | (connection, false) => (connection, false)

end Connection

/-! ## The worker -/

structure Worker where
  replayBuffer : ReplayBuffer
  pendingRequests : List PendingRequest
  persistedSize : ℤ
  finalized : Bool
  selfFlushOutstanding : Bool
deriving DecidableEq, Repr

namespace Worker

def withReplayBuffer (replayBuffer : ReplayBuffer) : Worker where
  replayBuffer
  pendingRequests := []
  persistedSize := 0
  finalized := false
  selfFlushOutstanding := false

def withPersistedSize (worker : Worker) (persistedSize : ℤ) : Worker :=
  { worker with persistedSize }

/-- The worker that `start_worker` creates, with the payload of the opening request. -/
def start (crc32c : Bytes → UInt32) (persistedSize : ℤ) (initialPayload : Option Bytes) : Worker :=
  let replayBuffer :=
    match initialPayload with
    | none => ReplayBuffer.new
    | some data => (ReplayBuffer.new.push ⟨0, data, crc32c data⟩).ack crc32c persistedSize
  (withReplayBuffer replayBuffer).withPersistedSize persistedSize

def needsWatermarkFlush (worker : Worker) : Bool :=
  !worker.selfFlushOutstanding && worker.pendingRequests.isEmpty &&
    worker.replayBuffer.capacity - 2 * maxWriteChunkSize ≤ worker.replayBuffer.unpersistedBytes

def processIntent (crc32c : Bytes → UInt32) (worker : Worker) :
    UploadIntent → Worker × BidiWriteObjectRequest
  | .append request =>
      let worker :=
        match request.data with
        | none => worker
        | some data =>
            { worker with
              replayBuffer := worker.replayBuffer.push
                ⟨request.writeOffset, data.content, data.crc32c.getD (crc32c data.content)⟩ }
      if worker.needsWatermarkFlush then
        ({ worker with selfFlushOutstanding := true },
          { request with flush := true, stateLookup := true })
      else (worker, request)
  | .flush request sender _ =>
      ({ worker with pendingRequests := worker.pendingRequests ++ [⟨.flush, request, sender⟩] },
        request)
  | .finalize request sender _ =>
      ({ worker with
         finalized := true
         pendingRequests := worker.pendingRequests ++ [⟨.finalize, request, sender⟩] },
        request)

def maxSentOffset (worker : Worker) : ℤ :=
  max (max worker.persistedSize (worker.replayBuffer.endOffset.getD 0))
    ((worker.pendingRequests.getLast?.map (·.request.writeOffset)).getD 0)

def regressed (persistedSize acknowledged : ℤ) : Error :=
  .io s!"server persisted_size ({persistedSize}) regressed below acknowledged offset ({acknowledged})"

def exceeded (persistedSize maxSentOffset : ℤ) : Error :=
  .io s!"server persisted_size ({persistedSize}) exceeded highest sent write offset ({maxSentOffset})"

/-- The worker after a response with an acceptable size, and the requests it answers. -/
def acknowledge (crc32c : Bytes → UInt32) (worker : Worker) (response : BidiWriteObjectResponse)
    (persistedSize : ℤ) : Worker × List Answer :=
  let satisfied := fun pending : PendingRequest => pending.isSatisfied response persistedSize
  ({ worker with
     persistedSize
     replayBuffer := worker.replayBuffer.ack crc32c persistedSize
     pendingRequests := worker.pendingRequests.dropWhile satisfied },
   (worker.pendingRequests.takeWhile satisfied).map (·.complete (.ok response)))

/-- With the answers it gives, and the error if there is one. -/
def handleResponseSuccess (crc32c : Bytes → UInt32) (worker : Worker)
    (response : BidiWriteObjectResponse) : Worker × List Answer × Option Error :=
  let worker := { worker with selfFlushOutstanding := false }
  match response.persistedSize with
  | none => (worker, [], none)
  | some persistedSize =>
      if persistedSize < worker.persistedSize then
        (worker, [], some (regressed persistedSize worker.persistedSize))
      else if worker.maxSentOffset < persistedSize then
        (worker, [], some (exceeded persistedSize worker.maxSentOffset))
      else
        let (worker, answers) := worker.acknowledge crc32c response persistedSize
        if response.isFinalized && (!worker.finalized || !worker.pendingRequests.isEmpty) then
          (worker, answers, some (.io "object is already finalized"))
        else (worker, answers, none)

def maybeSendWatermarkFlush (worker : Worker) (connection : Connection) : Worker × Connection :=
  match worker.needsWatermarkFlush, worker.replayBuffer.endOffset with
  | true, some writeOffset =>
      match connection.send { writeOffset, flush := true, stateLookup := true } with
      | (connection, true) => ({ worker with selfFlushOutstanding := true }, connection)
      | (connection, false) => (worker, connection)
  | _, _ => (worker, connection)

/-- The requests that restore the session on a new stream. -/
def toResend (worker : Worker) : List BidiWriteObjectRequest :=
  worker.replayBuffer.queue.map (·.toRequest) ++ worker.pendingRequests.map (·.request)

/-- What the connector returns: the response to the handshake, and the room of the new stream. -/
abbrev Reconnection := Except Error (BidiWriteObjectResponse × ℕ)

def reconnect (crc32c : Bytes → UInt32) (worker : Worker) :
    Reconnection → Worker × List Answer × Except Error Connection
  | .error error => ({ worker with selfFlushOutstanding := false }, [], .error error)
  | .ok (initialResponse, room) =>
      match worker.handleResponseSuccess crc32c initialResponse with
      | (worker, answers, some error) => (worker, answers, .error error)
      | (worker, answers, none) =>
          match Connection.sendAll { room } worker.toResend with
          | (connection, false) => (worker, answers, .ok connection)
          | (connection, true) =>
              let (worker, connection) := worker.maybeSendWatermarkFlush connection
              (worker, answers, .ok connection)

/-- The caller asked to finalize and has got every answer. -/
def isComplete (worker : Worker) : Bool := worker.finalized && worker.pendingRequests.isEmpty

end Worker

/-! ## The loop of the worker -/

inductive Phase
  | running
  /-- The intent channel has closed: `wait_for_server_completion`. -/
  | completing
  | returned (result : Except Error Unit)

/-- The worker with its intent channel. `made` counts the flush and finalize requests put into the
channel, `answers` records what their callers got. -/
structure Session where
  worker : Worker
  connection : Connection
  requests : List UploadIntent := []
  /-- A caller still has a sender of the intent channel. -/
  isOpen : Bool := true
  phase : Phase := .running
  made : ℕ := 0
  answers : List Answer := []

namespace Session

/-- The channel takes an intent: it has a sender and the worker has not returned. -/
def accepts (session : Session) : Bool :=
  session.isOpen && match session.phase with
    | .returned _ => false
    | _ => true

def pendingIntents (session : Session) : List PendingRequest :=
  session.requests.filterMap (·.pending)

/-- The end of `run` with an error: `drain_intents_on_error`. -/
def drainIntentsOnError (session : Session) (error : Error) : Session :=
  let drained := session.worker.pendingRequests ++ session.pendingIntents
  { session with
    worker := { session.worker with pendingRequests := [] }
    requests := []
    phase := .returned (.error (.ser error))
    answers := session.answers ++ drained.map (·.complete (.error (.ser error))) }

/-- The worker has handled a response on the stream it keeps. -/
def handled (session : Session) (worker : Worker) (answers : List Answer) (error : Option Error) :
    Session :=
  let session := { session with worker, answers := session.answers ++ answers }
  match error with
  | some error => session.drainIntentsOnError error
  | none =>
      match session.phase with
      | .running =>
          let (worker, connection) := worker.maybeSendWatermarkFlush session.connection
          { session with worker, connection }
      | _ => session

def reconnected (crc32c : Bytes → UInt32) (session : Session)
    (reconnection : Worker.Reconnection) : Session :=
  match session.worker.reconnect crc32c reconnection with
  | (worker, answers, .ok connection) =>
      { session with worker, connection, answers := session.answers ++ answers }
  | (worker, answers, .error error) =>
      drainIntentsOnError { session with worker, answers := session.answers ++ answers } error

/-- What `next_message` returns; a failure comes with what the connector would return after it. -/
inductive Message
  | response (response : BidiWriteObjectResponse)
  | closed (reconnection : Worker.Reconnection)
  | failed (status : String) (reconnection : Worker.Reconnection)

def handleMessage (crc32c : Bytes → UInt32) (session : Session) (message : Message) : Session :=
  match session.phase, message with
  | .returned _, _ => session
  | _, .response response =>
      let (worker, answers, error) := session.worker.handleResponseSuccess crc32c response
      session.handled worker answers error
  | .running, .closed reconnection | .running, .failed _ reconnection =>
      if session.worker.isComplete then { session with phase := .returned (.ok ()) }
      else session.reconnected crc32c reconnection
  | .completing, .closed _ => { session with phase := .returned (.ok ()) }
  | .completing, .failed status _ =>
      if session.worker.isComplete then { session with phase := .returned (.ok ()) }
      else session.drainIntentsOnError (.status status)

/-- The branch of `run` for the intent channel. -/
def handleIntent (crc32c : Bytes → UInt32) (session : Session) : Session :=
  match session.phase, session.worker.replayBuffer.isFull, session.requests with
  | .running, false, intent :: requests =>
      let (worker, request) := session.worker.processIntent crc32c intent
      { session with worker, requests, connection := (session.connection.send request).1 }
  | .running, false, [] =>
      if session.isOpen then session else { session with phase := .completing }
  | _, _, _ => session

inductive Event
  | append (request : BidiWriteObjectRequest)
  | flush (request : BidiWriteObjectRequest)
      (flags : request.stateLookup = true ∧ request.flush = true)
  | finalize (request : BidiWriteObjectRequest)
      (flags : request.flush = true ∧ request.finishWrite = true)
  /-- The last sender of the intent channel is dropped. -/
  | close
  | intent
  | message (message : Message)

/-- The session at the start of `run`. -/
def new (worker : Worker) (room : ℕ) : Session where
  worker
  connection := { room }

def submit (session : Session) (intent : UploadIntent) (made : ℕ) : Session :=
  if session.accepts then
    { session with requests := session.requests ++ [intent], made := session.made + made }
  else session

def handle (crc32c : Bytes → UInt32) (session : Session) : Event → Session
  | .append request => session.submit (.append request) 0
  | .flush request flags => session.submit (.flush request session.made flags) 1
  | .finalize request flags => session.submit (.finalize request session.made flags) 1
  | .close => { session with isOpen := false }
  | .intent => session.handleIntent crc32c
  | .message message => session.handleMessage crc32c message

def run (crc32c : Bytes → UInt32) (session : Session) (events : List Event) : Session :=
  events.foldl (handle crc32c) session

end Session

end GoogleCloudRust.BidiWrite
