import Mathlib.Data.List.Basic
import GoogleCloudRust.Library.Bytes

/-! # Batch actors of a publisher

Model of `batch.rs` and of the batch actors in `actor.rs`. An actor is cut at its await
points: what it does between two of them is one step. The tasks that send the batches run
on their own; a `JoinSet` lists those that have not been joined. A `oneshot` sender is
known by a number. -/

namespace GoogleCloudRust.Publisher

/-! ## Batches -/

structure Message where
  data : Bytes
  attributes : List (String × String)
  orderingKey : String
deriving DecidableEq

structure BatchingOptions where
  messageCountThreshold : UInt32
  byteThreshold : UInt32
deriving DecidableEq

/-- `tx` is the sender of the result. -/
structure BundledMessage where
  msg : Message
  tx : ℕ
deriving DecidableEq

structure Batch where
  messages : List BundledMessage := []
  initialSize : UInt32
  messagesByteSize : UInt32
  batchingOptions : BatchingOptions

namespace Batch

def new (initialSize : UInt32) (batchingOptions : BatchingOptions) : Batch where
  initialSize := initialSize
  messagesByteSize := initialSize
  batchingOptions := batchingOptions

def isEmpty (batch : Batch) : Bool := batch.messages.isEmpty

def messageSize (msg : Message) : ℕ :=
  msg.attributes.foldl (fun acc entry => acc + entry.1.utf8ByteSize + entry.2.utf8ByteSize)
    (msg.data.length + msg.orderingKey.utf8ByteSize)

/-- Sizes wrap around, as they do without overflow checks. -/
def push (batch : Batch) (msg : BundledMessage) : Batch :=
  { batch with
    messagesByteSize := batch.messagesByteSize + (messageSize msg.msg).toUInt32
    messages := batch.messages ++ [msg] }

def atThreshold (batch : Batch) : Bool :=
  batch.messages.length.toUInt32 ≥ batch.batchingOptions.messageCountThreshold ||
    batch.messagesByteSize ≥ batch.batchingOptions.byteThreshold

def canAdd (batch : Batch) (next : BundledMessage) : Bool :=
  batch.messagesByteSize + (messageSize next.msg).toUInt32 ≤ batch.batchingOptions.byteThreshold

def drainMessages (batch : Batch) : List BundledMessage × Batch :=
  (batch.messages, { batch with messages := [], messagesByteSize := batch.initialSize })

end Batch

/-! ## Sending a batch -/

structure RpcError where
  text : String
deriving DecidableEq

/-- How the task of a batch ends. -/
inductive Response
  | ok (messageIds : List String)
  | err (error : RpcError)
  | panic

/-- What `join_next` reports about a task. -/
inductive Outcome
  | ok
  | err
  | panicked
deriving DecidableEq, Repr

/-- What has become of a sender. -/
inductive Consumption
  | published (messageId : String)
  | rpc (error : RpcError)
  /-- Dropped without an answer, because the response has fewer ids than the batch messages. -/
  | dropped
  | orderingKeyPaused
  /-- Dropped because its task has panicked. -/
  | unwound
deriving DecidableEq

structure Answer where
  message : BundledMessage
  consumption : Consumption
deriving DecidableEq

/-- The senders zipped with the message ids. -/
def zipMessageIds : List BundledMessage → List String → List Answer
  | [], _ => []
  | tx :: txs, [] => ⟨tx, .dropped⟩ :: zipMessageIds txs []
  | tx :: txs, messageId :: messageIds => ⟨tx, .published messageId⟩ :: zipMessageIds txs messageIds

/-- The task behind `send`, with `batch_resolve_publish_futures` at its end. -/
def batchResolvePublishFutures (txs : List BundledMessage) : Response → List Answer × Outcome
  | .ok messageIds => (zipMessageIds txs messageIds, .ok)
  | .err error => (txs.map fun tx => ⟨tx, .rpc error⟩, .err)
  | .panic => (txs.map fun tx => ⟨tx, .unwound⟩, .panicked)

structure Task where
  messages : List BundledMessage
  outcome : Option Outcome := none

/-! ## What both kinds of actors have -/

inductive ToBatchActor
  | publish (msg : BundledMessage)
  | flush (tx : ℕ)
  | resumePublish

/-- The receiver and the locals of `run`, and what has happened so far: the messages received
from the channel, the batches sent, the answers given and the flushes signalled. -/
structure BatchActor where
  rx : List ToBatchActor := []
  closed : Bool := false
  timer : Bool := false
  inflight : List Task := []
  batch : Batch
  received : List BundledMessage := []
  batches : List (List BundledMessage) := []
  answers : List Answer := []
  flushed : List ℕ := []

namespace BatchActor

/-- Flush the pending batch if it is not empty. -/
def flush (actor : BatchActor) : BatchActor :=
  if actor.batch.isEmpty then actor
  else
    let (messages, batch) := actor.batch.drainMessages
    { actor with
      batch := batch
      inflight := actor.inflight ++ [{ messages := messages }]
      batches := actor.batches ++ [messages] }

/-- A task ends. -/
def complete (actor : BatchActor) (index : ℕ) (response : Response) : BatchActor :=
  match actor.inflight[index]? with
  | some ⟨messages, none⟩ =>
      let (answers, outcome) := batchResolvePublishFutures messages response
      { actor with
        inflight := actor.inflight.set index ⟨messages, some outcome⟩
        answers := actor.answers ++ answers }
  | _ => actor

/-- `join_next` on a set with tasks: one that has ended leaves the set. -/
def joinNext (actor : BatchActor) (index : ℕ) : Option (Outcome × BatchActor) :=
  match actor.inflight[index]? with
  | some ⟨_, some outcome⟩ =>
      some (outcome, { actor with inflight := actor.inflight.eraseIdx index })
  | _ => none

/-- `recv`: none while it has to wait, and no command once the channel is closed. -/
def recv (actor : BatchActor) : Option (Option ToBatchActor × BatchActor) :=
  match actor.rx with
  | command :: rx => some (some command, { actor with rx := rx })
  | [] => if actor.closed then some (none, actor) else none

/-- What happens to an actor next; what does not fit its phase is ignored. -/
inductive Event
  | send (command : ToBatchActor)
  | close
  | recv
  | timer
  | join (index : ℕ)
  | complete (index : ℕ) (response : Response)

end BatchActor

/-! ## Concurrent batches -/

inductive ConcurrentPhase
  | selecting
  /-- In `join_all`, for a flush or because the channel is closed. -/
  | joining (tx : Option ℕ)
  | ended
  /-- `join_all` panics when a task did. -/
  | panicked
deriving DecidableEq, Repr

structure ConcurrentBatchActor extends BatchActor where
  phase : ConcurrentPhase := .selecting

namespace ConcurrentBatchActor

def new (topic : String) (batchingOptions : BatchingOptions) : ConcurrentBatchActor :=
  { batch := .new topic.utf8ByteSize.toUInt32 batchingOptions }

def flush (actor : ConcurrentBatchActor) : ConcurrentBatchActor :=
  { actor with toBatchActor := actor.toBatchActor.flush }

def addMsgAndFlush (actor : ConcurrentBatchActor) (msg : BundledMessage) :
    ConcurrentBatchActor :=
  let actor := if !actor.batch.canAdd msg then actor.flush else actor
  let actor := { actor with batch := actor.batch.push msg }
  if actor.batch.atThreshold then actor.flush else actor

/-- The branch of `select!` that receives a command. -/
def receive (actor : ConcurrentBatchActor) : Option ToBatchActor → ConcurrentBatchActor
  | some (.publish msg) =>
      let actor := { actor with received := actor.received ++ [msg] }.addMsgAndFlush msg
      if actor.batch.isEmpty then { actor with timer := false } else { actor with timer := true }
  | some (.flush tx) => { actor.flush with phase := .joining (some tx) }
  | some .resumePublish => actor
  | none => { actor.flush with phase := .joining none }

/-- After `join_all`. -/
def afterJoinAll (actor : ConcurrentBatchActor) : Option ℕ → ConcurrentBatchActor
  | some tx =>
      { actor with
        inflight := []
        timer := false
        flushed := actor.flushed ++ [tx]
        phase := .selecting }
  | none => { actor with phase := .ended }

def join (actor : ConcurrentBatchActor) (index : ℕ) : ConcurrentBatchActor :=
  match actor.phase with
  | .selecting =>
      match actor.joinNext index with
      | some (_, next) => { actor with toBatchActor := next }
      | none => actor
  | .joining tx =>
      if actor.inflight.isEmpty then actor.afterJoinAll tx
      else
        match actor.joinNext index with
        | some (.panicked, next) => { actor with toBatchActor := next, phase := .panicked }
        | some (_, next) => { actor with toBatchActor := next }
        | none => actor
  | .ended | .panicked => actor

def isGone (actor : ConcurrentBatchActor) : Bool :=
  actor.phase = .ended || actor.phase = .panicked

def step (actor : ConcurrentBatchActor) (event : BatchActor.Event) : ConcurrentBatchActor :=
  if actor.isGone then actor
  else
    match event with
    | .send command => if actor.closed then actor else { actor with rx := actor.rx ++ [command] }
    | .close => { actor with closed := true }
    | .complete index response =>
        { actor with toBatchActor := actor.toBatchActor.complete index response }
    | .join index => actor.join index
    | .timer =>
        if actor.phase = .selecting && actor.timer then { actor.flush with timer := false }
        else actor
    | .recv =>
        if actor.phase = .selecting then
          match actor.toBatchActor.recv with
          | some (command, next) => { actor with toBatchActor := next }.receive command
          | none => actor
        else actor

end ConcurrentBatchActor

/-! ## Sequential batches -/

/-- Why everything is flushed. -/
inductive FlushCause
  | timer
  | flush (tx : ℕ)
  | close
deriving DecidableEq, Repr

/-- The joins of `flush_all`. -/
inductive FlushStage
  | first
  | loop
  | last
deriving DecidableEq, Repr

inductive SequentialPhase
  | selecting
  | flushing (stage : FlushStage) (cause : FlushCause)
  | ended
deriving DecidableEq, Repr

/-- `resumes` counts the `ResumePublish` received, and `debugAssert` tells whether the
assertion in `move_to_batch_and_flush` has held so far. -/
structure SequentialBatchActor extends BatchActor where
  pendingMsgs : List BundledMessage := []
  paused : Bool := false
  phase : SequentialPhase := .selecting
  resumes : ℕ := 0
  debugAssert : Bool := true

namespace SequentialBatchActor

def new (topic : String) (batchingOptions : BatchingOptions) : SequentialBatchActor :=
  { batch := .new topic.utf8ByteSize.toUInt32 batchingOptions }

def flush (actor : SequentialBatchActor) : SequentialBatchActor :=
  { actor with toBatchActor := actor.toBatchActor.flush }

/-- The loop of `move_to_batch_and_flush`, which also tells whether to flush. -/
def moveToBatch (batch : Batch) :
    List BundledMessage → Batch × List BundledMessage × Bool
  | [] => (batch, [], false)
  | next :: pendingMsgs =>
      if !batch.canAdd next && !batch.isEmpty then (batch, next :: pendingMsgs, true)
      else
        let batch := batch.push next
        if batch.atThreshold then (batch, pendingMsgs, true) else moveToBatch batch pendingMsgs

def moveToBatchAndFlush (actor : SequentialBatchActor) : SequentialBatchActor :=
  let (batch, pendingMsgs, shouldFlush) := moveToBatch actor.batch actor.pendingMsgs
  let actor := { actor with
    batch := batch
    pendingMsgs := pendingMsgs
    debugAssert := actor.debugAssert && actor.inflight.isEmpty }
  if shouldFlush then actor.flush else actor

def pause (actor : SequentialBatchActor) : SequentialBatchActor :=
  { actor with
    paused := true
    pendingMsgs := []
    answers := actor.answers ++ actor.pendingMsgs.map fun publish => ⟨publish, .orderingKeyPaused⟩ }

def handleInflightJoin (actor : SequentialBatchActor) : Option Outcome → SequentialBatchActor
  | some .err | some .panicked => actor.pause
  | some .ok | none => actor

/-- `flush_all` up to its first join. -/
def flushAll (actor : SequentialBatchActor) (cause : FlushCause) : SequentialBatchActor :=
  { actor with phase := .flushing .first cause }

/-- After `flush_all`. -/
def afterFlushAll (actor : SequentialBatchActor) : FlushCause → SequentialBatchActor
  | .timer => { actor with inflight := [], timer := false, phase := .selecting }
  | .flush tx =>
      { actor with
        inflight := []
        timer := false
        flushed := actor.flushed ++ [tx]
        phase := .selecting }
  | .close => { actor with phase := .ended }

/-- `flush_all` from one of its joins to the next one or its end. -/
def continueFlushAll (actor : SequentialBatchActor) (stage : FlushStage) (cause : FlushCause) :
    SequentialBatchActor :=
  match stage with
  | .first | .loop =>
      if actor.pendingMsgs.isEmpty then { actor.flush with phase := .flushing .last cause }
      else { actor.moveToBatchAndFlush with phase := .flushing .loop cause }
  | .last => actor.afterFlushAll cause

/-- The receiving loop of a paused actor. -/
def receivePaused (actor : SequentialBatchActor) : Option ToBatchActor → SequentialBatchActor
  | some (.publish msg) =>
      { actor with
        received := actor.received ++ [msg]
        answers := actor.answers ++ [⟨msg, .orderingKeyPaused⟩] }
  | some (.flush tx) => { actor with flushed := actor.flushed ++ [tx] }
  | some .resumePublish => { actor with paused := false, resumes := actor.resumes + 1 }
  | none => { actor with phase := .ended }

/-- The branch of `select!` that receives a command. -/
def receive (actor : SequentialBatchActor) : Option ToBatchActor → SequentialBatchActor
  | some (.publish msg) =>
      let actor := { actor with
        received := actor.received ++ [msg]
        pendingMsgs := actor.pendingMsgs ++ [msg] }
      let actor := if actor.inflight.isEmpty then actor.moveToBatchAndFlush else actor
      if actor.pendingMsgs.isEmpty && actor.batch.isEmpty then { actor with timer := false }
      else { actor with timer := true }
  | some (.flush tx) => actor.flushAll (.flush tx)
  | some .resumePublish => { actor with resumes := actor.resumes + 1 }
  | none => actor.flushAll .close

def join (actor : SequentialBatchActor) (index : ℕ) : SequentialBatchActor :=
  match actor.phase with
  | .selecting =>
      if actor.paused then actor
      else
        match actor.joinNext index with
        | some (outcome, next) =>
            ({ actor with toBatchActor := next }.handleInflightJoin outcome).moveToBatchAndFlush
        | none => actor
  | .flushing stage cause =>
      -- On an empty set `join_next` returns at once.
      if actor.inflight.isEmpty then
        (actor.handleInflightJoin none).continueFlushAll stage cause
      else
        match actor.joinNext index with
        | some (outcome, next) =>
            ({ actor with toBatchActor := next }.handleInflightJoin outcome).continueFlushAll
              stage cause
        | none => actor
  | .ended => actor

def step (actor : SequentialBatchActor) (event : BatchActor.Event) : SequentialBatchActor :=
  if actor.phase = .ended then actor
  else
    match event with
    | .send command => if actor.closed then actor else { actor with rx := actor.rx ++ [command] }
    | .close => { actor with closed := true }
    | .complete index response =>
        { actor with toBatchActor := actor.toBatchActor.complete index response }
    | .join index => actor.join index
    | .timer =>
        if actor.phase = .selecting && !actor.paused && actor.timer then actor.flushAll .timer
        else actor
    | .recv =>
        if actor.phase = .selecting then
          match actor.toBatchActor.recv with
          | some (command, next) =>
              if actor.paused then { actor with toBatchActor := next }.receivePaused command
              else { actor with toBatchActor := next }.receive command
          | none => actor
        else actor

def run (actor : SequentialBatchActor) (events : List BatchActor.Event) : SequentialBatchActor :=
  events.foldl step actor

end SequentialBatchActor

end GoogleCloudRust.Publisher
