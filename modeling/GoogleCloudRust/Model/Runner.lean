import GoogleCloudRust.Model.SendOptimizer

/-! # The runner of an `AppendRows` stream

Model of `runner.rs`, `stream.rs` and `StreamEntry::send`. The stream task, the write task and
any number of writers take steps in any order. A response channel is named by the position of
its writer; its sending half is wherever that number is kept, and dropped once it is nowhere. -/

namespace GoogleCloudRust.BigQuery

inductive AppendError (Error : Type)
  | rpc (source : Error)
  | unexpectedEndOfStream
deriving DecidableEq, Repr

abbrev AppendResult (Error Response : Type) := Except (AppendError Error) Response

structure WriteRequest (Descriptor : Type) where
  req : AppendRowsRequest Descriptor
  respTx : ℕ

/-- A call of `StreamEntry::send`. -/
structure Writer (Descriptor : Type) where
  req : AppendRowsRequest Descriptor
  /-- The writer has dropped its `resp_rx`. -/
  abandoned : Bool

/-- A result sent on a response channel. -/
structure Answer (Error Response : Type) where
  respTx : ℕ
  result : AppendResult Error Response
  /-- `false` when the result is discarded because nobody waits for it. -/
  received : Bool

namespace Runner

/-- Where `run_stream_task` is. -/
inductive StreamTask (Descriptor : Type)
  | waiting
  | opening (respTx : ℕ) (optimizer : SendOptimizer Descriptor)
  /-- In `run_read_task`; `failed` after the stream has yielded an error. -/
  | reading (failed : Bool)
  | finished

/-- Where `run_write_task` is. -/
inductive WriteTask (Descriptor : Type)
  | unspawned
  | receiving (optimizer : SendOptimizer Descriptor)
  | registering (optimizer : SendOptimizer Descriptor) (r : WriteRequest Descriptor)
  /-- At `request_tx.send(r.req)`; the response channel of `r` is registered. -/
  | sending (optimizer : SendOptimizer Descriptor) (r : WriteRequest Descriptor)
  | ended

/-- How a poll of `request_tx.send` ends. -/
inductive Forwarding
  | sent
  | closed
  | full

variable {Descriptor Error Response : Type}

def StreamTask.held : StreamTask Descriptor → List ℕ
  | .opening respTx _ => [respTx]
  | _ => []

def WriteTask.held : WriteTask Descriptor → List ℕ
  | .registering _ r => [r.respTx]
  | _ => []

end Runner

open Runner

structure Runner (Descriptor Error Response : Type) where
  writers : List (Writer Descriptor)
  /-- Every `req_tx` has been dropped. -/
  released : Bool
  reqRx : List (WriteRequest Descriptor)
  streamTask : StreamTask Descriptor
  writeTask : WriteTask Descriptor
  pendingResp : List ℕ
  /-- The requests sent on the stream, each with the channel it is answered on. -/
  wire : List (WriteRequest Descriptor)
  /-- The responses read from the stream. -/
  responses : List Response
  answers : List (Answer Error Response)

namespace Runner

variable {Descriptor Error Response : Type}

def new : Runner Descriptor Error Response where
  writers := []
  released := false
  reqRx := []
  streamTask := .waiting
  writeTask := .unspawned
  pendingResp := []
  wire := []
  responses := []
  answers := []

/-- The receiving half of the request channel has not been dropped. -/
def receiverOpen (runner : Runner Descriptor Error Response) : Bool :=
  match runner.streamTask, runner.writeTask with
  | .waiting, _ | .opening _ _, _ => true
  | _, .unspawned | _, .ended => false
  | _, _ => true

/-- The response channels whose sending half has neither been used nor dropped. -/
def held (runner : Runner Descriptor Error Response) : List ℕ :=
  runner.reqRx.map WriteRequest.respTx ++ runner.streamTask.held ++ runner.writeTask.held ++
    runner.pendingResp

/-- What `StreamEntry::send` returns to a writer; `none` while it waits. -/
def observe (runner : Runner Descriptor Error Response) (respTx : ℕ) :
    Option (AppendResult Error Response) :=
  match runner.answers.find? fun answer => answer.respTx = respTx with
  | some answer => some answer.result
  | none => if respTx ∈ runner.held then none else some (.error .unexpectedEndOfStream)

/-! ## Writers -/

def send (runner : Runner Descriptor Error Response) (req : AppendRowsRequest Descriptor) :
    Runner Descriptor Error Response :=
  if runner.released then runner
  else
    { runner with
      writers := runner.writers ++ [⟨req, false⟩]
      reqRx := if runner.receiverOpen then runner.reqRx ++ [⟨req, runner.writers.length⟩]
        else runner.reqRx }

def abandon (runner : Runner Descriptor Error Response) (respTx : ℕ) :
    Runner Descriptor Error Response :=
  { runner with writers := runner.writers.modify respTx fun writer =>
      { writer with abandoned := true } }

/-- `resp_tx.send(result)`. -/
def answer (runner : Runner Descriptor Error Response) (respTx : ℕ)
    (result : AppendResult Error Response) : Runner Descriptor Error Response :=
  { runner with
    answers := runner.answers ++
      [⟨respTx, result, !(runner.writers[respTx]?.any Writer.abandoned)⟩] }

/-! ## The stream task -/

variable (version : String) in
/-- The stream task waits for the first request and puts it on the stream it opens. -/
def start (runner : Runner Descriptor Error Response) : Runner Descriptor Error Response :=
  match runner.streamTask, runner.reqRx with
  | .waiting, [] => if runner.released then { runner with streamTask := .finished } else runner
  | .waiting, initialReq :: reqRx =>
    let req := { initialReq.req with traceId := "rust-writer:" ++ version }
    { runner with
      reqRx
      streamTask := .opening initialReq.respTx (SendOptimizer.new req)
      wire := [⟨req, initialReq.respTx⟩] }
  | _, _ => runner

/-- `Stream::new` returns. -/
def opened (runner : Runner Descriptor Error Response) (outcome : Except Error Unit) :
    Runner Descriptor Error Response :=
  match runner.streamTask, outcome with
  | .opening respTx _, .error e =>
    { runner.answer respTx (.error (.rpc e)) with streamTask := .finished, reqRx := [] }
  | .opening respTx optimizer, .ok () =>
    { runner with
      streamTask := .reading false
      writeTask := .receiving optimizer
      pendingResp := [respTx] }
  | _, _ => runner

def processResponse (runner : Runner Descriptor Error Response)
    (resp : AppendResult Error Response) : Runner Descriptor Error Response :=
  match runner.pendingResp with
  | [] => runner
  | respTx :: pendingResp => { runner with pendingResp }.answer respTx resp

/-- The stream yields a message. The service answers only requests it has received; nothing but
the end of the stream follows an error. -/
def message (runner : Runner Descriptor Error Response) (resp : Except Error Response) :
    Runner Descriptor Error Response :=
  match runner.streamTask, resp with
  | .reading false, .ok response =>
    if runner.responses.length < runner.wire.length then
      { runner with responses := runner.responses ++ [response] }.processResponse (.ok response)
    else runner
  | .reading false, .error e =>
    { runner with streamTask := .reading true }.processResponse (.error (.rpc e))
  | _, _ => runner

/-- The stream ends: `run_read_task` drops the pending channels and the write task is aborted. -/
def close (runner : Runner Descriptor Error Response) : Runner Descriptor Error Response :=
  match runner.streamTask with
  | .reading _ => { runner with streamTask := .finished, pendingResp := [] }
  | _ => runner

/-! ## The write task -/

/-- The write task returns or is dropped, and the requests still queued with it. -/
def endWrite (runner : Runner Descriptor Error Response) : Runner Descriptor Error Response :=
  { runner with writeTask := .ended, reqRx := [] }

def aborted (runner : Runner Descriptor Error Response) : Bool :=
  match runner.streamTask with
  | .finished => true
  | _ => false

variable [DecidableEq Descriptor]

/-- The write task takes its next step. Once it has been aborted it is dropped at an `await`, at
the latest when that has to wait. -/
def pollWrite (runner : Runner Descriptor Error Response) (dropped : Bool)
    (forwarding : Forwarding) : Runner Descriptor Error Response :=
  match runner.writeTask with
  | .receiving optimizer =>
    if runner.aborted && dropped then runner.endWrite
    else
      match runner.reqRx with
      | [] => if runner.released || runner.aborted then runner.endWrite else runner
      | r :: reqRx =>
        { runner with
          reqRx
          writeTask := .registering (optimizer.optimize r.req).1
            { r with req := (optimizer.optimize r.req).2 } }
  | .registering optimizer r =>
    match runner.streamTask with
    | .reading _ =>
      { runner with
        pendingResp := runner.pendingResp ++ [r.respTx]
        writeTask := .sending optimizer r }
    | _ => runner.endWrite
  | .sending optimizer r =>
    if runner.aborted && dropped then runner.endWrite
    else
      match forwarding with
      | .sent => { runner with wire := runner.wire ++ [r], writeTask := .receiving optimizer }
      | .closed => runner.endWrite
      | .full => if runner.aborted then runner.endWrite else runner
  | .unspawned | .ended => runner

inductive Event (Descriptor Error Response : Type)
  | send (req : AppendRowsRequest Descriptor)
  | abandon (respTx : ℕ)
  | release
  | start
  | opened (outcome : Except Error Unit)
  | message (resp : Except Error Response)
  | close
  | pollWrite (dropped : Bool) (forwarding : Forwarding)

def step (version : String) (runner : Runner Descriptor Error Response) :
    Event Descriptor Error Response → Runner Descriptor Error Response
  | .send req => runner.send req
  | .abandon respTx => runner.abandon respTx
  | .release => { runner with released := true }
  | .start => runner.start version
  | .opened outcome => runner.opened outcome
  | .message resp => runner.message resp
  | .close => runner.close
  | .pollWrite dropped forwarding => runner.pollWrite dropped forwarding

def run (version : String) (runner : Runner Descriptor Error Response)
    (events : List (Event Descriptor Error Response)) : Runner Descriptor Error Response :=
  events.foldl (step version) runner

end Runner

end GoogleCloudRust.BigQuery
