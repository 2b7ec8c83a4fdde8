import Mathlib.Data.List.AList
import GoogleCloudRust.Model.ReadRange

/-! # Bidi reads of an object

Model of `active_read.rs`, `worker.rs`, `range_reader.rs` and of the reads that `transport.rs`
creates, with whole-object checksums disabled. The worker is one task; the descriptor and the
readers belong to the application. The channel of a reader is a queue without a capacity, closed
when no read holds its sender. What the connector returns for a failed stream is an input. -/

namespace GoogleCloudRust.Bidi

structure ChecksummedData where
  content : Bytes
  crc32c : Option UInt32 := none
deriving DecidableEq, Repr

structure ObjectRangeData where
  checksummedData : Option ChecksummedData
  readRange : Option ProtoRange
  rangeEnd : Bool
deriving DecidableEq, Repr

/-! ## Reads -/

/-- The sender is the position of the reader that has the other end of its channel. -/
structure ActiveRead where
  state : RemainingRange
  sender : ℕ
deriving DecidableEq, Repr

inductive Handler
  | noData
  | send (sender : ℕ) (data : Bytes)

namespace ActiveRead

def new (sender : ℕ) (requestedRange : RequestedRange) : ActiveRead where
  state := .requested requestedRange
  sender := sender

/-- The state is updated before the data is checked. -/
def handleData (crc32c : Bytes → UInt32) (active : ActiveRead) (data : Option ChecksummedData)
    (receivedRange : ProtoRange) (rangeEnd : Bool) : ActiveRead × Except ReadError Handler :=
  match active.state.update receivedRange with
  | .error e => (active, .error e)
  | .ok state =>
      ({ active with state := .normalized state },
        match data with
        | none => (state.handleEmpty rangeEnd).map fun _ => .noData
        | some { content, crc32c := none } => .ok (.send active.sender content)
        | some { content, crc32c := some want } =>
            if want ≠ crc32c content then .error (.checksumMismatch (crc32c content) want)
            else .ok (.send active.sender content))

def asProto (active : ActiveRead) (id : ℤ) : ProtoRange := active.state.asProto id

end ActiveRead

/-- `range` and `returned` record what it was created for and what `next` has returned. -/
structure RangeReader where
  range : RequestedRange
  inner : List (Except ReadError Bytes) := []
  exhausted : Bool := false
  dropped : Bool := false
  returned : List (Option (Except Error Bytes)) := []

namespace RangeReader

/-- A message to a dropped reader is lost. -/
def push (reader : RangeReader) (message : Except ReadError Bytes) : RangeReader :=
  if reader.dropped then reader else { reader with inner := reader.inner ++ [message] }

/-- One poll of `next`; nothing happens while it waits. -/
def next (reader : RangeReader) (closed : Bool) : RangeReader :=
  if reader.exhausted then { reader with returned := reader.returned ++ [none] }
  else
    match reader.inner with
    | .ok b :: inner =>
        { reader with inner := inner, returned := reader.returned ++ [some (.ok b)] }
    | .error e :: inner =>
        { reader with
          inner := inner
          exhausted := true
          returned := reader.returned ++ [some (.error (.io e))] }
    | [] =>
        if closed then
          { reader with exhausted := true, returned := reader.returned ++ [none] }
        else reader

end RangeReader

/-! ## The worker -/

inductive Phase
  | running
  /-- The loop has ended with an error, which every later read gets. -/
  | closing (error : Error)
  | exited

/-- The worker with its queue of requests, and the readers in the order of their creation.
`finished` records the readers whose last response was handled without error. -/
structure Session where
  nextRangeId : ℤ := 0
  ranges : AList fun _ : ℤ => ActiveRead := ∅
  phase : Phase := .running
  requests : List ActiveRead := []
  readers : List RangeReader := []
  descriptor : Bool := true
  finished : List ℕ := []

/-- What `next_message` returns; a failure comes with the outcome of the reconnection. -/
inductive Message
  | response (objectDataRanges : List ObjectRangeData)
  | closed
  | failed (outcome : Except Error (List ObjectRangeData))

namespace Session

def send (session : Session) (sender : ℕ) (message : Except ReadError Bytes) : Session :=
  { session with readers := session.readers.modify sender fun reader => reader.push message }

def interrupted (session : Session) (active : ActiveRead) (error : Error) : Session :=
  session.send active.sender (.error (.unrecoverableBidiReadInterrupt error))

def handle (session : Session) : Handler → Session
  | .noData => session
  | .send sender data => session.send sender (.ok data)

def insertRanges (session : Session) : List ActiveRead → Session × List ProtoRange
  | [] => (session, [])
  | r :: readers =>
      let id := session.nextRangeId
      let inserted : Session :=
        { session with nextRangeId := id + 1, ranges := session.ranges.insert id r }
      let (final, ranges) := inserted.insertRanges readers
      (final, r.asProto id :: ranges)

def closeReaders (session : Session) (error : Error) : Session :=
  let closed := session.ranges.entries.foldl (fun s entry => s.interrupted entry.2 error) session
  { closed with ranges := ∅ }

section

variable (crc32c : Bytes → UInt32)

/-- With `range_end` the read is removed before its data is handled. -/
def handleRangeData (session : Session) (response : ObjectRangeData) :
    Session × Except ReadError Unit :=
  match response.readRange with
  | none => (session, .error (.invalidBidiStreamingReadResponse "missing range"))
  | some range =>
      match session.ranges.lookup range.readId with
      | none =>
          let closing := if response.rangeEnd then ")" else ""
          (session, .error (.invalidBidiStreamingReadResponse
            (s!"unknown read id ({range.readId}" ++ closing)))
      | some pending =>
          let (updated, handler) :=
            pending.handleData crc32c response.checksummedData range response.rangeEnd
          let ranges :=
            if response.rangeEnd then session.ranges.erase range.readId
            else session.ranges.insert range.readId updated
          match handler with
          | .error e => ({ session with ranges := ranges }, .error e)
          | .ok handler =>
              let finished :=
                if response.rangeEnd then session.finished ++ [pending.sender]
                else session.finished
              (({ session with ranges := ranges, finished := finished }).handle handler, .ok ())

/-- All the responses are handled; the first error is kept. -/
def handleRangesFrom (session : Session) (result : Except ReadError Unit) :
    List ObjectRangeData → Session × Except ReadError Unit
  | [] => (session, result)
  | response :: data =>
      let (handled, outcome) := session.handleRangeData crc32c response
      handled.handleRangesFrom (result.bind fun _ => outcome) data

def handleRanges (session : Session) (data : List ObjectRangeData) :
    Session × Except Error Unit :=
  let (handled, result) := session.handleRangesFrom crc32c (.ok ()) data
  (handled, result.mapError .io)

def handleResponseSuccess (session : Session) (data : List ObjectRangeData) :
    Session × Except Error Unit :=
  match session.handleRanges crc32c data with
  | (handled, .error e) => (handled.closeReaders e, .error e)
  | (handled, .ok ()) => (handled, .ok ())

/-- The ranges that `reconnect` asks for. -/
def resumed (session : Session) : List ProtoRange :=
  session.ranges.entries.map fun entry => entry.2.asProto entry.1

def reconnect (session : Session) (outcome : Except Error (List ObjectRangeData)) :
    Session × Except Error Unit :=
  match outcome with
  | .error e => (session.closeReaders e, .error e)
  | .ok data =>
      match session.handleRanges crc32c data with
      | (handled, .error e) => (handled.closeReaders e, .error e)
      | (handled, .ok ()) => (handled, .ok ())

/-- Nothing is returned for the end of the stream. -/
def handleResponse (session : Session) (message : Message) :
    Session × Option (Except Error Unit) :=
  match message with
  | .closed => (session, none)
  | .failed outcome => (session.reconnect crc32c outcome).map id some
  | .response data => (session.handleResponseSuccess crc32c data).map id some

/-- The worker returns, and drops what it has. -/
def exit (session : Session) : Session :=
  { session with phase := .exited, ranges := ∅, requests := [] }

def receive (session : Session) (message : Message) : Session :=
  match session.handleResponse crc32c message with
  | (handled, none) => handled.exit
  | (handled, some (.error e)) => { handled with phase := .closing e }
  | (handled, some (.ok ())) => handled

end

/-- Each reader holds a sender of the requests. -/
def requestsClosed (session : Session) : Bool :=
  !session.descriptor && session.readers.all RangeReader.dropped

/-- The requests that one `recv_many` takes. -/
def received (session : Session) : List ActiveRead := session.requests.take 16

def recvMany (session : Session) : Session :=
  if session.requests = [] then
    if session.requestsClosed then session.exit else session
  else
    let taken := { session with requests := session.requests.drop 16 }
    (taken.insertRanges session.received).1

/-- After the loop, each request is answered with the error. -/
def interruptNext (session : Session) (error : Error) : Session :=
  match session.requests with
  | r :: requests => { session with requests := requests }.interrupted r error
  | [] => if session.requestsClosed then session.exit else session

/-! ## The application -/

def mapRange (session : Session) (range : RequestedRange) : Session × ActiveRead :=
  ({ session with readers := session.readers ++ [{ range := range }] },
    .new session.readers.length range)

/-- It panics when the worker has exited. -/
def readRange (session : Session) (range : RequestedRange) : Session :=
  let (mapped, active) := session.mapRange range
  { mapped with requests := mapped.requests ++ [active] }

/-- A sender of the channel exists. -/
def isOpen (session : Session) (index : ℕ) : Bool :=
  session.ranges.entries.any (fun entry => entry.2.sender == index) ||
    session.requests.any (fun active => active.sender == index)

def next (session : Session) (index : ℕ) : Session :=
  { session with
    readers := session.readers.modify index fun reader =>
      if reader.dropped then reader else reader.next (!session.isOpen index) }

def dropReader (session : Session) (index : ℕ) : Session :=
  { session with
    readers := session.readers.modify index fun reader =>
      { reader with dropped := true, inner := [] } }

/-- What happens next; what does not fit the state is ignored. -/
inductive Event
  | readRange (range : RequestedRange)
  | message (message : Message)
  /-- The worker polls its queue of requests. -/
  | recv
  | next (index : ℕ)
  | dropReader (index : ℕ)
  | dropDescriptor

section

variable (crc32c : Bytes → UInt32)

def step (session : Session) (event : Event) : Session :=
  match event, session.phase with
  | .readRange range, .running | .readRange range, .closing _ =>
      if session.descriptor then session.readRange range else session
  | .message message, .running => session.receive crc32c message
  | .recv, .running => session.recvMany
  | .recv, .closing error => session.interruptNext error
  | .next index, _ => session.next index
  | .dropReader index, _ => session.dropReader index
  | .dropDescriptor, _ => { session with descriptor := false }
  | _, _ => session

def run (session : Session) (events : List Event) : Session := events.foldl (step crc32c) session

/-- The first request. `Worker::new` numbers the reads as `insert_ranges` does. -/
def opened (ranges : List RequestedRange) : Session × List ProtoRange :=
  let mapped := ranges.foldl readRange {}
  { mapped with requests := [] }.insertRanges mapped.requests

/-- The response to the first request is handled before the worker starts. -/
def new (ranges : List RequestedRange) (initial : List ObjectRangeData) : Except Error Session :=
  match (opened ranges).1.handleResponseSuccess crc32c initial with
  | (session, .ok ()) => .ok session
  | (_, .error e) => .error (.nested e)

end

end Session

end GoogleCloudRust.Bidi
