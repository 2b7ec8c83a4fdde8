import GoogleCloudRust.Library.Segments
import GoogleCloudRust.Model.BidiWrite

/-! # The service of an appendable upload

The service keeps a persisted object and holds more bytes for the stream. It takes the requests
that the stream was given in their order; it may persist what it holds, finalize the object, report
its persisted size and break the stream at any time. A broken stream loses what was not
persisted. The callers of the worker make their requests as `transport.rs` does. -/

namespace GoogleCloudRust.BidiWrite

open Segments

/-- The data of a request, with its offset. -/
def BidiWriteObjectRequest.piece (request : BidiWriteObjectRequest) : Option (ℤ × Bytes) :=
  request.data.map fun data => (request.writeOffset, data.content)

structure Service where
  persisted : Bytes
  /-- What it holds for the stream, the persisted bytes included. -/
  held : Bytes
  finalizeTime : Option ℤ := none
  /-- How many requests of the stream it has taken. -/
  taken : ℕ := 0
  /-- The responses that the worker has not read. -/
  responses : List BidiWriteObjectResponse := []
  broken : Bool := false

namespace Service

inductive Form
  | size
  | object
  /-- A response that only carries a write handle. -/
  | handle

def status (service : Service) : Form → BidiWriteObjectResponse
  | .size => ⟨some (.persistedSize service.persisted.length)⟩
  | .object => ⟨some (.resource ⟨service.persisted.length, service.finalizeTime⟩)⟩
  | .handle => ⟨none⟩

def take (service : Service) (request : BidiWriteObjectRequest) : Service :=
  { service with
    taken := service.taken + 1
    held :=
      match request.piece with
      | none => service.held
      | some (offset, content) => accept service.held offset content }

/-- The first `size` bytes it holds are persisted. -/
def persist (service : Service) (size : ℕ) : Service :=
  if service.finalizeTime = none ∧ service.persisted.length ≤ size then
    { service with persisted := service.held.take size }
  else service

def finalize (service : Service) (time : ℤ) : Service :=
  if service.finalizeTime = none then
    { service with persisted := service.held, finalizeTime := some time }
  else service

def report (service : Service) (form : Form) : Service :=
  { service with responses := service.responses ++ [service.status form] }

/-- The stream breaks; the first `delivered` responses still reach the worker. -/
def interrupt (service : Service) (delivered : ℕ) : Service :=
  { service with
    broken := true
    held := service.persisted
    responses := service.responses.take delivered }

def reopen (service : Service) : Service :=
  { service with
    broken := false
    held := service.persisted
    taken := 0
    responses := [] }

end Service

/-- The worker, the service, and all bytes that were appended. -/
structure Upload where
  session : Session
  service : Service
  appended : Bytes

namespace Upload

/-- How the writer was opened, with the bytes of the object before the first intent. -/
inductive Opening
  /-- A new object, with the payload of the opening request and how much of it was reported. -/
  | create (payload : Bytes) (persisted : Fin (payload.length + 1))
  | reopen (content : Bytes)

def start (crc32c : Bytes → UInt32) (room : ℕ) : Opening → Upload
  | .create payload persisted =>
      { session := .new (.start crc32c persisted (some payload)) room
        service := { persisted := payload.take persisted, held := payload }
        appended := payload }
  | .reopen content =>
      { session := .new (.start crc32c content.length none) room
        service := { persisted := content, held := content }
        appended := content }

inductive Event
  | append (chunk : Bytes)
  | flush
  | finalize (objectChecksums : Option UInt32)
  | close
  | intent
  /-- The worker reads a response. -/
  | read
  /-- The worker reads the end of a broken stream, with its status unless it was closed. -/
  | lose (status : Option String) (reconnection : Except Error (Service.Form × ℕ))
  | take
  | persist (size : ℕ)
  | complete (time : ℤ)
  | report (form : Service.Form)
  | interrupt (delivered : ℕ)

/-- The request that the service takes next. -/
def next (upload : Upload) : Option BidiWriteObjectRequest :=
  if upload.service.broken then none
  else upload.session.connection.sent[upload.service.taken]?

def append (crc32c : Bytes → UInt32) (upload : Upload) (chunk : Bytes) : Upload :=
  if upload.session.accepts then
    { upload with
      session := upload.session.submit
        (.append
          { writeOffset := upload.appended.length
            data := some { content := chunk, crc32c := some (crc32c chunk) } }) 0
      appended := upload.appended ++ chunk }
  else upload

def lost (status : Option String) (reconnection : Worker.Reconnection) : Session.Message :=
  match status with
  | none => .closed reconnection
  | some status => .failed status reconnection

/-- After the loss of a stream the service has a new one if the worker goes on. -/
def adopt (upload : Upload) (session : Session) : Upload :=
  match session.phase with
  | .running => { upload with session, service := upload.service.reopen }
  | _ => { upload with session }

def lose (crc32c : Bytes → UInt32) (upload : Upload) (status : Option String)
    (reconnection : Except Error (Service.Form × ℕ)) : Upload :=
  upload.adopt (upload.session.handleMessage crc32c
    (lost status (reconnection.map fun (form, room) => (upload.service.status form, room))))

def handle (crc32c : Bytes → UInt32) (upload : Upload) : Event → Upload
  | .append chunk => upload.append crc32c chunk
  | .flush =>
      { upload with
        session := upload.session.handle crc32c (.flush
          { writeOffset := upload.appended.length, flush := true, stateLookup := true }
          ⟨rfl, rfl⟩) }
  | .finalize objectChecksums =>
      { upload with
        session := upload.session.handle crc32c (.finalize
          { writeOffset := upload.appended.length
            objectChecksums, flush := true, finishWrite := true } ⟨rfl, rfl⟩) }
  | .close => { upload with session := upload.session.handle crc32c .close }
  | .intent => { upload with session := upload.session.handle crc32c .intent }
  | .read =>
      match upload.service.responses with
      | [] => upload
      | response :: responses =>
          { upload with
            session := upload.session.handleMessage crc32c (.response response)
            service := { upload.service with responses } }
  | .lose status reconnection =>
      if upload.service.broken && upload.service.responses.isEmpty then
        upload.lose crc32c status reconnection
      else upload
  | .take =>
      match upload.next with
      | none => upload
      | some request => { upload with service := upload.service.take request }
  | .persist size =>
      if upload.service.broken then upload
      else { upload with service := upload.service.persist size }
  | .complete time =>
      if upload.service.broken then upload
      else { upload with service := upload.service.finalize time }
  | .report form =>
      if upload.service.broken then upload
      else { upload with service := upload.service.report form }
  | .interrupt delivered =>
      if upload.service.broken then upload
      else { upload with service := upload.service.interrupt delivered }

def run (crc32c : Bytes → UInt32) (upload : Upload) (events : List Event) : Upload :=
  events.foldl (handle crc32c) upload

end Upload

end GoogleCloudRust.BidiWrite
