import GoogleCloudRust.Library.Text
import GoogleCloudRust.Model.Checksum
import GoogleCloudRust.Model.ReadRange

/-! # Resumable reads of an object

Model of `read_object/resumable.rs`, with the range of the request as `model_ext.rs` sets it. The
generation of the object is fixed and left out. A header is its text; the checksums of a response
are as they were decoded. -/

namespace GoogleCloudRust.Storage

open Bidi (RequestedRange)
open Text

/-- The values are those of `i64`. -/
structure ReadObjectRequest where
  readOffset : ℤ := 0
  readLimit : ℤ := 0
deriving DecidableEq, Repr

/-- `clamp(0, i64::MAX as u64) as i64`. -/
def clampI64 (value : UInt64) : ℤ := min value.toNat (2 ^ 63 - 1)

def ReadObjectRequest.withRange : RequestedRange → ReadObjectRequest
  | .offset o => { readOffset := clampI64 o }
  | .tail t => { readOffset := -clampI64 t }
  | .segment o limit => { readOffset := clampI64 o, readLimit := clampI64 limit }

inductive ReadError
  | checksumMismatch (mismatch : ChecksumMismatch)
  | shortRead (missing : ℕ)
  | longRead (got expected : ℕ)
  | unexpectedSuccessCode (code : ℕ)
  | missingHeader (name : String)
  | badHeaderFormat (name source : String)
deriving DecidableEq, Repr

/-- The errors of the HTTP client and of a request are known by their text only. -/
inductive ReadFailure
  | io (error : ReadError)
  | deser (error : ReadError)
  | transport (text : String)
  | request (text : String)
deriving DecidableEq, Repr

structure Response where
  status : ℕ
  contentLength : Option (List Char) := none
  storedContentLength : Option (List Char) := none
  contentRange : Option (List Char) := none
  storedContentEncoding : String := ""
  contentEncoding : String := ""
  /-- The header `x-goog-hash`. -/
  hashes : ObjectChecksums := {}
  body : Bytes
deriving DecidableEq, Repr

/-! ## The range of a response -/

structure ReadRange where
  start : ℕ
  limit : ℕ
deriving DecidableEq, Repr

def readLimit (name : String) (header : Option (List Char)) : Except ReadError ℕ :=
  match header with
  | none => .error (.missingHeader name)
  | some text => (parseU64 text).mapError (.badHeaderFormat name)

def contentRange (header : Option (List Char)) : Except ReadError ReadRange := do
  let header ←
    match header with
    | none => .error (.missingHeader "content-range")
    | some header => .ok header
  let header ←
    match strip "bytes ".toList header with
    | none => .error (.badHeaderFormat "content-range" "missing bytes prefix")
    | some header => .ok header
  let (range, _) ←
    match splitOnce '/' header with
    | none => .error (.badHeaderFormat "content-range" "missing / separator")
    | some parts => .ok parts
  let (start, last) ←
    match splitOnce '-' range with
    | none => .error (.badHeaderFormat "content-range" "missing - separator")
    | some parts => .ok parts
  let start ← (parseU64 start).mapError (.badHeaderFormat "content-range")
  let last ← (parseU64 last).mapError (.badHeaderFormat "content-range")
  -- HTTP ranges are inclusive.
  let stop := (last + 1) % 2 ^ 64
  if stop < start then
    .error (.badHeaderFormat "content-range"
      s!"range start ({start}) should be less than or equal to the range end ({stop})")
  else .ok { start, limit := stop - start }

def responseRange (response : Response) : Except ReadError ReadRange :=
  if response.status = 200 then
    match readLimit "content-length" response.contentLength,
        readLimit "x-goog-stored-content-length" response.storedContentLength with
    | .ok limit, _ => .ok { start := 0, limit }
    | .error _, .ok limit => .ok { start := 0, limit }
    | .error e, .error (.missingHeader _) => .error e
    | .error (.missingHeader _), .error e => .error e
    | .error e, .error _ => .error e
  else if response.status = 206 then contentRange response.contentRange
  else .error (.unexpectedSuccessCode response.status)

def checksumsFromResponse (fullContentRequested : Bool) (response : Response) : ObjectChecksums :=
  if !fullContentRequested || response.status = 206 then {}
  else if response.storedContentEncoding = "gzip" ∧ response.contentEncoding ≠ "gzip" then {}
  else response.hashes

/-! ## The response that resumes -/

inductive ResumeResult
  | continue (error : ReadFailure)
  | permanent (error : ReadFailure)
  | exhausted (error : ReadFailure)

/-- By the number of interruptions and the error. -/
abbrev ReadResumePolicy := ℕ → ReadFailure → ResumeResult

structure ResumableResponse where
  request : ReadObjectRequest
  checksum : Checksum ℕ
  readResumePolicy : ReadResumePolicy
  /-- What the service has still to send for the current request. -/
  response : Option Bytes
  responseChecksums : ObjectChecksums
  range : ReadRange
  resumeCount : ℕ

namespace ResumableResponse

def new (request : ReadObjectRequest) (checksum : Checksum ℕ) (readResumePolicy : ReadResumePolicy)
    (response : Response) : Except ReadFailure ResumableResponse :=
  let full := request.readOffset = 0 ∧ request.readLimit = 0
  let responseChecksums := checksumsFromResponse full response
  match responseRange response with
  | .error e => .error (.deser e)
  | .ok range =>
      .ok
        { request
          readResumePolicy
          checksum :=
            { crc32c := if responseChecksums.crc32c = none then none else checksum.crc32c
              md5Hash := if responseChecksums.md5Hash = [] then none else checksum.md5Hash }
          response := some response.body
          responseChecksums
          range
          resumeCount := 0 }

/-- What `chunk` returns: the next bytes of the body, its end, or a failure. -/
inductive Received
  | chunk (data : Bytes)
  | finished
  | failed (text : String)

/-- After `chunk` has returned. -/
def nextAttempt (digests : Digests) (reader : ResumableResponse) :
    Received → ResumableResponse × Option (Except ReadFailure Bytes)
  | .chunk data =>
      let reader :=
        { reader with checksum := reader.checksum.update digests reader.range.start data }
      if reader.range.limit < data.length then
        (reader, some (.error (.deser (.longRead data.length reader.range.limit))))
      else
        ({ reader with
           range :=
            { start := reader.range.start + data.length
              limit := reader.range.limit - data.length } },
          some (.ok data))
  | .finished =>
      if reader.range.limit ≠ 0 then
        (reader, some (.error (.io (.shortRead reader.range.limit))))
      else
        match validate reader.responseChecksums (some (reader.checksum.finalize digests)) with
        | .error e => (reader, some (.error (.deser (.checksumMismatch e))))
        | .ok () => (reader, none)
  | .failed text => (reader, some (.error (.transport text)))

/-- `u64 as i64`. -/
def asI64 (value : ℕ) : ℤ := (value : ℤ).bmod (2 ^ 64)

/-- Up to the request that resumes the read. -/
def resume (reader : ResumableResponse) (error : ReadFailure) :
    ResumableResponse × Except ReadFailure Unit :=
  let reader := { reader with response := none, resumeCount := reader.resumeCount + 1 }
  match reader.readResumePolicy reader.resumeCount error with
  | .continue _ =>
      ({ reader with
         request :=
          { readOffset := asI64 reader.range.start, readLimit := asI64 reader.range.limit } },
        .ok ())
  | .permanent e => (reader, .error e)
  | .exhausted e => (reader, .error e)

end ResumableResponse

/-! ## Calls of `next` -/

inductive CallPhase
  | idle
  /-- The call awaits `chunk`. -/
  | reading
  /-- The call awaits the response to a request that resumes the read. -/
  | opening
deriving DecidableEq, Repr

/-- The bytes that some calls of `next` have delivered. -/
def deliveredBy (returned : List (Option (Except ReadFailure Bytes))) : Bytes :=
  returned.flatMap fun value =>
    match value with
    | some (.ok data) => data
    | _ => []

/-- The reader with what its calls have returned, and the requests that resumed the read, each with
the bytes delivered before it. -/
structure ReadSession where
  reader : ResumableResponse
  phase : CallPhase := .idle
  returned : List (Option (Except ReadFailure Bytes)) := []
  resumed : List (ReadObjectRequest × Bytes) := []

namespace ReadSession

def delivered (session : ReadSession) : Bytes := deliveredBy session.returned

def returns (session : ReadSession) (value : Option (Except ReadFailure Bytes)) : ReadSession :=
  { session with phase := .idle, returned := session.returned ++ [value] }

def call (session : ReadSession) : ReadSession :=
  match session.phase, session.reader.response with
  | .idle, none => session.returns none
  | .idle, some _ => { session with phase := .reading }
  | _, _ => session

def receive (digests : Digests) (session : ReadSession) (received : ResumableResponse.Received) :
    ReadSession :=
  match session.reader.nextAttempt digests received with
  | (reader, none) => { session with reader }.returns none
  | (reader, some (.ok data)) => { session with reader }.returns (some (.ok data))
  | (reader, some (.error error)) =>
      match reader.resume error with
      | (reader, .error error) => { session with reader }.returns (some (.error error))
      | (reader, .ok ()) =>
          { session with
            reader
            phase := .opening
            resumed := session.resumed ++ [(reader.request, session.delivered)] }

def opened (session : ReadSession) (body : Bytes) : ReadSession :=
  { session with reader := { session.reader with response := some body }, phase := .reading }

def refused (session : ReadSession) (text : String) : ReadSession :=
  session.returns (some (.error (.request text)))

end ReadSession

end GoogleCloudRust.Storage
