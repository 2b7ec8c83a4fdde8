import GoogleCloudRust.Library.Text
import GoogleCloudRust.Model.Checksum

/-! # Resumable uploads

Model of `perform_upload.rs` with its modules `buffered` and `unbuffered`, and of
`ChecksummedSource`. Of a `SizeHint` only the exact size is used. The errors of the HTTP client and
of the source are known by their text only; an error status by its code. -/

namespace GoogleCloudRust.PerformUpload

open Storage Text

/-- Uploads read only the checksums of an object. -/
structure Object where
  checksums : Option ObjectChecksums := none
deriving DecidableEq, Repr

inductive WriteError
  | unexpectedRewind (offset persisted : ℕ)
  | tooMuchProgress (sent persisted : ℕ)
  | checksumMismatch (mismatch : ChecksumMismatch) (object : Object)
deriving DecidableEq, Repr

inductive Error
  | ser (error : WriteError)
  | source (text : String)
  | deser (text : String)
  | http (status : ℕ)
  | io (text : String)
  /-- As the HTTP client returns it. -/
  | send (text : String)
deriving DecidableEq, Repr

/-! ## The source -/

/-- What a source has still to yield. -/
abbrev Stream := List (Except String Bytes)

structure ChecksummedSource where
  offset : ℕ := 0
  checksum : Checksum ℕ
  source : Stream

namespace ChecksummedSource

def finalChecksum (digests : Digests) (payload : ChecksummedSource) : ObjectChecksums :=
  payload.checksum.finalize digests

def resetChecksum (payload : ChecksummedSource) : ChecksummedSource :=
  { payload with checksum := {} }

/-- The source has yielded some bytes. -/
def yielded (digests : Digests) (payload : ChecksummedSource) (b : Bytes) (source : Stream) :
    ChecksummedSource where
  offset := payload.offset + b.length
  checksum := payload.checksum.update digests payload.offset b
  source := source

def next (digests : Digests) (payload : ChecksummedSource) :
    ChecksummedSource × Option (Except String Bytes) :=
  match payload.source with
  | [] => (payload, none)
  | .ok b :: source => (payload.yielded digests b source, some (.ok b))
  | .error e :: source => ({ payload with source }, some (.error e))

/-- `result` is how the source answers: what it then yields. -/
def seek (payload : ChecksummedSource) (offset : ℕ) (result : Except String Stream) :
    ChecksummedSource × Except String Unit :=
  match result with
  | .ok source => ({ payload with offset, source }, .ok ())
  -- The position is unknown, so all further data is ignored for the checksums.
  | .error e => ({ payload with offset := 2 ^ 64 - 1 }, .error e)

end ChecksummedSource

/-! ## Responses -/

/-- A response of the service, by its status. -/
inductive Response
  /-- 308, with the header `Range`. -/
  | resumeIncomplete (range : Option (List Char))
  | object (object : Object)
  /-- A success with a body that is not an object. -/
  | malformed (text : String)
  | rejected (status : ℕ)
deriving DecidableEq, Repr

inductive ResumableUploadStatus
  | finalized (object : Object)
  | incomplete (persistedSize : ℕ)
deriving DecidableEq, Repr

def parseRangeEnd (range : Option (List Char)) : Option ℕ :=
  match range with
  -- A missing header indicates that no bytes are persisted.
  | none => some 0
  | some text =>
      match strip "bytes=0-".toList text with
      | none => none
      | some last => (parseU64 last).toOption

def parseRange (range : Option (List Char)) : Except Error ResumableUploadStatus :=
  match parseRangeEnd range with
  | none => .error (.http 308)
  | some 0 => .ok (.incomplete 0)
  -- The range is inclusive.
  | some last => .ok (.incomplete ((last + 1) % 2 ^ 64))

def handleObjectResponse : Response → Except Error Object
  | .object object => .ok object
  | .malformed text => .error (.deser text)
  | .rejected status => .error (.http status)
  | .resumeIncomplete _ => .error (.http 308)

def queryResumableUploadHandleResponse : Response → Except Error ResumableUploadStatus
  | .resumeIncomplete range => parseRange range
  | response => (handleObjectResponse response).map .finalized

/-- One of the two comparisons of `validate_response_object`. -/
def checkObject (expected : ObjectChecksums) (object : Object) : Except Error Unit :=
  (validate expected object.checksums).mapError fun mismatch =>
    .ser (.checksumMismatch mismatch object)

def validateResponseObject (digests : Digests) (resource : Option ObjectChecksums)
    (payload : ChecksummedSource) (object : Object) : Except Error Object := do
  match resource with
  | some pre => checkObject pre object
  | none => pure ()
  checkObject (payload.finalChecksum digests) object
  return object

/-! ## The progress of a buffered upload -/

def resumableUploadQuantum : ℕ := 256 * 1024

structure InProgressUpload where
  targetSize : ℕ
  /-- The exact size of the source, where it is known. -/
  hint : Option ℕ
  offset : ℕ := 0
  buffer : List Bytes := []
  bufferSize : ℕ := 0
  persistedSize : Option ℕ := some 0
  remainder : List Bytes := []
  sourceEnded : Bool := false
deriving DecidableEq, Repr

/-- `process_buffer`: what of a chunk is pushed, the size, and when the target size is reached what
did not fit. -/
def processBuffer (targetSize size : ℕ) (b : Bytes) : Bytes × ℕ × Option (Option Bytes) :=
  if targetSize < size + b.length then
    (b.take (targetSize - size), targetSize, some (some (b.drop (targetSize - size))))
  else if size + b.length = targetSize then (b, targetSize, some none)
  else (b, size + b.length, none)

/-- The loop over the remainder, and what is left of it if the target size was reached. -/
def fillFromRemainder (targetSize : ℕ) (buffer : List Bytes) (size : ℕ) :
    List Bytes → List Bytes × ℕ × Option (List Bytes)
  | [] => (buffer, size, none)
  | b :: remainder =>
      match processBuffer targetSize size b with
      | (b, size, some rest) => (buffer ++ [b], size, some (rest.toList ++ remainder))
      | (b, size, none) => fillFromRemainder targetSize (buffer ++ [b]) size remainder

/-- The loop over the source, which yields `stream`. -/
def fillFromSource (digests : Digests) (targetSize : ℕ) (payload : ChecksummedSource)
    (buffer : List Bytes) (size : ℕ) :
    Stream → ChecksummedSource × Except String (List Bytes × ℕ × Option (List Bytes))
  | [] => ({ payload with source := [] }, .ok (buffer, size, none))
  | .error e :: source => ({ payload with source }, .error e)
  | .ok b :: source =>
      let payload := payload.yielded digests b source
      match processBuffer targetSize size b with
      | (b, size, some rest) => (payload, .ok (buffer ++ [b], size, some rest.toList))
      | (b, size, none) => fillFromSource digests targetSize payload (buffer ++ [b]) size source

namespace InProgressUpload

def new (targetSize : ℕ) (hint : Option ℕ) : InProgressUpload where
  targetSize :=
    max ((targetSize + resumableUploadQuantum - 1) / resumableUploadQuantum *
      resumableUploadQuantum % 2 ^ 64) resumableUploadQuantum
  hint := hint

def needsQuery (progress : InProgressUpload) : Bool :=
  progress.persistedSize ≠ some progress.offset

def isLastChunk (progress : InProgressUpload) : Bool :=
  progress.sourceEnded || progress.hint = some (progress.offset + progress.bufferSize)

def nextBuffer (digests : Digests) (progress : InProgressUpload) (payload : ChecksummedSource) :
    InProgressUpload × ChecksummedSource × Except String Unit :=
  match fillFromRemainder progress.targetSize [] 0 progress.remainder with
  | (buffer, bufferSize, some remainder) =>
      ({ progress with buffer, bufferSize, remainder }, payload, .ok ())
  | (buffer, size, none) =>
      match fillFromSource digests progress.targetSize payload buffer size payload.source with
      | (payload, .error e) => ({ progress with remainder := [] }, payload, .error e)
      | (payload, .ok (buffer, bufferSize, some remainder)) =>
          ({ progress with buffer, bufferSize, remainder }, payload, .ok ())
      | (payload, .ok (buffer, bufferSize, none)) =>
          ({ progress with buffer, bufferSize, remainder := [], sourceEnded := true }, payload,
            .ok ())

def rangeText : Option (ℕ × ℕ) → List Char
  | none => ['*']
  | some (first, last) => decimal first ++ '-' :: decimal last

def sizeText : Option ℕ → List Char
  | none => ['*']
  | some size => decimal size

/-- The text of the header `Content-Range`. -/
def contentRange (bytes : Option (ℕ × ℕ)) (total : Option ℕ) : List Char :=
  "bytes ".toList ++ rangeText bytes ++ '/' :: sizeText total

def rangeHeader (progress : InProgressUpload) : List Char :=
  match progress.bufferSize, progress.offset, progress.hint with
  | 0, 0, some len => contentRange none (some len)
  | n, o, some len => contentRange (some (o, o + n - 1)) (some len)
  | 0, o, none => contentRange none (some o)
  | n, o, none =>
      if n < progress.targetSize ∨ progress.sourceEnded then
        contentRange (some (o, o + n - 1)) (some (o + n))
      else contentRange (some (o, o + n - 1)) none

def putBody (progress : InProgressUpload) : Bytes := progress.buffer.flatten

/-- The chunks that are kept of a buffer, of which `skip` bytes were persisted. -/
def unpersisted (skip : ℕ) : List Bytes → List Bytes
  | [] => []
  | b :: buffer =>
      if skip = 0 then b :: unpersisted 0 buffer
      else if b.length ≤ skip then unpersisted (skip - b.length) buffer
      else b.drop (b.length - skip) :: unpersisted 0 buffer

def handlePartial (progress : InProgressUpload) (persistedSize : ℕ) :
    Except WriteError InProgressUpload :=
  if persistedSize < progress.offset then
    .error (.unexpectedRewind progress.offset persistedSize)
  else if persistedSize ≤ progress.offset + progress.bufferSize then
    .ok
      { progress with
        persistedSize := some persistedSize
        offset := persistedSize
        remainder :=
          unpersisted (persistedSize - progress.offset) progress.buffer ++ progress.remainder
        buffer := []
        bufferSize := 0 }
  else .error (.tooMuchProgress (progress.offset + progress.bufferSize) persistedSize)

def handleError (progress : InProgressUpload) : InProgressUpload :=
  { progress with persistedSize := none }

end InProgressUpload

/-! ## Attempts of a buffered upload -/

/-- What an attempt awaits. -/
inductive Phase
  | idle
  | starting
  | querying (isResume : Bool)
  | putting (shouldSendChecksum : Bool) (range : List Char) (hash : Option UInt32) (body : Bytes)
deriving DecidableEq, Repr

/-- An upload, with the variables that its attempts share and what they have returned. -/
structure BufferedUpload where
  payload : ChecksummedSource
  /-- The checksums of the resource of the request. -/
  resource : Option ObjectChecksums
  progress : InProgressUpload
  url : Option String := none
  phase : Phase := .idle
  returned : List (Except Error Object) := []

inductive Event
  /-- The retry loop makes an attempt. -/
  | attempt
  /-- The response to the request that starts an upload, as it was handled. -/
  | started (location : Except Error String)
  | responded (response : Except String Response)

/-- No attempt has succeeded. -/
def retries (returned : List (Except Error Object)) : Bool :=
  returned.all fun result => !result.isOk

namespace BufferedUpload

def returns (upload : BufferedUpload) (result : Except Error Object) : BufferedUpload :=
  { upload with phase := .idle, returned := upload.returned ++ [result] }

/-- An iteration of the loop, up to its request. -/
def put (digests : Digests) (upload : BufferedUpload) (shouldSendChecksum : Bool) :
    BufferedUpload :=
  match upload.progress.nextBuffer digests upload.payload with
  | (progress, payload, .error e) => { upload with progress, payload }.returns (.error (.source e))
  | (progress, payload, .ok ()) =>
      let hash :=
        if shouldSendChecksum && progress.isLastChunk then (payload.finalChecksum digests).crc32c
        else none
      { upload with
        progress
        payload
        phase := .putting shouldSendChecksum progress.rangeHeader hash progress.putBody }

/-- After the upload has its URL. -/
def located (digests : Digests) (upload : BufferedUpload) (isResume : Bool) : BufferedUpload :=
  if upload.progress.needsQuery then { upload with phase := .querying isResume }
  else upload.put digests (!isResume)

def attempt (digests : Digests) (upload : BufferedUpload) : BufferedUpload :=
  match upload.url with
  | some _ => upload.located digests true
  | none => { upload with phase := .starting }

def started (digests : Digests) (upload : BufferedUpload) (location : Except Error String) :
    BufferedUpload :=
  match location with
  | .error e => upload.returns (.error e)
  | .ok url => { upload with url := some url }.located digests false

def queried (digests : Digests) (upload : BufferedUpload) (isResume : Bool)
    (response : Except String Response) : BufferedUpload :=
  match response with
  | .error e => upload.returns (.error (.io e))
  | .ok response =>
      match queryResumableUploadHandleResponse response with
      | .error e => upload.returns (.error e)
      | .ok (.finalized object) => upload.returns (.ok object)
      | .ok (.incomplete persistedSize) =>
          match upload.progress.handlePartial persistedSize with
          | .error e => upload.returns (.error (.ser e))
          | .ok progress =>
              { upload with progress }.put digests (!isResume && !decide (0 < persistedSize))

def answered (digests : Digests) (upload : BufferedUpload) (shouldSendChecksum : Bool)
    (response : Except String Response) : BufferedUpload :=
  match response with
  -- The progress is not told about the failure.
  | .error e => upload.returns (.error (.send e))
  | .ok response =>
      match queryResumableUploadHandleResponse response with
      | .error e => { upload with progress := upload.progress.handleError }.returns (.error e)
      | .ok (.finalized object) =>
          upload.returns (validateResponseObject digests upload.resource upload.payload object)
      | .ok (.incomplete persistedSize) =>
          match upload.progress.handlePartial persistedSize with
          | .error e => upload.returns (.error (.ser e))
          | .ok progress => { upload with progress }.put digests shouldSendChecksum

def handle (digests : Digests) (upload : BufferedUpload) (event : Event) : BufferedUpload :=
  match upload.phase, event with
  | .idle, .attempt => if retries upload.returned then upload.attempt digests else upload
  | .starting, .started location => upload.started digests location
  | .querying isResume, .responded response => upload.queried digests isResume response
  | .putting shouldSendChecksum _ _ _, .responded response =>
      upload.answered digests shouldSendChecksum response
  | _, _ => upload

def run (digests : Digests) (upload : BufferedUpload) (events : List Event) : BufferedUpload :=
  events.foldl (handle digests) upload

end BufferedUpload

/-- `send_buffered_resumable`, before its first attempt. -/
def sendBufferedResumable (checksum : Checksum ℕ) (resource : Option ObjectChecksums)
    (bufferSize : ℕ) (hint : Option ℕ) (source : Stream) : BufferedUpload where
  payload := { checksum, source }
  resource := resource
  progress := .new bufferSize hint

/-! ## Attempts of an unbuffered upload -/

/-- Some bytes, in chunks of the given sizes and one with the rest. -/
def chunked : List ℕ → Bytes → Stream
  | [], data => if data = [] then [] else [.ok data]
  | size :: sizes, data => .ok (data.take size) :: chunked sizes (data.drop size)

inductive UnbufferedPhase
  | idle
  | starting
  | querying
  | seeking (offset : ℕ)
  /-- The HTTP client reads the body of the request while it awaits the response. -/
  | putting (range : List Char)
deriving DecidableEq, Repr

structure UnbufferedUpload where
  payload : ChecksummedSource
  /-- What the source holds. -/
  content : Bytes
  hint : Option ℕ
  resource : Option ObjectChecksums
  url : Option String := none
  phase : UnbufferedPhase := .idle
  returned : List (Except Error Object) := []

inductive UnbufferedEvent
  | attempt
  | started (location : Except Error String)
  /-- The source was positioned, and will yield chunks of these sizes. -/
  | sought (sizes : Except String (List ℕ))
  /-- The HTTP client asks for more of the body. -/
  | pulled
  | responded (response : Except String Response)

namespace UnbufferedUpload

def returns (upload : UnbufferedUpload) (result : Except Error Object) : UnbufferedUpload :=
  { upload with phase := .idle, returned := upload.returned ++ [result] }

def seek (upload : UnbufferedUpload) (offset : ℕ) (sizes : Except String (List ℕ)) :
    UnbufferedUpload × Except String Unit :=
  let result := sizes.map fun sizes => chunked sizes (upload.content.drop offset)
  ({ upload with payload := (upload.payload.seek offset result).1 },
    (upload.payload.seek offset result).2)

/-- Reads the source to its end. -/
def drain (digests : Digests) (payload : ChecksummedSource) :
    Stream → Except String ChecksummedSource
  | [] => .ok payload
  | .ok b :: source => drain digests (payload.yielded digests b source) source
  | .error e :: _ => .error e

/-- The first part of `send_unbuffered_resumable`; `first` and `second` are the answers to its
seeks. -/
def precompute (digests : Digests) (upload : UnbufferedUpload) (checksumPrecomputation : Bool)
    (first second : Except String (List ℕ)) : Except Error UnbufferedUpload :=
  let hasUpfrontCrc32c := (upload.resource.bind (·.crc32c)).isSome
  if checksumPrecomputation && !hasUpfrontCrc32c then
    match upload.seek 0 first with
    | (_, .error e) => .error (.source e)
    | (upload, .ok ()) =>
        match drain digests upload.payload upload.payload.source with
        | .error e => .error (.source e)
        | .ok payload =>
            let computed := payload.finalChecksum digests
            match { upload with payload := payload.resetChecksum }.seek 0 second with
            | (_, .error e) => .error (.source e)
            | (upload, .ok ()) =>
                .ok { upload with resource := some ((upload.resource.getD {}).update computed) }
  else .ok upload

def rangeHeader (offset : ℕ) (hint : Option ℕ) : List Char :=
  match hint with
  | none => "bytes ".toList ++ decimal offset ++ "-*/*".toList
  | some 0 => "bytes */0".toList
  | some size => InProgressUpload.contentRange (some (offset, size - 1)) (some size)

def attempt (upload : UnbufferedUpload) : UnbufferedUpload :=
  match upload.url with
  | some _ => { upload with phase := .querying }
  | none => { upload with phase := .starting }

def started (upload : UnbufferedUpload) (location : Except Error String) : UnbufferedUpload :=
  match location with
  | .error e => upload.returns (.error e)
  | .ok url => { upload with url := some url, phase := .seeking 0 }

def queried (upload : UnbufferedUpload) (response : Except String Response) : UnbufferedUpload :=
  match response with
  | .error e => upload.returns (.error (.io e))
  | .ok response =>
      match queryResumableUploadHandleResponse response with
      | .error e => upload.returns (.error e)
      | .ok (.finalized object) => upload.returns (.ok object)
      | .ok (.incomplete offset) => { upload with phase := .seeking offset }

def sought (upload : UnbufferedUpload) (offset : ℕ) (sizes : Except String (List ℕ)) :
    UnbufferedUpload :=
  match upload.seek offset sizes with
  | (upload, .error e) => upload.returns (.error (.source e))
  | (upload, .ok ()) => { upload with phase := .putting (rangeHeader offset upload.hint) }

def answered (digests : Digests) (upload : UnbufferedUpload) (response : Except String Response) :
    UnbufferedUpload :=
  match response with
  | .error e => upload.returns (.error (.send e))
  | .ok response =>
      match handleObjectResponse response with
      | .error e => upload.returns (.error e)
      | .ok object =>
          upload.returns (validateResponseObject digests upload.resource upload.payload object)

def handle (digests : Digests) (upload : UnbufferedUpload) (event : UnbufferedEvent) :
    UnbufferedUpload :=
  match upload.phase, event with
  | .idle, .attempt => if retries upload.returned then upload.attempt else upload
  | .starting, .started location => upload.started location
  | .querying, .responded response => upload.queried response
  | .seeking offset, .sought sizes => upload.sought offset sizes
  | .putting _, .pulled => { upload with payload := (upload.payload.next digests).1 }
  | .putting _, .responded response => upload.answered digests response
  | _, _ => upload

def run (digests : Digests) (upload : UnbufferedUpload) (events : List UnbufferedEvent) :
    UnbufferedUpload :=
  events.foldl (handle digests) upload

end UnbufferedUpload

/-- `send_unbuffered_resumable`, before its first attempt. -/
def sendUnbufferedResumable (digests : Digests) (checksum : Checksum ℕ)
    (resource : Option ObjectChecksums) (hint : Option ℕ) (content : Bytes)
    (checksumPrecomputation : Bool) (sizes : List ℕ) (first second : Except String (List ℕ)) :
    Except Error UnbufferedUpload :=
  UnbufferedUpload.precompute digests
    { payload := { checksum, source := chunked sizes content }, content, hint, resource }
    checksumPrecomputation first second

end GoogleCloudRust.PerformUpload
