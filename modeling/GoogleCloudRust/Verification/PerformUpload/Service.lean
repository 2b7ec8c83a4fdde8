import GoogleCloudRust.Model.PerformUpload

/-! # Uploads to a service

How a buffer is filled and what is kept of it, what reading does to the source, and which results an
attempt can return. The service holds a byte string. Of the body of an upload request that begins
where the string ends it may persist any prefix, and it may finalize the upload when the declared
size is its length; then it reports its length, returns the object, answers with an error or does
not answer at all. -/

namespace GoogleCloudRust.PerformUpload

open Storage Text

variable {digests : Digests}

/-- The bytes that a stream yields. -/
def Stream.bytes (stream : Stream) : Bytes := stream.flatMap fun item => item.toOption.getD []

/-- A stream without errors. -/
def Stream.Intact (stream : Stream) : Prop := ∀ item ∈ stream, ∃ b, item = .ok b

theorem Stream.bytes_ok (chunks : List Bytes) :
    Stream.bytes (chunks.map .ok) = chunks.flatten := by
  induction chunks with
  | nil => rfl
  | cons b chunks ih => rw [List.map_cons, List.flatten_cons, ← ih]; rfl

theorem Stream.intact_ok (chunks : List Bytes) : Stream.Intact (chunks.map .ok) := by
  intro item hmem
  obtain ⟨b, -, rfl⟩ := List.mem_map.mp hmem
  exact ⟨b, rfl⟩

/-! ## Filling a buffer -/

theorem processBuffer_cases {targetSize size : ℕ} (hsize : size < targetSize) (b : Bytes) :
    (∃ front rest, processBuffer targetSize size b = (front, targetSize, some rest) ∧
      front ++ rest.toList.flatten = b ∧ size + front.length = targetSize) ∨
    (processBuffer targetSize size b = (b, size + b.length, none) ∧
      size + b.length < targetSize) := by
  unfold processBuffer
  split
  case isTrue hover =>
    left
    refine ⟨b.take (targetSize - size), some (b.drop (targetSize - size)), rfl, ?_, ?_⟩
    · simp
    · rw [List.length_take]
      omega
  case isFalse hfits =>
    split
    case isTrue hexact => exact .inl ⟨b, none, rfl, by simp, hexact⟩
    case isFalse hshort => exact .inr ⟨rfl, by omega⟩

/-- The buffer, its size and the remainder, after a loop that had `data` to fill the buffer from. -/
structure Fills (targetSize : ℕ) (data unread : Bytes)
    (result : List Bytes × ℕ × Option (List Bytes)) : Prop where
  bytes : result.1.flatten ++ ((result.2.2.getD []).flatten ++ unread) = data
  size : result.2.1 = result.1.flatten.length
  full : result.2.2 ≠ none → result.2.1 = targetSize
  short : result.2.2 = none → result.2.1 < targetSize ∧ unread = []

theorem fills_full {targetSize size : ℕ} {buffer : List Bytes} {front b : Bytes}
    {rest : Option Bytes} (hsize : size = buffer.flatten.length)
    (hb : front ++ rest.toList.flatten = b) (hfull : size + front.length = targetSize)
    (remainder : List Bytes) (unread : Bytes) :
    Fills targetSize (buffer.flatten ++ (b ++ (remainder.flatten ++ unread))) unread
      (buffer ++ [front], targetSize, some (rest.toList ++ remainder)) where
  bytes := by simp [← hb]
  size := by simp [← hfull, hsize]
  full := fun _ => rfl
  short := fun h => (nomatch h)

theorem fillFromRemainder_fills {targetSize size : ℕ} {buffer : List Bytes}
    (hsize : size = buffer.flatten.length) (hlt : size < targetSize) (remainder : List Bytes) :
    Fills targetSize (buffer.flatten ++ remainder.flatten) []
      (fillFromRemainder targetSize buffer size remainder) := by
  induction remainder generalizing buffer size with
  | nil => exact ⟨by simp [fillFromRemainder], hsize, fun h => absurd rfl h, fun _ => ⟨hlt, rfl⟩⟩
  | cons b remainder ih =>
    rw [fillFromRemainder]
    rcases processBuffer_cases hlt b with ⟨front, rest, hprocess, hb, hfull⟩ | ⟨hprocess, hshort⟩
    · rw [hprocess]
      simpa using fills_full hsize hb hfull remainder []
    · rw [hprocess]
      have hnext : (size + b.length) = (buffer ++ [b]).flatten.length := by simp [hsize]
      simpa using ih hnext hshort

theorem fillFromSource_fills {targetSize : ℕ} (digests : Digests) (payload : ChecksummedSource)
    {size : ℕ} {buffer : List Bytes} (hsize : size = buffer.flatten.length) (hlt : size < targetSize)
    {stream : Stream} (hintact : stream.Intact) :
    let result := fillFromSource digests targetSize payload buffer size stream
    result.1.source.Intact ∧ ∃ filled, result.2 = .ok filled ∧
      Fills targetSize (buffer.flatten ++ stream.bytes) result.1.source.bytes filled := by
  induction stream generalizing payload buffer size with
  | nil =>
    refine ⟨hintact, _, rfl, ?_, hsize, fun h => absurd rfl h, fun _ => ⟨hlt, rfl⟩⟩
    simp [fillFromSource, Stream.bytes]
  | cons item stream ih =>
    obtain ⟨b, rfl⟩ := hintact item List.mem_cons_self
    have htail : Stream.Intact stream := fun item hmem => hintact item (List.mem_cons_of_mem _ hmem)
    have hbytes : Stream.bytes (.ok b :: stream) = b ++ Stream.bytes stream := rfl
    simp only [fillFromSource]
    rcases processBuffer_cases hlt b with ⟨front, rest, hprocess, hb, hfull⟩ | ⟨hprocess, hshort⟩
    · rw [hprocess]
      refine ⟨htail, _, rfl, ?_⟩
      have hfills := fills_full hsize hb hfull [] (Stream.bytes stream)
      simpa [hbytes, ChecksummedSource.yielded] using hfills
    · rw [hprocess]
      have hnext : (size + b.length) = (buffer ++ [b]).flatten.length := by simp [hsize]
      simpa [hbytes] using ih (payload.yielded digests b stream) hnext hshort htail

/-- The progress and the source after a buffer was filled. -/
structure Filled (progress : InProgressUpload) (payload : ChecksummedSource)
    (progress' : InProgressUpload) (payload' : ChecksummedSource) : Prop where
  bytes : progress'.buffer.flatten ++ (progress'.remainder.flatten ++ payload'.source.bytes) =
    progress.remainder.flatten ++ payload.source.bytes
  size : progress'.bufferSize = progress'.buffer.flatten.length
  intact : payload'.source.Intact
  shape :
    progress'.bufferSize = progress.targetSize ∧ progress'.sourceEnded = progress.sourceEnded ∨
      progress'.bufferSize < progress.targetSize ∧ progress'.remainder = [] ∧
        payload'.source.bytes = [] ∧ progress'.sourceEnded = true
  offset : progress'.offset = progress.offset
  persistedSize : progress'.persistedSize = progress.persistedSize
  targetSize : progress'.targetSize = progress.targetSize
  hint : progress'.hint = progress.hint

theorem nextBuffer_filled (digests : Digests) {progress : InProgressUpload}
    {payload : ChecksummedSource} (htarget : 0 < progress.targetSize)
    (hintact : payload.source.Intact) :
    ∃ progress' payload', progress.nextBuffer digests payload = (progress', payload', .ok ()) ∧
      Filled progress payload progress' payload' := by
  have hfirst : Fills progress.targetSize (([] : List Bytes).flatten ++ progress.remainder.flatten)
      [] (fillFromRemainder progress.targetSize [] 0 progress.remainder) :=
    fillFromRemainder_fills rfl htarget progress.remainder
  simp only [InProgressUpload.nextBuffer]
  rcases hremainder : fillFromRemainder progress.targetSize [] 0 progress.remainder with
    ⟨buffer, size, _ | remainder⟩
  · rw [hremainder] at hfirst
    have hbuffer : buffer.flatten = progress.remainder.flatten := by simpa using hfirst.bytes
    obtain ⟨hintact', filled, hok, hfills⟩ := fillFromSource_fills digests payload
      hfirst.size (hfirst.short rfl).1 hintact
    rcases hsource : fillFromSource digests progress.targetSize payload buffer size
      payload.source with ⟨payload', result⟩
    rw [hsource] at hintact' hok hfills
    rw [hbuffer] at hfills
    obtain rfl : result = .ok filled := hok
    simp only [hsource]
    obtain ⟨buffer, bufferSize, _ | remainder⟩ := filled
    · refine ⟨_, _, rfl, ?_, hfills.size, hintact', .inr ?_, rfl, rfl, rfl, rfl⟩
      · simpa using hfills.bytes
      · exact ⟨(hfills.short rfl).1, rfl, (hfills.short rfl).2, rfl⟩
    · refine ⟨_, _, rfl, ?_, hfills.size, hintact', .inl ?_, rfl, rfl, rfl, rfl⟩
      · simpa using hfills.bytes
      · exact ⟨hfills.full (by simp), rfl⟩
  · rw [hremainder] at hfirst
    have hbytes : buffer.flatten ++ remainder.flatten = progress.remainder.flatten := by
      simpa using hfirst.bytes
    refine ⟨_, _, rfl, ?_, hfirst.size, hintact, .inl ?_, rfl, rfl, rfl, rfl⟩
    · rw [← List.append_assoc, hbytes]
    · exact ⟨hfirst.full (by simp), rfl⟩

/-! ## Reading the source -/

variable {motive : ChecksummedSource → Prop}

/-- What every read of the source preserves, the loop over the source preserves. -/
theorem fillFromSource_rule (hnext : ∀ payload, motive payload → motive (payload.next digests).1)
    {payload : ChecksummedSource} (h : motive payload) (targetSize : ℕ) (buffer : List Bytes)
    (size : ℕ) {stream : Stream} (hstream : payload.source = stream) :
    motive (fillFromSource digests targetSize payload buffer size stream).1 := by
  induction stream generalizing payload buffer size with
  | nil =>
    have hsame : { payload with source := [] } = payload := by rw [← hstream]
    rw [fillFromSource, hsame]
    exact h
  | cons item stream ih =>
    have hread := hnext payload h
    rw [ChecksummedSource.next, hstream] at hread
    cases item with
    | error e => exact hread
    | ok b =>
      simp only [fillFromSource]
      split
      · exact hread
      · exact ih hread _ _ rfl

theorem nextBuffer_rule (hnext : ∀ payload, motive payload → motive (payload.next digests).1)
    {payload : ChecksummedSource} (h : motive payload) (progress : InProgressUpload) :
    motive (progress.nextBuffer digests payload).2.1 := by
  have hsource := fun buffer size =>
    fillFromSource_rule hnext h progress.targetSize buffer size rfl
  simp only [InProgressUpload.nextBuffer]
  split
  · exact h
  case h_2 buffer size _ =>
    have hfilled := hsource buffer size
    split
    all_goals
      rename_i heq
      rw [heq] at hfilled
      exact hfilled

/-! ## The results of an attempt -/

theorem queryResumableUploadHandleResponse_eq_finalized {response : Response} {object : Object}
    (h : queryResumableUploadHandleResponse response = .ok (.finalized object)) :
    response = .object object := by
  cases response with
  | resumeIncomplete range =>
    simp only [queryResumableUploadHandleResponse, parseRange] at h
    split at h <;> cases h
  | object found => cases h; rfl
  | malformed text => cases h
  | rejected status => cases h

namespace BufferedUpload

/-- The source is read for at most one buffer, and only errors are added to the results. -/
structure Moves (digests : Digests) (upload upload' : BufferedUpload) : Prop where
  resource : upload'.resource = upload.resource
  payload : upload'.payload = upload.payload ∨
    ∃ progress : InProgressUpload,
      upload'.payload = (progress.nextBuffer digests upload.payload).2.1
  returned : ∀ result ∈ upload'.returned, result ∈ upload.returned ∨ ∃ e, result = .error e

theorem moves_self (upload : BufferedUpload) (url : Option String) (phase : Phase) :
    Moves digests upload { upload with url, phase } :=
  ⟨rfl, .inl rfl, fun _ hmem => .inl hmem⟩

theorem moves_returns (upload : BufferedUpload) (progress : InProgressUpload) (e : Error) :
    Moves digests upload ({ upload with progress }.returns (.error e)) := by
  refine ⟨rfl, .inl rfl, fun result hmem => ?_⟩
  rcases List.mem_append.mp hmem with hmem | hmem
  · exact .inl hmem
  · exact .inr ⟨e, List.mem_singleton.mp hmem⟩

theorem moves_put (upload : BufferedUpload) (progress : InProgressUpload) (url : Option String)
    (shouldSendChecksum : Bool) :
    Moves digests upload ({ upload with progress, url }.put digests shouldSendChecksum) := by
  simp only [put]
  split
  case h_1 progress' payload e hnext =>
    have hmoves : Moves digests { upload with payload, url }
        ({ upload with payload, url, progress := progress' }.returns (.error (.source e))) :=
      moves_returns _ progress' (.source e)
    exact ⟨rfl, .inr ⟨progress, by rw [hnext]; rfl⟩, hmoves.returned⟩
  case h_2 progress' payload hnext =>
    exact ⟨rfl, .inr ⟨progress, by rw [hnext]⟩, fun _ hmem => .inl hmem⟩

theorem moves_located (upload : BufferedUpload) (url : Option String) (isResume : Bool) :
    Moves digests upload ({ upload with url }.located digests isResume) := by
  unfold located
  split
  · exact moves_self upload url _
  · exact moves_put upload upload.progress url _

/-- The result that an event adds. -/
inductive NewResult (digests : Digests) (upload : BufferedUpload) (event : Event) :
    Except Error Object → Prop
  | failed (e : Error) : NewResult digests upload event (.error e)
  | queried {isResume : Bool} {object : Object} (hphase : upload.phase = .querying isResume)
      (hevent : event = .responded (.ok (.object object))) :
      NewResult digests upload event (.ok object)
  | answered {shouldSendChecksum : Bool} {range : List Char} {hash : Option UInt32} {body : Bytes}
      {object : Object} (hphase : upload.phase = .putting shouldSendChecksum range hash body)
      (hevent : event = .responded (.ok (.object object))) :
      NewResult digests upload event
        (validateResponseObject digests upload.resource upload.payload object)

/-- What a step changes. -/
structure Evolves (digests : Digests) (upload : BufferedUpload) (event : Event)
    (upload' : BufferedUpload) : Prop where
  resource : upload'.resource = upload.resource
  payload : upload'.payload = upload.payload ∨
    ∃ progress : InProgressUpload,
      upload'.payload = (progress.nextBuffer digests upload.payload).2.1
  returned : ∀ result ∈ upload'.returned,
    result ∈ upload.returned ∨ NewResult digests upload event result

theorem Moves.evolves {upload upload' : BufferedUpload} {event : Event}
    (h : Moves digests upload upload') : Evolves digests upload event upload' := by
  refine ⟨h.resource, h.payload, fun result hmem => ?_⟩
  rcases h.returned result hmem with hold | ⟨e, rfl⟩
  · exact .inl hold
  · exact .inr (.failed e)

theorem evolves_returns {upload : BufferedUpload} {event : Event} {result : Except Error Object}
    (h : NewResult digests upload event result) :
    Evolves digests upload event (upload.returns result) := by
  refine ⟨rfl, .inl rfl, fun found hmem => ?_⟩
  rcases List.mem_append.mp hmem with hmem | hmem
  · exact .inl hmem
  · rw [List.mem_singleton.mp hmem]
    exact .inr h

theorem evolves_handle (digests : Digests) (upload : BufferedUpload) (event : Event) :
    Evolves digests upload event (upload.handle digests event) := by
  have hstays : Evolves digests upload event upload :=
    (moves_self upload upload.url upload.phase).evolves
  have hfails : ∀ e, Evolves digests upload event (upload.returns (.error e)) := fun e =>
    (moves_returns upload upload.progress e).evolves
  unfold handle
  split
  case h_1 =>
    split
    · unfold attempt
      split
      · exact (moves_located upload upload.url true).evolves
      · exact (moves_self upload upload.url .starting).evolves
    · exact hstays
  case h_2 location _ =>
    cases location with
    | error e => exact hfails e
    | ok url => exact (moves_located upload (some url) false).evolves
  case h_3 isResume response hphase =>
    unfold queried
    split
    · exact hfails _
    · split
      case h_1 => exact hfails _
      case h_2 object hobject =>
        obtain rfl := queryResumableUploadHandleResponse_eq_finalized hobject
        exact evolves_returns (.queried hphase rfl)
      case h_3 =>
        split
        · exact hfails _
        case h_2 progress _ => exact (moves_put upload progress upload.url _).evolves
  case h_4 response hphase =>
    unfold answered
    split
    · exact hfails _
    · split
      case h_1 => exact (moves_returns upload upload.progress.handleError _).evolves
      case h_2 object hobject =>
        obtain rfl := queryResumableUploadHandleResponse_eq_finalized hobject
        exact evolves_returns (.answered hphase rfl)
      case h_3 =>
        split
        · exact hfails _
        case h_2 progress _ => exact (moves_put upload progress upload.url _).evolves
  case h_5 => exact hstays

end BufferedUpload

/-! ## The service -/

/-- The content of a source in chunks, and its exact size if the source reports it. -/
structure Source where
  chunks : List Bytes
  hint : Option ℕ
  hint_eq : ∀ size ∈ hint, size = chunks.flatten.length
  bound : chunks.flatten.length < 2 ^ 64

def Source.content (source : Source) : Bytes := source.chunks.flatten

/-- The first byte and the size that a `Content-Range` declares. -/
def readContentRange (text : List Char) : Option (Option ℕ × Option ℕ) :=
  (strip "bytes ".toList text).bind fun text =>
    (splitOnce '/' text).bind fun (range, size) =>
      let total := if size = ['*'] then none else (parseU64 size).toOption
      if range = ['*'] then some (none, total)
      else (splitOnce '-' range).bind fun (first, _) =>
        (parseU64 first).toOption.map fun first => (some first, total)

inductive Reply
  /-- 308, with the range that is persisted. -/
  | resumeIncomplete
  /-- The object, if the upload is finalized. -/
  | object (object : Object)
  | rejected (status : ℕ)
  /-- The request fails at the transport level. -/
  | failed (text : String)
deriving DecidableEq, Repr

def Reply.isFailed : Reply → Bool
  | .failed _ => true
  | _ => false

/-- What the service does with a request. -/
structure Outcome where
  persist : ℕ := 0
  finalize : Bool := false
  reply : Reply
deriving DecidableEq, Repr

structure Server where
  bytes : Bytes := []
  finalized : Bool := false
deriving DecidableEq, Repr

namespace Server

def range (server : Server) : Option (List Char) :=
  if server.bytes = [] then none else some ("bytes=0-".toList ++ decimal (server.bytes.length - 1))

def put (server : Server) (range : List Char) (body : Bytes) (outcome : Outcome) : Server :=
  match readContentRange range with
  | none => server
  | some (first, total) =>
      let bytes :=
        if server.finalized = false ∧ first = some server.bytes.length then
          server.bytes ++ body.take outcome.persist
        else server.bytes
      { bytes
        finalized := server.finalized || outcome.finalize && total = some bytes.length }

def respond (server : Server) : Reply → Except String Response
  | .resumeIncomplete => .ok (.resumeIncomplete server.range)
  | .object object =>
      if server.finalized then .ok (.object object) else .ok (.resumeIncomplete server.range)
  | .rejected status => .ok (.rejected status)
  | .failed text => .error text

end Server

/-- An upload and the service. -/
structure World where
  upload : BufferedUpload
  server : Server

inductive WorldEvent
  | attempt
  | started (location : Except Error String)
  /-- The service deals with the request that the attempt awaits. -/
  | served (outcome : Outcome)

namespace World

def handle (digests : Digests) (world : World) : WorldEvent → World
  | .attempt => { world with upload := world.upload.handle digests .attempt }
  | .started location => { world with upload := world.upload.handle digests (.started location) }
  | .served outcome =>
      match world.upload.phase with
      | .putting _ range _ body =>
          let server := world.server.put range body outcome
          { upload := world.upload.handle digests (.responded (server.respond outcome.reply))
            server }
      | .querying _ =>
          { world with
            upload := world.upload.handle digests
              (.responded (world.server.respond outcome.reply)) }
      | _ => world

def run (digests : Digests) (world : World) (events : List WorldEvent) : World :=
  events.foldl (handle digests) world

end World

def startUpload (checksum : Checksum ℕ) (resource : Option ObjectChecksums) (bufferSize : ℕ)
    (source : Source) : World where
  upload := sendBufferedResumable checksum resource bufferSize source.hint (source.chunks.map .ok)
  server := {}

/-! ## Steps that avoid what is lost -/

/-- What the client reads of a reported length: one byte as none. -/
def reportedSize (length : ℕ) : ℕ := if length = 1 then 0 else length

/-- The first `skip` bytes of a buffer end between two of its chunks, or in the middle of one. -/
def cutsCleanly (skip : ℕ) : List Bytes → Bool
  | [] => true
  | b :: buffer =>
      if skip = 0 then true
      else if b.length ≤ skip then cutsCleanly (skip - b.length) buffer
      else b.length = 2 * skip

namespace World

/-- A length is reported only where it cuts the buffer cleanly. -/
def reportsCleanly (upload : BufferedUpload) (server : Server) (reply : Reply) : Bool :=
  match server.respond reply with
  | .ok (.resumeIncomplete _) =>
      cutsCleanly (reportedSize server.bytes.length - upload.progress.offset)
        upload.progress.buffer
  | _ => true

/-- No request that carries bytes fails at the transport level, and lengths are reported cleanly. -/
def avoids (world : World) : WorldEvent → Bool
  | .served outcome =>
      match world.upload.phase with
      | .putting _ range _ body =>
          (!outcome.reply.isFailed || body = []) &&
            reportsCleanly world.upload (world.server.put range body outcome) outcome.reply
      | .querying _ => reportsCleanly world.upload world.server outcome.reply
      | _ => true
  | _ => true

end World

/-! ## Headers -/

theorem parseU64_decimal_toOption {n : ℕ} (h : n < 2 ^ 64) :
    (parseU64 (decimal n)).toOption = some n := by
  rw [parseU64_decimal h]
  rfl

theorem decimal_ne_star (n : ℕ) : decimal n ≠ ['*'] := by
  intro h
  have hstar : '*' ∈ decimal n := by simp [h]
  exact not_mem_decimal (by decide) n hstar

theorem read_sizeText {total : Option ℕ} (htotal : ∀ size ∈ total, size < 2 ^ 64) :
    (if InProgressUpload.sizeText total = ['*'] then none
      else (parseU64 (InProgressUpload.sizeText total)).toOption) = total := by
  cases total with
  | none => rfl
  | some total =>
    simp [InProgressUpload.sizeText, decimal_ne_star, parseU64_decimal_toOption (htotal total rfl)]

/-- The service reads what the client has declared. -/
theorem readContentRange_contentRange {bytes : Option (ℕ × ℕ)} {total : Option ℕ}
    (hbytes : ∀ pair ∈ bytes, pair.1 < 2 ^ 64) (htotal : ∀ size ∈ total, size < 2 ^ 64) :
    readContentRange (InProgressUpload.contentRange bytes total) =
      some (bytes.map (·.1), total) := by
  unfold readContentRange InProgressUpload.contentRange
  rw [List.append_assoc, strip_append, Option.bind_some]
  cases bytes with
  | none =>
    rw [InProgressUpload.rangeText, splitOnce_append (by decide), Option.bind_some]
    simp only [read_sizeText htotal, ↓reduceIte, Option.map_none]
  | some pair =>
    obtain ⟨first, last⟩ := pair
    have hslash : '/' ∉ decimal first ++ '-' :: decimal last := by
      have hfirst : '/' ∉ decimal first := not_mem_decimal (by decide) first
      have hlast : '/' ∉ decimal last := not_mem_decimal (by decide) last
      simp [hfirst, hlast]
    have hdash : splitOnce '-' (decimal first ++ '-' :: decimal last) =
        some (decimal first, decimal last) :=
      splitOnce_append (not_mem_decimal (by decide) first) _
    have hstar : decimal first ++ '-' :: decimal last ≠ ['*'] := by
      intro h
      have hmem : '-' ∈ decimal first ++ '-' :: decimal last := by simp
      rw [h] at hmem
      simp at hmem
    rw [InProgressUpload.rangeText, splitOnce_append hslash, Option.bind_some]
    simp only [read_sizeText htotal, hstar, ↓reduceIte, hdash, Option.bind_some,
      parseU64_decimal_toOption (hbytes _ rfl), Option.map_some]

/-- The client reads the length that the service reports, but one byte as none. -/
theorem handleResponse_range {server : Server} (hbound : server.bytes.length < 2 ^ 64) :
    queryResumableUploadHandleResponse (.resumeIncomplete server.range) =
      .ok (.incomplete (reportedSize server.bytes.length)) := by
  have hparse : parseRangeEnd server.range = some (server.bytes.length - 1) := by
    unfold Server.range
    split
    case isTrue hempty => simp [parseRangeEnd, hempty]
    case isFalse =>
      rw [parseRangeEnd, strip_append]
      exact parseU64_decimal_toOption (by omega)
  rw [queryResumableUploadHandleResponse, parseRange, hparse]
  rcases hlength : server.bytes.length with _ | _ | length
  · rfl
  · rfl
  · rw [hlength] at hbound
    have hmod : (length + 1 + 1) % 2 ^ 64 = length + 1 + 1 := Nat.mod_eq_of_lt hbound
    show Except.ok (ResumableUploadStatus.incomplete ((length + 1 + 1) % 2 ^ 64)) = _
    rw [hmod]
    rfl

end GoogleCloudRust.PerformUpload
