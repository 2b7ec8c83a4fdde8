import GoogleCloudRust.Library.Crc32c
import GoogleCloudRust.Library.Interleaving
import GoogleCloudRust.Model.ResumableRead
import GoogleCloudRust.Verification.BidiRead.Service
import GoogleCloudRust.Verification.Checksum.Source
import Mathlib.Data.List.Infix

/-! # The bytes a resumable read delivers

The service has one object and answers a request with the bytes it denotes, in chunks of any sizes;
the stream may end or fail anywhere. -/

namespace GoogleCloudRust.Storage

open Bidi (Object RequestedRange slice)
open Text ResumableResponse

variable {digests : Digests} {object : Object}

/-! ## The service -/

/-- A negative offset is one from the end. -/
def ReadObjectRequest.start (object : Object) (request : ReadObjectRequest) : ℕ :=
  if request.readOffset < 0 then object.content.length - request.readOffset.natAbs
  else request.readOffset.toNat

/-- A limit of zero is no limit. -/
def ReadObjectRequest.count (request : ReadObjectRequest) : Option ℕ :=
  if request.readLimit = 0 then none else some request.readLimit.toNat

/-- The bytes that a request denotes. -/
def denoted (object : Object) (request : ReadObjectRequest) : Bytes :=
  slice object.content (request.start object) request.count

/-- The response to the first request; a range without bytes is not satisfiable. `headers` has the
checksums and the encodings. -/
def answer (object : Object) (headers : Response) (request : ReadObjectRequest) :
    Option Response :=
  let body := denoted object request
  let first := request.start object
  if request.readOffset = 0 ∧ request.readLimit = 0 then
    some { headers with status := 200, contentLength := some (decimal body.length), body }
  else if body = [] then none
  else
    some
      { headers with
        status := 206
        contentRange := some ("bytes ".toList ++ decimal first ++ '-' ::
          decimal (first + body.length - 1) ++ '/' :: decimal object.content.length)
        body }

/-- The session of a read that has started. -/
def startRead (object : Object) (headers : Response) (checksum : Checksum ℕ)
    (policy : ReadResumePolicy) (range : RequestedRange) : Option ReadSession :=
  (answer object headers (.withRange range)).bind fun response =>
    match ResumableResponse.new (.withRange range) checksum policy response with
    | .ok reader => some { reader }
    | .error _ => none

inductive ReadEvent
  | call
  /-- The next bytes of the body arrive. -/
  | chunk (count : ℕ)
  | finish
  | fail (text : String)
  | opened
  | refused (text : String)

namespace ReadSession

def handle (digests : Digests) (object : Object) (session : ReadSession) :
    ReadEvent → ReadSession
  | .call => session.call
  | .chunk count =>
      match session.phase, session.reader.response with
      | .reading, some rest =>
          { session with
            reader := { session.reader with response := some (rest.drop count) } }.receive digests
              (.chunk (rest.take count))
      | _, _ => session
  | .finish => if session.phase = .reading then session.receive digests .finished else session
  | .fail text =>
      if session.phase = .reading then session.receive digests (.failed text) else session
  | .opened =>
      if session.phase = .opening then session.opened (denoted object session.reader.request)
      else session
  | .refused text => if session.phase = .opening then session.refused text else session

def run (digests : Digests) (object : Object) (session : ReadSession) (events : List ReadEvent) :
    ReadSession :=
  events.foldl (handle digests object) session

end ReadSession

/-! ## The range of the first response -/

theorem contentRange_text {first last size : ℕ} (hle : first ≤ last + 1)
    (hlast : last + 1 < 2 ^ 64) :
    contentRange (some ("bytes ".toList ++ decimal first ++ '-' ::
      decimal last ++ '/' :: decimal size)) = .ok ⟨first, last + 1 - first⟩ := by
  have hstrip : strip "bytes ".toList ("bytes ".toList ++ decimal first ++ '-' ::
      decimal last ++ '/' :: decimal size) =
      some (decimal first ++ '-' :: decimal last ++ '/' :: decimal size) := by
    rw [List.append_assoc, List.append_assoc, strip_append, List.append_assoc]
  have hslash : splitOnce '/' (decimal first ++ '-' :: decimal last ++ '/' :: decimal size) =
      some (decimal first ++ '-' :: decimal last, decimal size) := by
    refine splitOnce_append ?_ _
    have hfirst : '/' ∉ decimal first := not_mem_decimal (by decide) first
    have hlast : '/' ∉ decimal last := not_mem_decimal (by decide) last
    simp [hfirst, hlast]
  have hdash : splitOnce '-' (decimal first ++ '-' :: decimal last) =
      some (decimal first, decimal last) :=
    splitOnce_append (not_mem_decimal (by decide) first) _
  have hstop : (last + 1) % 2 ^ 64 = last + 1 := Nat.mod_eq_of_lt hlast
  simp only [contentRange, hstrip, hslash, hdash, parseU64_decimal (show first < 2 ^ 64 by omega),
    parseU64_decimal (show last < 2 ^ 64 by omega), Except.mapError, bind, Except.bind, hstop]
  rw [if_neg (by omega)]

theorem slice_length_le (content : Bytes) (start : ℕ) (count : Option ℕ) :
    (slice content start count).length ≤ content.length - start := by
  cases count with
  | none => simp [slice]
  | some count => simp [slice]

/-- The first response tells where its bytes are. -/
theorem responseRange_answer {headers response : Response} {request : ReadObjectRequest}
    (h : answer object headers request = some response) :
    responseRange response = .ok ⟨request.start object, (denoted object request).length⟩ ∧
      response.body = denoted object request := by
  have hsize := object.size_lt
  have hlength := slice_length_le object.content (request.start object) request.count
  unfold answer at h
  dsimp only at h
  split at h
  case isTrue hfull =>
    cases h
    have hstart : request.start object = 0 := by simp [ReadObjectRequest.start, hfull.1]
    have hlimit : (denoted object request).length < 2 ^ 64 := by
      rw [denoted]
      omega
    refine ⟨?_, rfl⟩
    simp [responseRange, readLimit, parseU64_decimal hlimit, Except.mapError, hstart]
  case isFalse =>
    split at h
    case isTrue => cases h
    case isFalse hbody =>
      cases h
      have hpos : 0 < (denoted object request).length := List.length_pos_iff.mpr hbody
      rw [denoted] at hpos
      refine ⟨?_, rfl⟩
      simp only [responseRange, Nat.reduceEqDiff, ↓reduceIte]
      rw [contentRange_text (by omega) (by rw [denoted]; omega), denoted]
      congr 2
      omega

/-! ## What an event can do -/

namespace ReadSession

variable {session session' : ReadSession}

/-- The engine when an attempt has failed. A chunk that is too long was consumed before. -/
inductive FailedChecksum (digests : Digests) (session : ReadSession) : Checksum ℕ → Prop
  | unchanged : FailedChecksum digests session session.reader.checksum
  | tooLong (rest data : Bytes) (hrest : session.reader.response = some rest)
      (hdata : data <+: rest) (hlong : session.reader.range.limit < data.length) :
      FailedChecksum digests session
        (session.reader.checksum.update digests session.reader.range.start data)

/-- The reader after a failed attempt. -/
def failedReader (reader : ResumableResponse) (checksum : Checksum ℕ) : ResumableResponse :=
  { reader with checksum, response := none, resumeCount := reader.resumeCount + 1 }

/-- The request for what the range has left. -/
def restRequest (reader : ResumableResponse) : ReadObjectRequest where
  readOffset := asI64 reader.range.start
  readLimit := asI64 reader.range.limit

inductive Handled (digests : Digests) (object : Object) (session : ReadSession) :
    ReadSession → Prop
  | waits : Handled digests object session session
  | called (hphase : session.phase = .idle) (rest : Bytes)
      (hrest : session.reader.response = some rest) :
      Handled digests object session { session with phase := .reading }
  | ended (hphase : session.phase = .idle) (hnone : session.reader.response = none) :
      Handled digests object session (session.returns none)
  | delivered (rest data later : Bytes) (hphase : session.phase = .reading)
      (hrest : session.reader.response = some rest) (hdata : rest = data ++ later)
      (hfits : data.length ≤ session.reader.range.limit) :
      Handled digests object session
        ({ session with
           reader :=
            { session.reader with
              response := some later
              checksum :=
                session.reader.checksum.update digests session.reader.range.start data
              range :=
                { start := session.reader.range.start + data.length
                  limit := session.reader.range.limit - data.length } } }.returns
          (some (.ok data)))
  | finished (hphase : session.phase = .reading) (hlimit : session.reader.range.limit = 0)
      (hvalid : validate session.reader.responseChecksums
        (some (session.reader.checksum.finalize digests)) = .ok ()) :
      Handled digests object session (session.returns none)
  | stopped (checksum : Checksum ℕ) (error : ReadFailure) (hphase : session.phase = .reading)
      (hchecksum : FailedChecksum digests session checksum) :
      Handled digests object session
        ({ session with reader := failedReader session.reader checksum }.returns
          (some (.error error)))
  | resumed (checksum : Checksum ℕ) (hphase : session.phase = .reading)
      (hchecksum : FailedChecksum digests session checksum) :
      Handled digests object session
        { session with
          reader :=
            { failedReader session.reader checksum with request := restRequest session.reader }
          phase := .opening
          resumed := session.resumed ++ [(restRequest session.reader, session.delivered)] }
  | opened (hphase : session.phase = .opening) :
      Handled digests object session (session.opened (denoted object session.reader.request))
  | refused (text : String) (hphase : session.phase = .opening) :
      Handled digests object session (session.refused text)

theorem resume_cases (reader : ResumableResponse) (error : ReadFailure) :
    (∃ error', reader.resume error = (failedReader reader reader.checksum, .error error')) ∨
      reader.resume error =
        ({ failedReader reader reader.checksum with request := restRequest reader }, .ok ()) := by
  unfold resume
  dsimp only
  split
  · exact .inr rfl
  · exact .inl ⟨_, rfl⟩
  · exact .inl ⟨_, rfl⟩

/-- A failed attempt stops the read or resumes it. -/
theorem handled_failure (hphase : session.phase = .reading) {checksum : Checksum ℕ}
    (hchecksum : FailedChecksum digests session checksum) (response : Option Bytes)
    (error : ReadFailure) :
    Handled digests object session
      (match resume { session.reader with checksum, response } error with
      | (reader, .error error) => { session with reader }.returns (some (.error error))
      | (reader, .ok ()) =>
          { session with
            reader
            phase := .opening
            resumed := session.resumed ++ [(reader.request, session.delivered)] }) := by
  rcases resume_cases { session.reader with checksum, response } error with
    ⟨error', hresume⟩ | hresume
  · rw [hresume]
    exact .stopped checksum error' hphase hchecksum
  · rw [hresume]
    exact .resumed checksum hphase hchecksum

theorem handled_chunk (hphase : session.phase = .reading) {rest : Bytes}
    (hrest : session.reader.response = some rest) (count : ℕ) :
    Handled digests object session
      ({ session with
         reader := { session.reader with response := some (rest.drop count) } }.receive digests
          (.chunk (rest.take count))) := by
  unfold receive nextAttempt
  dsimp only
  by_cases hlong : session.reader.range.limit < (rest.take count).length
  · rw [if_pos hlong]
    exact handled_failure hphase
      (.tooLong rest _ hrest (List.take_prefix _ _) hlong) (some (rest.drop count)) _
  · rw [if_neg hlong]
    exact .delivered rest _ _ hphase hrest (List.take_append_drop count rest).symm
      (Nat.not_lt.mp hlong)

theorem handled_finish (hphase : session.phase = .reading) :
    Handled digests object session (session.receive digests .finished) := by
  unfold receive nextAttempt
  dsimp only
  by_cases hlimit : session.reader.range.limit = 0
  · rw [if_neg (by simpa using hlimit)]
    cases hvalid : validate session.reader.responseChecksums
        (some (session.reader.checksum.finalize digests)) with
    | ok => exact .finished hphase hlimit hvalid
    | error e => exact handled_failure hphase .unchanged session.reader.response _
  · rw [if_pos hlimit]
    exact handled_failure hphase .unchanged session.reader.response _

theorem handled_handle (session : ReadSession) (event : ReadEvent) :
    Handled digests object session (session.handle digests object event) := by
  cases event with
  | call =>
    rw [handle, call]
    split
    case h_1 hphase hnone => exact .ended hphase hnone
    case h_2 rest hphase hrest => exact .called hphase rest hrest
    case h_3 => exact .waits
  | chunk count =>
    rw [handle]
    split
    case h_1 rest hphase hrest => exact handled_chunk hphase hrest count
    case h_2 => exact .waits
  | finish =>
    rw [handle]
    split
    case isTrue hphase => exact handled_finish hphase
    case isFalse => exact .waits
  | fail text =>
    rw [handle]
    split
    case isTrue hphase => exact handled_failure hphase .unchanged session.reader.response _
    case isFalse => exact .waits
  | opened =>
    rw [handle]
    split
    case isTrue hphase => exact .opened hphase
    case isFalse => exact .waits
  | refused text =>
    rw [handle]
    split
    case isTrue hphase => exact .refused text hphase
    case isFalse => exact .waits

/-! ## Where the read is -/

variable {requested : Bytes} {first : ℕ}

/-- The requested bytes are those of the object from `first` on. -/
structure Extent (object : Object) (requested : Bytes) (first : ℕ) : Prop where
  content : requested <+: object.content.drop first
  bound : first + requested.length ≤ object.content.length

/-- The request for what is left after some bytes were delivered. -/
def remainingRequest (requested : Bytes) (first : ℕ) (delivered : Bytes) : ReadObjectRequest where
  readOffset := (first + delivered.length : ℕ)
  readLimit := (requested.length - delivered.length : ℕ)

structure Placed (object : Object) (requested : Bytes) (first : ℕ) (session : ReadSession) :
    Prop where
  delivered : session.delivered <+: requested
  range : session.reader.range =
    ⟨first + session.delivered.length, requested.length - session.delivered.length⟩
  response : ∀ rest, session.reader.response = some rest →
    rest <+: object.content.drop session.reader.range.start
  opening : session.phase = .opening →
    session.reader.request = remainingRequest requested first session.delivered
  resumed : ∀ entry ∈ session.resumed,
    entry.2 <+: requested ∧ entry.1 = remainingRequest requested first entry.2

theorem asI64_of_lt {value : ℕ} (h : value < 2 ^ 63) : asI64 value = value := by
  unfold asI64
  exact Int.bmod_eq_of_le (by omega) (by omega)

theorem delivered_returns (value : Option (Except ReadFailure Bytes)) :
    (session.returns value).delivered = session.delivered ++ deliveredBy [value] := by
  simp [delivered, returns, deliveredBy]

theorem delivered_returns_ok (reader : ResumableResponse) (data : Bytes) :
    ({ session with reader }.returns (some (.ok data))).delivered = session.delivered ++ data := by
  simp [delivered, returns, deliveredBy]

/-- Bytes that fit into the range are the next of the requested ones. -/
theorem Placed.append_prefix (h : Placed object requested first session)
    (hextent : Extent object requested first) {data rest : Bytes}
    (hrest : session.reader.response = some rest) (hdata : data <+: rest)
    (hfits : data.length ≤ session.reader.range.limit) :
    session.delivered ++ data <+: requested := by
  obtain ⟨later, hlater⟩ := h.delivered
  have hcontent := hdata.trans (h.response rest hrest)
  rw [h.range] at hcontent hfits
  have hlater' : later <+: object.content.drop (first + session.delivered.length) := by
    have hdrop := hextent.content.drop session.delivered.length
    rwa [← hlater, List.drop_left, List.drop_drop] at hdrop
  have hlength : later.length = requested.length - session.delivered.length := by
    rw [← hlater, List.length_append]
    omega
  rw [← hlater, List.prefix_append_right_inj]
  exact List.prefix_of_prefix_length_le hcontent hlater' (by dsimp only at hfits; omega)

theorem Placed.restRequest (h : Placed object requested first session)
    (hextent : Extent object requested first) :
    ReadSession.restRequest session.reader =
      remainingRequest requested first session.delivered := by
  have hsize := object.size_lt
  have hbound := hextent.bound
  have hle := h.delivered.length_le
  have hstart : first + session.delivered.length < 2 ^ 63 := by omega
  have hlimit : requested.length - session.delivered.length < 2 ^ 63 := by omega
  rw [ReadSession.restRequest, h.range, remainingRequest, asI64_of_lt hstart, asI64_of_lt hlimit]

/-- Nothing is delivered and the range stays. -/
theorem Placed.returns_empty (h : Placed object requested first session)
    {value : Option (Except ReadFailure Bytes)} (hvalue : deliveredBy [value] = []) :
    Placed object requested first (session.returns value) := by
  have hdelivered : (session.returns value).delivered = session.delivered := by
    rw [delivered_returns, hvalue, List.append_nil]
  refine ⟨?_, ?_, h.response, fun hphase => (nomatch hphase), h.resumed⟩
  · rw [hdelivered]
    exact h.delivered
  · rw [hdelivered]
    exact h.range

theorem Placed.failed (h : Placed object requested first session) (checksum : Checksum ℕ) :
    Placed object requested first
      { session with reader := failedReader session.reader checksum } :=
  ⟨h.delivered, h.range, fun _ hrest => (nomatch hrest), h.opening, h.resumed⟩

theorem denoted_remainingRequest (object : Object) (requested delivered : Bytes) (first : ℕ) :
    denoted object (remainingRequest requested first delivered) <+:
      object.content.drop (first + delivered.length) := by
  have hstart : (remainingRequest requested first delivered).start object =
      first + delivered.length := by
    have hnonneg : ¬((first + delivered.length : ℕ) : ℤ) < 0 := by omega
    simp only [ReadObjectRequest.start, remainingRequest, hnonneg, ↓reduceIte, Int.toNat_natCast]
  rw [denoted, hstart]
  unfold slice
  split
  · exact List.prefix_rfl
  · exact List.take_prefix _ _

theorem Placed.handled (h : Placed object requested first session)
    (hextent : Extent object requested first) (hhandled : Handled digests object session session') :
    Placed object requested first session' := by
  cases hhandled with
  | waits => exact h
  | called hphase rest hrest =>
    exact ⟨h.delivered, h.range, h.response, fun hopening => (nomatch hopening), h.resumed⟩
  | ended => exact h.returns_empty rfl
  | delivered rest data later hphase hrest hdata hfits =>
    have hbytes := h.append_prefix hextent hrest ⟨later, hdata.symm⟩ hfits
    have hresponse := h.response rest hrest
    rw [hdata] at hresponse
    refine ⟨?_, ?_, ?_, fun hopening => (nomatch hopening), h.resumed⟩
    · rw [delivered_returns_ok]
      exact hbytes
    · rw [delivered_returns_ok]
      simp only [returns, h.range, List.length_append, ReadRange.mk.injEq]
      omega
    · intro other hother
      cases hother
      have hdrop := hresponse.drop data.length
      rw [List.drop_left, List.drop_drop] at hdrop
      exact hdrop
  | finished => exact h.returns_empty rfl
  | stopped checksum error => exact (h.failed checksum).returns_empty rfl
  | resumed checksum =>
    rw [h.restRequest hextent]
    refine ⟨h.delivered, h.range, fun _ hrest => (nomatch hrest), fun _ => rfl, ?_⟩
    intro entry hmem
    rcases List.mem_append.mp hmem with hmem | hmem
    · exact h.resumed entry hmem
    · rw [List.mem_singleton.mp hmem]
      exact ⟨h.delivered, rfl⟩
  | opened hphase =>
    refine ⟨h.delivered, h.range, ?_, fun hopening => (nomatch hopening), h.resumed⟩
    intro rest hrest
    have heq : denoted object session.reader.request = rest := Option.some.inj hrest
    have hdenoted := denoted_remainingRequest object requested session.delivered first
    rw [← h.opening hphase, heq] at hdenoted
    have hstart : (session.opened (denoted object session.reader.request)).reader.range.start =
        first + session.delivered.length := by
      rw [opened, h.range]
    rw [hstart]
    exact hdenoted
  | refused text => exact h.returns_empty rfl

/-! ## The checksums of what was delivered -/

/-- No checksum is computed, or all of the object is read and the engine has what was delivered. -/
def Tracked (digests : Digests) (object : Object) (requested : Bytes) (first : ℕ)
    (session : ReadSession) : Prop :=
  (session.reader.checksum.crc32c = none ∧ session.reader.checksum.md5Hash = none) ∨
  first = 0 ∧ requested = object.content ∧
    session.reader.checksum.Tracks digests requested session.delivered.length

theorem update_none {checksum : Checksum ℕ}
    (h : checksum.crc32c = none ∧ checksum.md5Hash = none) (offset : ℕ) (data : Bytes) :
    (checksum.update digests offset data).crc32c = none ∧
      (checksum.update digests offset data).md5Hash = none := by
  simp [Checksum.update, h.1, h.2]

/-- A failed attempt leaves the engine with what was delivered. -/
theorem Tracked.failed (h : Tracked digests object requested first session)
    (hplaced : Placed object requested first session) {checksum : Checksum ℕ}
    (hchecksum : FailedChecksum digests session checksum) :
    (checksum.crc32c = none ∧ checksum.md5Hash = none) ∨
      first = 0 ∧ requested = object.content ∧
        checksum.Tracks digests requested session.delivered.length := by
  cases hchecksum with
  | unchanged => exact h
  | tooLong rest data hrest hdata hlong =>
    rcases h with hnone | ⟨rfl, rfl, -⟩
    · exact .inl (update_none hnone _ _)
    · have hlength := (hdata.trans (hplaced.response rest hrest)).length_le
      rw [hplaced.range] at hlength hlong
      rw [List.length_drop] at hlength
      dsimp only at hlength hlong
      omega

theorem Tracked.handled (h : Tracked digests object requested first session)
    (hplaced : Placed object requested first session) (hextent : Extent object requested first)
    (hhandled : Handled digests object session session') :
    Tracked digests object requested first session' := by
  have hreturns : ∀ (reader : ResumableResponse) (value : Option (Except ReadFailure Bytes)),
      deliveredBy [value] = [] →
      Tracked digests object requested first { session with reader } →
      Tracked digests object requested first ({ session with reader }.returns value) := by
    intro reader value hvalue hreader
    unfold Tracked
    rw [delivered_returns, hvalue, List.append_nil]
    exact hreader
  cases hhandled with
  | waits => exact h
  | called => exact h
  | ended => exact hreturns session.reader none rfl h
  | delivered rest data later hphase hrest hdata hfits =>
    have hbytes := hplaced.append_prefix hextent hrest ⟨later, hdata.symm⟩ hfits
    rcases h with hnone | ⟨rfl, hfull, htracks⟩
    · exact .inl (update_none hnone _ _)
    · refine .inr ⟨rfl, hfull, ?_⟩
      rw [delivered_returns_ok, List.length_append, ← checkedUpdate_self]
      have hpart : data <+: requested.drop session.delivered.length := by
        have hdrop := hbytes.drop session.delivered.length
        rwa [List.drop_left] at hdrop
      have hstart : session.reader.range.start = session.delivered.length := by
        rw [hplaced.range, Nat.zero_add]
      have hupdate := htracks.update hpart
      rw [← hstart] at hupdate ⊢
      exact hupdate
  | finished => exact hreturns session.reader none rfl h
  | stopped checksum error hphase hchecksum =>
    exact hreturns (failedReader session.reader checksum) (some (.error error)) rfl
      (h.failed hplaced hchecksum)
  | resumed checksum hphase hchecksum =>
    rw [hplaced.restRequest hextent]
    exact h.failed hplaced hchecksum
  | opened => exact h
  | refused text => exact hreturns session.reader (some (.error (.request text))) rfl h

/-- The checksums of a read that has delivered everything. -/
theorem Tracked.finalize (h : Tracked digests object requested first session)
    (hall : session.delivered = requested) :
    session.reader.checksum.finalize digests =
      digests.checksums session.reader.checksum.crc32c.isSome
        session.reader.checksum.md5Hash.isSome requested := by
  rcases h with ⟨hcrc, hmd5⟩ | ⟨-, -, htracks⟩
  · simp [Checksum.finalize, Digests.checksums, hcrc, hmd5]
  · rw [hall] at htracks
    exact htracks.finalize

/-! ## What the calls return -/

variable {crc32c md5 : Bool} {expected : ObjectChecksums}

def IsError (value : Option (Except ReadFailure Bytes)) : Prop := ∃ error, value = some (.error error)

/-- An error is followed by nothing but `None`, and a `None` without an error before it by nothing
missing: all bytes were delivered and the checksums agree. -/
structure Concluded (digests : Digests) (requested : Bytes) (crc32c md5 : Bool)
    (expected : ObjectChecksums) (session : ReadSession) : Prop where
  checksums : session.reader.responseChecksums = expected
  crc32c_isSome : session.reader.checksum.crc32c.isSome = (crc32c && expected.crc32c.isSome)
  md5_isSome : session.reader.checksum.md5Hash.isSome = (md5 && expected.md5Hash ≠ [])
  ended : (∃ value ∈ session.returned, IsError value) →
    session.reader.response = none ∧ session.phase = .idle
  opening : session.phase = .opening → session.reader.response = none
  stopped : session.reader.response = none →
    session.phase = .opening ∨ ∃ value ∈ session.returned, IsError value
  last : session.returned.Pairwise fun earlier later => IsError earlier → later = none
  complete : ∀ front, front ++ [none] <+: session.returned →
    (∃ value ∈ front, IsError value) ∨
      deliveredBy front = requested ∧ Agree expected (digests.checksums crc32c md5 requested)

theorem not_isError_none : ¬IsError none := by
  rintro ⟨error, h⟩
  cases h

theorem Concluded.no_error (h : Concluded digests requested crc32c md5 expected session)
    (hphase : session.phase ≠ .idle) : ∀ value ∈ session.returned, ¬IsError value := by
  intro value hmem herror
  exact hphase (h.ended ⟨value, hmem, herror⟩).2

/-- A call returns a value that is not `None`, after no error. -/
theorem Concluded.returns_some (h : Concluded digests requested crc32c md5 expected session)
    (hphase : session.phase ≠ .idle) {reader : ResumableResponse}
    (hchecksums : reader.responseChecksums = session.reader.responseChecksums)
    (hcrc : reader.checksum.crc32c.isSome = session.reader.checksum.crc32c.isSome)
    (hmd5 : reader.checksum.md5Hash.isSome = session.reader.checksum.md5Hash.isSome)
    (result : Except ReadFailure Bytes)
    (hresult : IsError (some result) ↔ reader.response = none) :
    Concluded digests requested crc32c md5 expected
      ({ session with reader }.returns (some result)) where
  checksums := hchecksums.trans h.checksums
  crc32c_isSome := hcrc.trans h.crc32c_isSome
  md5_isSome := hmd5.trans h.md5_isSome
  ended := by
    rintro ⟨value, hmem, herror⟩
    rcases List.mem_append.mp hmem with hmem | hmem
    · exact absurd herror (h.no_error hphase value hmem)
    · rw [List.mem_singleton.mp hmem] at herror
      exact ⟨hresult.mp herror, rfl⟩
  opening := fun hopening => (nomatch hopening)
  stopped := fun hnone => .inr ⟨some result, by simp [returns], hresult.mpr hnone⟩
  last := by
    refine List.pairwise_append.mpr ⟨h.last, List.pairwise_singleton _ _, ?_⟩
    intro earlier hmem later _ herror
    exact absurd herror (h.no_error hphase earlier hmem)
  complete := by
    intro front hfront
    rcases List.prefix_concat_iff.mp hfront with heq | hfront
    · cases (List.append_inj' heq rfl).2
    · exact h.complete front hfront

/-- A call returns `None`. -/
theorem Concluded.returns_none (h : Concluded digests requested crc32c md5 expected session)
    (hphase : session.phase ≠ .opening)
    (hnone : (∃ value ∈ session.returned, IsError value) ∨
      session.delivered = requested ∧
        Agree expected (digests.checksums crc32c md5 requested)) :
    Concluded digests requested crc32c md5 expected (session.returns none) where
  checksums := h.checksums
  crc32c_isSome := h.crc32c_isSome
  md5_isSome := h.md5_isSome
  ended := by
    rintro ⟨value, hmem, herror⟩
    rcases List.mem_append.mp hmem with hmem | hmem
    · exact ⟨(h.ended ⟨value, hmem, herror⟩).1, rfl⟩
    · rw [List.mem_singleton.mp hmem] at herror
      exact absurd herror not_isError_none
  opening := fun hopening => (nomatch hopening)
  stopped := by
    intro hresponse
    rcases h.stopped hresponse with hopening | ⟨value, hmem, herror⟩
    · exact absurd hopening hphase
    · exact .inr ⟨value, List.mem_append_left _ hmem, herror⟩
  last := by
    refine List.pairwise_append.mpr ⟨h.last, List.pairwise_singleton _ _, ?_⟩
    intro earlier hmem later hlater _
    exact List.mem_singleton.mp hlater
  complete := by
    intro front hfront
    rcases List.prefix_concat_iff.mp hfront with heq | hfront
    · obtain rfl := (List.append_inj' heq rfl).1
      exact hnone
    · exact h.complete front hfront

/-- The disabled kinds of checksums agree with anything. -/
theorem agree_of_enabled
    (h : Agree expected (digests.checksums (crc32c && expected.crc32c.isSome)
      (md5 && expected.md5Hash ≠ []) requested)) :
    Agree expected (digests.checksums crc32c md5 requested) where
  crc32c := by
    intro e r he hr
    exact h.crc32c e r he (by simpa [Digests.checksums, he] using hr)
  md5 := by
    intro he hr
    have hmd5 := h.md5 he
    simp only [Digests.checksums, he, ne_eq, not_false_eq_true, decide_true, Bool.and_true]
      at hmd5 hr ⊢
    exact hmd5 hr

/-- A failed attempt keeps the kinds of checksums that are computed. -/
theorem FailedChecksum.isSome_eq {checksum : Checksum ℕ}
    (h : FailedChecksum digests session checksum) :
    checksum.crc32c.isSome = session.reader.checksum.crc32c.isSome ∧
      checksum.md5Hash.isSome = session.reader.checksum.md5Hash.isSome := by
  cases h with
  | unchanged => exact ⟨rfl, rfl⟩
  | tooLong => simp [Checksum.update]

/-- Nothing is left of the range. -/
theorem Placed.all_delivered (h : Placed object requested first session)
    (hlimit : session.reader.range.limit = 0) : session.delivered = requested := by
  rw [h.range] at hlimit
  have hle := h.delivered.length_le
  exact h.delivered.eq_of_length (by dsimp only at hlimit; omega)

theorem Concluded.handled (h : Concluded digests requested crc32c md5 expected session)
    (hplaced : Placed object requested first session) (hextent : Extent object requested first)
    (htracked : Tracked digests object requested first session)
    (hhandled : Handled digests object session session') :
    Concluded digests requested crc32c md5 expected session' := by
  cases hhandled with
  | waits => exact h
  | called hphase rest hrest =>
    have hsome : session.reader.response ≠ none := by simp [hrest]
    exact ⟨h.checksums, h.crc32c_isSome, h.md5_isSome, fun herror => absurd (h.ended herror).1 hsome,
      fun hopening => (by cases hopening), fun hnone => absurd hnone hsome, h.last, h.complete⟩
  | ended hphase hnone =>
    refine h.returns_none (by simp [hphase]) (.inl ?_)
    rcases h.stopped hnone with hopening | herror
    · cases hphase.symm.trans hopening
    · exact herror
  | delivered rest data later hphase =>
    refine h.returns_some (by simp [hphase]) ?_ ?_ ?_ (.ok data) ?_
    · rfl
    · simp [Checksum.update]
    · simp [Checksum.update]
    · simp [IsError]
  | finished hphase hlimit hvalid =>
    have hall := hplaced.all_delivered hlimit
    refine h.returns_none (by simp [hphase]) (.inr ⟨hall, ?_⟩)
    rw [validate_eq_ok_iff, htracked.finalize hall, h.checksums, h.crc32c_isSome,
      h.md5_isSome] at hvalid
    exact agree_of_enabled hvalid
  | stopped checksum error hphase hchecksum =>
    refine h.returns_some (by simp [hphase]) ?_ ?_ ?_ (.error error) ?_
    · rfl
    · exact hchecksum.isSome_eq.1
    · exact hchecksum.isSome_eq.2
    · simp [IsError, failedReader]
  | resumed checksum hphase hchecksum =>
    rw [hplaced.restRequest hextent]
    refine ⟨h.checksums, hchecksum.isSome_eq.1.trans h.crc32c_isSome,
      hchecksum.isSome_eq.2.trans h.md5_isSome, ?_, fun _ => rfl, fun _ => .inl rfl, h.last,
      h.complete⟩
    rintro ⟨value, hmem, herror⟩
    exact absurd herror (h.no_error (by simp [hphase]) value hmem)
  | opened hphase =>
    refine ⟨h.checksums, h.crc32c_isSome, h.md5_isSome, ?_, fun hopening => (by cases hopening),
      fun hnone => (by cases hnone), h.last, h.complete⟩
    rintro ⟨value, hmem, herror⟩
    exact absurd herror (h.no_error (by simp [hphase]) value hmem)
  | refused text hphase =>
    refine h.returns_some (by simp [hphase]) rfl rfl rfl (.error (.request text)) ?_
    simp [IsError, h.opening hphase]

/-! ## Every run -/

theorem extent_of_answer {headers response : Response} {request : ReadObjectRequest}
    (h : answer object headers request = some response) :
    Extent object (denoted object request) (request.start object) := by
  have hcontent : denoted object request <+: object.content.drop (request.start object) := by
    unfold denoted slice
    split
    · exact List.prefix_rfl
    · exact List.take_prefix _ _
  refine ⟨hcontent, ?_⟩
  have hlength := hcontent.length_le
  rw [List.length_drop] at hlength
  unfold answer at h
  dsimp only at h
  split at h
  case isTrue hfull =>
    have hstart : request.start object = 0 := by simp [ReadObjectRequest.start, hfull.1]
    omega
  case isFalse =>
    split at h
    case isTrue => cases h
    case isFalse hbody =>
      have hpos : 0 < (denoted object request).length := List.length_pos_iff.mpr hbody
      omega

theorem startRead_eq_some {headers : Response} {checksum : Checksum ℕ} {policy : ReadResumePolicy}
    {range : RequestedRange}
    (h : startRead object headers checksum policy range = some session) :
    ∃ response reader, answer object headers (.withRange range) = some response ∧
      ResumableResponse.new (.withRange range) checksum policy response = .ok reader ∧
      session = { reader } := by
  unfold startRead at h
  obtain ⟨response, hanswer, hnew⟩ := Option.bind_eq_some_iff.mp h
  refine ⟨response, ?_⟩
  split at hnew
  case h_1 reader hreader =>
    cases hnew
    exact ⟨reader, hanswer, hreader, rfl⟩
  case h_2 => cases hnew

/-- Everything that holds of a read. -/
structure Sound (digests : Digests) (object : Object) (requested : Bytes) (first : ℕ)
    (crc32c md5 : Bool) (expected : ObjectChecksums) (session : ReadSession) : Prop where
  placed : Placed object requested first session
  tracked : Tracked digests object requested first session
  concluded : Concluded digests requested crc32c md5 expected session

/-- The kinds of checksums that are computed are enabled, and in the response. -/
theorem isSome_new (expected : ObjectChecksums) (crc32c md5 : Bool) :
    (if expected.crc32c = none then none else (Checksum.fresh crc32c md5).crc32c).isSome =
        (crc32c && expected.crc32c.isSome) ∧
      (if expected.md5Hash = [] then none else (Checksum.fresh crc32c md5).md5Hash).isSome =
        (md5 && expected.md5Hash ≠ []) := by
  constructor
  · cases crc32c <;> cases hcase : expected.crc32c <;> simp [Checksum.fresh]
  · cases md5 <;> by_cases hcase : expected.md5Hash = [] <;> simp [Checksum.fresh, hcase]

/-- Checksums are only computed for a read of the whole object. -/
theorem tracked_new (digests : Digests) (object : Object) (response : Response)
    (request : ReadObjectRequest) (crc32c md5 : Bool) :
    let full := request.readOffset = 0 ∧ request.readLimit = 0
    let expected := checksumsFromResponse full response
    let checksum : Checksum ℕ :=
      { crc32c := if expected.crc32c = none then none else (Checksum.fresh crc32c md5).crc32c
        md5Hash := if expected.md5Hash = [] then none else (Checksum.fresh crc32c md5).md5Hash }
    (checksum.crc32c = none ∧ checksum.md5Hash = none) ∨
      request.start object = 0 ∧ denoted object request = object.content ∧
        checksum.Tracks digests (denoted object request) 0 := by
  intro full expected checksum
  by_cases hfull : full
  · right
    have hfresh := Checksum.tracks_fresh digests (denoted object request) crc32c md5
    refine ⟨?_, ?_, ?_, ?_⟩
    · simp [ReadObjectRequest.start, hfull.1]
    · simp [denoted, ReadObjectRequest.start, ReadObjectRequest.count, slice, hfull.1, hfull.2]
    · intro crc hcrc
      simp only [checksum] at hcrc
      split at hcrc
      · cases hcrc
      · exact hfresh.crc32c crc hcrc
    · intro state hstate
      simp only [checksum] at hstate
      split at hstate
      · cases hstate
      · exact hfresh.md5 state hstate
  · left
    have hnone : expected = {} := by
      simp only [expected, checksumsFromResponse]
      rw [if_pos (by simp [hfull])]
    simp [checksum, hnone]

theorem sound_startRead (digests : Digests) {headers : Response} {policy : ReadResumePolicy}
    {range : RequestedRange}
    (h : startRead object headers (.fresh crc32c md5) policy range = some session) :
    Sound digests object (denoted object (.withRange range))
      ((ReadObjectRequest.withRange range).start object) crc32c md5
      session.reader.responseChecksums session := by
  obtain ⟨response, reader, hanswer, hnew, rfl⟩ := startRead_eq_some h
  obtain ⟨hrange, hbody⟩ := responseRange_answer hanswer
  have hextent := extent_of_answer hanswer
  rw [ResumableResponse.new, hrange] at hnew
  cases hnew
  refine ⟨⟨List.nil_prefix, rfl, ?_, fun hopening => (nomatch hopening), by simp⟩, ?_,
    ⟨rfl, ?_, ?_, by simp, fun hopening => (nomatch hopening), fun hnone => (nomatch hnone),
      List.Pairwise.nil, by simp⟩⟩
  · intro rest hrest
    cases hrest
    rw [hbody]
    exact hextent.content
  · exact tracked_new digests object response (.withRange range) crc32c md5
  · exact (isSome_new _ crc32c md5).1
  · exact (isSome_new _ crc32c md5).2

theorem sound_run {start : ReadSession} (hextent : Extent object requested first)
    (h : Sound digests object requested first crc32c md5 expected start)
    (events : List ReadEvent) :
    Sound digests object requested first crc32c md5 expected
      (start.run digests object events) := by
  refine Interleaving.foldl_invariant (fun session event hsound => ?_) h events
  have hhandled : Handled digests object session _ := session.handled_handle event
  exact ⟨hsound.placed.handled hextent hhandled,
    hsound.tracked.handled hsound.placed hextent hhandled,
    hsound.concluded.handled hsound.placed hextent hsound.tracked hhandled⟩

/-- A request for what remains denotes it, unless nothing remains and the object goes on. -/
theorem denoted_remaining_iff (hextent : Extent object requested first) {delivered : Bytes}
    (hdelivered : delivered <+: requested) :
    denoted object (remainingRequest requested first delivered) =
        requested.drop delivered.length ↔
      delivered.length < requested.length ∨
        object.content.length ≤ first + requested.length := by
  have hle := hdelivered.length_le
  have hbound := hextent.bound
  have hstart : (remainingRequest requested first delivered).start object =
      first + delivered.length := by
    have hnonneg : ¬((first + delivered.length : ℕ) : ℤ) < 0 := by omega
    simp only [ReadObjectRequest.start, remainingRequest, hnonneg, ↓reduceIte, Int.toNat_natCast]
  rcases Nat.lt_or_ge delivered.length requested.length with hlt | hge
  · -- The limit is what remains.
    have hcount : (remainingRequest requested first delivered).count =
        some (requested.length - delivered.length) := by
      have hlimit : ((requested.length - delivered.length : ℕ) : ℤ) ≠ 0 := by omega
      simp only [ReadObjectRequest.count, remainingRequest, hlimit, ↓reduceIte,
        Int.toNat_natCast]
    have hdrop := hextent.content.drop delivered.length
    rw [List.drop_drop] at hdrop
    have heq := List.prefix_iff_eq_take.mp hdrop
    rw [List.length_drop] at heq
    rw [denoted, hstart, hcount, slice, ← heq]
    simp [hlt]
  · -- A limit of zero denotes the rest of the object.
    have hzero : requested.length - delivered.length = 0 := by omega
    have hcount : (remainingRequest requested first delivered).count = none := by
      simp [ReadObjectRequest.count, remainingRequest, hzero]
    rw [denoted, hstart, hcount, slice, List.drop_eq_nil_of_le hge, List.drop_eq_nil_iff]
    omega

/-- What is delivered is a prefix of what was requested. A request that resumes the read denotes
exactly what was not delivered, if bytes are missing or the range reaches the end of the object,
and only then. `None` without an error before it means that all was delivered and the checksums
agree, and after an error nothing more is delivered. -/
theorem read_resumes_requested {start : ReadSession} (digests : Digests) (object : Object)
    (headers : Response) (crc32c md5 : Bool) (policy : ReadResumePolicy) (range : RequestedRange)
    (hstart : startRead object headers (.fresh crc32c md5) policy range = some start)
    (events : List ReadEvent) :
    let request := ReadObjectRequest.withRange range
    let requested := denoted object request
    let session := start.run digests object events
    session.delivered <+: requested ∧
    (∀ entry ∈ session.resumed,
      denoted object entry.1 = requested.drop entry.2.length ↔
        entry.2.length < requested.length ∨
          object.content.length ≤ request.start object + requested.length) ∧
    (∀ front, front ++ [none] <+: session.returned →
      (∃ value ∈ front, IsError value) ∨
        deliveredBy front = requested ∧
          Agree start.reader.responseChecksums (digests.checksums crc32c md5 requested)) ∧
    session.returned.Pairwise fun earlier later => IsError earlier → later = none := by
  intro request requested session
  obtain ⟨response, reader, hanswer, -, -⟩ := startRead_eq_some hstart
  have hextent := extent_of_answer hanswer
  have hsound := sound_run hextent (sound_startRead digests hstart) events
  refine ⟨hsound.placed.delivered, ?_, hsound.concluded.complete, hsound.concluded.last⟩
  intro entry hmem
  obtain ⟨hbytes, hrequest⟩ := hsound.placed.resumed entry hmem
  rw [hrequest]
  exact denoted_remaining_iff hextent hbytes

/-- A read that is interrupted with a byte missing, and resumed. -/
theorem read_resumes_requested_middle :
    let digests : Digests := ⟨Crc32c.append, Crc32c.append_nil, Crc32c.append_append, fun _ => []⟩
    let object : Object := ⟨[1, 2, 3, 4], by decide⟩
    ∃ start, startRead object { status := 0, body := [] } (.fresh true false)
        (fun _ error => .continue error) (.segment 0 2) = some start ∧
      (start.run digests object [.call, .chunk 1, .call, .fail "reset", .opened, .chunk 1]).delivered
        <+: denoted object (.withRange (.segment 0 2)) := by
  intro digests object
  have hsome : (startRead object { status := 0, body := [] } (.fresh true false)
      (fun _ error => .continue error) (.segment 0 2)).isSome = true := by decide
  obtain ⟨start, hstart⟩ := Option.isSome_iff_exists.mp hsome
  exact ⟨start, hstart, (read_resumes_requested digests object { status := 0, body := [] } true
    false (fun _ error => .continue error) (.segment 0 2) hstart _).1⟩

/-- When the stream breaks after the last byte of the range, the request that resumes the read
denotes the rest of the object. -/
theorem resumes_past_end_of_range :
    let digests : Digests := ⟨Crc32c.append, Crc32c.append_nil, Crc32c.append_append, fun _ => []⟩
    let object : Object := ⟨[1, 2, 3, 4], by decide⟩
    ∃ start, startRead object { status := 0, body := [] } (.fresh true false)
        (fun _ error => .continue error) (.segment 0 2) = some start ∧
      (start.run digests object [.call, .chunk 2, .call, .fail "reset"]).resumed =
        [(⟨2, 0⟩, [1, 2])] ∧
      denoted object ⟨2, 0⟩ = [3, 4] ∧
      (denoted object (.withRange (.segment 0 2))).drop 2 = [] := by
  intro digests object
  refine ⟨(startRead object { status := 0, body := [] } (.fresh true false)
    (fun _ error => .continue error) (.segment 0 2)).get (by decide), ?_, ?_, ?_, ?_⟩
  · exact (Option.some_get _).symm
  · decide
  · decide
  · decide

end ReadSession

end GoogleCloudRust.Storage
