import GoogleCloudRust.Library.Interleaving
import GoogleCloudRust.Verification.BidiWrite.Service
import GoogleCloudRust.Verification.BidiWrite.Steps
import Mathlib.Data.List.TakeWhile

/-! # What an appendable upload persists

The replay buffer holds the appended bytes from the acknowledged size to the position of the
worker, the intent channel those beyond it. The service holds a prefix of the appended bytes, and
the requests of its stream take it up to the position as long as the stream accepts them. -/

namespace GoogleCloudRust.BidiWrite

open Segments

variable {crc32c : Bytes → UInt32} {appended : Bytes} {position acknowledged : ℕ}

/-! ## The replay buffer -/

def ReplayChunk.piece (chunk : ReplayChunk) : ℤ × Bytes := (chunk.writeOffset, chunk.data)

theorem ReplayBuffer.popAcknowledged_fst (size : ℤ) (queue : List ReplayChunk) (count : ℕ) :
    (popAcknowledged size queue count).1 = queue.dropWhile (·.endOffset ≤ size) := by
  induction queue generalizing count with
  | nil => rfl
  | cons front queue ih =>
    rw [popAcknowledged, List.dropWhile_cons]
    split
    case isTrue h => rw [ih, if_pos (by simpa using h)]
    case isFalse h => rw [if_neg (by simpa using h)]

/-- An acknowledgement trims the pieces of the buffer. -/
theorem ReplayBuffer.ack_pieces (crc32c : Bytes → UInt32) (buffer : ReplayBuffer) (size : ℤ) :
    (buffer.ack crc32c size).queue.map (·.piece) = trim size (buffer.queue.map (·.piece)) := by
  have hdrop : (buffer.queue.map (·.piece)).dropWhile (endOf · ≤ size) =
      (buffer.queue.dropWhile (·.endOffset ≤ size)).map (·.piece) := by
    rw [List.dropWhile_map]
    rfl
  rw [trim, hdrop, ← popAcknowledged_fst size buffer.queue buffer.unpersistedBytes, ack]
  cases popAcknowledged size buffer.queue buffer.unpersistedBytes with
  | mk queue count =>
    cases queue with
    | nil => rfl
    | cons front queue =>
      simp only [List.map_cons, ReplayChunk.piece]
      split
      · rfl
      · rfl

/-! ## The worker -/

namespace Worker

/-- The buffer covers the appended bytes from the acknowledged size to the position, and what waits
for an answer has no data of its own. -/
structure Ready (appended : Bytes) (position acknowledged : ℕ) (worker : Worker) : Prop where
  persistedSize : worker.persistedSize = acknowledged
  replay : Tiles appended acknowledged (worker.replayBuffer.queue.map (·.piece)) position
  noData : ∀ pending ∈ worker.pendingRequests, pending.request.data = none

variable {worker worker' : Worker} {answers : List Answer}

theorem Ready.quiet (h : Ready appended position acknowledged worker) :
    Ready appended position acknowledged worker.quiet :=
  ⟨h.persistedSize, h.replay, h.noData⟩

/-- The sizes of a response are at most `limit`. -/
def Bounded (limit : ℕ) (response : BidiWriteObjectResponse) : Prop :=
  ∀ size, response.persistedSize = some size → ∃ count ≤ limit, size = (count : ℕ)

theorem Ready.handleResponseSuccess (h : Ready appended position acknowledged worker)
    {response : BidiWriteObjectResponse} {limit : ℕ} (hbounded : Bounded limit response)
    (hacknowledged : acknowledged ≤ limit) (hlimit : limit ≤ position) {error : Option Error}
    (hresponse : worker.handleResponseSuccess crc32c response = (worker', answers, error)) :
    ∃ acknowledged' ≤ limit, Ready appended position acknowledged' worker' := by
  have hhandled : HandledResponse crc32c worker response _ := handledResponse worker response
  rw [hresponse] at hhandled
  cases hhandled with
  | ignored => exact ⟨acknowledged, hacknowledged, h.quiet⟩
  | refused => exact ⟨acknowledged, hacknowledged, h.quiet⟩
  | acknowledged size error hsize hge hle =>
    obtain ⟨count, hcount, rfl⟩ := hbounded size hsize
    have hprogress : acknowledged ≤ count := by
      have hpersisted := h.persistedSize
      omega
    refine ⟨count, hcount, rfl, ?_, ?_⟩
    · have htrim := h.replay.trim hprogress (hcount.trans hlimit)
      rw [← ReplayBuffer.ack_pieces crc32c] at htrim
      exact htrim
    · intro pending hmem
      exact h.noData pending (List.dropWhile_sublist _ |>.subset hmem)

end Worker

/-! ## The stream -/

/-- The requests of the stream that were not taken bring a service that holds `held` bytes up to
the position, or less far if the stream has stopped accepting them. -/
structure WellFed (appended : Bytes) (held taken position : ℕ) (connection : Connection) :
    Prop where
  taken_le : taken ≤ connection.sent.length
  feeds : ∃ reach ≤ position,
    Feeds appended held ((connection.sent.drop taken).filterMap (·.piece)) reach ∧
      (0 < connection.room → reach = position)

namespace WellFed

variable {held taken : ℕ} {connection : Connection}

theorem send_noData (h : WellFed appended held taken position connection)
    {request : BidiWriteObjectRequest} (hdata : request.data = none) :
    WellFed appended held taken position (connection.send request).1 := by
  obtain ⟨reach, hreach, hfeeds, hroom⟩ := h.feeds
  have htaken := h.taken_le
  unfold Connection.send
  split
  case h_1 => exact h
  case h_2 room hroom' =>
    refine ⟨by simp; omega, reach, hreach, ?_, fun _ => hroom (by omega)⟩
    rw [List.drop_append_of_le_length htaken]
    simpa [BidiWriteObjectRequest.piece, hdata] using hfeeds

theorem send_piece (h : WellFed appended held taken position connection)
    {request : BidiWriteObjectRequest} {content : Bytes}
    (hpiece : request.piece = some ((position : ℤ), content))
    (hcontent : content <+: appended.drop position) :
    WellFed appended held taken (position + content.length) (connection.send request).1 := by
  obtain ⟨reach, hreach, hfeeds, hroom⟩ := h.feeds
  have htaken := h.taken_le
  unfold Connection.send
  split
  case h_1 hzero =>
    exact ⟨htaken, reach, by omega, hfeeds, fun hpos => absurd hpos (by simp [hzero])⟩
  case h_2 room hroom' =>
    obtain rfl : reach = position := hroom (by omega)
    refine ⟨by simp; omega, reach + content.length, Nat.le_refl _, ?_, fun _ => rfl⟩
    rw [List.drop_append_of_le_length htaken]
    simpa [hpiece] using hfeeds.concat hcontent

theorem drop_taken {request : BidiWriteObjectRequest}
    (hnext : connection.sent[taken]? = some request) :
    connection.sent.drop taken = request :: connection.sent.drop (taken + 1) := by
  obtain ⟨hlt, rfl⟩ := List.getElem?_eq_some_iff.mp hnext
  exact List.drop_eq_getElem_cons hlt

theorem take_noData (h : WellFed appended held taken position connection)
    {request : BidiWriteObjectRequest} (hnext : connection.sent[taken]? = some request)
    (hpiece : request.piece = none) : WellFed appended held (taken + 1) position connection := by
  obtain ⟨reach, hreach, hfeeds, hroom⟩ := h.feeds
  obtain ⟨hlt, -⟩ := List.getElem?_eq_some_iff.mp hnext
  rw [drop_taken hnext, List.filterMap_cons, hpiece] at hfeeds
  exact ⟨hlt, reach, hreach, hfeeds, hroom⟩

theorem take_piece (h : WellFed appended held taken position connection)
    {request : BidiWriteObjectRequest} (hnext : connection.sent[taken]? = some request)
    {offset : ℤ} {content : Bytes} (hpiece : request.piece = some (offset, content)) :
    ∃ start : ℕ, offset = start ∧ start ≤ held ∧ content <+: appended.drop start ∧
      max held (start + content.length) ≤ position ∧
      WellFed appended (max held (start + content.length)) (taken + 1) position connection := by
  obtain ⟨reach, hreach, hfeeds, hroom⟩ := h.feeds
  obtain ⟨hlt, -⟩ := List.getElem?_eq_some_iff.mp hnext
  rw [drop_taken hnext, List.filterMap_cons, hpiece] at hfeeds
  obtain ⟨start, hoffset, hle, hcontent, htail⟩ := hfeeds
  exact ⟨start, hoffset, hle, hcontent, htail.le.trans hreach, hlt, reach, hreach, htail, hroom⟩

end WellFed

theorem Connection.sendAll_fst (connection : Connection) (requests : List BidiWriteObjectRequest) :
    (connection.sendAll requests).1 =
      { sent := connection.sent ++ requests.take connection.room
        room := connection.room - requests.length } := by
  induction requests generalizing connection with
  | nil => simp [sendAll]
  | cons request requests ih =>
    obtain ⟨sent, room⟩ := connection
    cases room with
    | zero => simp [sendAll, send]
    | succ room => simp [sendAll, send, ih]

/-- A new stream on which the worker sends everything again. -/
theorem Worker.Ready.wellFed_sendAll {worker : Worker}
    (h : Ready appended position acknowledged worker) {held : ℕ} (hge : acknowledged ≤ held)
    (hle : held ≤ position) (room : ℕ) :
    WellFed appended held 0 position (Connection.sendAll { room } worker.toResend).1 := by
  have hpieces : worker.toResend.filterMap (·.piece) =
      worker.replayBuffer.queue.map (·.piece) := by
    have hpending : worker.pendingRequests.filterMap (fun pending => pending.request.piece) =
        [] := by
      rw [List.filterMap_eq_nil_iff]
      intro pending hmem
      rw [BidiWriteObjectRequest.piece, h.noData pending hmem]
      rfl
    simp only [toResend, List.filterMap_append, List.filterMap_map, Function.comp_def, hpending,
      List.append_nil]
    exact congrFun (List.filterMap_eq_map (f := ReplayChunk.piece)) _
  have hfeeds : Feeds appended held (worker.toResend.filterMap (·.piece)) position := by
    rw [hpieces]
    exact h.replay.feeds hge hle
  rw [Connection.sendAll_fst]
  refine ⟨Nat.zero_le _, ?_⟩
  by_cases hroom : worker.toResend.length < room
  · refine ⟨position, Nat.le_refl _, ?_, fun _ => rfl⟩
    simpa [List.take_of_length_le hroom.le] using hfeeds
  · rw [← List.take_append_drop room worker.toResend, List.filterMap_append] at hfeeds
    obtain ⟨reach, hreach, hsent⟩ := hfeeds.of_append
    exact ⟨reach, hreach, by simpa using hsent, fun hpos => absurd hpos (by simp; omega)⟩

/-! ## The service -/

namespace Service

variable {service service' : Service}

/-- What the service has reported stays true: it persists more, and an object that it has finalized
does not change. -/
structure Extends (service service' : Service) : Prop where
  persisted : service.persisted <+: service'.persisted
  finalized : service.finalizeTime.isSome = true →
    service'.finalizeTime.isSome = true ∧ service'.persisted = service.persisted

theorem Extends.of_eq (hpersisted : service'.persisted = service.persisted)
    (htime : service'.finalizeTime = service.finalizeTime) : Extends service service' :=
  ⟨hpersisted ▸ List.prefix_rfl, fun h => ⟨htime ▸ h, hpersisted⟩⟩

/-- The size in a response is persisted; a finalized object is the one that the service has. -/
def Truthful (service : Service) (response : BidiWriteObjectResponse) : Prop :=
  ∀ size, response.persistedSize = some size → ∃ count ≤ service.persisted.length,
    size = (count : ℕ) ∧ (response.isFinalized = true →
      service.finalizeTime.isSome = true ∧ count = service.persisted.length)

theorem truthful_status (service : Service) (form : Form) :
    Truthful service (service.status form) := by
  intro size hsize
  cases form with
  | handle => cases hsize
  | size =>
    cases hsize
    exact ⟨_, Nat.le_refl _, rfl, fun hfinalized => by cases hfinalized⟩
  | object =>
    cases hsize
    exact ⟨_, Nat.le_refl _, rfl, fun hfinalized => ⟨hfinalized, rfl⟩⟩

theorem Truthful.extend {response : BidiWriteObjectResponse} (h : Truthful service response)
    (hextends : Extends service service') : Truthful service' response := by
  intro size hsize
  obtain ⟨count, hcount, rfl, hfinalized⟩ := h size hsize
  refine ⟨count, hcount.trans hextends.persisted.length_le, rfl, fun hresponse => ?_⟩
  obtain ⟨htime, hlength⟩ := hfinalized hresponse
  obtain ⟨htime', hpersisted⟩ := hextends.finalized htime
  exact ⟨htime', hpersisted ▸ hlength⟩

theorem Truthful.bounded {response : BidiWriteObjectResponse} (h : Truthful service response) :
    Worker.Bounded service.persisted.length response := by
  intro size hsize
  obtain ⟨count, hcount, heq, -⟩ := h size hsize
  exact ⟨count, hcount, heq⟩

/-- What an `Ok` answer to a request says of the service. -/
structure Keeps (service : Service) (pending : PendingRequest)
    (response : BidiWriteObjectResponse) : Prop where
  persisted : pending.request.writeOffset ≤ service.persisted.length
  finalized : pending.kind = .finalize → response.isFinalized = true ∧
    service.finalizeTime.isSome = true ∧
    response.persistedSize = some (service.persisted.length : ℤ)

theorem Keeps.extend {pending : PendingRequest} {response : BidiWriteObjectResponse}
    (h : Keeps service pending response) (hextends : Extends service service') :
    Keeps service' pending response where
  persisted := by
    have hpersisted := h.persisted
    have hlength := hextends.persisted.length_le
    omega
  finalized := by
    intro hkind
    obtain ⟨hresponse, htime, hsize⟩ := h.finalized hkind
    obtain ⟨htime', hpersisted⟩ := hextends.finalized htime
    exact ⟨hresponse, htime', hpersisted ▸ hsize⟩

theorem Truthful.keeps {pending : PendingRequest} {response : BidiWriteObjectResponse} {size : ℤ}
    (h : Truthful service response) (hsize : response.persistedSize = some size)
    (hsatisfied : pending.isSatisfied response size = true) : Keeps service pending response := by
  obtain ⟨count, hcount, rfl, hfinalized⟩ := h size hsize
  unfold PendingRequest.isSatisfied at hsatisfied
  split at hsatisfied
  case isTrue => cases hsatisfied
  case isFalse hreached =>
    refine ⟨by omega, fun hkind => ?_⟩
    rw [hkind] at hsatisfied
    obtain ⟨htime, rfl⟩ := hfinalized hsatisfied
    exact ⟨hsatisfied, htime, hsize⟩

end Service

/-! ## The session -/

def UploadIntent.request : UploadIntent → BidiWriteObjectRequest
  | .append request | .flush request _ _ | .finalize request _ _ => request

/-- The worker is ready for what it has not acknowledged, the channel holds the bytes beyond its
position, and every `Ok` answer is kept by the service. -/
structure Consistent (service : Service) (appended : Bytes) (position acknowledged : ℕ)
    (session : Session) : Prop where
  ready : session.worker.Ready appended position acknowledged
  acknowledged_le : acknowledged ≤ service.persisted.length
  intents : (∀ result, session.phase ≠ .returned result) →
    Tiles appended position (session.requests.filterMap (·.request.piece)) appended.length
  noData : ∀ pending ∈ session.pendingIntents, pending.request.data = none
  kept : ∀ answer ∈ session.answers, ∀ response, answer.result = .ok response →
    service.Keeps answer.pending response

namespace Consistent

variable {service service' : Service} {session : Session}

theorem extend (h : Consistent service appended position acknowledged session)
    (hextends : Service.Extends service service') :
    Consistent service' appended position acknowledged session where
  ready := h.ready
  acknowledged_le := h.acknowledged_le.trans hextends.persisted.length_le
  intents := h.intents
  noData := h.noData
  kept := fun answer hmem response hresult => (h.kept answer hmem response hresult).extend hextends

theorem drainIntentsOnError (h : Consistent service appended position acknowledged session)
    (error : Error) :
    Consistent service appended position acknowledged (session.drainIntentsOnError error) where
  ready := ⟨h.ready.persistedSize, h.ready.replay, by simp [Session.drainIntentsOnError]⟩
  acknowledged_le := h.acknowledged_le
  intents := fun hphase => absurd rfl (hphase _)
  noData := by simp [Session.drainIntentsOnError, Session.pendingIntents]
  kept := by
    intro answer hmem response hresult
    rcases List.mem_append.mp hmem with hmem | hmem
    · exact h.kept answer hmem response hresult
    · obtain ⟨pending, -, rfl⟩ := List.mem_map.mp hmem
      cases hresult

/-- The answers to a truthful response are kept. -/
theorem keeps_answers {worker worker' : Worker} {answers : List Answer}
    {response : BidiWriteObjectResponse} {error : Option Error} (htruthful : service.Truthful response)
    (hresponse : worker.handleResponseSuccess crc32c response = (worker', answers, error)) :
    ∀ answer ∈ answers, ∀ other, answer.result = .ok other →
      service.Keeps answer.pending other := by
  have hhandled : Worker.HandledResponse crc32c worker response _ := worker.handledResponse response
  rw [hresponse] at hhandled
  cases hhandled with
  | ignored => simp
  | refused => simp
  | acknowledged size error hsize =>
    intro answer hmem other hresult
    obtain ⟨pending, hpending, rfl⟩ := List.mem_map.mp hmem
    cases hresult
    have hsatisfied := List.mem_takeWhile_imp hpending
    exact htruthful.keeps hsize hsatisfied

/-- The worker has handled a response on any stream. -/
theorem handleResponse (h : Consistent service appended position acknowledged session)
    (hle : service.persisted.length ≤ position) {response : BidiWriteObjectResponse}
    (htruthful : service.Truthful response) {worker' : Worker} {answers : List Answer}
    {error : Option Error}
    (hresponse : session.worker.handleResponseSuccess crc32c response = (worker', answers, error)) :
    ∃ acknowledged', Consistent service appended position acknowledged'
      { session with worker := worker', answers := session.answers ++ answers } := by
  obtain ⟨acknowledged', hacknowledged, hready⟩ :=
    h.ready.handleResponseSuccess htruthful.bounded h.acknowledged_le hle hresponse
  refine ⟨acknowledged', hready, hacknowledged, h.intents, h.noData, ?_⟩
  intro answer hmem other hresult
  rcases List.mem_append.mp hmem with hmem | hmem
  · exact h.kept answer hmem other hresult
  · exact keeps_answers htruthful hresponse answer hmem other hresult

/-- Only the flag of the worker and its connection differ. -/
theorem of_flag (h : Consistent service appended position acknowledged session) (flag : Bool)
    (connection : Connection) :
    Consistent service appended position acknowledged
      { session with
        worker := { session.worker with selfFlushOutstanding := flag }
        connection } where
  ready := ⟨h.ready.persistedSize, h.ready.replay, h.ready.noData⟩
  acknowledged_le := h.acknowledged_le
  intents := h.intents
  noData := h.noData
  kept := h.kept

theorem of_phase (h : Consistent service appended position acknowledged session) {phase : Phase}
    (hphase : (∀ result, phase ≠ .returned result) → ∀ result, session.phase ≠ .returned result) :
    Consistent service appended position acknowledged { session with phase } where
  ready := h.ready
  acknowledged_le := h.acknowledged_le
  intents := fun hnot => h.intents (hphase hnot)
  noData := h.noData
  kept := h.kept

end Consistent

/-! ## The upload -/

namespace Upload

variable {upload : Upload}

structure Sound (position acknowledged : ℕ) (upload : Upload) : Prop where
  session : Consistent upload.service upload.appended position acknowledged upload.session
  persisted : upload.service.persisted <+: upload.service.held
  held : upload.service.held <+: upload.appended
  held_le : upload.service.held.length ≤ position
  stream : upload.service.broken = false →
    WellFed upload.appended upload.service.held.length upload.service.taken position
      upload.session.connection
  truthful : ∀ response ∈ upload.service.responses, upload.service.Truthful response

theorem Sound.persisted_le (h : Sound position acknowledged upload) :
    upload.service.persisted.length ≤ position :=
  h.persisted.length_le.trans h.held_le

/-! ### What the service does -/

/-- The service changes what is persisted and what it reports. -/
theorem Sound.of_service (h : Sound position acknowledged upload) {service : Service}
    (hextends : upload.service.Extends service) (hpersisted : service.persisted <+: service.held)
    (hheld : service.held = upload.service.held) (htaken : service.taken = upload.service.taken)
    (hbroken : service.broken = upload.service.broken)
    (hresponses : ∀ response ∈ service.responses, service.Truthful response) :
    Sound position acknowledged { upload with service } where
  session := h.session.extend hextends
  persisted := hpersisted
  held := hheld ▸ h.held
  held_le := hheld ▸ h.held_le
  stream := by
    intro hopen
    show WellFed _ service.held.length service.taken _ _
    rw [hheld, htaken]
    exact h.stream (hbroken ▸ hopen)
  truthful := hresponses

theorem Sound.persist (h : Sound position acknowledged upload) (size : ℕ) :
    Sound position acknowledged { upload with service := upload.service.persist size } := by
  unfold Service.persist
  split
  case isFalse => exact h
  case isTrue hguard =>
    have hextends : upload.service.Extends
        { upload.service with persisted := upload.service.held.take size } := by
      refine ⟨?_, fun htime => by simp [hguard.1] at htime⟩
      exact List.prefix_of_prefix_length_le h.persisted (List.take_prefix _ _)
        (by simp only [List.length_take]; exact le_min hguard.2 h.persisted.length_le)
    refine h.of_service hextends (List.take_prefix _ _) rfl rfl rfl ?_
    exact fun response hmem => (h.truthful response hmem).extend hextends

theorem Sound.complete (h : Sound position acknowledged upload) (time : ℤ) :
    Sound position acknowledged { upload with service := upload.service.finalize time } := by
  unfold Service.finalize
  split
  case isFalse => exact h
  case isTrue hnone =>
    have hextends : upload.service.Extends
        { upload.service with
          persisted := upload.service.held
          finalizeTime := some time } :=
      ⟨h.persisted, fun htime => by simp [hnone] at htime⟩
    refine h.of_service hextends List.prefix_rfl rfl rfl rfl ?_
    exact fun response hmem => (h.truthful response hmem).extend hextends

theorem Sound.report (h : Sound position acknowledged upload) (form : Service.Form) :
    Sound position acknowledged { upload with service := upload.service.report form } := by
  have hextends : upload.service.Extends (upload.service.report form) := .of_eq rfl rfl
  refine h.of_service hextends h.persisted rfl rfl rfl ?_
  intro response hmem
  rcases List.mem_append.mp hmem with hmem | hmem
  · exact h.truthful response hmem
  · rw [List.mem_singleton.mp hmem]
    exact upload.service.truthful_status form

theorem Sound.interrupt (h : Sound position acknowledged upload) (delivered : ℕ) :
    Sound position acknowledged { upload with service := upload.service.interrupt delivered } where
  session := h.session.extend (.of_eq rfl rfl)
  persisted := List.prefix_rfl
  held := h.persisted.trans h.held
  held_le := h.persisted_le
  stream := fun hopen => nomatch hopen
  truthful := fun response hmem => h.truthful response (List.mem_of_mem_take hmem)

theorem next_eq_some {request : BidiWriteObjectRequest} (h : upload.next = some request) :
    upload.service.broken = false ∧
      upload.session.connection.sent[upload.service.taken]? = some request := by
  unfold next at h
  split at h
  case isTrue => cases h
  case isFalse hopen => exact ⟨by simpa using hopen, h⟩

theorem Sound.take (h : Sound position acknowledged upload) {request : BidiWriteObjectRequest}
    (hnext : upload.next = some request) :
    Sound position acknowledged { upload with service := upload.service.take request } := by
  obtain ⟨hopen, hsent⟩ := next_eq_some hnext
  have hsession : Consistent (upload.service.take request) upload.appended position acknowledged
      upload.session := h.session.extend (.of_eq rfl rfl)
  cases hpiece : request.piece with
  | none =>
    have hheld : (upload.service.take request).held = upload.service.held := by
      simp [Service.take, hpiece]
    refine ⟨hsession, ?_, ?_, ?_, ?_, h.truthful⟩
    · exact hheld ▸ h.persisted
    · exact hheld ▸ h.held
    · exact hheld ▸ h.held_le
    · intro _
      show WellFed _ (upload.service.take request).held.length _ _ _
      rw [hheld]
      exact (h.stream hopen).take_noData hsent hpiece
  | some piece =>
    obtain ⟨offset, content⟩ := piece
    obtain ⟨start, rfl, hle, hcontent, hposition, hstream⟩ :=
      (h.stream hopen).take_piece hsent hpiece
    have hheld : (upload.service.take request).held = accept upload.service.held start content := by
      simp [Service.take, hpiece]
    obtain ⟨hbytes, hlength⟩ := accept_spec h.held hle hcontent
    refine ⟨hsession, ?_, ?_, ?_, ?_, h.truthful⟩
    · show upload.service.persisted <+: (upload.service.take request).held
      rw [hheld, accept, if_pos (by omega)]
      exact h.persisted.trans (List.prefix_append _ _)
    · exact hheld ▸ hbytes
    · show (upload.service.take request).held.length ≤ position
      rw [hheld, hlength]
      exact hposition
    · intro _
      show WellFed _ (upload.service.take request).held.length _ _ _
      rw [hheld, hlength]
      exact hstream

/-! ### What the callers do -/

theorem Sound.of_requests (h : Sound position acknowledged upload) {intent : UploadIntent}
    (hpiece : intent.request.piece = none)
    (hnoData : ∀ pending, intent.pending = some pending → pending.request.data = none) (made : ℕ) :
    Sound position acknowledged
      { upload with session := upload.session.submit intent made } := by
  unfold Session.submit
  split
  case isFalse => exact h
  case isTrue =>
    refine ⟨⟨h.session.ready, h.session.acknowledged_le, ?_, ?_, h.session.kept⟩, h.persisted,
      h.held, h.held_le, h.stream, h.truthful⟩
    · intro hphase
      simpa [hpiece] using h.session.intents hphase
    · intro pending hmem
      simp only [Session.pendingIntents, List.filterMap_append, List.mem_append] at hmem
      rcases hmem with hmem | hmem
      · exact h.session.noData pending hmem
      · exact hnoData pending (by simpa using hmem)

theorem Sound.append (h : Sound position acknowledged upload) (chunk : Bytes) :
    Sound position acknowledged (upload.append crc32c chunk) := by
  unfold Upload.append
  split
  case isFalse => exact h
  case isTrue haccepts =>
    have hphase : ∀ result, upload.session.phase ≠ .returned result := by
      intro result hphase
      simp [Session.accepts, hphase] at haccepts
    simp only [Session.submit, haccepts, ↓reduceIte]
    refine ⟨⟨⟨h.session.ready.persistedSize, h.session.ready.replay.append_content chunk,
      h.session.ready.noData⟩, h.session.acknowledged_le, ?_, ?_, h.session.kept⟩, h.persisted,
      h.held.trans (List.prefix_append _ _), h.held_le, ?_, h.truthful⟩
    · intro _
      have hchunk : chunk <+: (upload.appended ++ chunk).drop upload.appended.length := by simp
      have hintents := ((h.session.intents hphase).append_content chunk).concat hchunk
      simpa [UploadIntent.request, BidiWriteObjectRequest.piece] using hintents
    · intro pending hmem
      refine h.session.noData pending ?_
      simpa [Session.pendingIntents, UploadIntent.pending] using hmem
    · intro hopen
      obtain ⟨htaken, reach, hreach, hfeeds, hroom⟩ := h.stream hopen
      exact ⟨htaken, reach, hreach, hfeeds.append_content chunk, hroom⟩

/-! ### What the worker does -/

/-- Processing an intent puts its data at the end of the replay buffer. -/
theorem processIntent_pieces (crc32c : Bytes → UInt32) (worker : Worker) {intent : UploadIntent}
    (hnoData : ∀ pending, intent.pending = some pending → pending.request.data = none) :
    (worker.processIntent crc32c intent).1.persistedSize = worker.persistedSize ∧
    (worker.processIntent crc32c intent).2.piece = intent.request.piece ∧
    (worker.processIntent crc32c intent).1.replayBuffer.queue.map (·.piece) =
      worker.replayBuffer.queue.map (·.piece) ++ intent.request.piece.toList := by
  cases intent with
  | append request =>
    rw [Worker.processIntent]
    cases hdata : request.data with
    | none =>
      dsimp only
      split <;> simp [UploadIntent.request, BidiWriteObjectRequest.piece, hdata]
    | some data =>
      dsimp only
      split <;> simp [UploadIntent.request, BidiWriteObjectRequest.piece, hdata,
        ReplayBuffer.push, ReplayChunk.piece]
  | flush request sender flags =>
    have hdata : request.data = none := hnoData _ rfl
    simp [Worker.processIntent, UploadIntent.request, BidiWriteObjectRequest.piece, hdata]
  | finalize request sender flags =>
    have hdata : request.data = none := hnoData _ rfl
    simp [Worker.processIntent, UploadIntent.request, BidiWriteObjectRequest.piece, hdata]

/-- The position moves over the data of the intent. -/
theorem Sound.process (h : Sound position acknowledged upload)
    (hphase : ∀ result, upload.session.phase ≠ .returned result) {intent : UploadIntent}
    {requests : List UploadIntent} (hrequests : upload.session.requests = intent :: requests)
    {worker : Worker} {request : BidiWriteObjectRequest}
    (hprocess : upload.session.worker.processIntent crc32c intent = (worker, request)) :
    ∃ position', Sound position' acknowledged
      { upload with
        session :=
          { upload.session with
            worker, requests, connection := (upload.session.connection.send request).1 } } := by
  have hnoData : ∀ pending, intent.pending = some pending → pending.request.data = none := by
    intro pending hpending
    exact h.session.noData pending (by simp [Session.pendingIntents, hrequests, hpending])
  have hpending : worker.pendingRequests =
      upload.session.worker.pendingRequests ++ intent.pending.toList := by
    rw [← Worker.processIntent_pending, hprocess]
  have hready : ∀ pending ∈ worker.pendingRequests, pending.request.data = none := by
    intro pending hmem
    rw [hpending, List.mem_append] at hmem
    rcases hmem with hmem | hmem
    · exact h.session.ready.noData pending hmem
    · exact hnoData pending (by simpa using hmem)
  have hlater : ∀ pending ∈ requests.filterMap (·.pending), pending.request.data = none := by
    intro pending hmem
    refine h.session.noData pending ?_
    rw [Session.pendingIntents, hrequests]
    cases hintent : intent.pending <;> simp [hintent, hmem]
  obtain ⟨hsize, hsent, hqueue⟩ := processIntent_pieces crc32c upload.session.worker hnoData
  rw [hprocess] at hsize hsent hqueue
  have hintents := h.session.intents hphase
  rw [hrequests, List.filterMap_cons] at hintents
  cases hpiece : intent.request.piece with
  | none =>
    rw [hpiece] at hintents hsent hqueue
    have hdata : request.data = none := by
      simpa [BidiWriteObjectRequest.piece] using hsent
    refine ⟨position, ⟨⟨hsize.trans h.session.ready.persistedSize, ?_, hready⟩,
      h.session.acknowledged_le, fun _ => hintents, hlater, h.session.kept⟩, h.persisted, h.held,
      h.held_le, fun hopen => (h.stream hopen).send_noData hdata, h.truthful⟩
    rw [hqueue]
    simpa using h.session.ready.replay
  | some piece =>
    obtain ⟨offset, content⟩ := piece
    rw [hpiece] at hintents hsent hqueue
    obtain ⟨rfl, hcontent, htail⟩ := hintents
    refine ⟨position + content.length, ⟨⟨hsize.trans h.session.ready.persistedSize, ?_, hready⟩,
      h.session.acknowledged_le, fun _ => htail, hlater, h.session.kept⟩, h.persisted, h.held,
      h.held_le.trans (Nat.le_add_right _ _),
      fun hopen => (h.stream hopen).send_piece hsent hcontent, h.truthful⟩
    rw [hqueue]
    exact h.session.ready.replay.concat hcontent

theorem Sound.handleIntent (h : Sound position acknowledged upload) :
    ∃ position', Sound position' acknowledged
      { upload with session := upload.session.handleIntent crc32c } := by
  have hhandled : Session.HandledIntent crc32c upload.session _ := upload.session.handledIntent
  generalize upload.session.handleIntent crc32c = session at hhandled ⊢
  cases hhandled with
  | waits => exact ⟨position, h⟩
  | processed intent requests worker request hphase hrequests hprocess =>
    exact h.process (by simp [hphase]) hrequests hprocess
  | closed hphase =>
    exact ⟨position, h.session.of_phase (by simp [hphase]), h.persisted, h.held, h.held_le,
      h.stream, h.truthful⟩

/-- A session that only differs in ways that do not reach the service. -/
theorem Sound.of_session (h : Sound position acknowledged upload) {session : Session}
    {acknowledged' : ℕ}
    (hsession : Consistent upload.service upload.appended position acknowledged' session)
    (hconnection : upload.service.broken = false →
      WellFed upload.appended upload.service.held.length upload.service.taken position
        session.connection) : Sound position acknowledged' { upload with session } :=
  ⟨hsession, h.persisted, h.held, h.held_le, hconnection, h.truthful⟩

theorem Sound.handled (h : Sound position acknowledged upload) {response : BidiWriteObjectResponse}
    (htruthful : upload.service.Truthful response) {worker : Worker} {answers : List Answer}
    {error : Option Error}
    (hresponse : upload.session.worker.handleResponseSuccess crc32c response =
      (worker, answers, error)) :
    ∃ acknowledged', Sound position acknowledged'
      { upload with session := upload.session.handled worker answers error } := by
  obtain ⟨acknowledged', hnext⟩ :=
    h.session.handleResponse h.persisted_le htruthful hresponse
  refine ⟨acknowledged', ?_⟩
  unfold Session.handled
  cases error with
  | some error => exact h.of_session (hnext.drainIntentsOnError error) h.stream
  | none =>
    dsimp only
    split
    case h_1 =>
      obtain ⟨flag, connection, hprobe, hconnection⟩ :=
        worker.maybeSendWatermarkFlush_cases upload.session.connection
      rw [hprobe]
      refine h.of_session (hnext.of_flag flag connection) fun hopen => ?_
      rcases hconnection with rfl | ⟨request, hdata, rfl⟩
      · exact h.stream hopen
      · exact (h.stream hopen).send_noData hdata
    case h_2 => exact h.of_session hnext h.stream

theorem Sound.read (h : Sound position acknowledged upload) {response : BidiWriteObjectResponse}
    {responses : List BidiWriteObjectResponse}
    (hresponses : upload.service.responses = response :: responses) :
    ∃ acknowledged', Sound position acknowledged'
      { upload with
        session := upload.session.handleMessage crc32c (.response response)
        service := { upload.service with responses } } := by
  have hread : Sound position acknowledged
      { upload with service := { upload.service with responses } } :=
    h.of_service (.of_eq rfl rfl) h.persisted rfl rfl rfl
      fun other hmem => h.truthful other (by simp [hresponses, hmem])
  have htruthful : upload.service.Truthful response := h.truthful response (by simp [hresponses])
  by_cases hphase : ∃ result, upload.session.phase = .returned result
  · obtain ⟨result, hphase⟩ := hphase
    refine ⟨acknowledged, ?_⟩
    simpa [Session.handleMessage, hphase] using hread
  · cases hresponse : upload.session.worker.handleResponseSuccess crc32c response with
    | mk worker rest =>
      obtain ⟨answers, error⟩ := rest
      rw [Session.handleMessage_response (not_exists.mp hphase) hresponse]
      exact hread.handled htruthful hresponse

/-! ### A new stream -/

theorem Sound.adopt_returned (h : Sound position acknowledged upload)
    (hbroken : upload.service.broken = true) {session : Session} {acknowledged' : ℕ}
    (hsession : Consistent upload.service upload.appended position acknowledged' session)
    {result : Except Error Unit} (hphase : session.phase = .returned result) :
    Sound position acknowledged' (upload.adopt session) := by
  rw [adopt, hphase]
  exact h.of_session hsession fun hopen => absurd (hbroken.symm.trans hopen) (by simp)

/-- The worker sends everything again on the new stream. -/
theorem Sound.adopt_running (h : Sound position acknowledged upload) {session : Session}
    {acknowledged' : ℕ}
    (hsession : Consistent upload.service upload.appended position acknowledged' session)
    (hphase : session.phase = .running)
    (hstream : WellFed upload.appended upload.service.persisted.length 0 position
      session.connection) : Sound position acknowledged' (upload.adopt session) := by
  rw [adopt, hphase]
  exact ⟨hsession.extend (.of_eq rfl rfl), List.prefix_rfl, h.persisted.trans h.held,
    h.persisted_le, fun _ => hstream, by simp [Service.reopen]⟩

theorem Sound.reconnected (h : Sound position acknowledged upload)
    (hbroken : upload.service.broken = true) (hphase : upload.session.phase = .running)
    (reconnection : Except Error (Service.Form × ℕ)) :
    ∃ acknowledged', Sound position acknowledged' (upload.adopt
      (upload.session.reconnected crc32c
        (reconnection.map fun (form, room) => (upload.service.status form, room)))) := by
  cases reconnection with
  | error error =>
    have hsession := (h.session.of_flag false upload.session.connection).drainIntentsOnError error
    refine ⟨acknowledged, h.adopt_returned hbroken ?_ rfl⟩
    simpa [Session.reconnected, Except.map, Worker.reconnect] using hsession
  | ok handshake =>
    obtain ⟨form, room⟩ := handshake
    have htruthful := upload.service.truthful_status form
    simp only [Except.map, Session.reconnected]
    cases hresponse : upload.session.worker.handleResponseSuccess crc32c
        (upload.service.status form) with
    | mk worker rest =>
      obtain ⟨answers, error⟩ := rest
      obtain ⟨acknowledged', hnext⟩ :=
        h.session.handleResponse h.persisted_le htruthful hresponse
      refine ⟨acknowledged', ?_⟩
      cases error with
      | some error =>
        rw [Worker.reconnect_refused hresponse]
        exact h.adopt_returned hbroken (hnext.drainIntentsOnError error) rfl
      | none =>
        obtain ⟨flag, connection, hreconnect, hconnection⟩ := Worker.reconnect_ok hresponse
        rw [hreconnect]
        refine h.adopt_running (hnext.of_flag flag connection) hphase ?_
        have hfed := hnext.ready.wellFed_sendAll hnext.acknowledged_le h.persisted_le room
        rcases hconnection with rfl | ⟨request, hdata, rfl⟩
        · exact hfed
        · exact hfed.send_noData hdata

theorem Sound.lose (h : Sound position acknowledged upload)
    (hbroken : upload.service.broken = true) (status : Option String)
    (reconnection : Except Error (Service.Form × ℕ)) :
    ∃ acknowledged', Sound position acknowledged'
      (upload.lose crc32c status reconnection) := by
  have hok : Sound position acknowledged
      (upload.adopt { upload.session with phase := .returned (.ok ()) }) :=
    h.adopt_returned hbroken (h.session.of_phase fun hnot => absurd rfl (hnot _)) rfl
  have hhandled : Session.HandledMessage crc32c upload.session _ _ := upload.session.handledMessage
    (lost status (reconnection.map fun (form, room) => (upload.service.status form, room)))
  unfold Upload.lose
  generalize upload.session.handleMessage crc32c
    (lost status (reconnection.map fun (form, room) => (upload.service.status form, room))) =
    session at hhandled ⊢
  generalize hlost : lost status
    (reconnection.map fun (form, room) => (upload.service.status form, room)) = message at hhandled
  cases hhandled with
  | ended message result hphase =>
    exact ⟨acknowledged, h.adopt_returned hbroken h.session hphase⟩
  | response => cases status <;> cases hlost
  | finished => exact ⟨acknowledged, hok⟩
  | reconnected message outcome hmessage hphase =>
    cases status <;> cases hlost <;> cases hmessage <;>
      exact h.reconnected hbroken hphase reconnection
  | closed => exact ⟨acknowledged, hok⟩
  | failed status =>
    exact ⟨acknowledged, h.adopt_returned hbroken (h.session.drainIntentsOnError _) rfl⟩

/-! ### Every run -/

theorem Sound.handle (h : Sound position acknowledged upload) (event : Event) :
    ∃ position' acknowledged', Sound position' acknowledged' (upload.handle crc32c event) := by
  cases event with
  | append chunk => exact ⟨position, acknowledged, h.append chunk⟩
  | flush =>
    exact ⟨position, acknowledged, h.of_requests rfl (by simp [UploadIntent.pending]) 1⟩
  | finalize objectChecksums =>
    exact ⟨position, acknowledged, h.of_requests rfl (by simp [UploadIntent.pending]) 1⟩
  | close =>
    exact ⟨position, acknowledged, h.of_session
      ⟨h.session.ready, h.session.acknowledged_le, h.session.intents, h.session.noData,
        h.session.kept⟩ h.stream⟩
  | intent =>
    obtain ⟨position', hnext⟩ := h.handleIntent
    exact ⟨position', acknowledged, hnext⟩
  | read =>
    rw [Upload.handle]
    split
    case h_1 => exact ⟨position, acknowledged, h⟩
    case h_2 response responses hresponses => exact ⟨position, h.read hresponses⟩
  | lose status reconnection =>
    rw [Upload.handle]
    split
    case isTrue hlost =>
      exact ⟨position, h.lose (Bool.and_eq_true_iff.mp hlost).1 status reconnection⟩
    case isFalse => exact ⟨position, acknowledged, h⟩
  | take =>
    rw [Upload.handle]
    split
    case h_1 => exact ⟨position, acknowledged, h⟩
    case h_2 request hnext => exact ⟨position, acknowledged, h.take hnext⟩
  | persist size =>
    rw [Upload.handle]
    split
    case isTrue => exact ⟨position, acknowledged, h⟩
    case isFalse => exact ⟨position, acknowledged, h.persist size⟩
  | complete time =>
    rw [Upload.handle]
    split
    case isTrue => exact ⟨position, acknowledged, h⟩
    case isFalse => exact ⟨position, acknowledged, h.complete time⟩
  | report form =>
    rw [Upload.handle]
    split
    case isTrue => exact ⟨position, acknowledged, h⟩
    case isFalse => exact ⟨position, acknowledged, h.report form⟩
  | interrupt delivered =>
    rw [Upload.handle]
    split
    case isTrue => exact ⟨position, acknowledged, h⟩
    case isFalse => exact ⟨position, acknowledged, h.interrupt delivered⟩

theorem sound_new {persisted : Bytes} {worker : Worker}
    (hready : worker.Ready appended appended.length persisted.length)
    (hpersisted : persisted <+: appended) (room : ℕ) :
    Sound appended.length persisted.length
      { session := .new worker room, service := { persisted, held := appended }, appended } where
  session := ⟨hready, Nat.le_refl _, fun _ => rfl, by simp [Session.new, Session.pendingIntents],
    by simp [Session.new]⟩
  persisted := hpersisted
  held := List.prefix_rfl
  held_le := Nat.le_refl _
  stream := fun _ => ⟨Nat.zero_le _, appended.length, Nat.le_refl _, rfl, fun _ => rfl⟩
  truthful := by simp

theorem sound_start (crc32c : Bytes → UInt32) (room : ℕ) (opening : Opening) :
    ∃ position acknowledged, Sound position acknowledged (start crc32c room opening) := by
  cases opening with
  | create payload persisted =>
    have hle : (persisted : ℕ) ≤ payload.length := Nat.lt_succ_iff.mp persisted.isLt
    have hlength : (payload.take persisted).length = persisted := List.length_take_of_le hle
    have hpayload : Tiles payload 0 [(((0 : ℕ) : ℤ), payload)] payload.length :=
      ⟨rfl, List.prefix_rfl, Nat.zero_add _⟩
    refine ⟨payload.length, _, sound_new ⟨?_, ?_, ?_⟩ (List.take_prefix _ _) room⟩
    · rw [hlength]
      rfl
    · have htrim := hpayload.trim (Nat.zero_le _) hle
      rw [hlength]
      have hpieces : (Worker.start crc32c persisted (some payload)).replayBuffer.queue.map
          (·.piece) = trim ((persisted : ℕ) : ℤ) [(((0 : ℕ) : ℤ), payload)] :=
        ReplayBuffer.ack_pieces crc32c _ _
      rw [hpieces]
      exact htrim
    · simp [Worker.start, Worker.withPersistedSize, Worker.withReplayBuffer]
  | reopen content =>
    have hready : (Worker.start crc32c content.length none).Ready content content.length
        content.length := by
      refine ⟨rfl, rfl, ?_⟩
      simp [Worker.start, Worker.withPersistedSize, Worker.withReplayBuffer]
    exact ⟨content.length, content.length, sound_new hready List.prefix_rfl room⟩

theorem sound_run (crc32c : Bytes → UInt32) (room : ℕ) (opening : Opening) (events : List Event) :
    ∃ position acknowledged,
      Sound position acknowledged (run crc32c (start crc32c room opening) events) :=
  Interleaving.foldl_invariant
    (motive := fun upload => ∃ position acknowledged, Sound position acknowledged upload)
    (fun _ event ⟨_, _, h⟩ => h.handle event) (sound_start crc32c room opening) events

/-- The bytes before a persisted offset are persisted. -/
theorem Sound.take_persisted (h : Sound position acknowledged upload) {offset : ℤ}
    (hoffset : offset ≤ upload.service.persisted.length) :
    upload.appended.take offset.toNat <+: upload.service.persisted := by
  refine List.prefix_of_prefix_length_le (List.take_prefix _ _) (h.persisted.trans h.held) ?_
  rw [List.length_take]
  omega

/-- No chunk that the service takes begins beyond what it holds, and what it persists is a prefix of
what was appended. A flush is answered `Ok` only if every byte before its offset is persisted, and a
finalize only with the finalized object, which has them all. -/
theorem no_byte_lost_or_repeated (crc32c : Bytes → UInt32) (room : ℕ) (opening : Opening)
    (events : List Event) :
    let upload := run crc32c (start crc32c room opening) events
    (∀ request offset content, upload.next = some request →
      request.piece = some (offset, content) → offset ≤ upload.service.held.length) ∧
    upload.service.persisted <+: upload.appended ∧
    (∀ answer ∈ upload.session.answers, ∀ response, answer.result = .ok response →
      answer.pending.kind = .flush →
      upload.appended.take answer.pending.request.writeOffset.toNat <+:
        upload.service.persisted) ∧
    (∀ answer ∈ upload.session.answers, ∀ response, answer.result = .ok response →
      answer.pending.kind = .finalize →
      response.isFinalized = true ∧ upload.service.finalizeTime.isSome = true ∧
      response.persistedSize = some (upload.service.persisted.length : ℤ) ∧
      upload.appended.take answer.pending.request.writeOffset.toNat <+:
        upload.service.persisted) := by
  intro upload
  obtain ⟨position, acknowledged, hsound⟩ := sound_run crc32c room opening events
  refine ⟨?_, hsound.persisted.trans hsound.held, ?_, ?_⟩
  · intro request offset content hnext hpiece
    obtain ⟨hopen, hsent⟩ := next_eq_some hnext
    obtain ⟨start, rfl, hle, -⟩ := (hsound.stream hopen).take_piece hsent hpiece
    exact Int.ofNat_le.mpr hle
  · intro answer hmem response hresult hkind
    exact hsound.take_persisted (hsound.session.kept answer hmem response hresult).persisted
  · intro answer hmem response hresult hkind
    have hkeeps := hsound.session.kept answer hmem response hresult
    obtain ⟨hfinalized, htime, hsize⟩ := hkeeps.finalized hkind
    exact ⟨hfinalized, htime, hsize, hsound.take_persisted hkeeps.persisted⟩

example :
    let upload := run (fun _ => 0) (start (fun _ => 0) 8 (.reopen []))
      [.append [1, 2, 3], .intent, .take, .persist 2, .interrupt 0, .flush,
        .lose none (.ok (.size, 8)), .intent, .take, .take, .persist 3, .report .size, .read]
    upload.session.connection.sent.map (·.writeOffset) = [2, 3] ∧
    upload.service.persisted = [1, 2, 3] ∧
    upload.session.answers.map (·.result.toOption.isSome) = [true] := by
  decide

end Upload

end GoogleCloudRust.BidiWrite
