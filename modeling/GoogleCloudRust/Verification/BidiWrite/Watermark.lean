import GoogleCloudRust.Library.Interleaving
import GoogleCloudRust.Verification.BidiWrite.Steps

/-! # The worker never stalls with a full replay buffer

Appends are answered only when they ask for it. Above its watermark the worker awaits an answer,
to a request of the caller or to a probe of its own, unless the stream has refused a request. -/

namespace GoogleCloudRust.BidiWrite

variable {crc32c : Bytes → UInt32} {capacity : ℕ}

/-! ## The number of unpersisted bytes -/

namespace ReplayBuffer

variable {buffer : ReplayBuffer}

def bytes (queue : List ReplayChunk) : ℕ := (queue.map fun chunk => chunk.data.length).sum

@[simp] theorem bytes_cons (chunk : ReplayChunk) (queue : List ReplayChunk) :
    bytes (chunk :: queue) = chunk.data.length + bytes queue := rfl

def Counted (buffer : ReplayBuffer) : Prop := buffer.unpersistedBytes = bytes buffer.queue

theorem counted_withCapacity (capacity : ℕ) : (withCapacity capacity).Counted := rfl

theorem Counted.push (h : buffer.Counted) (chunk : ReplayChunk) : (buffer.push chunk).Counted := by
  unfold Counted at h ⊢
  simp [ReplayBuffer.push, bytes, h]

/-- The loop stops at a chunk that the server does not hold as a whole. -/
theorem popAcknowledged_counted (size : ℤ) (queue : List ReplayChunk) :
    (popAcknowledged size queue (bytes queue)).2 =
        bytes (popAcknowledged size queue (bytes queue)).1 ∧
      bytes (popAcknowledged size queue (bytes queue)).1 ≤ bytes queue ∧
      ∀ front ∈ (popAcknowledged size queue (bytes queue)).1.head?, size < front.endOffset := by
  induction queue with
  | nil =>
      refine ⟨rfl, le_rfl, ?_⟩
      intro front hfront
      cases hfront
  | cons front queue ih =>
      rw [popAcknowledged]
      by_cases hend : front.endOffset ≤ size
      · rw [if_pos hend, bytes_cons, Nat.add_sub_cancel_left]
        exact ⟨ih.1, ih.2.1.trans (Nat.le_add_left _ _), ih.2.2⟩
      · rw [if_neg hend]
        refine ⟨rfl, le_rfl, ?_⟩
        intro found hfound
        cases hfound
        exact Int.not_le.mp hend

/-- An acknowledgement never adds bytes. -/
theorem Counted.ack (crc32c : Bytes → UInt32) (h : buffer.Counted) (size : ℤ) :
    (buffer.ack crc32c size).Counted ∧
      (buffer.ack crc32c size).unpersistedBytes ≤ buffer.unpersistedBytes := by
  obtain ⟨hcount, hle, hfront⟩ := popAcknowledged_counted size buffer.queue
  unfold Counted at h ⊢
  rw [ReplayBuffer.ack, h]
  cases hpop : popAcknowledged size buffer.queue (bytes buffer.queue) with
  | mk queue count =>
      rw [hpop] at hcount hle hfront
      dsimp only at hcount hle hfront
      subst hcount
      cases queue with
      | nil => exact ⟨rfl, hle⟩
      | cons front queue =>
          -- Less is trimmed than the chunk holds, since the server does not hold all of it.
          have hend : size < front.writeOffset + front.data.length := hfront front rfl
          rw [bytes_cons] at hle ⊢
          dsimp only
          by_cases htrim : front.writeOffset < size
          · rw [if_pos htrim]
            refine ⟨?_, ?_⟩
            · dsimp only
              rw [bytes_cons, List.length_drop]
              omega
            · dsimp only
              omega
          · rw [if_neg htrim]
            exact ⟨rfl, hle⟩

theorem capacity_ack (size : ℤ) : (buffer.ack crc32c size).capacity = buffer.capacity := by
  unfold ReplayBuffer.ack
  split
  · rfl
  · split
    · rfl
    · rfl

/-- A buffer that holds bytes has a last chunk. -/
theorem Counted.endOffset (h : buffer.Counted) (hbytes : 0 < buffer.unpersistedBytes) :
    ∃ offset, buffer.endOffset = some offset := by
  cases hlast : buffer.queue.getLast? with
  | some chunk => exact ⟨chunk.endOffset, by rw [ReplayBuffer.endOffset, hlast, Option.map_some]⟩
  | none =>
      rw [List.getLast?_eq_none_iff] at hlast
      rw [h, hlast] at hbytes
      exact absurd hbytes (lt_irrefl 0)

end ReplayBuffer

/-! ## Steps of the worker -/

namespace Worker

variable {worker worker' : Worker}

/-- What the buffer of a worker satisfies between two steps. -/
structure Buffering (capacity : ℕ) (worker : Worker) : Prop where
  counted : worker.replayBuffer.Counted
  capacity_eq : worker.replayBuffer.capacity = capacity
  below : worker.replayBuffer.unpersistedBytes < capacity + maxWriteChunkSize

theorem Buffering.quiet (h : worker.Buffering capacity) : worker.quiet.Buffering capacity :=
  ⟨h.counted, h.capacity_eq, h.below⟩

theorem Buffering.handleResponseSuccess (crc32c : Bytes → UInt32) (h : worker.Buffering capacity)
    (response : BidiWriteObjectResponse) :
    (worker.handleResponseSuccess crc32c response).1.Buffering capacity := by
  have hhandled : HandledResponse crc32c worker response _ := handledResponse worker response
  generalize worker.handleResponseSuccess crc32c response = result at hhandled ⊢
  cases hhandled with
  | ignored => exact h.quiet
  | refused => exact h.quiet
  | acknowledged size =>
      obtain ⟨hcounted, hle⟩ := h.counted.ack crc32c size
      exact ⟨hcounted, (ReplayBuffer.capacity_ack size).trans h.capacity_eq,
        lt_of_le_of_lt hle h.below⟩

theorem needsWatermarkFlush_of_outstanding (h : worker.selfFlushOutstanding = true) :
    worker.needsWatermarkFlush = false := by
  simp [needsWatermarkFlush, h]

theorem needsWatermarkFlush_of_pending (h : worker.pendingRequests ≠ []) :
    worker.needsWatermarkFlush = false := by
  simp [needsWatermarkFlush, h]

end Worker

/-- An append carries at most what one message may carry. -/
def UploadIntent.Fits : UploadIntent → Prop
  | .append request => ∀ data ∈ request.data, data.content.length ≤ maxWriteChunkSize
  | _ => True

namespace Worker

variable {worker : Worker}

theorem Buffering.push (h : worker.Buffering capacity)
    (hfull : worker.replayBuffer.isFull = false) {chunk : ReplayChunk}
    (hchunk : chunk.data.length ≤ maxWriteChunkSize) :
    Buffering capacity { worker with replayBuffer := worker.replayBuffer.push chunk } := by
  refine ⟨h.counted.push chunk, h.capacity_eq, ?_⟩
  have hroom : worker.replayBuffer.unpersistedBytes < capacity := by
    rw [← h.capacity_eq]
    simpa [ReplayBuffer.isFull] using hfull
  exact Nat.add_lt_add_of_lt_of_le hroom hchunk

/-- The worker has the bytes of an append to send them again. -/
def recorded (crc32c : Bytes → UInt32) (worker : Worker) (request : BidiWriteObjectRequest) :
    Worker :=
  match request.data with
  | none => worker
  | some data =>
      { worker with
        replayBuffer := worker.replayBuffer.push
          ⟨request.writeOffset, data.content, data.crc32c.getD (crc32c data.content)⟩ }

theorem processIntent_append (worker : Worker) (request : BidiWriteObjectRequest) :
    (worker.processIntent crc32c (.append request)).1 =
      if (worker.recorded crc32c request).needsWatermarkFlush then
        { worker.recorded crc32c request with selfFlushOutstanding := true }
      else worker.recorded crc32c request := by
  cases request with
  | mk writeOffset data =>
      cases data with
      | none =>
          simp only [processIntent, recorded, apply_ite Prod.fst]
          rfl
      | some data =>
          simp only [processIntent, recorded, apply_ite Prod.fst]
          rfl

theorem Buffering.recorded (h : worker.Buffering capacity)
    (hfull : worker.replayBuffer.isFull = false) {request : BidiWriteObjectRequest}
    (hrequest : (UploadIntent.append request).Fits) :
    (worker.recorded crc32c request).Buffering capacity := by
  unfold Worker.recorded
  cases hdata : request.data with
  | none => exact h
  | some data => exact h.push hfull (hrequest data hdata)

/-- An append that crosses the watermark carries the probe itself. -/
theorem Buffering.processIntent (crc32c : Bytes → UInt32) (h : worker.Buffering capacity)
    (hfull : worker.replayBuffer.isFull = false) {intent : UploadIntent} (hintent : intent.Fits) :
    (worker.processIntent crc32c intent).1.Buffering capacity ∧
      (worker.processIntent crc32c intent).1.needsWatermarkFlush = false := by
  cases intent with
  | append request =>
      have hrecorded : (worker.recorded crc32c request).Buffering capacity :=
        h.recorded hfull hintent
      rw [processIntent_append]
      cases hneeds : (worker.recorded crc32c request).needsWatermarkFlush with
      | true =>
          exact ⟨⟨hrecorded.counted, hrecorded.capacity_eq, hrecorded.below⟩,
            needsWatermarkFlush_of_outstanding rfl⟩
      | false => exact ⟨hrecorded, hneeds⟩
  | flush request sender flags =>
      refine ⟨⟨h.counted, h.capacity_eq, h.below⟩, needsWatermarkFlush_of_pending ?_⟩
      simp [Worker.processIntent]
  | finalize request sender flags =>
      refine ⟨⟨h.counted, h.capacity_eq, h.below⟩, needsWatermarkFlush_of_pending ?_⟩
      simp [Worker.processIntent]

/-- Whether the stream accepts what `maybeSendWatermarkFlush` sends. -/
def probeAccepted (worker : Worker) (connection : Connection) : Bool :=
  match worker.needsWatermarkFlush, worker.replayBuffer.endOffset with
  | true, some writeOffset =>
      (connection.send { writeOffset, flush := true, stateLookup := true }).2
  | _, _ => true

theorem Buffering.maybeSendWatermarkFlush (h : worker.Buffering capacity)
    (connection : Connection) :
    (worker.maybeSendWatermarkFlush connection).1.Buffering capacity := by
  obtain ⟨flag, connection', hprobe, -⟩ := worker.maybeSendWatermarkFlush_cases connection
  rw [hprobe]
  exact ⟨h.counted, h.capacity_eq, h.below⟩

/-- Above the watermark there is a chunk, whose end the probe carries. -/
theorem Buffering.armed (h : worker.Buffering capacity) (hcapacity : 2 * maxWriteChunkSize < capacity)
    {connection : Connection} (haccepted : worker.probeAccepted connection = true) :
    (worker.maybeSendWatermarkFlush connection).1.needsWatermarkFlush = false := by
  cases hneeds : worker.needsWatermarkFlush with
  | false => simp [Worker.maybeSendWatermarkFlush, hneeds]
  | true =>
      have hbytes : 0 < worker.replayBuffer.unpersistedBytes := by
        simp only [needsWatermarkFlush, Bool.and_eq_true, decide_eq_true_eq, h.capacity_eq]
          at hneeds
        omega
      obtain ⟨offset, hoffset⟩ := h.counted.endOffset hbytes
      simp only [probeAccepted, hneeds, hoffset] at haccepted
      simp only [Worker.maybeSendWatermarkFlush, hneeds, hoffset]
      cases hsend : connection.send ⟨offset, none, none, true, true, false⟩ with
      | mk connection' sent =>
          rw [hsend] at haccepted
          cases haccepted
          exact needsWatermarkFlush_of_outstanding rfl

/-- Whether the new stream accepts what `reconnect` sends. -/
def restored (crc32c : Bytes → UInt32) (worker : Worker) (initialResponse : BidiWriteObjectResponse)
    (room : ℕ) : Bool :=
  let worker := (worker.handleResponseSuccess crc32c initialResponse).1
  let (connection, sent) := Connection.sendAll { room } worker.toResend
  sent && worker.probeAccepted connection

theorem Buffering.reconnect (crc32c : Bytes → UInt32) (h : worker.Buffering capacity)
    (reconnection : Reconnection) :
    (worker.reconnect crc32c reconnection).1.Buffering capacity := by
  cases reconnection with
  | error error => exact h.quiet
  | ok opened =>
      obtain ⟨response, room⟩ := opened
      have hhandled := h.handleResponseSuccess crc32c response
      cases hresult : worker.handleResponseSuccess crc32c response with
      | mk handled rest =>
          obtain ⟨answers, error⟩ := rest
          rw [hresult] at hhandled
          cases error with
          | some error =>
              rw [reconnect_refused hresult]
              exact hhandled
          | none =>
              obtain ⟨flag, connection, hreconnect, -⟩ := reconnect_ok hresult
              rw [hreconnect]
              exact ⟨hhandled.counted, hhandled.capacity_eq, hhandled.below⟩

/-- The probe is renewed on a stream that accepts it. -/
theorem Buffering.rearmed (h : worker.Buffering capacity)
    (hcapacity : 2 * maxWriteChunkSize < capacity) {response : BidiWriteObjectResponse} {room : ℕ}
    {worker' : Worker} {answers : List Answer} {connection : Connection}
    (hreconnect : worker.reconnect crc32c (.ok (response, room)) =
      (worker', answers, .ok connection))
    (hrestored : worker.restored crc32c response room = true) :
    worker'.needsWatermarkFlush = false := by
  have hhandled := h.handleResponseSuccess crc32c response
  unfold restored at hrestored
  cases hresult : worker.handleResponseSuccess crc32c response with
  | mk handled rest =>
      obtain ⟨answers', error⟩ := rest
      rw [hresult] at hhandled hrestored
      simp only [Worker.reconnect, hresult] at hreconnect
      cases error with
      | some error => cases hreconnect
      | none =>
          dsimp only at hhandled hrestored hreconnect
          cases hsends : Connection.sendAll { room } handled.toResend with
          | mk opened sent =>
              rw [hsends] at hrestored hreconnect
              cases sent with
              | false => cases hrestored
              | true =>
                  have harmed := hhandled.armed hcapacity hrestored
                  cases hreconnect
                  exact harmed

end Worker

/-! ## Steps of the session -/

namespace Session

variable {session : Session} {accepted : Bool}

/-- Whether the stream that the worker has after an event has accepted every send. -/
def acceptedAfter (crc32c : Bytes → UInt32) (session : Session) (accepted : Bool) : Event → Bool
  | .intent =>
      match session.phase, session.worker.replayBuffer.isFull, session.requests with
      | .running, false, intent :: _ =>
          accepted && (session.connection.send (session.worker.processIntent crc32c intent).2).2
      | _, _, _ => accepted
  | .message message =>
      match session.phase, message with
      | .running, .response response =>
          match session.worker.handleResponseSuccess crc32c response with
          | (worker, _, none) => accepted && worker.probeAccepted session.connection
          | (_, _, some _) => accepted
      | .running, .closed reconnection | .running, .failed _ reconnection =>
          match session.worker.isComplete, reconnection with
          | false, .ok (initialResponse, room) => session.worker.restored crc32c initialResponse room
          | _, _ => accepted
      | _, _ => accepted
  | _ => accepted

/-- The stream that is lost is replaced by the one that the worker restores. -/
theorem acceptedAfter_of_reconnection {message : Message}
    {opened : BidiWriteObjectResponse × ℕ} (hphase : session.phase = .running)
    (hmessage : message.reconnection = some (.ok opened))
    (hincomplete : session.worker.isComplete = false) :
    session.acceptedAfter crc32c accepted (.message message) =
      session.worker.restored crc32c opened.1 opened.2 := by
  cases message with
  | response => cases hmessage
  | closed => cases hmessage; simp [acceptedAfter, hphase, hincomplete]
  | failed => cases hmessage; simp [acceptedAfter, hphase, hincomplete]

structure Flowing (capacity : ℕ) (accepted : Bool) (session : Session) : Prop where
  buffering : session.worker.Buffering capacity
  fits : ∀ intent ∈ session.requests, intent.Fits
  owed : session.phase = .running → accepted = true → session.worker.needsWatermarkFlush = false

theorem Flowing.submit (h : session.Flowing capacity accepted) {intent : UploadIntent}
    (hintent : intent.Fits) (made : ℕ) :
    (session.submit intent made).Flowing capacity accepted := by
  unfold Session.submit
  split
  · refine ⟨h.buffering, ?_, h.owed⟩
    intro found hfound
    rcases List.mem_append.mp hfound with hqueued | hnew
    · exact h.fits found hqueued
    · cases List.mem_singleton.mp hnew
      exact hintent
  · exact h

theorem Flowing.handleIntent (h : session.Flowing capacity accepted) :
    (session.handleIntent crc32c).Flowing capacity
      (session.acceptedAfter crc32c accepted .intent) := by
  fun_cases Session.handleIntent crc32c session with
  | case1 intent requests hrequests hfull hphase worker request hprocess =>
      have hstep := h.buffering.processIntent crc32c hfull
        (h.fits intent (hrequests ▸ List.mem_cons_self))
      rw [hprocess] at hstep
      refine ⟨hstep.1, ?_, fun _ _ => hstep.2⟩
      intro found hfound
      exact h.fits found (hrequests ▸ List.mem_cons_of_mem _ hfound)
  | case2 hrequests hfull hphase =>
      simpa [acceptedAfter, hphase, hfull, hrequests] using h
  | case3 hrequests hfull hphase =>
      refine ⟨h.buffering, h.fits, ?_⟩
      intro hrunning
      cases hrunning
  | case4 hrunning hempty =>
      have hsame : session.acceptedAfter crc32c accepted .intent = accepted := by
        simp only [acceptedAfter]
      rw [hsame]
      exact h

/-- The session is over, whatever happened to its stream. -/
theorem Flowing.drainIntentsOnError (h : session.worker.Buffering capacity) (error : Error) :
    (session.drainIntentsOnError error).Flowing capacity accepted := by
  refine ⟨⟨h.counted, h.capacity_eq, h.below⟩, ?_, ?_⟩
  · intro intent hintent
    cases hintent
  · intro hrunning
    cases hrunning

theorem Flowing.handled (h : session.Flowing capacity accepted)
    (hcapacity : 2 * maxWriteChunkSize < capacity) {worker : Worker}
    (hworker : worker.Buffering capacity) (answers : List Answer) (error : Option Error) :
    (session.handled worker answers error).Flowing capacity
      (accepted && worker.probeAccepted session.connection) := by
  cases error with
  | some error => exact Flowing.drainIntentsOnError hworker error
  | none =>
      unfold Session.handled
      dsimp only
      split
      case h_1 hphase =>
        refine ⟨hworker.maybeSendWatermarkFlush session.connection, h.fits, ?_⟩
        intro _ haccepted
        exact hworker.armed hcapacity (Bool.and_eq_true_iff.mp haccepted).2
      case h_2 hphase =>
        refine ⟨hworker, h.fits, ?_⟩
        intro hrunning
        exact (hphase hrunning).elim

theorem running_of_handled {worker : Worker} {answers : List Answer} {error : Option Error}
    (hrunning : (session.handled worker answers error).phase = .running) :
    session.phase = .running ∧ error = none := by
  cases error with
  | some error => cases hrunning
  | none =>
      cases hphase : session.phase with
      | running => exact ⟨rfl, rfl⟩
      | completing =>
          rw [Session.handled] at hrunning
          simp [hphase] at hrunning
      | returned result =>
          rw [Session.handled] at hrunning
          simp [hphase] at hrunning

theorem Flowing.reconnected (h : session.Flowing capacity accepted)
    (hcapacity : 2 * maxWriteChunkSize < capacity) (response : BidiWriteObjectResponse)
    (room : ℕ) :
    (session.reconnected crc32c (.ok (response, room))).Flowing capacity
      (session.worker.restored crc32c response room) := by
  have hbuffering := h.buffering.reconnect crc32c (.ok (response, room))
  unfold Session.reconnected
  split
  case h_1 worker answers connection hreconnect =>
    rw [hreconnect] at hbuffering
    refine ⟨hbuffering, h.fits, ?_⟩
    intro _ hrestored
    exact h.buffering.rearmed hcapacity hreconnect hrestored
  case h_2 worker answers error hreconnect =>
    rw [hreconnect] at hbuffering
    exact Flowing.drainIntentsOnError hbuffering error

theorem Flowing.lose (h : session.Flowing capacity accepted)
    (hcapacity : 2 * maxWriteChunkSize < capacity) {message : Message}
    {reconnection : Worker.Reconnection} (hphase : session.phase = .running)
    (hmessage : message.reconnection = some reconnection)
    (hincomplete : session.worker.isComplete = false) :
    (session.reconnected crc32c reconnection).Flowing capacity
      (session.acceptedAfter crc32c accepted (.message message)) := by
  cases reconnection with
  | error error => exact Flowing.drainIntentsOnError h.buffering.quiet error
  | ok opened =>
      rw [acceptedAfter_of_reconnection hphase hmessage hincomplete]
      exact h.reconnected hcapacity opened.1 opened.2

theorem Flowing.of_phase (h : session.Flowing capacity accepted) {phase : Phase}
    (hphase : phase ≠ .running) (accepted' : Bool) :
    Flowing capacity accepted' { session with phase } :=
  ⟨h.buffering, h.fits, fun hrunning => (hphase hrunning).elim⟩

theorem Flowing.handleMessage (h : session.Flowing capacity accepted)
    (hcapacity : 2 * maxWriteChunkSize < capacity) (message : Message) :
    (session.handleMessage crc32c message).Flowing capacity
      (session.acceptedAfter crc32c accepted (.message message)) := by
  fun_cases Session.handleMessage crc32c session message with
  | case1 message result hphase =>
      refine ⟨h.buffering, h.fits, ?_⟩
      intro hrunning
      cases hphase.symm.trans hrunning
  | case2 response worker answers error hresponse hphase =>
      have hworker := h.buffering.handleResponseSuccess crc32c response
      rw [hresponse] at hworker
      have hhandled := h.handled hcapacity hworker answers error
      refine ⟨hhandled.buffering, hhandled.fits, ?_⟩
      intro hrunning haccepted
      apply hhandled.owed hrunning
      obtain ⟨hbefore, hnone⟩ := running_of_handled hrunning
      simpa [acceptedAfter, hbefore, hresponse, hnone] using haccepted
  | case3 reconnection hphase hcomplete => exact h.of_phase (by simp) _
  | case4 reconnection hphase hincomplete =>
      exact h.lose hcapacity hphase rfl (Bool.eq_false_iff.mpr hincomplete)
  | case5 status reconnection hphase hcomplete => exact h.of_phase (by simp) _
  | case6 status reconnection hphase hincomplete =>
      exact h.lose hcapacity hphase rfl (Bool.eq_false_iff.mpr hincomplete)
  | case7 reconnection hphase => exact h.of_phase (by simp) _
  | case8 status reconnection hphase hcomplete => exact h.of_phase (by simp) _
  | case9 status reconnection hphase => exact Flowing.drainIntentsOnError h.buffering _

def Event.Fits : Event → Prop
  | .append request => (UploadIntent.append request).Fits
  | _ => True

end Session

/-- A session, and whether its stream has accepted every send so far. -/
structure Watched where
  session : Session
  accepted : Bool

namespace Watched

def handle (crc32c : Bytes → UInt32) (watched : Watched) (event : Session.Event) : Watched where
  session := watched.session.handle crc32c event
  accepted := watched.session.acceptedAfter crc32c watched.accepted event

def run (crc32c : Bytes → UInt32) (watched : Watched) (events : List Session.Event) : Watched :=
  events.foldl (handle crc32c) watched

theorem run_session (watched : Watched) (events : List Session.Event) :
    (watched.run crc32c events).session = watched.session.run crc32c events := by
  induction events generalizing watched with
  | nil => rfl
  | cons event events ih => exact ih (watched.handle crc32c event)

def Flowing (capacity : ℕ) (watched : Watched) : Prop :=
  watched.session.Flowing capacity watched.accepted

theorem Flowing.handle {watched : Watched} (h : watched.Flowing capacity)
    (hcapacity : 2 * maxWriteChunkSize < capacity) {event : Session.Event} (hevent : event.Fits) :
    (watched.handle crc32c event).Flowing capacity := by
  cases event with
  | append request =>
      have hfits : (UploadIntent.append request).Fits := hevent
      exact Session.Flowing.submit h hfits 0
  | flush request flags =>
      have hfits : (UploadIntent.flush request watched.session.made flags).Fits := trivial
      exact Session.Flowing.submit h hfits 1
  | finalize request flags =>
      have hfits : (UploadIntent.finalize request watched.session.made flags).Fits := trivial
      exact Session.Flowing.submit h hfits 1
  | close => exact ⟨h.buffering, h.fits, h.owed⟩
  | intent => exact Session.Flowing.handleIntent h
  | message message => exact Session.Flowing.handleMessage h hcapacity message

theorem Flowing.run {watched : Watched} (h : watched.Flowing capacity)
    (hcapacity : 2 * maxWriteChunkSize < capacity) {events : List Session.Event}
    (hevents : ∀ event ∈ events, event.Fits) : (watched.run crc32c events).Flowing capacity := by
  induction events generalizing watched with
  | nil => exact h
  | cons event events ih =>
      apply ih (h.handle hcapacity (hevents event List.mem_cons_self))
      intro later hlater
      exact hevents later (List.mem_cons_of_mem _ hlater)

/-- The stream owes the worker a response whenever the buffer is above its watermark. -/
structure Live (capacity : ℕ) (watched : Watched) : Prop where
  counted : watched.session.worker.replayBuffer.unpersistedBytes =
    (watched.session.worker.replayBuffer.queue.map fun chunk => chunk.data.length).sum
  below : watched.session.worker.replayBuffer.unpersistedBytes < capacity + maxWriteChunkSize
  owed : watched.session.phase = .running → watched.accepted = true →
    capacity - 2 * maxWriteChunkSize ≤ watched.session.worker.replayBuffer.unpersistedBytes →
    watched.session.worker.selfFlushOutstanding = true ∨
      watched.session.worker.pendingRequests ≠ []

theorem Flowing.live {watched : Watched} (h : watched.Flowing capacity) :
    watched.Live capacity := by
  refine ⟨h.buffering.counted, h.buffering.below, ?_⟩
  intro hrunning haccepted habove
  have hneeds := h.owed hrunning haccepted
  rw [Worker.needsWatermarkFlush, h.buffering.capacity_eq, decide_eq_true habove,
    Bool.and_true] at hneeds
  cases hflag : watched.session.worker.selfFlushOutstanding with
  | true => exact .inl rfl
  | false =>
      right
      intro hpending
      simp [hflag, hpending] at hneeds

/-- A buffer with room for a chunk between its watermark and its end. -/
theorem capacity_withCapacity (capacity : ℕ) :
    2 * maxWriteChunkSize < (ReplayBuffer.withCapacity capacity).capacity :=
  le_max_right capacity minReplayBufferSize

/-- The session at the start of `run`, with a stream that has accepted the opening request. -/
def new (worker : Worker) (room : ℕ) : Watched where
  session := .new worker room
  accepted := true

theorem flowing_new (worker : Worker) (h : worker.replayBuffer.Counted)
    (hbelow : worker.replayBuffer.unpersistedBytes <
      worker.replayBuffer.capacity - 2 * maxWriteChunkSize) (room : ℕ) :
    (new worker room).Flowing worker.replayBuffer.capacity := by
  refine ⟨⟨h, rfl, ?_⟩, ?_, ?_⟩
  · exact Nat.lt_add_right _ (lt_of_lt_of_le hbelow (Nat.sub_le _ _))
  · intro intent hintent
    cases hintent
  · intro _ _
    have hneeds : ¬ worker.replayBuffer.capacity - 2 * maxWriteChunkSize ≤
        worker.replayBuffer.unpersistedBytes := Nat.not_le.mpr hbelow
    simp [new, Session.new, Worker.needsWatermarkFlush, hneeds]

/-- Over every sequence of intents, responses and reconnections. -/
theorem never_stalls (crc32c : Bytes → UInt32) (capacity : ℕ) (persistedSize : ℤ) (room : ℕ)
    {events : List Session.Event} (hevents : ∀ event ∈ events, event.Fits) :
    Live (ReplayBuffer.withCapacity capacity).capacity
      (run crc32c
        (new ((Worker.withReplayBuffer (.withCapacity capacity)).withPersistedSize persistedSize)
          room) events) := by
  have hcapacity := capacity_withCapacity capacity
  have hnew : (new ((Worker.withReplayBuffer (.withCapacity capacity)).withPersistedSize
      persistedSize) room).Flowing (ReplayBuffer.withCapacity capacity).capacity :=
    flowing_new ((Worker.withReplayBuffer (.withCapacity capacity)).withPersistedSize persistedSize)
      (ReplayBuffer.counted_withCapacity capacity) (Nat.sub_pos_of_lt hcapacity) room
  exact (hnew.run hcapacity hevents).live

/-- A stream that breaks with the probe: the probe is sent again after the chunk. -/
theorem never_stalls_reconnected :
    Live minReplayBufferSize
      (run (fun _ => 0) (new ((Worker.withReplayBuffer (.withCapacity 0)).withPersistedSize 0) 1)
        [.append { writeOffset := 0, data := some { content := [1] } }, .intent,
          .message (.closed (.ok (⟨some (.persistedSize 0)⟩, 2)))]) ∧
      (run (fun _ => 0) (new ((Worker.withReplayBuffer (.withCapacity 0)).withPersistedSize 0) 1)
        [.append { writeOffset := 0, data := some { content := [1] } }, .intent,
          .message (.closed (.ok (⟨some (.persistedSize 0)⟩, 2)))]).accepted = true := by
  refine ⟨never_stalls (fun _ => 0) 0 0 1 ?_, rfl⟩
  intro event hevent
  simp only [List.mem_cons, List.not_mem_nil, or_false] at hevent
  rcases hevent with rfl | rfl | rfl
  · intro data hdata
    cases hdata
    decide
  · trivial
  · trivial

/-- The worker of `start_worker`, whose opening request may have carried a payload. -/
theorem start_live (crc32c : Bytes → UInt32) (persistedSize : ℤ) {initialPayload : Option Bytes}
    (hpayload : ∀ data ∈ initialPayload, data.length ≤ maxWriteChunkSize) (room : ℕ)
    {events : List Session.Event} (hevents : ∀ event ∈ events, event.Fits) :
    Live defaultReplayBufferSize
      (run crc32c (new (Worker.start crc32c persistedSize initialPayload) room) events) := by
  have hcapacity : 2 * maxWriteChunkSize < defaultReplayBufferSize := by decide
  have hnew : (new (Worker.start crc32c persistedSize initialPayload) room).Flowing
      defaultReplayBufferSize := by
    cases initialPayload with
    | none =>
        exact flowing_new (Worker.start crc32c persistedSize none)
          (ReplayBuffer.counted_withCapacity _) (Nat.sub_pos_of_lt hcapacity) room
    | some data =>
        have hpushed : (ReplayBuffer.new.push ⟨0, data, crc32c data⟩).Counted :=
          (ReplayBuffer.counted_withCapacity _).push _
        obtain ⟨hcounted, hle⟩ := hpushed.ack crc32c persistedSize
        have hsame : ((ReplayBuffer.new.push ⟨0, data, crc32c data⟩).ack crc32c
            persistedSize).capacity = defaultReplayBufferSize :=
          ReplayBuffer.capacity_ack persistedSize
        have hbytes : (ReplayBuffer.new.push ⟨0, data, crc32c data⟩).unpersistedBytes =
            data.length := Nat.zero_add _
        have hfits : data.length ≤ maxWriteChunkSize := hpayload data rfl
        have hlow : maxWriteChunkSize < defaultReplayBufferSize - 2 * maxWriteChunkSize := by
          decide
        rw [hbytes] at hle
        rw [← hsame] at hlow ⊢
        exact flowing_new (Worker.start crc32c persistedSize (some data)) hcounted
          ((hle.trans hfits).trans_lt hlow) room
  exact (hnew.run hcapacity hevents).live

end Watched

end GoogleCloudRust.BidiWrite
