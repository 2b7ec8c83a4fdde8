import GoogleCloudRust.Library.Interleaving
import GoogleCloudRust.Verification.BidiWrite.Steps
import Mathlib.Data.List.TakeWhile

/-! # The answers to flush and finalize requests

The requests answered, the pending ones and those in the intent channel are, in this order, the
requests that were made. -/

namespace GoogleCloudRust.BidiWrite

variable {crc32c : Bytes → UInt32}

/-- The response confirms the request. -/
def Confirms (response : BidiWriteObjectResponse) (pending : PendingRequest) : Prop :=
  ∃ size, response.persistedSize = some size ∧ pending.isSatisfied response size = true

namespace Worker

variable {worker worker' : Worker} {answers : List Answer}

/-- A prefix of the pending requests is answered, each by a response that confirms it. -/
structure Answers (worker worker' : Worker) (response : BidiWriteObjectResponse)
    (answered : List PendingRequest) : Prop where
  pending : worker.pendingRequests = answered ++ worker'.pendingRequests
  confirmed : ∀ pending ∈ answered, Confirms response pending

theorem answers_quiet (worker : Worker) (response : BidiWriteObjectResponse) :
    Answers worker worker.quiet response [] where
  pending := rfl
  confirmed := by simp

theorem answers_handleResponseSuccess {response : BidiWriteObjectResponse} {error : Option Error}
    (h : worker.handleResponseSuccess crc32c response = (worker', answers, error)) :
    ∃ answered, Answers worker worker' response answered ∧
      answers = answered.map (·.complete (.ok response)) := by
  have hhandled : HandledResponse crc32c worker response _ := handledResponse worker response
  rw [h] at hhandled
  cases hhandled with
  | ignored => exact ⟨[], answers_quiet worker response, rfl⟩
  | refused => exact ⟨[], answers_quiet worker response, rfl⟩
  | acknowledged size error hsize =>
    refine ⟨_, ⟨?_, ?_⟩, rfl⟩
    · exact List.takeWhile_append_dropWhile.symm
    · intro pending hmem
      have hsatisfied := List.mem_takeWhile_imp hmem
      exact ⟨size, hsize, hsatisfied⟩

theorem answers_reconnect {reconnection : Reconnection} {outcome : Except Error Connection}
    (h : worker.reconnect crc32c reconnection = (worker', answers, outcome)) :
    ∃ response answered, Answers worker worker' response answered ∧
      answers = answered.map (·.complete (.ok response)) := by
  cases reconnection with
  | error error =>
    cases h
    exact ⟨⟨none⟩, [], answers_quiet worker _, rfl⟩
  | ok handshake =>
    obtain ⟨response, room⟩ := handshake
    cases hresponse : worker.handleResponseSuccess crc32c response with
    | mk middle rest =>
      obtain ⟨given, error⟩ := rest
      obtain ⟨answered, hanswers, hgiven⟩ := answers_handleResponseSuccess hresponse
      cases error with
      | some error =>
        rw [reconnect_refused hresponse] at h
        cases h
        exact ⟨response, answered, hanswers, hgiven⟩
      | none =>
        obtain ⟨flag, connection, hreconnect, -⟩ := reconnect_ok hresponse
        rw [hreconnect] at h
        cases h
        exact ⟨response, answered, ⟨hanswers.pending, hanswers.confirmed⟩, hgiven⟩

end Worker

namespace Session

variable {session session' : Session}

/-- Every request that was made is answered or outstanding, in order. An answer is a response that
confirms the request, or the error that `run` returns. -/
structure Ledger (session : Session) : Prop where
  senders : (session.answers.map (·.pending) ++ session.outstanding).map (·.sender) =
    List.range session.made
  answered : ∀ answer ∈ session.answers,
    (∃ response, answer.result = .ok response ∧ Confirms response answer.pending) ∨
    ∃ error, answer.result = .error error ∧ session.phase = .returned (.error error)
  drained : ∀ error, session.phase = .returned (.error error) → session.outstanding = []

/-- While `run` has not failed every answer is a response. -/
theorem Ledger.confirmed (h : Ledger session)
    (hphase : ∀ error, session.phase ≠ .returned (.error error)) :
    ∀ answer ∈ session.answers,
      ∃ response, answer.result = .ok response ∧ Confirms response answer.pending := by
  intro answer hmem
  rcases h.answered answer hmem with hok | ⟨error, -, herror⟩
  · exact hok
  · exact absurd herror (hphase error)

/-- Nothing is answered and nothing made. -/
theorem Ledger.of_frame (h : Ledger session)
    (hphase : ∀ error, session.phase ≠ .returned (.error error))
    (hphase' : ∀ error, session'.phase ≠ .returned (.error error))
    (hanswers : session'.answers = session.answers) (hmade : session'.made = session.made)
    (houtstanding : session'.outstanding = session.outstanding) : Ledger session' where
  senders := by rw [hanswers, hmade, houtstanding, h.senders]
  answered := by
    intro answer hmem
    exact .inl (h.confirmed hphase answer (hanswers ▸ hmem))
  drained := fun error herror => absurd herror (hphase' error)

/-- A prefix of the outstanding requests is answered by a response. -/
theorem Ledger.of_answers (h : Ledger session)
    (hphase : ∀ error, session.phase ≠ .returned (.error error))
    (hphase' : ∀ error, session'.phase ≠ .returned (.error error))
    {response : BidiWriteObjectResponse} {answered : List PendingRequest}
    (hconfirmed : ∀ pending ∈ answered, Confirms response pending)
    (hanswers : session'.answers =
      session.answers ++ answered.map (·.complete (.ok response)))
    (hmade : session'.made = session.made)
    (houtstanding : session.outstanding = answered ++ session'.outstanding) :
    Ledger session' where
  senders := by
    rw [hmade, ← h.senders, houtstanding, hanswers]
    simp [PendingRequest.complete, Function.comp_def]
  answered := by
    intro answer hmem
    rw [hanswers, List.mem_append, List.mem_map] at hmem
    rcases hmem with hmem | ⟨pending, hpending, rfl⟩
    · exact .inl (h.confirmed hphase answer hmem)
    · exact .inl ⟨response, rfl, hconfirmed pending hpending⟩
  drained := fun error herror => absurd herror (hphase' error)

theorem Ledger.drainIntentsOnError (h : Ledger session)
    (hphase : ∀ error, session.phase ≠ .returned (.error error)) (error : Error) :
    Ledger (session.drainIntentsOnError error) where
  senders := by
    have hsenders := h.senders
    simpa [Session.drainIntentsOnError, outstanding, pendingIntents, PendingRequest.complete,
      Function.comp_def] using hsenders
  answered := by
    intro answer hmem
    simp only [Session.drainIntentsOnError, List.mem_append, List.mem_map] at hmem
    rcases hmem with hmem | ⟨pending, -, rfl⟩
    · exact .inl (h.confirmed hphase answer hmem)
    · exact .inr ⟨.ser error, rfl, rfl⟩
  drained := by
    intro _ _
    rfl

/-! ## Every event keeps the ledger -/

theorem Ledger.submit (h : Ledger session) {intent : UploadIntent} {made : ℕ}
    (hintent : intent.pending.toList.map (·.sender) =
      (List.range made).map (session.made + ·)) : Ledger (session.submit intent made) := by
  unfold Session.submit
  split
  case isFalse => exact h
  case isTrue haccepts =>
    have hphase : ∀ error, session.phase ≠ .returned (.error error) := by
      intro error hphase
      simp [accepts, hphase] at haccepts
    refine ⟨?_, h.answered, fun error herror => absurd herror (hphase error)⟩
    have hintents : (session.requests ++ [intent]).filterMap (·.pending) =
        session.pendingIntents ++ intent.pending.toList := by
      rw [List.filterMap_append]
      cases hpending : intent.pending <;> simp [pendingIntents, hpending]
    rw [List.range_add, ← hintent, ← h.senders]
    simp [outstanding, pendingIntents, hintents]

theorem Ledger.handleIntent (h : Ledger session) : Ledger (session.handleIntent crc32c) := by
  have hhandled : HandledIntent crc32c session _ := session.handledIntent
  generalize session.handleIntent crc32c = session' at hhandled ⊢
  cases hhandled with
  | waits => exact h
  | processed intent requests worker request hphase hrequests hprocess =>
    have hrunning : ∀ error, session.phase ≠ .returned (.error error) := by simp [hphase]
    refine h.of_frame hrunning hrunning rfl rfl ?_
    have hpending : worker.pendingRequests =
        session.worker.pendingRequests ++ intent.pending.toList := by
      rw [← Worker.processIntent_pending, hprocess]
    cases hintent : intent.pending <;>
      simp [outstanding, pendingIntents, hpending, hrequests, hintent]
  | closed hphase => exact h.of_frame (by simp [hphase]) (by simp) rfl rfl rfl

/-- The worker has answered, and `run` goes on. -/
theorem Ledger.of_worker (h : Ledger session)
    (hphase : ∀ error, session.phase ≠ .returned (.error error)) {worker' : Worker}
    {answers : List Answer} {response : BidiWriteObjectResponse} {answered : List PendingRequest}
    (hworker : Worker.Answers session.worker worker' response answered)
    (hanswers : answers = answered.map (·.complete (.ok response))) (connection : Connection) :
    Ledger { session with worker := worker', connection, answers := session.answers ++ answers } :=
  h.of_answers hphase hphase hworker.confirmed (by rw [hanswers]) rfl (by
    simp [outstanding, pendingIntents, hworker.pending])

theorem Ledger.handleResponse (h : Ledger session)
    (hphase : ∀ error, session.phase ≠ .returned (.error error))
    (response : BidiWriteObjectResponse) {worker' : Worker} {answers : List Answer}
    {error : Option Error}
    (hresponse : session.worker.handleResponseSuccess crc32c response = (worker', answers, error)) :
    Ledger (session.handled worker' answers error) := by
  obtain ⟨answered, hworker, hanswers⟩ := Worker.answers_handleResponseSuccess hresponse
  have hnext := h.of_worker hphase hworker hanswers session.connection
  unfold handled
  cases error with
  | some error => exact hnext.drainIntentsOnError hphase error
  | none =>
    dsimp only
    split
    case h_1 =>
      obtain ⟨flag, connection, hprobe, -⟩ :=
        worker'.maybeSendWatermarkFlush_cases session.connection
      rw [hprobe]
      exact hnext.of_frame hphase hphase rfl rfl rfl
    case h_2 => exact hnext

theorem Ledger.reconnected (h : Ledger session)
    (hphase : ∀ error, session.phase ≠ .returned (.error error))
    (reconnection : Worker.Reconnection) : Ledger (session.reconnected crc32c reconnection) := by
  unfold Session.reconnected
  cases hreconnect : session.worker.reconnect crc32c reconnection with
  | mk worker' rest =>
    obtain ⟨answers, outcome⟩ := rest
    obtain ⟨response, answered, hworker, hanswers⟩ := Worker.answers_reconnect hreconnect
    cases outcome with
    | ok connection => exact h.of_worker hphase hworker hanswers connection
    | error error =>
      exact (h.of_worker hphase hworker hanswers session.connection).drainIntentsOnError hphase
        error

theorem Ledger.returned (h : Ledger session)
    (hphase : ∀ error, session.phase ≠ .returned (.error error)) :
    Ledger { session with phase := .returned (.ok ()) } :=
  h.of_frame hphase (by simp) rfl rfl rfl

theorem Ledger.handleMessage (h : Ledger session) (message : Message) :
    Ledger (session.handleMessage crc32c message) := by
  have hhandled : HandledMessage crc32c session message _ := session.handledMessage message
  generalize session.handleMessage crc32c message = session' at hhandled ⊢
  cases hhandled with
  | ended => exact h
  | response response worker answers error hphase hresponse =>
    exact h.handleResponse (fun error => hphase (.error error)) response hresponse
  | finished message hphase => exact h.returned fun error => hphase (.error error)
  | reconnected message reconnection hmessage hphase =>
    exact h.reconnected (by simp [hphase]) reconnection
  | closed reconnection hphase => exact h.returned (by simp [hphase])
  | failed status reconnection hphase =>
    exact h.drainIntentsOnError (by simp [hphase]) (.status status)

theorem Ledger.handle (h : Ledger session) (event : Event) :
    Ledger (session.handle crc32c event) := by
  cases event with
  | append request => exact h.submit (by simp [UploadIntent.pending])
  | flush request flags => exact h.submit (by simp [UploadIntent.pending])
  | finalize request flags => exact h.submit (by simp [UploadIntent.pending])
  | close => exact ⟨h.senders, h.answered, h.drained⟩
  | intent => exact h.handleIntent
  | message message => exact h.handleMessage message

theorem ledger_run (replayBuffer : ReplayBuffer) (persistedSize : ℤ) (room : ℕ)
    (events : List Event) :
    Ledger (run crc32c (new ((Worker.withReplayBuffer replayBuffer).withPersistedSize
      persistedSize) room) events) := by
  have hnew : Ledger (new ((Worker.withReplayBuffer replayBuffer).withPersistedSize
      persistedSize) room) := by
    constructor
    · rfl
    · simp [new]
    · simp [new]
  exact Interleaving.foldl_invariant (motive := Ledger)
    (fun session event h => h.handle event) hnew events

/-- The senders of the answers are the first ones, in order. -/
theorem Ledger.answers_senders (h : Ledger session) :
    session.answers.map (·.pending.sender) = List.range session.answers.length := by
  have hlength : session.answers.length ≤ session.made := by
    have hle := congrArg List.length h.senders
    simp only [List.length_map, List.length_append, List.length_range] at hle
    omega
  calc session.answers.map (·.pending.sender)
      = ((session.answers.map (·.pending) ++ session.outstanding).map (·.sender)).take
          session.answers.length := by simp [Function.comp_def]
    _ = (List.range session.made).take session.answers.length := by rw [h.senders]
    _ = List.range session.answers.length := by
        rw [List.take_range, Nat.min_eq_left hlength]

theorem Ledger.all_answered (h : Ledger session) {error : Error}
    (hphase : session.phase = .returned (.error error)) :
    session.answers.length = session.made := by
  have hlength := congrArg List.length h.senders
  rw [h.drained error hphase] at hlength
  simpa using hlength

/-! ## How `run` returns -/

/-- `run` goes on or returns an error. -/
def GoesOnOrFails (session session' : Session) : Prop :=
  session'.phase = session.phase ∨ ∃ error, session'.phase = .returned (.error error)

theorem goesOnOrFails_handled (worker : Worker) (answers : List Answer) (error : Option Error) :
    GoesOnOrFails session (session.handled worker answers error) := by
  unfold handled
  cases error with
  | some error => exact .inr ⟨.ser error, rfl⟩
  | none =>
    dsimp only
    split
    · exact .inl rfl
    · exact .inl rfl

theorem goesOnOrFails_reconnected (reconnection : Worker.Reconnection) :
    GoesOnOrFails session (session.reconnected crc32c reconnection) := by
  unfold reconnected
  split
  · exact .inl rfl
  · exact .inr ⟨_, rfl⟩

theorem not_returned_ok (hphase : ∀ result, session.phase ≠ .returned result)
    (h : GoesOnOrFails session session') : session'.phase ≠ .returned (.ok ()) := by
  intro hok
  rcases h with hsame | ⟨error, herror⟩
  · exact hphase (.ok ()) (hsame.symm.trans hok)
  · cases herror.symm.trans hok

theorem submit_phase (intent : UploadIntent) (made : ℕ) :
    (session.submit intent made).phase = session.phase := by
  unfold submit
  split <;> rfl

/-- The event ends `run` with `Ok`. -/
theorem returned_ok_cases {event : Event} (hphase : ∀ result, session.phase ≠ .returned result)
    (h : (session.handle crc32c event).phase = .returned (.ok ())) :
    session.worker.isComplete = true ∨
      session.phase = .completing ∧ ∃ reconnection, event = .message (.closed reconnection) := by
  cases event with
  | append request => exact absurd h (not_returned_ok hphase (.inl (submit_phase _ _)))
  | flush request flags => exact absurd h (not_returned_ok hphase (.inl (submit_phase _ _)))
  | finalize request flags => exact absurd h (not_returned_ok hphase (.inl (submit_phase _ _)))
  | close => exact absurd h (hphase _)
  | intent =>
    have hhandled : HandledIntent crc32c session _ := session.handledIntent
    rw [handle] at h
    generalize session.handleIntent crc32c = session' at hhandled h
    cases hhandled with
    | waits => exact absurd h (hphase _)
    | processed => exact absurd h (hphase _)
    | closed => cases h
  | message message =>
    have hhandled : HandledMessage crc32c session message _ := session.handledMessage message
    rw [handle] at h
    generalize session.handleMessage crc32c message = session' at hhandled h
    cases hhandled with
    | ended message result hreturned => exact absurd hreturned (hphase result)
    | response response worker answers error =>
      exact absurd h (not_returned_ok hphase (goesOnOrFails_handled worker answers error))
    | finished message hnot hcomplete => exact .inl hcomplete
    | reconnected message reconnection =>
      exact absurd h (not_returned_ok hphase (goesOnOrFails_reconnected reconnection))
    | closed reconnection hcompleting => exact .inr ⟨hcompleting, reconnection, rfl⟩
    | failed => cases h

/-! ## A finalized object -/

/-- The message gives the worker this response, on its stream or as the handshake of a new one. -/
inductive Reports (session : Session) (response : BidiWriteObjectResponse) : Message → Prop
  | stream (hphase : ∀ result, session.phase ≠ .returned result) :
      Reports session response (.response response)
  | closed (room : ℕ) (hphase : session.phase = .running) :
      Reports session response (.closed (.ok (response, room)))
  | failed (status : String) (room : ℕ) (hphase : session.phase = .running) :
      Reports session response (.failed status (.ok (response, room)))

theorem mem_answers_drainIntentsOnError {answer : Answer} (h : answer ∈ session.answers)
    (error : Error) : answer ∈ (session.drainIntentsOnError error).answers :=
  List.mem_append_left _ h

theorem mem_answers_handled {worker : Worker} {answers : List Answer} {answer : Answer}
    (h : answer ∈ answers) (error : Option Error) :
    answer ∈ (session.handled worker answers error).answers := by
  have hmem : answer ∈ session.answers ++ answers := List.mem_append_right _ h
  unfold handled
  cases error with
  | some error => exact mem_answers_drainIntentsOnError hmem error
  | none =>
    dsimp only
    split
    · exact hmem
    · exact hmem

theorem mem_answers_reconnected {response : BidiWriteObjectResponse} {worker : Worker}
    {answers : List Answer} {error : Option Error}
    (hresponse : session.worker.handleResponseSuccess crc32c response = (worker, answers, error))
    {answer : Answer} (hmem : answer ∈ answers) (room : ℕ) :
    answer ∈ (session.reconnected crc32c (.ok (response, room))).answers := by
  unfold reconnected
  cases error with
  | none =>
    obtain ⟨flag, connection, hreconnect, -⟩ := Worker.reconnect_ok hresponse
    rw [hreconnect]
    exact List.mem_append_right _ hmem
  | some error =>
    rw [Worker.reconnect_refused hresponse]
    exact mem_answers_drainIntentsOnError (List.mem_append_right _ hmem) error

/-- What the worker answers to a response, its session records. -/
theorem mem_answers_of_reports {response : BidiWriteObjectResponse} {message : Message}
    (hpending : session.worker.pendingRequests ≠ []) (h : Reports session response message)
    {worker : Worker} {answers : List Answer} {error : Option Error}
    (hresponse : session.worker.handleResponseSuccess crc32c response = (worker, answers, error))
    {answer : Answer} (hmem : answer ∈ answers) :
    answer ∈ (session.handleMessage crc32c message).answers := by
  have hincomplete : session.worker.isComplete = false := by
    simp [Worker.isComplete, hpending]
  cases h with
  | stream hphase =>
    rw [handleMessage_response hphase hresponse]
    exact mem_answers_handled hmem error
  | closed room hphase =>
    rw [handleMessage_lost hphase hincomplete rfl]
    exact mem_answers_reconnected hresponse hmem room
  | failed status room hphase =>
    rw [handleMessage_lost hphase hincomplete rfl]
    exact mem_answers_reconnected hresponse hmem room

/-- A finalize request that waits behind no flush is answered by a finalized object that reaches
its offset. -/
theorem finalize_answered {before after : List PendingRequest} {pending : PendingRequest}
    {response : BidiWriteObjectResponse} {size : ℤ}
    (hqueue : session.worker.pendingRequests = before ++ pending :: after)
    (hkind : pending.kind = .finalize) (hreached : pending.request.writeOffset ≤ size)
    (hbefore : ∀ earlier ∈ before, earlier.kind = .finalize ∧ earlier.request.writeOffset ≤ size)
    (hfinalized : response.isFinalized = true) (hsize : response.persistedSize = some size)
    (hge : session.worker.persistedSize ≤ size) (hle : size ≤ session.worker.maxSentOffset)
    {message : Message} (hreports : Reports session response message) :
    pending.complete (.ok response) ∈ (session.handleMessage crc32c message).answers := by
  obtain ⟨error, hresponse⟩ := Worker.handleResponseSuccess_of_bounds crc32c hsize hge hle
  refine mem_answers_of_reports (by simp [hqueue]) hreports hresponse (List.mem_map_of_mem ?_)
  have hsatisfied : ∀ earlier ∈ before ++ [pending],
      earlier.isSatisfied response size = true := by
    intro earlier hmem
    have hearlier : earlier.kind = .finalize ∧ earlier.request.writeOffset ≤ size := by
      rcases List.mem_append.mp hmem with hmem | hmem
      · exact hbefore earlier hmem
      · rw [List.mem_singleton.mp hmem]
        exact ⟨hkind, hreached⟩
    simp [PendingRequest.isSatisfied, hearlier.1, hfinalized, Int.not_lt.mpr hearlier.2]
  have hsplit : session.worker.quiet.pendingRequests = (before ++ [pending]) ++ after := by
    simp [Worker.quiet, hqueue]
  rw [hsplit, List.takeWhile_append_of_pos hsatisfied]
  simp

/-- Flush and finalize requests are answered in the order in which they are made, none twice. When
`run` fails every request has been answered, with the error or by a response that confirmed it. A
message of the server ends `run` with `Ok` only if the caller asked to finalize and waits for
nothing, or if the intent channel was closed before the stream. A finalized object of an acceptable
size answers a finalize request that waits behind no flush. -/
theorem requests_answered_in_order (crc32c : Bytes → UInt32) (replayBuffer : ReplayBuffer)
    (persistedSize : ℤ) (room : ℕ) (events : List Event) :
    let session := run crc32c (new ((Worker.withReplayBuffer replayBuffer).withPersistedSize
      persistedSize) room) events
    session.answers.map (·.pending.sender) = List.range session.answers.length ∧
    (∀ error, session.phase = .returned (.error error) →
      session.answers.length = session.made ∧
      ∀ answer ∈ session.answers,
        (∃ response, answer.result = .ok response ∧ Confirms response answer.pending) ∨
        answer.result = .error error) ∧
    (∀ event, (∀ result, session.phase ≠ .returned result) →
      (session.handle crc32c event).phase = .returned (.ok ()) →
      session.worker.isComplete = true ∨
        session.phase = .completing ∧ ∃ reconnection, event = .message (.closed reconnection)) ∧
    (∀ before pending after response size message,
      session.worker.pendingRequests = before ++ pending :: after →
      pending.kind = .finalize → pending.request.writeOffset ≤ size →
      (∀ earlier ∈ before, earlier.kind = .finalize ∧ earlier.request.writeOffset ≤ size) →
      response.isFinalized = true → response.persistedSize = some size →
      session.worker.persistedSize ≤ size → size ≤ session.worker.maxSentOffset →
      Reports session response message →
      pending.complete (.ok response) ∈
        (session.handle crc32c (.message message)).answers) := by
  intro session
  have hledger : Ledger session := ledger_run replayBuffer persistedSize room events
  refine ⟨hledger.answers_senders, ?_, ?_, ?_⟩
  · intro error hphase
    refine ⟨hledger.all_answered hphase, ?_⟩
    intro answer hmem
    rcases hledger.answered answer hmem with hok | ⟨other, hresult, hother⟩
    · exact .inl hok
    · cases hphase.symm.trans hother
      exact .inr hresult
  · exact fun event hphase h => returned_ok_cases hphase h
  · intro before pending after response size message hqueue hkind hreached hbefore hfinalized hsize
      hge hle hreports
    exact finalize_answered hqueue hkind hreached hbefore hfinalized hsize hge hle hreports

/-- Once the intent channel is closed a close of the stream ends `run` without a finalize request.
An object with more bytes than were sent fails the finalize request it would confirm, and so does
a flush that waits before it. -/
theorem finalize_without_ok :
    let start := new ((Worker.withReplayBuffer .new).withPersistedSize 5) 8
    let finalize : BidiWriteObjectRequest := { writeOffset := 5, flush := true, finishWrite := true }
    let flush : BidiWriteObjectRequest := { writeOffset := 5, flush := true, stateLookup := true }
    let finalized (size : ℤ) : Event := .message (.response ⟨some (.resource ⟨size, some 0⟩)⟩)
    let closed := run (fun _ => 0) start
      [.close, .intent, .message (.closed (.error (.connector "no stream")))]
    let larger := run (fun _ => 0) start [.finalize finalize (by decide), .intent, finalized 9]
    let waiting := run (fun _ => 0) start
      [.flush flush (by decide), .finalize finalize (by decide), .intent, .intent, finalized 5]
    (closed.phase = .returned (.ok ()) ∧ closed.worker.finalized = false) ∧
    larger.answers.map (·.result.toOption) = [none] ∧
    waiting.answers.map (·.result.toOption) = [none, none] := by
  refine ⟨⟨rfl, rfl⟩, rfl, rfl⟩

end Session

end GoogleCloudRust.BidiWrite
