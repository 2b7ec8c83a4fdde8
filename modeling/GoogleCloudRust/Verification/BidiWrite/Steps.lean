import GoogleCloudRust.Model.BidiWrite

/-! # What the worker of an appendable upload does -/

namespace GoogleCloudRust.BidiWrite

variable {crc32c : Bytes → UInt32}

namespace Worker

/-- A worker that awaits no answer of its own. -/
def quiet (worker : Worker) : Worker := { worker with selfFlushOutstanding := false }

inductive HandledResponse (crc32c : Bytes → UInt32) (worker : Worker)
    (response : BidiWriteObjectResponse) : Worker × List Answer × Option Error → Prop
  | ignored (hnone : response.persistedSize = none) :
      HandledResponse crc32c worker response (worker.quiet, [], none)
  | refused (size : ℤ) (error : Error) (hsize : response.persistedSize = some size)
      (hout : size < worker.persistedSize ∨ worker.maxSentOffset < size) :
      HandledResponse crc32c worker response (worker.quiet, [], some error)
  | acknowledged (size : ℤ) (error : Option Error) (hsize : response.persistedSize = some size)
      (hge : worker.persistedSize ≤ size) (hle : size ≤ worker.maxSentOffset) :
      HandledResponse crc32c worker response
        ((worker.quiet.acknowledge crc32c response size).1,
          (worker.quiet.acknowledge crc32c response size).2, error)

theorem handledResponse (worker : Worker) (response : BidiWriteObjectResponse) :
    HandledResponse crc32c worker response (worker.handleResponseSuccess crc32c response) := by
  unfold handleResponseSuccess
  cases hsize : response.persistedSize with
  | none => exact .ignored hsize
  | some size =>
    dsimp only
    split
    case isTrue hlt => exact .refused size _ hsize (.inl hlt)
    case isFalse hge =>
      split
      case isTrue hgt => exact .refused size _ hsize (.inr hgt)
      case isFalse hle =>
        split
        · exact .acknowledged size _ hsize (Int.not_lt.mp hge) (Int.not_lt.mp hle)
        · exact .acknowledged size _ hsize (Int.not_lt.mp hge) (Int.not_lt.mp hle)

theorem handleResponseSuccess_of_bounds (crc32c : Bytes → UInt32) {worker : Worker}
    {response : BidiWriteObjectResponse} {size : ℤ}
    (hsize : response.persistedSize = some size) (hge : worker.persistedSize ≤ size)
    (hle : size ≤ worker.maxSentOffset) :
    ∃ error, worker.handleResponseSuccess crc32c response =
      ((worker.quiet.acknowledge crc32c response size).1,
        (worker.quiet.acknowledge crc32c response size).2, error) := by
  cases hresult : worker.handleResponseSuccess crc32c response with
  | mk worker' rest =>
    have hhandled : HandledResponse crc32c worker response _ := handledResponse worker response
    rw [hresult] at hhandled
    cases hhandled with
    | ignored hnone => cases hsize.symm.trans hnone
    | refused other error hother hout =>
      cases Option.some.inj (hsize.symm.trans hother)
      omega
    | acknowledged other error hother =>
      cases Option.some.inj (hsize.symm.trans hother)
      exact ⟨error, rfl⟩

theorem processIntent_pending (worker : Worker) (intent : UploadIntent) :
    (worker.processIntent crc32c intent).1.pendingRequests =
      worker.pendingRequests ++ intent.pending.toList := by
  cases intent with
  | append request =>
    have hnone : (UploadIntent.append request).pending.toList = [] := rfl
    rw [hnone, List.append_nil, processIntent]
    split <;> split <;> rfl
  | flush request sender flags => rfl
  | finalize request sender flags => rfl

/-- A probe changes nothing but the flag, and carries no data. -/
theorem maybeSendWatermarkFlush_cases (worker : Worker) (connection : Connection) :
    ∃ selfFlushOutstanding connection', worker.maybeSendWatermarkFlush connection =
        ({ worker with selfFlushOutstanding }, connection') ∧
      (connection' = connection ∨ ∃ request : BidiWriteObjectRequest,
        request.data = none ∧ connection' = (connection.send request).1) := by
  unfold maybeSendWatermarkFlush
  split
  case h_1 writeOffset _ _ =>
    cases hsend : connection.send { writeOffset, flush := true, stateLookup := true } with
    | mk connection' sent =>
      have hsent : connection' =
          (connection.send { writeOffset, flush := true, stateLookup := true }).1 := by
        rw [hsend]
      cases sent with
      | true => exact ⟨true, connection', rfl, .inr ⟨_, rfl, hsent⟩⟩
      | false => exact ⟨worker.selfFlushOutstanding, connection', rfl, .inr ⟨_, rfl, hsent⟩⟩
  case h_2 => exact ⟨worker.selfFlushOutstanding, connection, rfl, .inl rfl⟩

/-- A successful reconnection: the response to the handshake is handled, then everything that is
not acknowledged is sent again, and maybe a probe after it. -/
theorem reconnect_ok {worker worker' : Worker} {response : BidiWriteObjectResponse} {room : ℕ}
    {answers : List Answer}
    (h : worker.handleResponseSuccess crc32c response = (worker', answers, none)) :
    ∃ selfFlushOutstanding connection, worker.reconnect crc32c (.ok (response, room)) =
        ({ worker' with selfFlushOutstanding }, answers, .ok connection) ∧
      (connection = (Connection.sendAll { room } worker'.toResend).1 ∨
        ∃ request : BidiWriteObjectRequest, request.data = none ∧
          connection =
            ((Connection.sendAll { room } worker'.toResend).1.send request).1) := by
  simp only [reconnect, h]
  cases Connection.sendAll { room } worker'.toResend with
  | mk connection sent =>
    cases sent with
    | false => exact ⟨worker'.selfFlushOutstanding, connection, rfl, .inl rfl⟩
    | true =>
      obtain ⟨flag, connection', hprobe, hconnection⟩ :=
        worker'.maybeSendWatermarkFlush_cases connection
      simp only [hprobe]
      exact ⟨flag, connection', rfl, hconnection⟩

theorem reconnect_refused {worker worker' : Worker} {response : BidiWriteObjectResponse} {room : ℕ}
    {answers : List Answer} {error : Error}
    (h : worker.handleResponseSuccess crc32c response = (worker', answers, some error)) :
    worker.reconnect crc32c (.ok (response, room)) = (worker', answers, .error error) := by
  simp only [reconnect, h]

end Worker

namespace Session

variable {session : Session}

/-- The requests that wait for an answer, in the order in which they were made. -/
def outstanding (session : Session) : List PendingRequest :=
  session.worker.pendingRequests ++ session.pendingIntents

inductive HandledIntent (crc32c : Bytes → UInt32) (session : Session) : Session → Prop
  | waits : HandledIntent crc32c session session
  | processed (intent : UploadIntent) (requests : List UploadIntent) (worker : Worker)
      (request : BidiWriteObjectRequest) (hphase : session.phase = .running)
      (hrequests : session.requests = intent :: requests)
      (hprocess : session.worker.processIntent crc32c intent = (worker, request)) :
      HandledIntent crc32c session
        { session with worker, requests, connection := (session.connection.send request).1 }
  | closed (hphase : session.phase = .running) :
      HandledIntent crc32c session { session with phase := .completing }

theorem handledIntent (session : Session) :
    HandledIntent crc32c session (session.handleIntent crc32c) := by
  fun_cases handleIntent crc32c session with
  | case1 intent requests hrequests hfull hphase worker request hprocess =>
    exact .processed intent requests worker request hphase hrequests hprocess
  | case2 => exact .waits
  | case3 hrequests hfull hphase => exact .closed hphase
  | case4 => exact .waits

def Message.reconnection : Message → Option Worker.Reconnection
  | .response _ => none
  | .closed reconnection | .failed _ reconnection => some reconnection

inductive HandledMessage (crc32c : Bytes → UInt32) (session : Session) :
    Message → Session → Prop
  | ended (message : Message) (result : Except Error Unit)
      (hphase : session.phase = .returned result) : HandledMessage crc32c session message session
  | response (response : BidiWriteObjectResponse) (worker : Worker) (answers : List Answer)
      (error : Option Error) (hphase : ∀ result, session.phase ≠ .returned result)
      (hresponse : session.worker.handleResponseSuccess crc32c response =
        (worker, answers, error)) :
      HandledMessage crc32c session (.response response) (session.handled worker answers error)
  | finished (message : Message) (hphase : ∀ result, session.phase ≠ .returned result)
      (hcomplete : session.worker.isComplete = true) :
      HandledMessage crc32c session message { session with phase := .returned (.ok ()) }
  | reconnected (message : Message) (reconnection : Worker.Reconnection)
      (hmessage : message.reconnection = some reconnection) (hphase : session.phase = .running) :
      HandledMessage crc32c session message (session.reconnected crc32c reconnection)
  | closed (reconnection : Worker.Reconnection) (hphase : session.phase = .completing) :
      HandledMessage crc32c session (.closed reconnection)
        { session with phase := .returned (.ok ()) }
  | failed (status : String) (reconnection : Worker.Reconnection)
      (hphase : session.phase = .completing) :
      HandledMessage crc32c session (.failed status reconnection)
        (session.drainIntentsOnError (.status status))

theorem handledMessage (session : Session) (message : Message) :
    HandledMessage crc32c session message (session.handleMessage crc32c message) := by
  fun_cases handleMessage crc32c session message with
  | case1 message result hphase => exact .ended message result hphase
  | case2 response worker answers error hresponse hphase =>
    exact .response response worker answers error hphase hresponse
  | case3 reconnection hphase hcomplete => exact .finished _ (by simp [hphase]) hcomplete
  | case4 reconnection hphase => exact .reconnected _ reconnection rfl hphase
  | case5 status reconnection hphase hcomplete => exact .finished _ (by simp [hphase]) hcomplete
  | case6 status reconnection hphase => exact .reconnected _ reconnection rfl hphase
  | case7 reconnection hphase => exact .closed reconnection hphase
  | case8 status reconnection hphase hcomplete => exact .finished _ (by simp [hphase]) hcomplete
  | case9 status reconnection hphase => exact .failed status reconnection hphase

theorem handleMessage_response (hphase : ∀ result, session.phase ≠ .returned result)
    {response : BidiWriteObjectResponse} {worker : Worker} {answers : List Answer}
    {error : Option Error}
    (hresponse : session.worker.handleResponseSuccess crc32c response = (worker, answers, error)) :
    session.handleMessage crc32c (.response response) = session.handled worker answers error := by
  cases hcase : session.phase with
  | returned result => exact absurd hcase (hphase result)
  | running => simp only [handleMessage, hcase, hresponse]
  | completing => simp only [handleMessage, hcase, hresponse]

theorem handleMessage_lost (hphase : session.phase = .running)
    (hincomplete : session.worker.isComplete = false) {message : Message}
    {reconnection : Worker.Reconnection} (hmessage : message.reconnection = some reconnection) :
    session.handleMessage crc32c message = session.reconnected crc32c reconnection := by
  cases message with
  | response => cases hmessage
  | closed other =>
    cases hmessage
    simp [handleMessage, hphase, hincomplete]
  | failed status other =>
    cases hmessage
    simp [handleMessage, hphase, hincomplete]

end Session

end GoogleCloudRust.BidiWrite
