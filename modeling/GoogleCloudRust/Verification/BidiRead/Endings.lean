import GoogleCloudRust.Verification.BidiRead.Senders

/-! # How reads end

A reader sees the end of its data when its channel is closed. Apart from two kinds of messages,
the worker lets go of a read only after its last response or after an error was sent. -/

namespace GoogleCloudRust.Bidi

namespace RangeReader

variable {reader : RangeReader} {isOpen ended : Prop}

/-- The reader has an error in its channel, or has returned one. -/
def Interrupted (reader : RangeReader) : Prop :=
  (∃ e, .error e ∈ reader.inner) ∨ ∃ e, some (.error e) ∈ reader.returned

/-- A reader that waits for nothing has its last response or an error, and reports the end of
its data only then. -/
structure EndsWell (reader : RangeReader) (isOpen ended : Prop) : Prop where
  live : reader.dropped = false → isOpen ∨ ended ∨ reader.Interrupted
  exhausted : reader.exhausted = true → ended ∨ ∃ e, some (.error e) ∈ reader.returned
  returned : ∀ before rest, reader.returned = before ++ none :: rest →
    ended ∨ ∃ e, some (.error e) ∈ before

theorem endsWell_new (range : RequestedRange) (ended : Prop) :
    ({ range := range } : RangeReader).EndsWell True ended := by
  refine ⟨fun _ => .inl trivial, fun h => absurd h (by simp), fun before rest h => ?_⟩
  simp at h

theorem EndsWell.mono (h : reader.EndsWell isOpen ended) {isOpen' ended' : Prop}
    (hopen : reader.dropped = false → isOpen → isOpen' ∨ ended') (hended : ended → ended') :
    reader.EndsWell isOpen' ended' := by
  refine ⟨fun hlive => ?_, fun hexhausted => ?_, fun before rest hreturned => ?_⟩
  · rcases h.live hlive with ho | he | hinterrupted
    · rcases hopen hlive ho with ho | he
      · exact .inl ho
      · exact .inr (.inl he)
    · exact .inr (.inl (hended he))
    · exact .inr (.inr hinterrupted)
  · exact (h.exhausted hexhausted).imp_left hended
  · exact (h.returned before rest hreturned).imp_left hended

theorem EndsWell.push (h : reader.EndsWell isOpen ended) (message : Except ReadError Bytes) :
    (reader.push message).EndsWell isOpen ended := by
  rw [RangeReader.push]
  split
  · exact h
  · refine ⟨fun hlive => ?_, h.exhausted, h.returned⟩
    refine (h.live hlive).imp_right fun hended => hended.imp_right fun hinterrupted => ?_
    rcases hinterrupted with ⟨e, hmem⟩ | hreturned
    · exact .inl ⟨e, List.mem_append_left _ hmem⟩
    · exact .inr hreturned

theorem EndsWell.push_error (h : reader.EndsWell isOpen ended) (e : ReadError) (isOpen' : Prop) :
    (reader.push (.error e)).EndsWell isOpen' ended := by
  rw [RangeReader.push]
  split
  case isTrue hdropped => exact h.mono (fun hlive => absurd hdropped (by simp [hlive])) id
  case isFalse => exact ⟨fun _ => .inr (.inr (.inl ⟨e, by simp⟩)), h.exhausted, h.returned⟩

theorem EndsWell.push_iterate (h : reader.EndsWell isOpen ended)
    (message : Except ReadError Bytes) (count : ℕ) :
    ((fun r => r.push message)^[count] reader).EndsWell isOpen ended := by
  induction count with
  | zero => exact h
  | succ count ih =>
      rw [Function.iterate_succ_apply']
      exact ih.push message

theorem EndsWell.drop (h : reader.EndsWell isOpen ended) :
    ({ reader with dropped := true, inner := [] } : RangeReader).EndsWell isOpen ended :=
  ⟨fun hlive => absurd hlive (by simp), h.exhausted, h.returned⟩

/-- One more value is returned; the end is one only after the last response or an error. -/
theorem EndsWell.returned_concat (h : reader.EndsWell isOpen ended)
    {value : Option (Except Error Bytes)}
    (hvalue : value = none → ended ∨ ∃ e, some (.error e) ∈ reader.returned) :
    ∀ before rest, reader.returned ++ [value] = before ++ none :: rest →
      ended ∨ ∃ e, some (.error e) ∈ before := by
  intro before rest heq
  obtain rfl | ⟨rest, last, rfl⟩ := rest.eq_nil_or_concat
  · obtain ⟨rfl, hlast⟩ := List.append_inj' heq rfl
    cases hlast
    exact hvalue rfl
  · rw [List.concat_eq_append, ← List.cons_append, ← List.append_assoc] at heq
    obtain ⟨hbefore, -⟩ := List.append_inj' heq rfl
    exact h.returned before rest hbefore

theorem Interrupted.concat (h : reader.Interrupted) (value : Option (Except Error Bytes)) :
    ({ reader with returned := reader.returned ++ [value] } : RangeReader).Interrupted := by
  rcases h with hinner | ⟨e, hmem⟩
  · exact .inl hinner
  · exact .inr ⟨e, List.mem_append_left _ hmem⟩

theorem EndsWell.next (h : reader.EndsWell isOpen ended) (hlive : reader.dropped = false)
    {closed : Bool} (hclosed : closed = true → ¬ isOpen) :
    (reader.next closed).EndsWell isOpen ended := by
  rw [RangeReader.next]
  split
  case isTrue hexhausted =>
    have hend := h.exhausted hexhausted
    refine ⟨fun _ => (h.live hlive).imp_right fun hended => hended.imp_right (·.concat none),
      fun _ => ?_, h.returned_concat fun _ => hend⟩
    exact hend.imp_right fun ⟨e, hmem⟩ => ⟨e, List.mem_append_left _ hmem⟩
  case isFalse hexhausted =>
    split
    case h_1 b inner hinner =>
      refine ⟨fun _ => ?_, fun hnow => absurd hnow hexhausted, h.returned_concat (by simp)⟩
      refine (h.live hlive).imp_right fun hended => hended.imp_right fun hinterrupted => ?_
      rcases hinterrupted with ⟨e, hmem⟩ | ⟨e, hmem⟩
      · rw [hinner] at hmem
        exact .inl ⟨e, by simpa using hmem⟩
      · exact .inr ⟨e, List.mem_append_left _ hmem⟩
    case h_2 e inner hinner =>
      have hmem : some (.error (.io e)) ∈ reader.returned ++ [some (.error (.io e))] :=
        List.mem_append_right _ (by simp)
      exact ⟨fun _ => .inr (.inr (.inr ⟨_, hmem⟩)), fun _ => .inr ⟨_, hmem⟩,
        h.returned_concat (by simp)⟩
    case h_3 hinner =>
      split
      case isFalse => exact h
      case isTrue hnow =>
        have hend : ended ∨ ∃ e, some (.error e) ∈ reader.returned := by
          rcases h.live hlive with ho | hended | ⟨e, hmem⟩ | hreturned
          · exact absurd ho (hclosed hnow)
          · exact .inl hended
          · rw [hinner] at hmem
            cases hmem
          · exact .inr hreturned
        have hlater : ended ∨ ∃ e, some (.error e) ∈ reader.returned ++ [none] := by
          rcases hend with hended | ⟨e, hmem⟩
          · exact .inl hended
          · exact .inr ⟨e, List.mem_append_left _ hmem⟩
        exact ⟨fun _ => .inr (hlater.imp_right .inr), fun _ => hlater,
          h.returned_concat fun _ => hend⟩

end RangeReader

namespace Session

variable {crc32c : Bytes → UInt32} {session : Session} {response : ObjectRangeData}

def EndsWell (session : Session) : Prop :=
  ∀ index (reader : RangeReader), session.readers[index]? = some reader →
    reader.EndsWell (session.Open index) (index ∈ session.finished)

/-! ## Responses -/

/-- The last response for a live reader is not accepted. -/
def Loses (crc32c : Bytes → UInt32) (session : Session) (response : ObjectRangeData) : Prop :=
  response.rangeEnd = true ∧ ∃ range active reader, response.readRange = some range ∧
    session.ranges.lookup range.readId = some active ∧
    session.readers[active.sender]? = some reader ∧ reader.dropped = false ∧
    ¬ (active.state.Fits range ∧
      ActiveRead.DataFits crc32c active.state range true response.checksummedData)

theorem not_loses_of_ok (h : (session.handleRangeData crc32c response).2 = .ok ()) :
    ¬ session.Loses crc32c response := by
  rintro ⟨hend, range, active, reader, hrange, hlookup, -, -, hfits⟩
  have hhandled := handled crc32c session response
  generalize session.handleRangeData crc32c response = outcome at h hhandled
  cases hhandled with
  | unknown e hactive => cases h
  | rejected range pending active e hrange hlookup hdata => cases h
  | accepted other pending updated hother hpending hdata =>
      cases hrange.symm.trans hother
      cases hlookup.symm.trans hpending
      rw [hend] at hdata
      exact hfits (ActiveRead.handleData_fits (congrArg Prod.snd hdata))

/-- A response can close only the channel of its read. -/
theorem open_updated {id : ℤ} {pending active : ActiveRead} {index : ℕ}
    (hlookup : session.ranges.lookup id = some pending) (hsender : active.sender = pending.sender)
    (h : session.Open index) :
    { session with ranges := session.updated response id active }.Open index ∨
      (response.rangeEnd = true ∧ pending.sender = index) := by
  rcases h with ⟨other, found, hfound, hindex⟩ | hrequest
  · by_cases heq : other = id
    · subst heq
      cases hlookup.symm.trans hfound
      by_cases hend : response.rangeEnd = true
      · exact .inr ⟨hend, hindex⟩
      · refine .inl (.inl ⟨other, active, ?_, hsender.trans hindex⟩)
        simp [updated, hend]
    · refine .inl (.inl ⟨other, found, ?_, hindex⟩)
      by_cases hend : response.rangeEnd = true
      · simp [updated, hend, heq, hfound]
      · simp [updated, hend, heq, hfound]
  · exact .inl (.inr hrequest)

theorem EndsWell.send (h : session.EndsWell) (sender : ℕ) (message : Except ReadError Bytes) :
    (session.send sender message).EndsWell := by
  intro index reader hreader
  rw [getElem?_send] at hreader
  obtain ⟨before, hbefore, rfl⟩ := Option.map_eq_some_iff.mp hreader
  split
  · exact (h index before hbefore).push message
  · exact h index before hbefore

theorem EndsWell.handle (h : session.EndsWell) (handler : Handler) :
    (session.handle handler).EndsWell := by
  cases handler with
  | noData => exact h
  | send sender data => exact h.send sender (.ok data)

theorem EndsWell.handleRangeData (h : session.EndsWell)
    (hloses : ¬ session.Loses crc32c response) :
    (session.handleRangeData crc32c response).1.EndsWell := by
  have hhandled := handled crc32c session response
  generalize session.handleRangeData crc32c response = outcome at hhandled ⊢
  cases hhandled with
  | unknown e hactive => exact h
  | rejected range pending active e hrange hlookup hdata =>
      have hsender : active.sender = pending.sender := by
        rw [← ActiveRead.handleData_sender pending, hdata]
      intro index reader hreader
      refine (h index reader hreader).mono (fun hlive hopen => ?_) id
      refine .inl ((open_updated hlookup hsender hopen).resolve_right ?_)
      -- the read was removed, and its reader would never hear of the error
      rintro ⟨hend, rfl⟩
      refine hloses ⟨hend, range, pending, reader, hrange, hlookup, hreader, hlive, ?_⟩
      rintro ⟨hfits, hdataFits⟩
      rw [hend, ActiveRead.handleData_eq hfits hdataFits] at hdata
      cases hdata
  | accepted range pending active hrange hlookup hdata =>
      have hsender : active.sender = pending.sender := by
        rw [← ActiveRead.handleData_sender pending, hdata]
      refine EndsWell.handle (fun index reader hreader => ?_) _
      refine (h index reader hreader).mono (fun _ hopen => ?_) fun hfinished => ?_
      · refine (open_updated hlookup hsender hopen).imp_right ?_
        rintro ⟨hend, rfl⟩
        simp [hend]
      · dsimp only
        split
        · exact List.mem_append_left _ hfinished
        · exact hfinished

theorem EndsWell.after (h : session.EndsWell) {data : List ObjectRangeData}
    (hloses : ∀ before response rest, data = before ++ response :: rest →
      ¬ (session.after crc32c before).Loses crc32c response) :
    (session.after crc32c data).EndsWell := by
  induction data generalizing session with
  | nil => exact h
  | cons response data ih =>
      refine ih (h.handleRangeData (hloses [] response data rfl)) ?_
      rintro before later rest rfl
      exact hloses (response :: before) later rest rfl

theorem EndsWell.closeReaders (h : session.EndsWell) (error : Error) :
    (session.closeReaders error).EndsWell := by
  obtain ⟨readers, hclose, -, hreaders⟩ := closeReaders_eq session error
  rw [hclose]
  intro index reader hreader
  rw [hreaders] at hreader
  obtain ⟨before, hbefore, rfl⟩ := Option.map_eq_some_iff.mp hreader
  have hwell := h index before hbefore
  cases hcount : session.ranges.entries.countP fun entry => entry.2.sender = index with
  | zero =>
      refine hwell.mono (fun _ hopen => .inl ?_) id
      rcases hopen with ⟨id, active, hlookup, hsender⟩ | hrequest
      · have hne := List.countP_eq_zero.mp hcount ⟨id, active⟩ (AList.mem_lookup_iff.mp hlookup)
        exact absurd hsender (by simpa using hne)
      · exact .inr hrequest
  | succ count =>
      dsimp only
      rw [Function.iterate_succ_apply']
      exact (hwell.push_iterate _ count).push_error _ _

theorem EndsWell.exit (h : session.EndsWell)
    (hopen : ∀ index reader, session.readers[index]? = some reader →
      reader.dropped = false → ¬ session.Open index) :
    session.exit.EndsWell := by
  intro index reader hreader
  exact (h index reader hreader).mono
    (fun hlive hwas => absurd hwas (hopen index reader hreader hlive)) id

theorem EndsWell.exit_of_requestsClosed (h : session.EndsWell)
    (hclosed : session.requestsClosed = true) : session.exit.EndsWell := by
  refine h.exit fun index reader hreader hlive => ?_
  have hdropped : session.readers.all RangeReader.dropped = true := by
    simp only [requestsClosed, Bool.and_eq_true] at hclosed
    exact hclosed.2
  rw [List.all_eq_true.mp hdropped reader (List.mem_of_getElem? hreader)] at hlive
  cases hlive

/-! ## Requests -/

theorem EndsWell.insertNext (h : session.EndsWell) (hseparate : session.Separate) {active : ActiveRead}
    {requests : List ActiveRead} (hrequests : session.requests = active :: requests) :
    (session.insertNext active requests).EndsWell := by
  intro index reader hreader
  refine (h index reader hreader).mono (fun _ hopen => .inl ?_) id
  rcases hopen with ⟨id, found, hfound, hsender⟩ | ⟨found, hmem, hsender⟩
  · have hne : id ≠ session.nextRangeId := ne_of_lt (hseparate.fresh id found hfound)
    exact .inl ⟨id, found, by simp [Session.insertNext, hne, hfound], hsender⟩
  · rw [hrequests] at hmem
    rcases List.mem_cons.mp hmem with rfl | hmem
    · exact .inl ⟨session.nextRangeId, found, by simp [Session.insertNext], hsender⟩
    · exact .inr ⟨found, hmem, hsender⟩

theorem EndsWell.insertRanges (h : session.EndsWell) (hseparate : session.Separate)
    {taken rest : List ActiveRead} (hrequests : session.requests = taken ++ rest) :
    ({ session with requests := rest }.insertRanges taken).1.EndsWell :=
  (insertRanges_rule (fun s _ => s.Separate ∧ s.EndsWell)
    (fun _ _ _ _ hnext hs => ⟨hs.1.insertNext hnext, hs.2.insertNext hs.1 hnext⟩)
    hrequests [] ⟨hseparate, h⟩).2

theorem EndsWell.recvMany (h : session.EndsWell) (hseparate : session.Separate) :
    session.recvMany.EndsWell := by
  rw [Session.recvMany]
  split
  · split
    case isTrue hclosed => exact h.exit_of_requestsClosed hclosed
    case isFalse => exact h
  · exact h.insertRanges hseparate (List.take_append_drop 16 session.requests).symm

theorem EndsWell.interruptNext (h : session.EndsWell) (error : Error) :
    (session.interruptNext error).EndsWell := by
  rw [Session.interruptNext]
  split
  case h_1 r requests hrequests =>
    intro index reader hreader
    rw [interrupted, getElem?_send] at hreader
    obtain ⟨before, hbefore, rfl⟩ := Option.map_eq_some_iff.mp hreader
    have hwell := h index before hbefore
    split
    · exact hwell.push_error _ _
    case isFalse hne =>
      refine hwell.mono (fun _ hopen => .inl ?_) id
      rcases hopen with hrange | ⟨active, hmem, hsender⟩
      · exact .inl hrange
      · rw [hrequests] at hmem
        rcases List.mem_cons.mp hmem with rfl | hmem
        · exact absurd hsender hne
        · exact .inr ⟨active, hmem, hsender⟩
  case h_2 =>
    split
    case isTrue hclosed => exact h.exit_of_requestsClosed hclosed
    case isFalse => exact h

/-! ## The application -/

theorem EndsWell.readRange (h : session.EndsWell) (range : RequestedRange) :
    (session.readRange range).EndsWell := by
  intro index reader hreader
  simp only [Session.readRange, mapRange, List.getElem?_append] at hreader
  split at hreader
  · refine (h index reader hreader).mono (fun _ hopen => .inl ?_) id
    rcases hopen with hrange | ⟨active, hmem, hsender⟩
    · exact .inl hrange
    · exact .inr ⟨active, List.mem_append_left _ hmem, hsender⟩
  case isFalse hge =>
    obtain ⟨hlt, hnew⟩ := List.getElem?_eq_some_iff.mp hreader
    obtain rfl : index = session.readers.length := by
      simp only [List.length_singleton] at hlt
      omega
    simp only [Nat.sub_self, List.getElem_cons_zero] at hnew
    subst hnew
    have hopen : (session.readRange range).Open session.readers.length :=
      .inr ⟨.new session.readers.length range, List.mem_append_right _ (by simp), rfl⟩
    exact (RangeReader.endsWell_new range _).mono (fun _ _ => .inl hopen) id

/-- A reader is changed where it is. -/
theorem EndsWell.modify (h : session.EndsWell) (index : ℕ) (f : RangeReader → RangeReader)
    (hf : ∀ reader, reader.EndsWell (session.Open index) (index ∈ session.finished) →
      (f reader).EndsWell (session.Open index) (index ∈ session.finished)) :
    { session with readers := session.readers.modify index f }.EndsWell := by
  intro other reader hreader
  rw [List.getElem?_modify] at hreader
  obtain ⟨before, hbefore, rfl⟩ := Option.map_eq_some_iff.mp hreader
  have hwell := h other before hbefore
  split
  case isTrue heq =>
    subst heq
    exact hf before hwell
  case isFalse => exact hwell

theorem EndsWell.next (h : session.EndsWell) (index : ℕ) : (session.next index).EndsWell := by
  refine h.modify index _ fun reader hreader => ?_
  split
  · exact hreader
  case isFalse hlive =>
    refine hreader.next (Bool.eq_false_of_not_eq_true hlive) fun hclosed hopen => ?_
    rw [(isOpen_iff session index).mpr hopen] at hclosed
    cases hclosed

theorem EndsWell.dropReader (h : session.EndsWell) (index : ℕ) :
    (session.dropReader index).EndsWell :=
  h.modify index _ fun _ hreader => hreader.drop

/-! ## Runs -/

/-- What the worker is not prepared for: a last response that it does not accept, and the end of
the stream while a reader waits. -/
def Keeps (crc32c : Bytes → UInt32) (session : Session) : Event → Prop
  | .message (.response data) | .message (.failed (.ok data)) =>
      session.phase = .running → ∀ before response rest, data = before ++ response :: rest →
        ¬ (session.after crc32c before).Loses crc32c response
  | .message .closed =>
      session.phase = .running → ∀ index reader, session.readers[index]? = some reader →
        reader.dropped = false → ¬ session.Open index
  | _ => True

theorem EndsWell.receive (h : session.EndsWell) {data : List ObjectRangeData}
    (hloses : ∀ before response rest, data = before ++ response :: rest →
      ¬ (session.after crc32c before).Loses crc32c response) :
    (session.receive crc32c (.response data)).EndsWell := by
  have hafter := h.after hloses
  rcases receive_response crc32c session data with ⟨e, heq⟩ | heq
  · rw [heq]
    exact hafter.closeReaders e
  · rw [heq]
    exact hafter

theorem EndsWell.step (h : session.EndsWell) (hseparate : session.Separate) {event : Event}
    (hkeeps : session.Keeps crc32c event) : (session.step crc32c event).EndsWell := by
  rw [Session.step.eq_def]
  split
  case h_1 | h_2 =>
    split
    · exact h.readRange _
    · exact h
  case h_3 message hphase =>
    cases message with
    | closed => exact h.exit (hkeeps hphase)
    | response data => exact h.receive (hkeeps hphase)
    | failed outcome =>
        cases outcome with
        | error e => exact h.closeReaders e
        | ok data =>
            rw [receive_reconnected]
            exact h.receive (hkeeps hphase)
  case h_4 => exact h.recvMany hseparate
  case h_5 error _ => exact h.interruptNext error
  case h_6 index => exact h.next index
  case h_7 index => exact h.dropReader index
  case h_8 => exact h
  case h_9 => exact h

theorem endsWell_opened (ranges : List RequestedRange) : (opened ranges).1.EndsWell := by
  have hmapped : (ranges.foldl readRange {}).EndsWell := by
    induction ranges using List.reverseRecOn with
    | nil =>
        intro index reader hreader
        cases hreader
    | append_singleton ranges range ih =>
        rw [List.foldl_concat]
        exact ih.readRange range
  exact hmapped.insertRanges (separate_mapped ranges) (List.append_nil _).symm

theorem endsWell_new {ranges : List RequestedRange} {initial : List ObjectRangeData}
    (h : new crc32c ranges initial = .ok session) : session.EndsWell := by
  rw [new] at h
  rcases handleResponseSuccess_cases crc32c (opened ranges).1 initial with ⟨e, heq⟩ | ⟨heq, hok⟩
  · rw [heq] at h
    cases h
  · rw [heq] at h
    cases h
    exact (endsWell_opened ranges).after fun before response rest hdata =>
      not_loses_of_ok (hok before response rest hdata)

/-- A reader reports the end of its data only after its last response or an error, and has an
error once its channel is closed in another way. -/
def EndsCleanly (session : Session) : Prop :=
  ∀ index (reader : RangeReader), session.readers[index]? = some reader →
    (∀ before rest, reader.returned = before ++ none :: rest →
      index ∈ session.finished ∨ ∃ e, some (.error e) ∈ before) ∧
    (reader.dropped = false → session.isOpen index = false →
      index ∈ session.finished ∨ reader.Interrupted)

/-- Where the worker never gets a message that it is not prepared for, no read ends cleanly with
missing data. -/
theorem run_endsCleanly (crc32c : Bytes → UInt32) (ranges : List RequestedRange)
    (initial : List ObjectRangeData) (session : Session) (events : List Event)
    (hnew : new crc32c ranges initial = .ok session)
    (hkeeps : ∀ before event rest, events = before ++ event :: rest →
      (run crc32c session before).Keeps crc32c event) :
    (run crc32c session events).EndsCleanly := by
  have hwell : (run crc32c session events).Separate ∧ (run crc32c session events).EndsWell := by
    induction events using List.reverseRecOn with
    | nil => exact ⟨separate_new hnew, endsWell_new hnew⟩
    | append_singleton events event ih =>
        obtain ⟨hseparate, hends⟩ := ih fun before earlier rest heq =>
          hkeeps before earlier (rest ++ [event]) (by simp [heq])
        rw [run, List.foldl_concat]
        exact ⟨hseparate.step event, hends.step hseparate (hkeeps events event [] rfl)⟩
  intro index reader hreader
  have hends := hwell.2 index reader hreader
  refine ⟨hends.returned, fun hlive hclosed => (hends.live hlive).resolve_left fun hopen => ?_⟩
  rw [(isOpen_iff _ index).mpr hopen] at hclosed
  cases hclosed

/-- One of two reads has its last response when the stream fails for good. -/
theorem run_endsCleanly_two :
    ∃ session, new (fun _ => 0) [.segment 0 2, .offset 3] [] = .ok session ∧
      (run (fun _ => 0) session
        [.message (.response [⟨some ⟨[7, 8], none⟩, some ⟨0, 0, 2⟩, true⟩]),
          .message (.failed (.error (.connector "unavailable"))), .next 0, .next 0, .next 1,
          .next 1]).EndsCleanly := by
  refine ⟨_, rfl, run_endsCleanly (fun _ => 0) [.segment 0 2, .offset 3] [] _ _ rfl ?_⟩
  intro before event rest heq
  cases before with
  | nil =>
      cases heq
      intro _ earlier response later hdata
      cases earlier with
      | nil =>
          cases hdata
          exact not_loses_of_ok rfl
      | cons first earlier => simp at hdata
  | cons first before =>
      rw [List.cons_append, List.cons.injEq] at heq
      have hmem : event ∈ before ++ event :: rest := by simp
      rw [← heq.2] at hmem
      simp only [List.mem_cons, List.not_mem_nil, or_false] at hmem
      rcases hmem with rfl | rfl | rfl | rfl | rfl <;> exact trivial

/-- A last response at the wrong offset and the end of the stream each leave a reader without an
error. -/
theorem lost_without_error :
    (∃ session, new (fun _ => 0) [.offset 0] [] = .ok session ∧
      ¬ (run (fun _ => 0) session
        [.message (.response [⟨none, some ⟨0, 5, 0⟩, true⟩]), .next 0]).EndsCleanly) ∧
    ∃ session, new (fun _ => 0) [.offset 0] [] = .ok session ∧
      ¬ (run (fun _ => 0) session [.message .closed, .next 0]).EndsCleanly := by
  refine ⟨⟨_, rfl, fun h => ?_⟩, _, rfl, fun h => ?_⟩
  · rcases (h 0 _ rfl).1 [] [] rfl with hfinished | ⟨e, hmem⟩
    · cases hfinished
    · cases hmem
  · rcases (h 0 _ rfl).1 [] [] rfl with hfinished | ⟨e, hmem⟩
    · cases hfinished
    · cases hmem

end Session

end GoogleCloudRust.Bidi
