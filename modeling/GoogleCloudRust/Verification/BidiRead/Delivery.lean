import GoogleCloudRust.Verification.BidiRead.Resumption
import GoogleCloudRust.Verification.BidiRead.Senders

/-! # What readers are delivered

With a service that answers what it is asked for, a reader is delivered the bytes of its range in
order. -/

namespace GoogleCloudRust.Bidi

namespace RangeReader

variable {before reader : RangeReader}

def bytes {ε : Type} : Except ε Bytes → Bytes
  | .ok b => b
  | .error _ => []

/-- The bytes that were returned and those in the channel. -/
def delivered (reader : RangeReader) : Bytes :=
  reader.returned.flatMap (fun value => (value.map bytes).getD []) ++ reader.inner.flatMap bytes

/-- The reader is delivered nothing. -/
structure Quiet (before reader : RangeReader) : Prop where
  range : reader.range = before.range
  live : reader.dropped = false → before.dropped = false ∧ reader.delivered = before.delivered
  delivered : reader.delivered <+: before.delivered

theorem Quiet.refl (reader : RangeReader) : Quiet reader reader :=
  ⟨rfl, fun hlive => ⟨hlive, rfl⟩, List.prefix_rfl⟩

theorem Quiet.trans {middle : RangeReader} (h : Quiet before middle) (h' : Quiet middle reader) :
    Quiet before reader := by
  refine ⟨h'.range.trans h.range, fun hlive => ?_, h'.delivered.trans h.delivered⟩
  obtain ⟨hmiddle, hdelivered⟩ := h'.live hlive
  exact ⟨(h.live hmiddle).1, hdelivered.trans (h.live hmiddle).2⟩

/-- The reader keeps its range and what it was delivered. -/
theorem Quiet.of_delivered (hrange : reader.range = before.range)
    (hdropped : reader.dropped = before.dropped) (hdelivered : reader.delivered = before.delivered) :
    Quiet before reader :=
  ⟨hrange, fun hlive => ⟨hdropped ▸ hlive, hdelivered⟩, hdelivered ▸ List.prefix_rfl⟩

theorem quiet_push_error (reader : RangeReader) (e : ReadError) :
    Quiet reader (reader.push (.error e)) := by
  rw [push]
  split
  · exact Quiet.refl reader
  · exact Quiet.of_delivered rfl rfl (by simp [delivered, bytes])

theorem quiet_push_iterate (reader : RangeReader) (e : ReadError) (count : ℕ) :
    Quiet reader ((fun r => r.push (.error e))^[count] reader) := by
  induction count with
  | zero => exact Quiet.refl reader
  | succ count ih =>
      rw [Function.iterate_succ_apply']
      exact ih.trans (quiet_push_error _ e)

theorem quiet_next (reader : RangeReader) (closed : Bool) : Quiet reader (reader.next closed) := by
  rw [next]
  split
  · exact Quiet.of_delivered rfl rfl (by simp [delivered])
  · split
    case h_1 b inner hinner =>
      exact Quiet.of_delivered rfl rfl (by simp [delivered, bytes, hinner])
    case h_2 e inner hinner =>
      exact Quiet.of_delivered rfl rfl (by simp [delivered, bytes, hinner])
    case h_3 hinner =>
      split
      · exact Quiet.of_delivered rfl rfl (by simp [delivered, hinner])
      · exact Quiet.refl reader

theorem quiet_drop (reader : RangeReader) :
    Quiet reader { reader with dropped := true, inner := [] } := by
  refine ⟨rfl, fun hlive => absurd hlive (by simp), ?_⟩
  simp only [delivered, List.flatMap_nil, List.append_nil]
  exact List.prefix_append _ _

/-- The reader after a response for it was accepted. -/
def accept (reader : RangeReader) (data : Option ChecksummedData) : RangeReader :=
  match data with
  | none => reader
  | some data => reader.push (.ok data.content)

@[simp] theorem accept_range (reader : RangeReader) (data : Option ChecksummedData) :
    (reader.accept data).range = reader.range := by
  cases data with
  | none => rfl
  | some data => by_cases h : reader.dropped = true <;> simp [accept, push, h]

@[simp] theorem accept_dropped (reader : RangeReader) (data : Option ChecksummedData) :
    (reader.accept data).dropped = reader.dropped := by
  cases data with
  | none => rfl
  | some data => by_cases h : reader.dropped = true <;> simp [accept, push, h]

theorem accept_of_dropped (h : reader.dropped = true) (data : Option ChecksummedData) :
    reader.accept data = reader := by
  cases data with
  | none => rfl
  | some data => rw [accept, push, if_pos h]

theorem delivered_accept (h : reader.dropped = false) (response : ObjectRangeData) :
    (reader.accept response.checksummedData).delivered =
      reader.delivered ++ response.content := by
  rw [ObjectRangeData.content]
  cases response.checksummedData with
  | none => simp [accept]
  | some data => simp [accept, push, h, delivered, bytes]

end RangeReader

theorem Session.handle_handler (session : Session) (active : ActiveRead)
    (data : Option ChecksummedData) :
    ∃ readers, session.handle (active.handler data) = { session with readers := readers } ∧
      ∀ index : ℕ, readers[index]? = session.readers[index]?.map fun reader =>
        if active.sender = index then reader.accept data else reader := by
  cases data with
  | none => exact ⟨session.readers, rfl, by simp [RangeReader.accept]⟩
  | some data =>
      exact ⟨_, rfl, fun index => getElem?_send session active.sender index (.ok data.content)⟩

/-! ## Sessions that follow the service -/

/-- Each reader has a beginning of its bytes, and all of them after the last response. -/
def Session.Delivers (object : Object) (session : Session) : Prop :=
  ∀ index (reader : RangeReader), session.readers[index]? = some reader →
    reader.delivered <+: object.requested reader.range ∧
    (index ∈ session.finished → reader.dropped = false →
      reader.delivered = object.requested reader.range)

/-- A live reader has all the bytes of its limit but not its last response, and the object has
more bytes. -/
def Session.Overruns (object : Object) (session : Session) : Prop :=
  ∃ id active reader, session.ranges.lookup id = some active ∧
    session.readers[active.sender]? = some reader ∧ reader.dropped = false ∧
    reader.range.count = some reader.delivered.length ∧
    reader.range.start object + reader.delivered.length < object.content.length

/-- What a reconnection would ask for are the bytes that live readers were not delivered. -/
def Session.Resumes (object : Object) (session : Session) : Prop :=
  ∀ id active (reader : RangeReader), session.ranges.lookup id = some active →
    session.readers[active.sender]? = some reader → reader.dropped = false →
    object.denoted (active.asProto id) =
      (object.requested reader.range).drop reader.delivered.length

structure Follows (object : Object) (session : Session) (server : Server) : Prop where
  active : ∀ id active (reader : RangeReader), session.ranges.lookup id = some active →
    session.readers[active.sender]? = some reader → reader.dropped = false →
    ∃ answer, server.lookup id = some answer ∧
      Tracks object reader.range reader.delivered active.state answer
  waiting : ∀ active ∈ session.requests, ∀ reader : RangeReader,
    session.readers[active.sender]? = some reader → reader.range.Representable ∧
      active.state = .requested reader.range ∧ (reader.dropped = false → reader.delivered = [])
  delivers : session.Delivers object

namespace Server

variable {crc32c : Bytes → UInt32} {server next : Server} {response : ObjectRangeData}

theorem reply_eq (h : server.reply crc32c response = some next) :
    ∃ range answer, response.readRange = some range ∧
      server.lookup range.readId = some answer ∧ answer.Sends crc32c range response ∧
      (∀ id, id ≠ range.readId → next.lookup id = server.lookup id) ∧
      (response.rangeEnd = false → next.lookup range.readId =
        some { position := answer.position + response.content.length
               rest := answer.rest.drop response.content.length }) := by
  rw [reply] at h
  split at h
  · cases h
  case h_2 range hrange =>
    split at h
    · cases h
    case h_2 answer hlookup =>
      split at h
      case isFalse => cases h
      case isTrue hsends =>
        refine ⟨range, answer, hrange, hlookup, hsends, ?_⟩
        split at h
        case isTrue hend =>
          cases h
          exact ⟨fun id hid => AList.lookup_erase_ne hid, fun hnot => absurd hend (by simp [hnot])⟩
        case isFalse =>
          cases h
          exact ⟨fun id hid => AList.lookup_insert_ne hid, fun _ => AList.lookup_insert _⟩

theorem lookup_request_of_notMem (object : Object) {ranges : List ProtoRange} {id : ℤ}
    (h : ∀ range ∈ ranges, range.readId ≠ id) :
    (server.request object ranges).lookup id = server.lookup id := by
  induction ranges generalizing server with
  | nil => rfl
  | cons range ranges ih =>
      rw [List.forall_mem_cons] at h
      exact (ih h.2).trans (AList.lookup_insert_ne (Ne.symm h.1))

theorem request_append (object : Object) (ranges rest : List ProtoRange) :
    server.request object (ranges ++ rest) = (server.request object ranges).request object rest :=
  List.foldl_append

theorem readId_asProto (active : ActiveRead) (id : ℤ) : (active.asProto id).readId = id := by
  obtain ⟨state, sender⟩ := active
  cases state with
  | normalized s => rfl
  | requested r => cases r <;> rfl

/-- The new stream has an answer for each active read. -/
theorem lookup_resumed (object : Object) {session : Session} {id : ℤ} {active : ActiveRead}
    (h : session.ranges.lookup id = some active) :
    (request object ∅ session.resumed).lookup id = some (object.answer (active.asProto id)) := by
  obtain ⟨before, rest, hentries⟩ := List.append_of_mem (AList.mem_lookup_iff.mp h)
  have hnodup := session.ranges.nodupKeys
  rw [hentries, List.NodupKeys, List.keys, List.map_append, List.map_cons,
    List.nodup_append] at hnodup
  have hrest : ∀ range ∈ rest.map fun entry => entry.2.asProto entry.1, range.readId ≠ id := by
    intro range hrange
    obtain ⟨entry, hentry, rfl⟩ := List.mem_map.mp hrange
    rw [readId_asProto]
    intro heq
    exact (List.nodup_cons.mp hnodup.2.1).1 (List.mem_map.mpr ⟨entry, hentry, heq⟩)
  rw [Session.resumed, hentries, List.map_append, List.map_cons, request_append,
    ← List.singleton_append, request_append, lookup_request_of_notMem object hrest]
  have hid := readId_asProto active id
  simp only [request, List.foldl_cons, List.foldl_nil, hid]
  exact AList.lookup_insert _

end Server

namespace Follows

variable {object : Object} {session next : Session} {server : Server}
  {crc32c : Bytes → UInt32} {response : ObjectRangeData}

/-- Reads are dropped and readers are delivered nothing. -/
theorem of_quiet (h : Follows object session server)
    (hranges : ∀ id active, next.ranges.lookup id = some active →
      session.ranges.lookup id = some active)
    (hrequests : ∀ active ∈ next.requests, active ∈ session.requests)
    (hfinished : next.finished = session.finished)
    (hreaders : ∀ (index : ℕ) (reader : RangeReader), next.readers[index]? = some reader →
      ∃ before, session.readers[index]? = some before ∧ RangeReader.Quiet before reader) :
    Follows object next server := by
  refine ⟨fun id active reader hlookup hreader hlive => ?_, fun active hmem reader hreader => ?_,
    fun index reader hreader => ?_⟩
  · obtain ⟨before, hbefore, hquiet⟩ := hreaders _ reader hreader
    obtain ⟨hwas, hdelivered⟩ := hquiet.live hlive
    rw [hquiet.range, hdelivered]
    exact h.active id active before (hranges id active hlookup) hbefore hwas
  · obtain ⟨before, hbefore, hquiet⟩ := hreaders _ reader hreader
    obtain ⟨hrepresentable, hstate, hdelivered⟩ :=
      h.waiting active (hrequests active hmem) before hbefore
    rw [hquiet.range]
    refine ⟨hrepresentable, hstate, fun hlive => ?_⟩
    rw [(hquiet.live hlive).2, hdelivered (hquiet.live hlive).1]
  · obtain ⟨before, hbefore, hquiet⟩ := hreaders index reader hreader
    obtain ⟨hdelivered, hall⟩ := h.delivers index before hbefore
    rw [hquiet.range, hfinished]
    refine ⟨hquiet.delivered.trans hdelivered, fun hmem hlive => ?_⟩
    rw [(hquiet.live hlive).2]
    exact hall hmem (hquiet.live hlive).1

/-! ## Responses -/

/-- A response of the service fits a read that follows it. -/
theorem dataFits {answer : Answer} {range : ProtoRange} {state : RemainingRange}
    (hsends : answer.Sends crc32c range response) (hend : response.rangeEnd = false) :
    ActiveRead.DataFits crc32c state range response.rangeEnd response.checksummedData := by
  have hchecksum := hsends.checksum
  cases hdata : response.checksummedData with
  | none => simp [ActiveRead.DataFits, hend]
  | some data => exact hchecksum data hdata

theorem handleRangeData (h : Follows object session server) (hseparate : session.Separate)
    {replied : Server} (hreply : server.reply crc32c response = some replied) :
    Follows object (session.handleRangeData crc32c response).1 replied := by
  obtain ⟨range, answer, hrange, hanswer, hsends, hother, hsame⟩ := Server.reply_eq hreply
  have hhandled := Session.handled crc32c session response
  generalize session.handleRangeData crc32c response = outcome at hhandled ⊢
  cases hhandled with
  | unknown e hactive =>
      refine ⟨fun id active reader hlookup hreader hlive => ?_, h.waiting, h.delivers⟩
      have hne : id ≠ range.readId := by
        rintro rfl
        cases hlookup.symm.trans (hactive range hrange)
      rw [hother id hne]
      exact h.active id active reader hlookup hreader hlive
  | rejected proto pending updated e hproto hpending hdata =>
      cases hrange.symm.trans hproto
      refine ⟨fun id active reader hlookup hreader hlive => ?_, h.waiting, h.delivers⟩
      rcases Session.lookup_updated hlookup with ⟨rfl, hend, rfl⟩ | ⟨hne, hbefore⟩
      · have hsender : active.sender = pending.sender := by
          rw [← ActiveRead.handleData_sender pending, hdata]
        rw [hsender] at hreader
        obtain ⟨found, hfound, htracks⟩ := h.active _ pending reader hpending hreader hlive
        cases hanswer.symm.trans hfound
        rw [ActiveRead.handleData_eq (htracks.fits hsends) (dataFits hsends hend)] at hdata
        cases hdata
      · rw [hother id hne]
        exact h.active id active reader hbefore hreader hlive
  | accepted proto pending updated hproto hpending hdata =>
      cases hrange.symm.trans hproto
      obtain ⟨hfits, hdataFits⟩ := ActiveRead.handleData_fits (congrArg Prod.snd hdata)
      cases hdata.symm.trans (ActiveRead.handleData_eq hfits hdataFits)
      obtain ⟨readers, hhandle, hreaders⟩ := Session.handle_handler
        { session with
          ranges := session.updated response range.readId
            { pending with state := .normalized (pending.state.rest range) }
          finished :=
            if response.rangeEnd then session.finished ++ [pending.sender]
            else session.finished } pending response.checksummedData
      rw [hhandle]
      have htracks : ∀ reader, session.readers[pending.sender]? = some reader →
          reader.dropped = false →
          Tracks object reader.range reader.delivered pending.state answer := by
        intro reader hreader hlive
        obtain ⟨found, hfound, htracks⟩ := h.active _ pending reader hpending hreader hlive
        cases hanswer.symm.trans hfound
        exact htracks
      refine ⟨fun id active reader hlookup hreader hlive => ?_,
        fun active hmem reader hreader => ?_, fun index reader hreader => ?_⟩
      · rw [hreaders] at hreader
        obtain ⟨before, hbefore, rfl⟩ := Option.map_eq_some_iff.mp hreader
        rcases Session.lookup_updated hlookup with ⟨rfl, hend, rfl⟩ | ⟨hne, hactive⟩
        · rw [if_pos rfl] at hlive ⊢
          rw [RangeReader.accept_dropped] at hlive
          refine ⟨_, hsame hend, ?_⟩
          rw [RangeReader.accept_range, RangeReader.delivered_accept hlive]
          exact (htracks before hbefore hlive).advance hsends
        · rw [if_neg (hseparate.sender_ne hpending hactive (Ne.symm hne))] at hlive ⊢
          rw [hother id hne]
          exact h.active id active before hactive hbefore hlive
      · rw [hreaders] at hreader
        obtain ⟨before, hbefore, rfl⟩ := Option.map_eq_some_iff.mp hreader
        rw [if_neg (Ne.symm (hseparate.not_waiting hpending hmem))]
        exact h.waiting active hmem before hbefore
      · rw [hreaders] at hreader
        obtain ⟨before, hbefore, rfl⟩ := Option.map_eq_some_iff.mp hreader
        have hdelivers := h.delivers index before hbefore
        split
        case isTrue hsender =>
          subst hsender
          cases hdropped : before.dropped with
          | true =>
              rw [RangeReader.accept_of_dropped hdropped]
              exact ⟨hdelivers.1, fun _ hlive => absurd hdropped (by simp [hlive])⟩
          | false =>
              have hnext := ((htracks before hbefore hdropped).advance hsends).rest
              rw [RangeReader.accept_range, RangeReader.delivered_accept hdropped, ← hnext]
              refine ⟨List.prefix_append _ _, fun hfinished _ => ?_⟩
              -- only the last response finishes the read, and it has all that remains
              have hend : response.rangeEnd = true := by
                by_contra hend
                rw [if_neg hend] at hfinished
                exact hseparate.not_finished hpending hfinished
              rw [← hsends.last hend, List.drop_length, List.append_nil]
        case isFalse hsender =>
          refine ⟨hdelivers.1, fun hfinished hlive => hdelivers.2 ?_ hlive⟩
          dsimp only at hfinished
          split at hfinished
          · rcases List.mem_append.mp hfinished with hmem | hmem
            · exact hmem
            · exact absurd (List.mem_singleton.mp hmem).symm hsender
          · exact hfinished

theorem after (h : Follows object session server) (hseparate : session.Separate)
    {data : List ObjectRangeData} {replied : Server}
    (hreplies : server.replies crc32c data = some replied) :
    Follows object (session.after crc32c data) replied := by
  induction data generalizing session server with
  | nil =>
      cases hreplies
      exact h
  | cons response data ih =>
      rw [Server.replies, List.foldlM_cons] at hreplies
      obtain ⟨next, hreply, hrest⟩ := Option.bind_eq_some_iff.mp hreplies
      exact ih (h.handleRangeData hseparate hreply) hseparate.handleRangeData hrest

theorem closeReaders (h : Follows object session server) (error : Error) :
    Follows object (session.closeReaders error) server := by
  obtain ⟨readers, hclose, -, hreaders⟩ := Session.closeReaders_eq session error
  rw [hclose]
  refine h.of_quiet (fun id active hlookup => by simp at hlookup) (fun _ hmem => hmem) rfl
    fun index reader hreader => ?_
  rw [hreaders] at hreader
  obtain ⟨before, hbefore, rfl⟩ := Option.map_eq_some_iff.mp hreader
  exact ⟨before, hbefore, RangeReader.quiet_push_iterate before _ _⟩

theorem exit (h : Follows object session server) : Follows object session.exit server :=
  h.of_quiet (fun id active hlookup => by simp [Session.exit] at hlookup)
    (fun _ hmem => absurd hmem List.not_mem_nil) rfl
    fun _ reader hreader => ⟨reader, hreader, RangeReader.Quiet.refl reader⟩

theorem receive_response (h : Follows object session server) (hseparate : session.Separate)
    {data : List ObjectRangeData} {replied : Server}
    (hreplies : server.replies crc32c data = some replied) :
    Follows object (session.receive crc32c (.response data)) replied := by
  have hafter := h.after hseparate hreplies
  rcases Session.receive_response crc32c session data with ⟨e, heq⟩ | heq
  · have hclosed := hafter.closeReaders e
    rw [heq]
    exact ⟨hclosed.active, hclosed.waiting, hclosed.delivers⟩
  · rw [heq]
    exact hafter

/-! ## Reconnections -/

theorem resumes_iff (h : Follows object session server) :
    session.Resumes object ↔ ¬ session.Overruns object := by
  constructor
  · rintro hresumes ⟨id, active, reader, hlookup, hreader, hlive, hlimit⟩
    obtain ⟨answer, -, htracks⟩ := h.active id active reader hlookup hreader hlive
    exact (htracks.denoted_asProto_iff id).mp (hresumes id active reader hlookup hreader hlive)
      hlimit
  · intro hoverruns id active reader hlookup hreader hlive
    obtain ⟨answer, -, htracks⟩ := h.active id active reader hlookup hreader hlive
    exact (htracks.denoted_asProto_iff id).mpr fun hlimit =>
      hoverruns ⟨id, active, reader, hlookup, hreader, hlive, hlimit⟩

/-- On a new stream the service answers what is missing. -/
theorem reconnect (h : Follows object session server) (hoverruns : ¬ session.Overruns object) :
    Follows object session (Server.request object ∅ session.resumed) := by
  refine ⟨fun id active reader hlookup hreader hlive => ?_, h.waiting, h.delivers⟩
  obtain ⟨answer, -, htracks⟩ := h.active id active reader hlookup hreader hlive
  refine ⟨_, Server.lookup_resumed object hlookup, htracks.resume id fun hlimit => ?_⟩
  exact hoverruns ⟨id, active, reader, hlookup, hreader, hlive, hlimit⟩

/-! ## Requests -/

theorem tracks_requested {range : RequestedRange} (h : range.Representable) (id : ℤ) :
    Tracks object range [] (.requested range) (object.answer (range.asProto id)) := by
  refine ⟨h, ?_, RequestedRange.start_asProto object id h, rfl, rfl⟩
  rw [List.nil_append, Object.answer, Object.denoted, Object.requested,
    RequestedRange.start_asProto object id h, RequestedRange.count_asProto id h]

theorem insertNext (h : Follows object session server) {active : ActiveRead}
    {requests : List ActiveRead} (hrequests : session.requests = active :: requests) :
    Follows object (session.insertNext active requests)
      (server.request object [active.asProto session.nextRangeId]) := by
  have hid := Server.readId_asProto active session.nextRangeId
  refine ⟨fun id found reader hlookup hreader hlive => ?_, fun found hmem => ?_, h.delivers⟩
  · simp only [Session.insertNext, Session.lookup_insert_eq] at hlookup
    split at hlookup
    case isTrue heq =>
      cases hlookup
      subst heq
      obtain ⟨hrepresentable, hstate, hnothing⟩ :=
        h.waiting active (by simp [hrequests]) reader hreader
      refine ⟨object.answer (active.asProto session.nextRangeId), ?_, ?_⟩
      · simp only [Server.request, List.foldl_cons, List.foldl_nil, hid]
        exact AList.lookup_insert _
      · rw [hnothing hlive, ActiveRead.asProto, hstate]
        exact tracks_requested hrepresentable _
    case isFalse hne =>
      rw [Server.lookup_request_of_notMem object (by simpa [hid] using Ne.symm hne)]
      exact h.active id found reader hlookup hreader hlive
  · exact h.waiting found (hrequests ▸ List.mem_cons_of_mem _ hmem)

theorem insertRanges (h : Follows object session server) {taken rest : List ActiveRead}
    (hrequests : session.requests = taken ++ rest) :
    Follows object ({ session with requests := rest }.insertRanges taken).1
      (server.request object ({ session with requests := rest }.insertRanges taken).2) := by
  refine Session.insertRanges_rule
    (fun s protos => Follows object s (server.request object protos))
    (fun s active requests protos hnext hs => ?_) hrequests [] h
  rw [Server.request_append]
  exact hs.insertNext hnext

theorem recvMany (h : Follows object session server) :
    Follows object session.recvMany (server.request object (Exchange.sent session)) := by
  rw [Session.recvMany]
  split
  case isTrue hnil =>
    have hsent : Exchange.sent session = [] := by
      simp [Exchange.sent, Session.received, hnil, Session.insertRanges]
    rw [hsent]
    split
    · exact h.exit
    · exact h
  case isFalse => exact h.insertRanges (List.take_append_drop 16 session.requests).symm

theorem interruptNext (h : Follows object session server) (error : Error) :
    Follows object (session.interruptNext error) server := by
  rw [Session.interruptNext]
  split
  case h_1 active requests hrequests =>
    refine h.of_quiet (fun _ _ hlookup => hlookup)
      (fun found hmem => hrequests ▸ List.mem_cons_of_mem _ hmem) rfl fun index reader hreader => ?_
    rw [Session.interrupted, Session.getElem?_send] at hreader
    obtain ⟨before, hbefore, rfl⟩ := Option.map_eq_some_iff.mp hreader
    refine ⟨before, hbefore, ?_⟩
    split
    · exact RangeReader.quiet_push_error before _
    · exact RangeReader.Quiet.refl before
  case h_2 =>
    split
    · exact h.exit
    · exact h

/-! ## The application -/

/-- The readers before a new one. -/
theorem getElem?_readRange {range : RequestedRange} {index : ℕ} {reader : RangeReader}
    (hreader : (session.readRange range).readers[index]? = some reader) :
    session.readers[index]? = some reader ∨
      (index = session.readers.length ∧ reader = { range := range }) := by
  simp only [Session.readRange, Session.mapRange, List.getElem?_append] at hreader
  split at hreader
  · exact .inl hreader
  case isFalse hge =>
    obtain ⟨hlt, hnew⟩ := List.getElem?_eq_some_iff.mp hreader
    obtain rfl : index = session.readers.length := by
      simp only [List.length_singleton] at hlt
      omega
    simp only [Nat.sub_self, List.getElem_cons_zero] at hnew
    exact .inr ⟨rfl, hnew.symm⟩

theorem readRange (h : Follows object session server) (hseparate : session.Separate)
    {range : RequestedRange} (hrange : range.Representable) :
    Follows object (session.readRange range) server := by
  have hlt : ∀ index ∈ session.holders, index ≠ session.readers.length := fun index hindex =>
    ne_of_lt (hseparate.bound index hindex)
  refine ⟨fun id active reader hlookup hreader hlive => ?_, fun active hmem reader hreader => ?_,
    fun index reader hreader => ?_⟩
  · have hholder : active.sender ∈ session.holders :=
      List.mem_append_left _ (List.mem_map_of_mem (AList.mem_lookup_iff.mp hlookup))
    rcases getElem?_readRange hreader with hbefore | ⟨hnew, -⟩
    · exact h.active id active reader hlookup hbefore hlive
    · exact absurd hnew (hlt _ hholder)
  · rcases List.mem_append.mp hmem with hmem | hmem
    · have hholder : active.sender ∈ session.holders :=
        List.mem_append_right _ (List.mem_append_left _ (List.mem_map_of_mem hmem))
      rcases getElem?_readRange hreader with hbefore | ⟨hnew, -⟩
      · exact h.waiting active hmem reader hbefore
      · exact absurd hnew (hlt _ hholder)
    · cases List.mem_singleton.mp hmem
      rcases getElem?_readRange hreader with hbefore | ⟨-, rfl⟩
      · exact absurd (List.getElem?_eq_some_iff.mp hbefore).1 (lt_irrefl _)
      · exact ⟨hrange, rfl, fun _ => rfl⟩
  · rcases getElem?_readRange hreader with hbefore | ⟨rfl, rfl⟩
    · exact h.delivers index reader hbefore
    · refine ⟨List.nil_prefix, fun hmem => ?_⟩
      have hholder : session.readers.length ∈ session.holders :=
        List.mem_append_right _ (List.mem_append_right _ hmem)
      exact absurd rfl (hlt _ hholder)

/-- A reader is changed where it is, and delivered nothing. -/
theorem modify (h : Follows object session server) (index : ℕ) (f : RangeReader → RangeReader)
    (hf : ∀ reader, RangeReader.Quiet reader (f reader)) :
    Follows object { session with readers := session.readers.modify index f } server := by
  refine h.of_quiet (fun _ _ hlookup => hlookup) (fun _ hmem => hmem) rfl
    fun other reader hreader => ?_
  rw [List.getElem?_modify] at hreader
  obtain ⟨before, hbefore, rfl⟩ := Option.map_eq_some_iff.mp hreader
  refine ⟨before, hbefore, ?_⟩
  split
  · exact hf before
  · exact RangeReader.Quiet.refl before

/-! ## Runs -/

theorem step {exchange final : Exchange} (h : Follows object exchange.session exchange.server)
    (hseparate : exchange.session.Separate) {event : Session.Event}
    (hrange : ∀ range, event = .readRange range → range.Representable)
    (hoverruns : ∀ outcome, event = .message (.failed outcome) →
      ¬ exchange.session.Overruns object)
    (hstep : exchange.step crc32c object event = some final) :
    Follows object final.session final.server := by
  obtain ⟨served, hserve, rfl⟩ := Option.map_eq_some_iff.mp hstep
  rw [Exchange.serve.eq_def] at hserve
  rw [Session.step.eq_def]
  generalize exchange.session.phase = phase at hserve ⊢
  cases event with
  | readRange range =>
      cases phase with
      | exited =>
          cases hserve
          exact h
      | running | closing =>
          cases hserve
          dsimp only
          split
          · exact h.readRange hseparate (hrange range rfl)
          · exact h
  | message message =>
      cases phase with
      | exited | closing =>
          have hserved : exchange.server = served := by
            rcases message with data | _ | _ | data <;> exact Option.some.inj hserve
          exact hserved ▸ h
      | running =>
          cases message with
          | response data => exact h.receive_response hseparate hserve
          | closed =>
              cases hserve
              exact h.exit
          | failed outcome =>
              cases outcome with
              | error e =>
                  cases hserve
                  have hclosed := h.closeReaders e
                  exact ⟨hclosed.active, hclosed.waiting, hclosed.delivers⟩
              | ok data =>
                  exact (h.reconnect (hoverruns _ rfl)).receive_response hseparate hserve
  | recv =>
      cases phase with
      | running =>
          cases hserve
          exact h.recvMany
      | closing error =>
          cases hserve
          exact h.interruptNext error
      | exited =>
          cases hserve
          exact h
  | next index =>
      cases hserve
      refine h.modify index _ fun reader => ?_
      split
      · exact RangeReader.Quiet.refl reader
      · exact RangeReader.quiet_next reader _
  | dropReader index =>
      cases hserve
      exact h.modify index _ RangeReader.quiet_drop
  | dropDescriptor =>
      cases hserve
      exact ⟨h.active, h.waiting, h.delivers⟩

theorem opened {ranges : List RequestedRange} (h : ∀ range ∈ ranges, range.Representable) :
    Follows object (Session.opened ranges).1
      (Server.request object ∅ (Session.opened ranges).2) := by
  have hmapped : Follows object (ranges.foldl Session.readRange {}) ∅ := by
    induction ranges using List.reverseRecOn with
    | nil =>
        refine ⟨fun id active reader hlookup => by simp at hlookup, fun active hmem => ?_,
          fun index reader hreader => ?_⟩
        · cases hmem
        · cases hreader
    | append_singleton ranges range ih =>
        rw [List.foldl_concat]
        exact (ih fun other hother => h other (List.mem_append_left _ hother)).readRange
          (Session.separate_mapped ranges) (h range (by simp))
  exact hmapped.insertRanges (List.append_nil _).symm

theorem new {ranges : List RequestedRange} {initial : List ObjectRangeData} {start : Exchange}
    (h : ∀ range ∈ ranges, range.Representable)
    (hnew : Exchange.new crc32c object ranges initial = some start) :
    start.session.Separate ∧ Follows object start.session start.server := by
  rw [Exchange.new] at hnew
  split at hnew
  case h_2 => cases hnew
  case h_1 server session hreplies hsession =>
    cases hnew
    refine ⟨Session.separate_new hsession, ?_⟩
    rw [Session.new] at hsession
    have hopened : (Session.opened ranges).1.Separate :=
      (Session.separate_mapped ranges).insertRanges (List.append_nil _).symm
    rcases Session.handleResponseSuccess_cases crc32c (Session.opened ranges).1 initial with
      ⟨e, heq⟩ | ⟨heq, -⟩
    · rw [heq] at hsession
      cases hsession
    · rw [heq] at hsession
      cases hsession
      exact (Follows.opened h).after hopened hreplies

end Follows

namespace Exchange

variable {crc32c : Bytes → UInt32} {object : Object} {start final : Exchange}
  {events : List Session.Event}

/-- The property holds whenever the stream fails. -/
def AtFailures (crc32c : Bytes → UInt32) (object : Object) (start : Exchange)
    (events : List Session.Event) (property : Session → Prop) : Prop :=
  ∀ before outcome rest exchange, events = before ++ .message (.failed outcome) :: rest →
    run crc32c object start before = some exchange → property exchange.session

theorem AtFailures.of_concat {property : Session → Prop} {event : Session.Event}
    (h : AtFailures crc32c object start (events ++ [event]) property) :
    AtFailures crc32c object start events property := by
  rintro before outcome rest exchange rfl hrun
  exact h before outcome (rest ++ [event]) exchange (by simp) hrun

theorem run_concat {event : Session.Event}
    (h : run crc32c object start (events ++ [event]) = some final) :
    ∃ middle, run crc32c object start events = some middle ∧
      middle.step crc32c object event = some final := by
  rw [run, List.foldlM_append] at h
  obtain ⟨middle, hmiddle, hstep⟩ := Option.bind_eq_some_iff.mp h
  refine ⟨middle, hmiddle, ?_⟩
  simpa using hstep

theorem run_follows {ranges : List RequestedRange} {initial : List ObjectRangeData}
    (hranges : ∀ range ∈ ranges, range.Representable)
    (hevents : ∀ range, .readRange range ∈ events → range.Representable)
    (hnew : new crc32c object ranges initial = some start)
    (hrun : run crc32c object start events = some final)
    (hfailures : AtFailures crc32c object start events fun session =>
      ¬ session.Overruns object) :
    final.session.Separate ∧ Follows object final.session final.server := by
  induction events using List.reverseRecOn generalizing final with
  | nil =>
      cases hrun
      exact Follows.new hranges hnew
  | append_singleton events event ih =>
      obtain ⟨middle, hmiddle, hstep⟩ := run_concat hrun
      obtain ⟨hseparate, hfollows⟩ := ih
        (fun range hrange => hevents range (List.mem_append_left _ hrange)) hmiddle
        hfailures.of_concat
      refine ⟨?_, hfollows.step hseparate ?_ ?_ hstep⟩
      · obtain ⟨served, -, rfl⟩ := Option.map_eq_some_iff.mp hstep
        exact hseparate.step event
      · rintro range rfl
        exact hevents range (by simp)
      · rintro outcome rfl
        exact hfailures events outcome [] middle rfl hmiddle

/-- Reconnections ask for what is missing, and readers are delivered the bytes of their ranges, if
and only if the stream never fails between the last byte of a limited read and its last response
with more bytes in the object. -/
theorem run_resumes_iff (crc32c : Bytes → UInt32) (object : Object)
    (ranges : List RequestedRange) (initial : List ObjectRangeData) (start final : Exchange)
    (events : List Session.Event) (hranges : ∀ range ∈ ranges, range.Representable)
    (hevents : ∀ range, .readRange range ∈ events → range.Representable)
    (hnew : new crc32c object ranges initial = some start)
    (hrun : run crc32c object start events = some final) :
    (AtFailures crc32c object start events (Session.Resumes object) ∧
      final.session.Delivers object) ↔
      AtFailures crc32c object start events fun session => ¬ session.Overruns object := by
  constructor
  · rintro ⟨hresumes, -⟩
    clear hrun
    induction events using List.reverseRecOn with
    | nil =>
        intro before outcome rest exchange heq
        simp at heq
    | append_singleton events event ih =>
        have hevents' : ∀ range, .readRange range ∈ events → range.Representable :=
          fun range hrange => hevents range (List.mem_append_left _ hrange)
        have hearlier := ih hevents' hresumes.of_concat
        intro before outcome rest exchange heq hbefore
        obtain rfl | ⟨rest, last, rfl⟩ := rest.eq_nil_or_concat
        · obtain ⟨rfl, -⟩ := List.append_inj' heq rfl
          obtain ⟨-, hfollows⟩ := run_follows hranges hevents' hnew hbefore hearlier
          exact hfollows.resumes_iff.mp (hresumes events outcome [] exchange heq hbefore)
        · rw [List.concat_eq_append, ← List.cons_append, ← List.append_assoc] at heq
          obtain ⟨hsame, -⟩ := List.append_inj' heq rfl
          exact hearlier before outcome rest exchange hsame hbefore
  · intro hfailures
    refine ⟨fun before outcome rest exchange heq hbefore => ?_,
      (run_follows hranges hevents hnew hrun hfailures).2.delivers⟩
    have hearlier : AtFailures crc32c object start before fun session =>
        ¬ session.Overruns object := by
      rintro first other later middle rfl hmiddle
      exact hfailures first other (later ++ .message (.failed outcome) :: rest) middle
        (by simp [heq]) hmiddle
    have hbeforeEvents : ∀ range, .readRange range ∈ before → range.Representable := by
      intro range hrange
      exact hevents range (by rw [heq]; exact List.mem_append_left _ hrange)
    obtain ⟨-, hfollows⟩ := run_follows hranges hbeforeEvents hnew hbefore hearlier
    exact hfollows.resumes_iff.mpr (hfailures before outcome rest exchange heq hbefore)

def fourBytes : Object where
  content := [1, 2, 3, 4]
  size_lt := by decide

/-- The stream fails between the two bytes of a read. -/
def failsBetween : List Session.Event :=
  [.message (.response [⟨some ⟨[2], none⟩, some ⟨0, 1, 1⟩, false⟩]),
    .message (.failed (.ok [⟨some ⟨[3], none⟩, some ⟨0, 2, 1⟩, true⟩])), .next 0]

theorem run_resumes_between :
    ∃ start final, new (fun _ => 0) fourBytes [.segment 1 2] [] = some start ∧
      run (fun _ => 0) fourBytes start failsBetween = some final ∧
      ((AtFailures (fun _ => 0) fourBytes start failsBetween (Session.Resumes fourBytes) ∧
        final.session.Delivers fourBytes) ↔
        AtFailures (fun _ => 0) fourBytes start failsBetween fun session =>
          ¬ session.Overruns fourBytes) := by
  refine ⟨_, _, rfl, rfl,
    run_resumes_iff (fun _ => 0) fourBytes [.segment 1 2] [] _ _ failsBetween ?_ ?_ rfl rfl⟩
  · intro range hrange
    cases List.mem_singleton.mp hrange
    exact ⟨by decide, by decide⟩
  · intro range hrange
    simp [failsBetween] at hrange

/-- The stream fails after both bytes of a read, and the next one is asked for. -/
theorem limit_asks_for_more :
    ∃ start final, new (fun _ => 0) fourBytes [.segment 1 2] [] = some start ∧
      run (fun _ => 0) fourBytes start
        [.message (.response [⟨some ⟨[2, 3], none⟩, some ⟨0, 1, 2⟩, false⟩]),
          .message (.failed (.ok []))] = some final ∧
      ¬ (AtFailures (fun _ => 0) fourBytes start
          [.message (.response [⟨some ⟨[2, 3], none⟩, some ⟨0, 1, 2⟩, false⟩]),
            .message (.failed (.ok []))] (Session.Resumes fourBytes) ∧
        final.session.Delivers fourBytes) := by
  refine ⟨_, _, rfl, rfl, ?_⟩
  rintro ⟨hresumes, -⟩
  have hdenoted := hresumes [.message (.response [⟨some ⟨[2, 3], none⟩, some ⟨0, 1, 2⟩, false⟩])]
    (.ok []) [] _ rfl rfl 0 _ _ rfl rfl rfl
  exact absurd hdenoted (by decide)

end Exchange

end GoogleCloudRust.Bidi
