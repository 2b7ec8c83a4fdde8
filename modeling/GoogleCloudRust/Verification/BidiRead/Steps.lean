import GoogleCloudRust.Verification.BidiRead.Ranges

/-! # What the worker does in one step

Each operation of the worker changes few fields; the readers only get messages. -/

namespace GoogleCloudRust.Bidi.Session

variable {crc32c : Bytes → UInt32} {session : Session} {response : ObjectRangeData}

/-! ## Lookups -/

theorem lookup_insert_eq (ranges : AList fun _ : ℤ => ActiveRead) (id other : ℤ)
    (active : ActiveRead) :
    (ranges.insert id active).lookup other =
      if other = id then some active else ranges.lookup other := by
  split_ifs with h
  · subst h
    exact AList.lookup_insert _
  · exact AList.lookup_insert_ne h

theorem lookup_erase_eq (ranges : AList fun _ : ℤ => ActiveRead) (id other : ℤ) :
    (ranges.erase id).lookup other = if other = id then none else ranges.lookup other := by
  split_ifs with h
  · subst h
    exact AList.lookup_erase _ _
  · exact AList.lookup_erase_ne h

/-- Some read has the sender of a channel. -/
def Open (session : Session) (index : ℕ) : Prop :=
  (∃ id active, session.ranges.lookup id = some active ∧ active.sender = index) ∨
    ∃ active ∈ session.requests, active.sender = index

theorem isOpen_iff (session : Session) (index : ℕ) :
    session.isOpen index = true ↔ session.Open index := by
  simp only [isOpen, Open, Bool.or_eq_true, List.any_eq_true, beq_iff_eq]
  refine or_congr ⟨?_, ?_⟩ Iff.rfl
  · rintro ⟨⟨id, active⟩, hmem, hsender⟩
    exact ⟨id, active, AList.mem_lookup_iff.mpr hmem, hsender⟩
  · rintro ⟨id, active, hlookup, hsender⟩
    exact ⟨⟨id, active⟩, AList.mem_lookup_iff.mp hlookup, hsender⟩

/-! ## Messages to the readers -/

theorem getElem?_send (session : Session) (sender index : ℕ) (message : Except ReadError Bytes) :
    (session.send sender message).readers[index]? =
      session.readers[index]?.map fun reader =>
        if sender = index then reader.push message else reader := by
  rw [send, List.getElem?_modify]
  split <;> rfl

/-- A handler only sends a message. -/
theorem handle_eq (session : Session) (handler : Handler) :
    ∃ readers, session.handle handler = { session with readers := readers } ∧
      readers.length = session.readers.length := by
  cases handler with
  | noData => exact ⟨session.readers, rfl, rfl⟩
  | send sender data => exact ⟨_, rfl, List.length_modify _ _ _⟩

/-- What `interrupted` sends. -/
def interruption (error : Error) : Except ReadError Bytes :=
  .error (.unrecoverableBidiReadInterrupt error)

theorem foldl_interrupted (entries : List (Sigma fun _ : ℤ => ActiveRead)) (error : Error)
    (session : Session) :
    ∃ readers, entries.foldl (fun s entry => s.interrupted entry.2 error) session =
        { session with readers := readers } ∧ readers.length = session.readers.length ∧
      ∀ index, readers[index]? = session.readers[index]?.map fun reader =>
        (fun r => r.push (interruption error))^[entries.countP fun entry =>
          entry.2.sender = index] reader := by
  induction entries generalizing session with
  | nil => exact ⟨session.readers, rfl, rfl, by simp⟩
  | cons entry entries ih =>
      obtain ⟨readers, hfold, hlength, hreaders⟩ := ih (session.interrupted entry.2 error)
      refine ⟨readers, hfold, hlength.trans (List.length_modify _ _ _), fun index => ?_⟩
      rw [hreaders, interrupted, getElem?_send, Option.map_map, List.countP_cons]
      congr 1
      funext reader
      by_cases h : entry.2.sender = index
      · simp [h, interruption]
      · simp [h]

/-- Closing sends the error to each active read. -/
theorem closeReaders_eq (session : Session) (error : Error) :
    ∃ readers, session.closeReaders error =
        { session with ranges := ∅, readers := readers } ∧
      readers.length = session.readers.length ∧
      ∀ index, readers[index]? = session.readers[index]?.map fun reader =>
        (fun r => r.push (interruption error))^[session.ranges.entries.countP fun entry =>
          entry.2.sender = index] reader := by
  obtain ⟨readers, hfold, hlength, hreaders⟩ :=
    foldl_interrupted session.ranges.entries error session
  exact ⟨readers, by rw [closeReaders, hfold], hlength, hreaders⟩

/-! ## Responses -/

/-- The reads after a response for one of them. -/
def updated (session : Session) (response : ObjectRangeData) (id : ℤ) (active : ActiveRead) :
    AList fun _ : ℤ => ActiveRead :=
  if response.rangeEnd then session.ranges.erase id else session.ranges.insert id active

theorem lookup_updated {id other : ℤ} {active found : ActiveRead}
    (h : (session.updated response id active).lookup other = some found) :
    (other = id ∧ response.rangeEnd = false ∧ found = active) ∨
      (other ≠ id ∧ session.ranges.lookup other = some found) := by
  rw [updated] at h
  split at h
  · rw [lookup_erase_eq] at h
    split at h
    · cases h
    case isFalse hne => exact .inr ⟨hne, h⟩
  case isFalse hend =>
    rw [lookup_insert_eq] at h
    split at h
    case isTrue heq =>
      cases h
      exact .inl ⟨heq, Bool.eq_false_of_not_eq_true hend, rfl⟩
    case isFalse hne => exact .inr ⟨hne, h⟩

/-- The outcomes of `handle_range_data`. -/
inductive Handled (crc32c : Bytes → UInt32) (session : Session) (response : ObjectRangeData) :
    Session × Except ReadError Unit → Prop
  /-- The response is not for an active read. -/
  | unknown (e : ReadError)
      (hactive : ∀ range ∈ response.readRange, session.ranges.lookup range.readId = none) :
      Handled crc32c session response (session, .error e)
  | rejected (range : ProtoRange) (pending active : ActiveRead) (e : ReadError)
      (hrange : response.readRange = some range)
      (hlookup : session.ranges.lookup range.readId = some pending)
      (hdata : pending.handleData crc32c response.checksummedData range response.rangeEnd =
        (active, .error e)) :
      Handled crc32c session response
        ({ session with ranges := session.updated response range.readId active }, .error e)
  | accepted (range : ProtoRange) (pending active : ActiveRead)
      (hrange : response.readRange = some range)
      (hlookup : session.ranges.lookup range.readId = some pending)
      (hdata : pending.handleData crc32c response.checksummedData range response.rangeEnd =
        (active, .ok (pending.handler response.checksummedData))) :
      Handled crc32c session response
        (({ session with
            ranges := session.updated response range.readId active
            finished :=
              if response.rangeEnd then session.finished ++ [pending.sender]
              else session.finished }).handle (pending.handler response.checksummedData), .ok ())

theorem handled (crc32c : Bytes → UInt32) (session : Session) (response : ObjectRangeData) :
    Handled crc32c session response (session.handleRangeData crc32c response) := by
  rw [handleRangeData]
  split
  case h_1 hrange => exact .unknown _ (by simp [hrange])
  case h_2 range hrange =>
    split
    case h_1 hlookup =>
      refine .unknown _ fun other hother => ?_
      cases hrange.symm.trans hother
      exact hlookup
    case h_2 pending hlookup =>
      rcases hdata : pending.handleData crc32c response.checksummedData range response.rangeEnd
        with ⟨active, e | handler⟩
      · exact .rejected range pending active e hrange hlookup hdata
      · obtain ⟨hfits, hdataFits⟩ := ActiveRead.handleData_fits (congrArg Prod.snd hdata)
        have heq := hdata.symm.trans (ActiveRead.handleData_eq hfits hdataFits)
        cases heq
        exact .accepted range pending _ hrange hlookup hdata

/-- The session after the responses of one message. -/
def after (crc32c : Bytes → UInt32) (session : Session) (data : List ObjectRangeData) : Session :=
  data.foldl (fun s response => (s.handleRangeData crc32c response).1) session

theorem handleRangesFrom_fst (crc32c : Bytes → UInt32) (session : Session)
    (result : Except ReadError Unit) (data : List ObjectRangeData) :
    (session.handleRangesFrom crc32c result data).1 = session.after crc32c data := by
  induction data generalizing session result with
  | nil => rfl
  | cons response data ih => exact ih _ _

/-- Without an error, every response was accepted. -/
theorem handleRangesFrom_ok {result : Except ReadError Unit} {data : List ObjectRangeData}
    (h : (session.handleRangesFrom crc32c result data).2 = .ok ()) :
    result = .ok () ∧ ∀ before response rest, data = before ++ response :: rest →
      ((session.after crc32c before).handleRangeData crc32c response).2 = .ok () := by
  induction data generalizing session result with
  | nil => exact ⟨h, by simp⟩
  | cons first data ih =>
      obtain ⟨hfirst, hrest⟩ := ih h
      cases result with
      | error e => cases hfirst
      | ok _ =>
          refine ⟨rfl, fun before response rest heq => ?_⟩
          cases before with
          | nil =>
              cases heq
              exact hfirst
          | cons other before =>
              cases heq
              exact hrest before response rest rfl

/-- After an error in a response no read is active. -/
theorem handleResponseSuccess_cases (crc32c : Bytes → UInt32) (session : Session)
    (data : List ObjectRangeData) :
    (∃ e, session.handleResponseSuccess crc32c data =
      ((session.after crc32c data).closeReaders e, .error e)) ∨
    (session.handleResponseSuccess crc32c data = (session.after crc32c data, .ok ()) ∧
      ∀ before response rest, data = before ++ response :: rest →
        ((session.after crc32c before).handleRangeData crc32c response).2 = .ok ()) := by
  have hfst := handleRangesFrom_fst crc32c session (.ok ()) data
  rw [handleResponseSuccess, handleRanges]
  rcases hfrom : session.handleRangesFrom crc32c (.ok ()) data with ⟨handled, e | ⟨⟨⟩⟩⟩
  · rw [hfrom] at hfst
    exact .inl ⟨.io e, by rw [← hfst]; rfl⟩
  · have hok := (handleRangesFrom_ok (congrArg Prod.snd hfrom)).2
    rw [hfrom] at hfst
    exact .inr ⟨by rw [← hfst]; rfl, hok⟩

theorem receive_response (crc32c : Bytes → UInt32) (session : Session)
    (data : List ObjectRangeData) :
    (∃ e, session.receive crc32c (.response data) =
      { (session.after crc32c data).closeReaders e with phase := .closing e }) ∨
    session.receive crc32c (.response data) = session.after crc32c data := by
  rw [receive, handleResponse]
  rcases handleResponseSuccess_cases crc32c session data with ⟨e, heq⟩ | ⟨heq, -⟩
  · rw [heq]
    exact .inl ⟨e, rfl⟩
  · rw [heq]
    exact .inr rfl

/-- The response to a reconnection is handled as any other. -/
theorem receive_reconnected (crc32c : Bytes → UInt32) (session : Session)
    (data : List ObjectRangeData) :
    session.receive crc32c (.failed (.ok data)) = session.receive crc32c (.response data) := rfl

/-! ## Requests -/

/-- The first request becomes an active read. -/
def insertNext (session : Session) (active : ActiveRead) (requests : List ActiveRead) : Session :=
  { session with
    nextRangeId := session.nextRangeId + 1
    ranges := session.ranges.insert session.nextRangeId active
    requests := requests }

/-- Requests are inserted one after the other. -/
theorem insertRanges_rule (motive : Session → List ProtoRange → Prop)
    (hinsert : ∀ (s : Session) active requests protos, s.requests = active :: requests →
      motive s protos →
      motive (s.insertNext active requests) (protos ++ [active.asProto s.nextRangeId]))
    {taken rest : List ActiveRead} (hrequests : session.requests = taken ++ rest)
    (protos : List ProtoRange) (h : motive session protos) :
    motive ({ session with requests := rest }.insertRanges taken).1
      (protos ++ ({ session with requests := rest }.insertRanges taken).2) := by
  induction taken generalizing session protos with
  | nil =>
      obtain rfl : session.requests = rest := hrequests
      simpa [insertRanges] using h
  | cons active taken ih =>
      have hnext := hinsert session active (taken ++ rest) protos hrequests h
      have hfinal := @ih (session.insertNext active (taken ++ rest)) rfl _ hnext
      rw [List.append_assoc] at hfinal
      exact hfinal

end GoogleCloudRust.Bidi.Session
