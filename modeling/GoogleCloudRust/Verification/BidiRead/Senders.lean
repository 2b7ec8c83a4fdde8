import GoogleCloudRust.Verification.BidiRead.Steps
import Mathlib.Data.List.Induction
import Mathlib.Data.List.Perm.Subperm

/-! # Every channel has one sender

A reader belongs to one read, which is active, requested or finished, and the identifiers of new
reads were never used before. -/

namespace GoogleCloudRust.Bidi.Session

variable {crc32c : Bytes → UInt32} {session next : Session} {response : ObjectRangeData}
  {id other : ℤ} {active found : ActiveRead}

/-- The senders of active and requested reads, and those that are finished. -/
def holders (session : Session) : List ℕ :=
  session.ranges.entries.map (fun entry => entry.2.sender) ++
    (session.requests.map ActiveRead.sender ++ session.finished)

structure Separate (session : Session) : Prop where
  fresh : ∀ id active, session.ranges.lookup id = some active → id < session.nextRangeId
  nodup : session.holders.Nodup
  bound : ∀ index ∈ session.holders, index < session.readers.length

/-! ## Different reads have different readers -/

theorem Separate.sender_ne (h : session.Separate) (hactive : session.ranges.lookup id = some active)
    (hfound : session.ranges.lookup other = some found) (hne : id ≠ other) :
    active.sender ≠ found.sender := by
  intro heq
  have hentry := List.inj_on_of_nodup_map (List.nodup_append.mp h.nodup).1
    (AList.mem_lookup_iff.mp hactive) (AList.mem_lookup_iff.mp hfound) heq
  exact hne (congrArg Sigma.fst hentry)

theorem Separate.notMem_rest (h : session.Separate)
    (hactive : session.ranges.lookup id = some active) :
    active.sender ∉ session.requests.map ActiveRead.sender ++ session.finished := fun hmem =>
  (List.nodup_append.mp h.nodup).2.2 _
    (List.mem_map_of_mem (AList.mem_lookup_iff.mp hactive)) _ hmem rfl

theorem Separate.not_waiting (h : session.Separate)
    (hactive : session.ranges.lookup id = some active) (hfound : found ∈ session.requests) :
    found.sender ≠ active.sender := by
  intro heq
  have hnotMem := h.notMem_rest hactive
  rw [← heq] at hnotMem
  exact hnotMem (List.mem_append_left _ (List.mem_map_of_mem hfound))

theorem Separate.not_finished (h : session.Separate)
    (hactive : session.ranges.lookup id = some active) : active.sender ∉ session.finished :=
  fun hmem => h.notMem_rest hactive (List.mem_append_right _ hmem)

/-! ## Steps -/

theorem Separate.of_subperm (h : session.Separate)
    (hfresh : ∀ id active, next.ranges.lookup id = some active → id < next.nextRangeId)
    (hholders : next.holders.Subperm session.holders)
    (hlength : next.readers.length = session.readers.length) : next.Separate := by
  refine ⟨hfresh, ?_, fun index hindex => ?_⟩
  · obtain ⟨holders, hperm, hsublist⟩ := hholders
    exact hperm.nodup_iff.mp (hsublist.nodup h.nodup)
  · rw [hlength]
    exact h.bound index (hholders.subset hindex)

theorem entries_perm (ranges : AList fun _ : ℤ => ActiveRead)
    (hactive : ranges.lookup id = some active) :
    ranges.entries.Perm (⟨id, active⟩ :: (ranges.erase id).entries) := by
  have hkey : id ∈ ranges.entries.keys := AList.lookup_isSome.mp (by rw [hactive]; rfl)
  obtain ⟨other, before, rest, -, hentries, herase⟩ := List.exists_of_kerase hkey
  have hother : other = active := by
    have hlookup : ranges.lookup id = some other :=
      AList.mem_lookup_iff.mpr (by rw [hentries]; simp)
    exact Option.some.inj (hlookup.symm.trans hactive)
  subst hother
  rw [show (ranges.erase id).entries = before ++ rest from herase, hentries]
  exact List.perm_middle

/-- A response moves a read to the finished ones or leaves it where it is. -/
theorem holders_updated {finished : List ℕ} (hlookup : session.ranges.lookup id = some active)
    (hsender : found.sender = active.sender)
    (hfinished : finished.Sublist
      (if response.rangeEnd then session.finished ++ [active.sender] else session.finished)) :
    { session with
      ranges := session.updated response id found
      finished := finished }.holders.Subperm session.holders := by
  have hperm := (entries_perm session.ranges hlookup).map fun entry => entry.2.sender
  rw [List.map_cons] at hperm
  simp only [holders, updated]
  refine List.Subperm.trans ?_ (hperm.symm.append_right _).subperm
  by_cases hend : response.rangeEnd = true
  · rw [if_pos hend] at hfinished ⊢
    refine ((hfinished.append_left _).append_left _).subperm.trans (List.Perm.subperm ?_)
    simpa only [List.cons_append, List.append_assoc] using List.perm_append_singleton active.sender
      ((session.ranges.erase id).entries.map (fun entry => entry.2.sender) ++
        (session.requests.map ActiveRead.sender ++ session.finished))
  · rw [if_neg hend] at hfinished ⊢
    rw [AList.entries_insert, List.map_cons, hsender]
    exact ((hfinished.append_left _).append_left _).subperm

theorem Separate.fresh_updated (h : session.Separate)
    (hlookup : session.ranges.lookup id = some active) :
    ∀ other active, (session.updated response id found).lookup other = some active →
      other < session.nextRangeId := by
  intro other active hactive
  rcases lookup_updated hactive with ⟨rfl, -, -⟩ | ⟨-, hbefore⟩
  · exact h.fresh other _ hlookup
  · exact h.fresh other _ hbefore

theorem Separate.handleRangeData (h : session.Separate) :
    (session.handleRangeData crc32c response).1.Separate := by
  have hhandled := handled crc32c session response
  generalize session.handleRangeData crc32c response = outcome at hhandled ⊢
  cases hhandled with
  | unknown e hactive => exact h
  | rejected range pending active e hrange hlookup hdata =>
      have hsender : active.sender = pending.sender := by
        rw [← ActiveRead.handleData_sender pending, hdata]
      refine h.of_subperm (h.fresh_updated hlookup) (holders_updated hlookup hsender ?_) rfl
      split
      · exact List.sublist_append_left _ _
      · exact List.Sublist.refl _
  | accepted range pending active hrange hlookup hdata =>
      have hsender : active.sender = pending.sender := by
        rw [← ActiveRead.handleData_sender pending, hdata]
      obtain ⟨readers, hhandle, hlength⟩ := handle_eq
        { session with
          ranges := session.updated response range.readId active
          finished :=
            if response.rangeEnd then session.finished ++ [pending.sender]
            else session.finished } (pending.handler response.checksummedData)
      rw [hhandle]
      exact h.of_subperm (h.fresh_updated hlookup)
        (holders_updated hlookup hsender (List.Sublist.refl _)) hlength

theorem Separate.after (h : session.Separate) (data : List ObjectRangeData) :
    (session.after crc32c data).Separate := by
  induction data generalizing session with
  | nil => exact h
  | cons response data ih => exact ih h.handleRangeData

/-- Reads are dropped, and messages are sent. -/
theorem Separate.dropped (h : session.Separate) {requests : List ActiveRead}
    {readers : List RangeReader} {phase : Phase}
    (hrequests : requests.Sublist session.requests)
    (hlength : readers.length = session.readers.length) :
    { session with
      ranges := ∅
      requests := requests
      readers := readers
      phase := phase }.Separate := by
  refine h.of_subperm (fun id active hlookup => by simp at hlookup) ?_ hlength
  have hsublist := ((hrequests.map ActiveRead.sender).append_right session.finished)
  exact (hsublist.trans (List.sublist_append_right _ _)).subperm

theorem Separate.closeReaders (h : session.Separate) (error : Error) :
    (session.closeReaders error).Separate := by
  obtain ⟨readers, hclose, hlength, -⟩ := closeReaders_eq session error
  rw [hclose]
  exact h.dropped (List.Sublist.refl _) hlength

theorem Separate.exit (h : session.Separate) : session.exit.Separate :=
  h.dropped (List.nil_sublist _) rfl

theorem Separate.insertNext (h : session.Separate) {requests : List ActiveRead}
    (hrequests : session.requests = active :: requests) :
    (session.insertNext active requests).Separate := by
  have hnew : session.ranges.lookup session.nextRangeId = none := by
    cases hlookup : session.ranges.lookup session.nextRangeId with
    | none => rfl
    | some found => exact absurd (h.fresh _ found hlookup) (lt_irrefl _)
  have herase : (session.ranges.erase session.nextRangeId).entries = session.ranges.entries :=
    List.kerase_of_notMem_keys (AList.lookup_eq_none.mp hnew)
  refine h.of_subperm (fun id found hfound => ?_) ?_ rfl
  · simp only [Session.insertNext, lookup_insert_eq] at hfound ⊢
    split at hfound
    case isTrue heq => omega
    case isFalse =>
      have hlt := h.fresh id found hfound
      omega
  · simp only [holders, Session.insertNext, AList.entries_insert, hrequests, List.map_cons]
    rw [show List.kerase session.nextRangeId session.ranges.entries = session.ranges.entries
      from herase]
    exact List.perm_middle.symm.subperm

theorem Separate.insertRanges (h : session.Separate) {taken rest : List ActiveRead}
    (hrequests : session.requests = taken ++ rest) :
    ({ session with requests := rest }.insertRanges taken).1.Separate :=
  insertRanges_rule (fun s _ => s.Separate)
    (fun _ _ _ _ hnext hs => hs.insertNext hnext) hrequests [] h

theorem Separate.recvMany (h : session.Separate) : session.recvMany.Separate := by
  rw [Session.recvMany]
  split
  · split
    · exact h.exit
    · exact h
  · exact h.insertRanges (List.take_append_drop 16 session.requests).symm

theorem Separate.interruptNext (h : session.Separate) (error : Error) :
    (session.interruptNext error).Separate := by
  rw [Session.interruptNext]
  split
  case h_1 r requests hrequests =>
    refine h.of_subperm h.fresh ?_ (List.length_modify _ _ _)
    simp only [holders, interrupted, send, hrequests, List.map_cons]
    exact ((List.sublist_cons_self _ _).append_left _).subperm
  case h_2 =>
    split
    · exact h.exit
    · exact h

theorem Separate.readRange (h : session.Separate) (range : RequestedRange) :
    (session.readRange range).Separate := by
  have hperm : (session.readRange range).holders.Perm
      (session.readers.length :: session.holders) := by
    have hmiddle := @List.perm_middle _ session.readers.length
      (session.ranges.entries.map (fun entry => entry.2.sender) ++
        session.requests.map ActiveRead.sender) session.finished
    simpa [holders, Session.readRange, mapRange, ActiveRead.new] using hmiddle
  refine ⟨h.fresh, hperm.nodup_iff.mpr (List.nodup_cons.mpr ⟨fun hmem => ?_, h.nodup⟩),
    fun index hindex => ?_⟩
  · exact absurd (h.bound _ hmem) (lt_irrefl _)
  · simp only [Session.readRange, mapRange, List.length_append, List.length_singleton]
    rcases List.mem_cons.mp (hperm.subset hindex) with rfl | hmem
    · omega
    · have hlt := h.bound index hmem
      omega

theorem Separate.receive_response (h : session.Separate) (data : List ObjectRangeData) :
    (session.receive crc32c (.response data)).Separate := by
  have hafter := @Separate.after crc32c session h data
  rcases Session.receive_response crc32c session data with ⟨e, heq⟩ | heq
  · have hclosed := hafter.closeReaders e
    rw [heq]
    exact ⟨hclosed.fresh, hclosed.nodup, hclosed.bound⟩
  · rw [heq]
    exact hafter

theorem Separate.receive (h : session.Separate) (message : Message) :
    (session.receive crc32c message).Separate := by
  cases message with
  | closed => exact h.exit
  | response data => exact h.receive_response data
  | failed outcome =>
      cases outcome with
      | error e =>
          have hclosed := h.closeReaders e
          exact ⟨hclosed.fresh, hclosed.nodup, hclosed.bound⟩
      | ok data =>
          rw [receive_reconnected]
          exact h.receive_response data

theorem Separate.step (h : session.Separate) (event : Event) :
    (session.step crc32c event).Separate := by
  rw [Session.step.eq_def]
  split
  case h_1 | h_2 =>
    split
    · exact h.readRange _
    · exact h
  case h_3 message _ => exact h.receive message
  case h_4 => exact h.recvMany
  case h_5 error _ => exact h.interruptNext error
  case h_6 | h_7 =>
    exact h.of_subperm h.fresh (List.Subperm.refl _) (List.length_modify _ _ _)
  case h_8 => exact ⟨h.fresh, h.nodup, h.bound⟩
  case h_9 => exact h

theorem separate_mapped (ranges : List RequestedRange) :
    (ranges.foldl readRange {}).Separate := by
  induction ranges using List.reverseRecOn with
  | nil => exact ⟨fun id active hlookup => by simp at hlookup, List.nodup_nil, by simp [holders]⟩
  | append_singleton ranges range ih =>
      rw [List.foldl_concat]
      exact ih.readRange range

theorem separate_new {ranges : List RequestedRange} {initial : List ObjectRangeData}
    (h : new crc32c ranges initial = .ok session) : session.Separate := by
  have hopened : (opened ranges).1.Separate :=
    (separate_mapped ranges).insertRanges (List.append_nil _).symm
  rw [new] at h
  rcases handleResponseSuccess_cases crc32c (opened ranges).1 initial with ⟨e, heq⟩ | ⟨heq, -⟩
  · rw [heq] at h
    cases h
  · rw [heq] at h
    cases h
    exact hopened.after initial

end GoogleCloudRust.Bidi.Session
