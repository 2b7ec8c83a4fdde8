import GoogleCloudRust.Verification.LeaseLoop.Order
import GoogleCloudRust.Verification.Leases.ExactlyOnce

/-! # What becomes of the messages

The ids that are passed to the leaser are those that the application has decided on, and those
that are nacked when the loop ends. -/

namespace GoogleCloudRust.Subscriber

/-! ## Ids that are passed to the leaser -/

namespace LeaserCall

def acked : LeaserCall → List String
  | ack ackIds => ackIds
  | _ => []

def nacked : LeaserCall → List String
  | nack ackIds => ackIds
  | _ => []

def confirmedNacked : LeaserCall → List String
  | confirmedNack ackIds => ackIds
  | _ => []

end LeaserCall

def LogEntry.acked? : LogEntry → Option String
  | process (.ack ackId) _ => some ackId
  | _ => none

def LogEntry.nacked? : LogEntry → Option String
  | process (.nack ackId) true => some ackId
  | _ => none

def LogEntry.decided? : LogEntry → Option String
  | process (.ack ackId) _ => some ackId
  | process (.nack ackId) _ => some ackId
  | _ => none

/-- At-least-once messages that the application has acknowledged. -/
def acked (log : List LogEntry) : List String := log.filterMap LogEntry.acked?

/-- At-least-once messages that were nacked while they were under lease. -/
def nacked (log : List LogEntry) : List String := log.filterMap LogEntry.nacked?

/-- At-least-once messages that were acknowledged or nacked. -/
def decided (log : List LogEntry) : List String := log.filterMap LogEntry.decided?

def processedIds (log : List LogEntry) : List String := (processed log).map Action.ackId

section Logs

variable (log more : List LogEntry)

@[simp]
theorem acked_append : acked (log ++ more) = acked log ++ acked more := List.filterMap_append

@[simp]
theorem nacked_append : nacked (log ++ more) = nacked log ++ nacked more := List.filterMap_append

@[simp]
theorem decided_append : decided (log ++ more) = decided log ++ decided more :=
  List.filterMap_append

@[simp]
theorem processedIds_append : processedIds (log ++ more) = processedIds log ++ processedIds more := by
  simp [processedIds]

end Logs

theorem mem_processedIds {log : List LogEntry} {id : String} (h : id ∈ decided log) :
    id ∈ processedIds log := by
  obtain ⟨entry, hentry, hdecided⟩ := List.mem_filterMap.mp h
  refine List.mem_map.mpr ?_
  cases entry with
  | add ackId exactlyOnce => cases hdecided
  | process action leased =>
      refine ⟨action, List.mem_filterMap.mpr ⟨_, hentry, rfl⟩, ?_⟩
      cases action with
      | ack ackId | nack ackId => exact Option.some_inj.mp hdecided
      | exactlyOnceAck ackId | exactlyOnceNack ackId => cases hdecided

theorem acked_subset (log : List LogEntry) : acked log ⊆ decided log := by
  intro id hid
  obtain ⟨entry, hentry, hacked⟩ := List.mem_filterMap.mp hid
  refine List.mem_filterMap.mpr ⟨entry, hentry, ?_⟩
  unfold LogEntry.acked? at hacked
  split at hacked
  · exact hacked
  · cases hacked

theorem nacked_subset (log : List LogEntry) : nacked log ⊆ decided log := by
  intro id hid
  obtain ⟨entry, hentry, hnacked⟩ := List.mem_filterMap.mp hid
  refine List.mem_filterMap.mpr ⟨entry, hentry, ?_⟩
  unfold LogEntry.nacked? at hnacked
  split at hnacked
  · exact hnacked
  · cases hnacked

/-- A message that is processed once is counted only there. -/
theorem count_of_processed_once {log : List LogEntry} {action : Action} {leased : Bool}
    (h : .process action leased ∈ log) (honce : (processedIds log).count action.ackId ≤ 1) :
    (acked log).count action.ackId = (acked [.process action leased]).count action.ackId ∧
      (nacked log).count action.ackId = (nacked [.process action leased]).count action.ackId := by
  obtain ⟨before, after, rfl⟩ := List.append_of_mem h
  rw [← List.singleton_append] at honce ⊢
  have hentry : (processedIds [.process action leased]).count action.ackId = 1 := by
    simp [processedIds]
  simp only [processedIds_append, List.count_append, hentry] at honce
  have hbefore : action.ackId ∉ decided before := fun hmem =>
    List.count_eq_zero.mp (by omega) (mem_processedIds hmem)
  have hafter : action.ackId ∉ decided after := fun hmem =>
    List.count_eq_zero.mp (by omega) (mem_processedIds hmem)
  simp only [acked_append, nacked_append, List.count_append]
  rw [List.count_eq_zero.mpr fun hmem => hbefore (acked_subset before hmem),
    List.count_eq_zero.mpr fun hmem => hafter (acked_subset after hmem),
    List.count_eq_zero.mpr fun hmem => hbefore (nacked_subset before hmem),
    List.count_eq_zero.mpr fun hmem => hafter (nacked_subset after hmem)]
  simp

/-- A message that is added has not been processed. -/
theorem AddsFirst.notMem_processedIds {log : List LogEntry} {ackId : String} {exactlyOnce : Bool}
    (h : AddsFirst (log ++ [.add ackId exactlyOnce])) : ackId ∉ processedIds log := by
  intro hmem
  obtain ⟨action, haction, rfl⟩ := List.mem_map.mp hmem
  obtain ⟨entry, hentry, hprocessed⟩ := List.mem_filterMap.mp haction
  cases entry with
  | add ackId exactlyOnce => cases hprocessed
  | process action leased =>
      cases hprocessed
      obtain ⟨before, after, rfl⟩ := List.append_of_mem hentry
      exact (h before action leased (after ++ [.add action.ackId exactlyOnce]) (by simp)).2 (by simp)

namespace LeaseState

variable {state : LeaseState}

def ackedIds (state : LeaseState) : List String := state.calls.flatMap LeaserCall.acked
def nackedIds (state : LeaseState) : List String := state.calls.flatMap LeaserCall.nacked

def confirmedNackedIds (state : LeaseState) : List String :=
  state.calls.flatMap LeaserCall.confirmedNacked

theorem flatMap_callUnlessEmpty {f : LeaserCall → List String} {call : List String → LeaserCall}
    (hcall : f (call []) = []) (ackIds : List String) :
    (callUnlessEmpty call ackIds).flatMap f = f (call ackIds) := by
  cases ackIds with
  | nil => simp [callUnlessEmpty, hcall]
  | cons id ackIds => simp [callUnlessEmpty]

theorem flatten_batch (ackIds : List String) : (batch ackIds).flatten = ackIds :=
  Batches.flatten_chunks _ _

theorem flatMap_nil (batches : List (List String)) :
    batches.flatMap (fun _ => ([] : List String)) = [] := by
  simp

theorem ackedIds_flush : state.flush.ackedIds = state.ackedIds ++ state.leases.toAck := by
  simp only [ackedIds, flush, Leases.drain, ExactlyOnceLeases.drain, List.flatMap_append]
  rw [flatMap_callUnlessEmpty rfl, flatMap_callUnlessEmpty rfl, flatMap_callUnlessEmpty rfl,
    flatMap_callUnlessEmpty rfl]
  simp [LeaserCall.acked]

theorem nackedIds_flush : state.flush.nackedIds = state.nackedIds ++ state.leases.toNack := by
  simp only [nackedIds, flush, Leases.drain, ExactlyOnceLeases.drain, List.flatMap_append]
  rw [flatMap_callUnlessEmpty rfl, flatMap_callUnlessEmpty rfl, flatMap_callUnlessEmpty rfl,
    flatMap_callUnlessEmpty rfl]
  simp [LeaserCall.nacked]

theorem confirmedNackedIds_flush :
    state.flush.confirmedNackedIds = state.confirmedNackedIds ++ state.eoLeases.toNack := by
  simp only [confirmedNackedIds, flush, Leases.drain, ExactlyOnceLeases.drain, List.flatMap_append]
  rw [flatMap_callUnlessEmpty rfl, flatMap_callUnlessEmpty rfl, flatMap_callUnlessEmpty rfl,
    flatMap_callUnlessEmpty rfl]
  simp [LeaserCall.confirmedNacked]

theorem ackedIds_extend (options : LeaseOptions) (now : ℕ) (order : List String) :
    (state.extend options now order).ackedIds = state.ackedIds := by
  simp [ackedIds, extend, List.flatMap_map, LeaserCall.acked]

theorem nackedIds_extend (options : LeaseOptions) (now : ℕ) (order : List String) :
    (state.extend options now order).nackedIds = state.nackedIds := by
  simp [nackedIds, extend, List.flatMap_map, LeaserCall.nacked]

theorem confirmedNackedIds_extend (options : LeaseOptions) (now : ℕ) (order : List String) :
    (state.extend options now order).confirmedNackedIds = state.confirmedNackedIds := by
  simp [confirmedNackedIds, extend, List.flatMap_map, LeaserCall.confirmedNacked]

/-- The messages that are nacked when the loop ends. -/
def leasedIds (state : LeaseState) (order : List String) : List String :=
  (state.leases.visit order).map Prod.fst

def eoLeasedIds (state : LeaseState) (order : List String) : List String :=
  (state.eoLeases.visit order).map Prod.fst

theorem ackedIds_shutdown (order : List String) :
    (state.shutdown order).ackedIds = state.ackedIds ++ state.leases.toAck := by
  simp only [ackedIds, shutdown, AtLeastOnceLeases.evictAndDrain, ExactlyOnceLeases.evictAndDrain,
    List.flatMap_append, List.flatMap_map]
  rw [flatMap_callUnlessEmpty rfl]
  simp [LeaserCall.acked]

theorem nackedIds_shutdown (order : List String) :
    (state.shutdown order).nackedIds =
      state.nackedIds ++ state.leases.toNack ++ state.leasedIds order := by
  simp only [nackedIds, shutdown, AtLeastOnceLeases.evictAndDrain,
    ExactlyOnceLeases.evictAndDrain, List.flatMap_append, List.flatMap_map]
  rw [flatMap_callUnlessEmpty rfl]
  simp [LeaserCall.nacked, flatten_batch, flatMap_nil, leasedIds]

theorem confirmedNackedIds_shutdown (order : List String) :
    (state.shutdown order).confirmedNackedIds =
      state.confirmedNackedIds ++ state.eoLeasedIds order := by
  simp only [confirmedNackedIds, shutdown, AtLeastOnceLeases.evictAndDrain,
    ExactlyOnceLeases.evictAndDrain, List.flatMap_append, List.flatMap_map]
  rw [flatMap_callUnlessEmpty rfl]
  simp [LeaserCall.confirmedNacked, flatten_batch, flatMap_nil, eoLeasedIds]

/-! ## At-least-once messages -/

/-- What became of the messages, with those that were nacked at the end. -/
structure Decided (state : LeaseState) (log : List LogEntry) (evicted : List String) : Prop where
  acked : state.ackedIds ++ state.leases.toAck = Subscriber.acked log
  nacked : state.nackedIds ++ state.leases.toNack = Subscriber.nacked log ++ evicted
  leased : ∀ id, (state.leases.underLease.lookup id).isSome → id ∉ decided log
  added : ∀ id, .add id false ∈ log → (state.leases.underLease.lookup id).isSome ∨
    id ∈ state.expired ∨ id ∈ decided log ∨ id ∈ evicted

variable {log : List LogEntry} {evicted : List String}

theorem Decided.flush (h : Decided state log evicted) : Decided state.flush log evicted := by
  refine ⟨?_, ?_, h.leased, h.added⟩
  · rw [ackedIds_flush, ← h.acked]
    exact List.append_nil _
  · rw [nackedIds_flush, ← h.nacked]
    exact List.append_nil _

theorem Decided.extend (h : Decided state log evicted) (options : LeaseOptions) (now : ℕ)
    (order : List String) : Decided (state.extend options now order) log evicted := by
  have hlookup (id : String) : (state.extend options now order).leases.underLease.lookup id =
      (state.leases.underLease.lookup id).filter
        fun info => !AtLeastOnceLeases.isExpired now options.maxLease info :=
    Leases.lookup_filter _
  refine ⟨?_, ?_, fun id hid => h.leased id ?_, fun id hid => ?_⟩
  · rw [ackedIds_extend]
    exact h.acked
  · rw [nackedIds_extend]
    exact h.nacked
  · rw [hlookup] at hid
    exact Option.isSome_of_isSome_filter _ _ hid
  · obtain hsome | hexpired | hrest := h.added id hid
    · obtain ⟨info, hinfo⟩ := Option.isSome_iff_exists.mp hsome
      by_cases hexpired : AtLeastOnceLeases.isExpired now options.maxLease info = true
      · refine .inr (.inl (List.mem_append_right _ (List.mem_map.mpr ⟨(id, info), ?_, rfl⟩)))
        exact List.mem_filter.mpr ⟨(Leases.mem_visit order).mpr hinfo, hexpired⟩
      · rw [hlookup, hinfo]
        exact .inl (by simp [hexpired])
    · exact .inr (.inl (List.mem_append_left _ hexpired))
    · exact .inr (.inr hrest)

theorem Decided.updateLastExtension (h : Decided state log evicted) (now : ℕ)
    (ackIds : List String) : Decided (state.updateLastExtension now ackIds) log evicted := by
  obtain ⟨hack, hnack⟩ := Leases.foldl_modify_lists state.leases
    (fun info => { info with lastExtension := some now }) ackIds
  have hlookup (id : String) : ((state.updateLastExtension now ackIds).leases.underLease.lookup
      id).isSome = (state.leases.underLease.lookup id).isSome := Leases.lookup_foldl_modify _ _
  refine ⟨?_, ?_, fun id hid => h.leased id (hlookup id ▸ hid), fun id hid => ?_⟩
  · exact (congrArg _ hack).trans h.acked
  · exact (congrArg _ hnack).trans h.nacked
  · rw [hlookup]
    exact h.added id hid

/-- What the exactly-once messages do makes no difference. -/
theorem Decided.of_eq {next : LeaseState} (h : Decided state log evicted)
    (hleases : next.leases = state.leases) (hcalls : next.calls = state.calls)
    (hexpired : next.expired = state.expired) : Decided next log evicted := by
  refine ⟨?_, ?_, ?_, ?_⟩
  · rw [ackedIds, hcalls, hleases]
    exact h.acked
  · rw [nackedIds, hcalls, hleases]
    exact h.nacked
  · rw [hleases]
    exact h.leased
  · rw [hleases, hexpired]
    exact h.added

/-- An entry about a message that nothing was decided on. -/
theorem Decided.concat (h : Decided state log evicted) (entry : LogEntry)
    (hdecided : entry.decided? = none) (hadd : ∀ id, entry ≠ .add id false) :
    Decided state (log ++ [entry]) evicted := by
  have hnone : Subscriber.acked [entry] = [] ∧ Subscriber.nacked [entry] = [] ∧
      decided [entry] = [] := by
    cases entry with
    | add ackId exactlyOnce => exact ⟨rfl, rfl, rfl⟩
    | process action leased =>
        cases action with
        | ack ackId | nack ackId => cases hdecided
        | exactlyOnceAck ackId | exactlyOnceNack ackId => exact ⟨rfl, rfl, rfl⟩
  refine ⟨?_, ?_, ?_, fun id hid => ?_⟩
  · rw [acked_append, hnone.1, List.append_nil]
    exact h.acked
  · rw [nacked_append, hnone.2.1, List.append_nil]
    exact h.nacked
  · rw [decided_append, hnone.2.2, List.append_nil]
    exact h.leased
  · rw [decided_append, hnone.2.2, List.append_nil]
    refine h.added id ((List.mem_append.mp hid).resolve_right fun hlast => ?_)
    exact hadd id (List.mem_singleton.mp hlast).symm

theorem Decided.add (h : Decided state log evicted) (message : NewMessage)
    (hnew : message.ackId ∉ processedIds log) :
    Decided (state.add message) (log ++ [.add message.ackId message.exactlyOnce]) evicted := by
  obtain ⟨ackId, leaseInfo⟩ := message
  cases leaseInfo with
  | exactlyOnce info =>
      refine Decided.concat ?_ _ rfl (by simp [NewMessage.exactlyOnce])
      exact h.of_eq rfl rfl rfl
  | atLeastOnce info =>
      have hlookup (id : String) : ((state.add ⟨ackId, .atLeastOnce info⟩).leases.underLease.lookup
          id) = if id = ackId then some info else state.leases.underLease.lookup id :=
        Leases.lookup_insert_eq info
      have hdecided : decided (log ++ [.add ackId false]) = decided log := by
        rw [decided_append]
        exact List.append_nil _
      refine ⟨?_, ?_, fun id hid => ?_, fun id hid => ?_⟩
      · rw [acked_append]
        exact h.acked.trans (List.append_nil _).symm
      · rw [nacked_append]
        exact h.nacked.trans (congrArg (· ++ evicted) (List.append_nil _).symm)
      · refine hdecided ▸ fun hmem => ?_
        rw [hlookup] at hid
        split_ifs at hid with hsame
        · exact hnew (hsame ▸ mem_processedIds hmem)
        · exact h.leased id hid hmem
      · rw [hlookup]
        by_cases hsame : id = ackId
        · exact .inl (by simp [hsame])
        · have hold : .add id false ∈ log := by
            simpa [hsame] using hid
          rw [if_neg hsame]
          exact hdecided.symm ▸ h.added id hold

/-- The application decides on a message, which is no longer under lease. -/
theorem Decided.erase (h : Decided state log evicted) {next : LeaseState} {entry : LogEntry}
    {ackId : String} (hdecided : entry.decided? = some ackId)
    (hacked : next.ackedIds ++ next.leases.toAck =
      state.ackedIds ++ state.leases.toAck ++ Subscriber.acked [entry])
    (hnacked : next.nackedIds ++ next.leases.toNack =
      state.nackedIds ++ state.leases.toNack ++ Subscriber.nacked [entry])
    (hevicted : evicted = []) (hexpired : next.expired = state.expired)
    (hlookup : ∀ id, next.leases.underLease.lookup id =
      if id = ackId then none else state.leases.underLease.lookup id) :
    Decided next (log ++ [entry]) evicted := by
  have hentry : decided [entry] = [ackId] := by
    simp [decided, hdecided]
  subst hevicted
  refine ⟨?_, ?_, fun id hid => ?_, fun id hid => ?_⟩
  · rw [hacked, acked_append, h.acked]
  · rw [hnacked, nacked_append, h.nacked]
    simp
  · rw [hlookup] at hid
    split_ifs at hid with hsame
    · cases hid
    · rw [decided_append, hentry, List.mem_append, not_or, List.mem_singleton]
      exact ⟨h.leased id hid, hsame⟩
  · rw [hlookup, hexpired, decided_append, hentry, List.mem_append, List.mem_singleton]
    by_cases hsame : id = ackId
    · exact .inr (.inr (.inl (.inr hsame)))
    · rw [if_neg hsame]
      have hold : .add id false ∈ log := by
        refine (List.mem_append.mp hid).resolve_right fun hlast => ?_
        rw [← List.mem_singleton.mp hlast] at hdecided
        cases hdecided
      obtain hleft | hleft | hleft | hleft := h.added id hold
      · exact .inl hleft
      · exact .inr (.inl hleft)
      · exact .inr (.inr (.inl (.inl hleft)))
      · exact .inr (.inr (.inr hleft))

theorem Decided.process (h : Decided state log []) (action : Action) :
    Decided (state.process action)
      (log ++ [.process action (state.leases.underLease.lookup action.ackId).isSome]) [] := by
  cases action with
  | exactlyOnceAck ackId | exactlyOnceNack ackId =>
      refine Decided.concat ?_ _ rfl (by simp)
      exact h.of_eq rfl rfl rfl
  | ack ackId =>
      refine h.erase rfl ?_ ?_ rfl rfl fun id => Leases.lookup_erase_eq
      · exact (List.append_assoc _ _ _).symm
      · exact (List.append_nil _).symm
  | nack ackId =>
      by_cases hlease : (state.leases.underLease.lookup ackId).isSome = true
      · have hprocess : state.process (.nack ackId) = { state with leases := { state.leases with
            underLease := state.leases.underLease.erase ackId
            toNack := state.leases.toNack ++ [ackId] } } := by
          simp only [LeaseState.process, AtLeastOnceLeases.nack, if_pos hlease]
        rw [hprocess]
        refine h.erase rfl ?_ ?_ rfl rfl fun id => Leases.lookup_erase_eq
        · exact (List.append_nil _).symm
        · simp only [Action.ackId, hlease]
          exact (List.append_assoc _ _ _).symm
      · have hprocess : state.process (.nack ackId) = state := by
          simp only [LeaseState.process, AtLeastOnceLeases.nack, if_neg hlease]
        rw [hprocess]
        refine h.erase rfl ?_ ?_ rfl rfl fun id => ?_
        · exact (List.append_nil _).symm
        · simp only [Action.ackId, Bool.not_eq_true _ ▸ hlease]
          exact (List.append_nil _).symm
        · split_ifs with hsame
          · rw [hsame]
            exact Option.not_isSome_iff_eq_none.mp hlease
          · rfl

theorem Decided.shutdown (h : Decided state log []) (order : List String) :
    Decided (state.shutdown order) log (state.leasedIds order) := by
  refine ⟨?_, ?_, by simp [LeaseState.shutdown], fun id hid => ?_⟩
  · rw [ackedIds_shutdown, ← h.acked]
    exact List.append_nil _
  · rw [nackedIds_shutdown, h.nacked, List.append_nil]
    exact List.append_nil _
  · obtain hleft | hleft | hleft | hleft := h.added id hid
    · obtain ⟨info, hinfo⟩ := Option.isSome_iff_exists.mp hleft
      refine .inr (.inr (.inr (List.mem_map.mpr ⟨(id, info), ?_, rfl⟩)))
      exact (Leases.mem_visit order).mpr hinfo
    · exact .inr (.inl hleft)
    · exact .inr (.inr (.inl hleft))
    · cases hleft

/-! ## Exactly-once messages -/

open ExactlyOnceLeases (replies)

/-- What became of the messages, with those that were nacked at the end. -/
structure Answered (state : LeaseState) (log : List LogEntry) (evicted : List String) : Prop where
  nacked : ∃ earlier, state.confirmedNackedIds = earlier ++ evicted ∧
    ∀ id ∈ earlier ++ state.eoLeases.toNack, id ∈ processedIds log
  added : ∀ id, .add id true ∈ log → (state.eoLeases.underLease.lookup id).isSome ∨
    (∃ reply ∈ replies state.eoLeases.sent id, reply ≠ .shutdown) ∨ id ∈ evicted

/-- No message was told that the loop has ended. -/
def Live (state : LeaseState) : Prop := ∀ id, .shutdown ∉ replies state.eoLeases.sent id

end LeaseState

namespace ExactlyOnceLeases

variable {leases : ExactlyOnceLeases} {id : String} {event : Event}

/-- A message stays under lease until it gets a result. -/
theorem step_answers (event : Event) (h : (leases.underLease.lookup id).isSome ∨
      ∃ reply ∈ replies leases.sent id, reply ≠ .shutdown) :
    ((leases.step event).underLease.lookup id).isSome ∨
      ∃ reply ∈ replies (leases.step event).sent id, reply ≠ .shutdown := by
  obtain ⟨sent, hchange, hreplies⟩ := step_changes leases event id
  rw [hreplies]
  obtain hsome | ⟨reply, hreply, hne⟩ := h
  · generalize leases.underLease.lookup id = before at hchange hsome
    generalize (leases.step event).underLease.lookup id = after at hchange
    cases hchange with
    | keep => exact .inl hsome
    | add _ receiveTime hevent => exact .inl rfl
    | update info info' => exact .inl rfl
    | confirm info result hevent => exact .inr ⟨.confirmed result, by simp, by simp⟩
    | expire info now maxLease maxLeaseExtension order hevent hstatus hheld =>
        exact .inr ⟨.leaseExpired, by simp, by simp⟩
  · exact .inr ⟨reply, List.mem_append_left _ hreply, hne⟩

theorem step_live (event : Event) (h : .shutdown ∉ replies leases.sent id) :
    .shutdown ∉ replies (leases.step event).sent id := by
  obtain ⟨sent, hchange, hreplies⟩ := step_changes leases event id
  rw [hreplies, List.mem_append, not_or]
  refine ⟨h, ?_⟩
  generalize leases.underLease.lookup id = before at hchange
  generalize (leases.step event).underLease.lookup id = after at hchange
  cases hchange with
  | _ => simp

end ExactlyOnceLeases

namespace LeaseState

variable {state next : LeaseState} {log : List LogEntry}

/-- One operation on the leases, which may add an id to those to nack. -/
theorem Answered.step (h : Answered state log []) (event : ExactlyOnceLeases.Event)
    (hleases : next.eoLeases = state.eoLeases.step event)
    (hnacked : ∀ id ∈ next.confirmedNackedIds ++ next.eoLeases.toNack,
      id ∈ state.confirmedNackedIds ++ state.eoLeases.toNack ∨ id ∈ processedIds log) :
    Answered next log [] := by
  obtain ⟨earlier, hearlier, hprocessed⟩ := h.nacked
  rw [List.append_nil] at hearlier
  refine ⟨⟨next.confirmedNackedIds, (List.append_nil _).symm, fun id hid => ?_⟩,
    fun id hid => ?_⟩
  · obtain hold | hnew := hnacked id hid
    · exact hprocessed id (hearlier ▸ hold)
    · exact hnew
  · have hold := h.added id hid
    simp only [List.not_mem_nil, or_false] at hold ⊢
    rw [hleases]
    exact ExactlyOnceLeases.step_answers event hold

theorem Live.step (h : Live state) (event : ExactlyOnceLeases.Event)
    (hleases : next.eoLeases = state.eoLeases.step event) : Live next := by
  intro id
  rw [hleases]
  exact ExactlyOnceLeases.step_live event (h id)

/-- What the at-least-once messages do makes no difference. -/
theorem Answered.of_eq (h : Answered state log []) (hleases : next.eoLeases = state.eoLeases)
    (hcalls : next.confirmedNackedIds = state.confirmedNackedIds) : Answered next log [] := by
  refine ⟨?_, ?_⟩
  · rw [hcalls, hleases]
    exact h.nacked
  · rw [hleases]
    exact h.added

theorem Answered.flush (h : Answered state log []) : Answered state.flush log [] := by
  refine h.step .drain rfl fun id hid => .inl ?_
  rw [confirmedNackedIds_flush] at hid
  simpa [LeaseState.flush, ExactlyOnceLeases.drain, Leases.drain] using hid

theorem Answered.extend (h : Answered state log []) (options : LeaseOptions) (now : ℕ)
    (order : List String) : Answered (state.extend options now order) log [] := by
  refine h.step (.retain now options.maxLease options.maxLeaseExtension order) rfl fun id hid => .inl ?_
  rwa [confirmedNackedIds_extend] at hid

theorem Answered.updateLastExtensionEo (h : Answered state log []) (now : ℕ)
    (ackIds : List String) : Answered (state.updateLastExtensionEo now ackIds) log [] := by
  refine h.step (.updateLastExtension now ackIds) rfl fun id hid => .inl ?_
  have hnack := (Leases.foldl_modify_lists state.eoLeases.toLeases
    (fun info => { info with lastExtension := some now }) ackIds).2
  simp only [LeaseState.updateLastExtensionEo, ExactlyOnceLeases.updateLastExtension, hnack] at hid
  exact hid

theorem Answered.concat (h : Answered state log []) (entry : LogEntry)
    (hadd : ∀ id, entry ≠ .add id true) : Answered state (log ++ [entry]) [] := by
  obtain ⟨earlier, hearlier, hprocessed⟩ := h.nacked
  refine ⟨⟨earlier, hearlier, fun id hid => ?_⟩, fun id hid => ?_⟩
  · rw [processedIds_append]
    exact List.mem_append_left _ (hprocessed id hid)
  · refine h.added id ((List.mem_append.mp hid).resolve_right fun hlast => ?_)
    exact hadd id (List.mem_singleton.mp hlast).symm

theorem Answered.add (h : Answered state log []) (message : NewMessage) :
    Answered (state.add message) (log ++ [.add message.ackId message.exactlyOnce]) [] := by
  obtain ⟨ackId, leaseInfo⟩ := message
  cases leaseInfo with
  | atLeastOnce info =>
      refine Answered.concat ?_ _ (by simp [NewMessage.exactlyOnce])
      exact h.of_eq rfl rfl
  | exactlyOnce info =>
      obtain ⟨earlier, hearlier, hprocessed⟩ := h.nacked
      have hlookup (id : String) : ((state.add ⟨ackId, .exactlyOnce info⟩).eoLeases.underLease.lookup
          id) = if id = ackId then some info else state.eoLeases.underLease.lookup id :=
        Leases.lookup_insert_eq info
      refine ⟨⟨earlier, hearlier, fun id hid => ?_⟩, fun id hid => ?_⟩
      · rw [processedIds_append]
        exact List.mem_append_left _ (hprocessed id hid)
      · rw [hlookup]
        by_cases hsame : id = ackId
        · exact .inl (by simp [hsame])
        · rw [if_neg hsame]
          exact h.added id (by simpa [hsame] using hid)

theorem Answered.process (h : Answered state log []) (action : Action) (leased : Bool) :
    Answered (state.process action) (log ++ [.process action leased]) [] := by
  have hconcat := h.concat (.process action leased) (by simp)
  cases action with
  | ack ackId | nack ackId => exact hconcat.of_eq rfl rfl
  | exactlyOnceAck ackId =>
      refine hconcat.step (.ack ackId) rfl fun id hid => .inl ?_
      simp only [LeaseState.process, ExactlyOnceLeases.ack] at hid
      split at hid
      · exact hid
      · exact hid
  | exactlyOnceNack ackId =>
      refine hconcat.step (.nack ackId) rfl fun id hid => ?_
      simp only [LeaseState.process, ExactlyOnceLeases.nack] at hid
      split at hid
      · rw [List.mem_append, List.mem_append, List.mem_singleton] at hid
        obtain hcalled | hold | rfl := hid
        · exact .inl (List.mem_append_left _ hcalled)
        · exact .inl (List.mem_append_right _ hold)
        · exact .inr (by simp [processedIds, Action.ackId])
      · exact .inl hid

theorem Answered.confirm (h : Answered state log []) (results : List (String × AckResult)) :
    Answered (state.confirm results) log [] := by
  induction results generalizing state with
  | nil => exact h
  | cons result results ih =>
      have hnext : Answered { state with
          eoLeases := state.eoLeases.confirm result.1 result.2 } log [] := by
        refine h.step (.confirm result.1 result.2) rfl fun id hid => .inl ?_
        rwa [(ExactlyOnceLeases.confirm_lists _ _ _).2] at hid
      exact ih hnext

theorem Live.confirm (h : Live state) (results : List (String × AckResult)) :
    Live (state.confirm results) := by
  induction results generalizing state with
  | nil => exact h
  | cons result results ih =>
      have hnext : Live { state with eoLeases := state.eoLeases.confirm result.1 result.2 } :=
        h.step (.confirm result.1 result.2) rfl
      exact ih hnext

theorem Live.process (h : Live state) (action : Action) : Live (state.process action) := by
  cases action with
  | ack ackId | nack ackId => exact h
  | exactlyOnceAck ackId => exact h.step (.ack ackId) rfl
  | exactlyOnceNack ackId => exact h.step (.nack ackId) rfl

theorem Live.add (h : Live state) (message : NewMessage) : Live (state.add message) := by
  obtain ⟨ackId, leaseInfo⟩ := message
  cases leaseInfo with
  | atLeastOnce info => exact h
  | exactlyOnce info => exact h

theorem Answered.shutdown (h : Answered state log []) (order : List String) :
    Answered (state.shutdown order) log (state.eoLeasedIds order) := by
  obtain ⟨earlier, hearlier, hprocessed⟩ := h.nacked
  rw [List.append_nil] at hearlier
  refine ⟨⟨earlier, ?_, fun id hid => ?_⟩, fun id hid => ?_⟩
  · rw [confirmedNackedIds_shutdown, hearlier]
  · refine hprocessed id (List.mem_append_left _ ?_)
    simpa [LeaseState.shutdown] using hid
  · obtain hsome | ⟨reply, hreply, hne⟩ | hmem := h.added id hid
    · obtain ⟨info, hinfo⟩ := Option.isSome_iff_exists.mp hsome
      refine .inr (.inr (List.mem_map.mpr ⟨(id, info), ?_, rfl⟩))
      exact (Leases.mem_visit order).mpr hinfo
    · refine .inr (.inl ⟨reply, ?_, hne⟩)
      rw [LeaseState.shutdown, ExactlyOnceLeases.evictAndDrain, ExactlyOnceLeases.replies_append]
      exact List.mem_append_left _ hreply
    · cases hmem

end LeaseState

end GoogleCloudRust.Subscriber
