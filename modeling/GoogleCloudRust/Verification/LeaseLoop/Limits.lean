import GoogleCloudRust.Verification.LeaseLoop.Steps
import GoogleCloudRust.Verification.Leases.Deadlines

/-! # Ids in one call of the leaser

The loop flushes before a list of ids grows beyond the limit. When the message channel closes
the actions that are still queued are processed without a flush in between. -/

namespace GoogleCloudRust.Subscriber

/-! ## The lists to flush -/

theorem length_batch (ackIds : List String) : ∀ ids ∈ batch ackIds, ids.length ≤ 1000 :=
  fun ids hids => (Batches.length_chunks (by decide) ackIds ids hids).2

namespace LeaseState

variable {state : LeaseState} {n : ℕ}

/-- The lists that the next flush hands to the leaser. -/
def pending (state : LeaseState) : List (List String) :=
  [state.leases.toAck, state.leases.toNack, state.eoLeases.toAck, state.eoLeases.toNack]

def Within (n : ℕ) (state : LeaseState) : Prop := ∀ ids ∈ state.pending, ids.length ≤ n

theorem pending_add (message : NewMessage) : (state.add message).pending = state.pending := by
  unfold add
  split
  · rfl
  · rfl

theorem pending_confirm (results : List (String × AckResult)) :
    (state.confirm results).pending = state.pending := by
  have hlists : ∀ leases : ExactlyOnceLeases,
      (results.foldl (fun leases result => leases.confirm result.1 result.2) leases).toAck =
          leases.toAck ∧
        (results.foldl (fun leases result => leases.confirm result.1 result.2) leases).toNack =
          leases.toNack := by
    induction results with
    | nil => exact fun _ => ⟨rfl, rfl⟩
    | cons result results ih =>
        intro leases
        obtain ⟨hack, hnack⟩ := ExactlyOnceLeases.confirm_lists leases result.1 result.2
        obtain ⟨hacks, hnacks⟩ := ih (leases.confirm result.1 result.2)
        exact ⟨hacks.trans hack, hnacks.trans hnack⟩
  simp only [pending, confirm, hlists]

theorem pending_updateLastExtension (now : ℕ) (ackIds : List String) :
    (state.updateLastExtension now ackIds).pending = state.pending := by
  simp only [pending, updateLastExtension, AtLeastOnceLeases.updateLastExtension,
    Leases.foldl_modify_lists]

theorem pending_updateLastExtensionEo (now : ℕ) (ackIds : List String) :
    (state.updateLastExtensionEo now ackIds).pending = state.pending := by
  simp only [pending, updateLastExtensionEo, ExactlyOnceLeases.updateLastExtension,
    Leases.foldl_modify_lists]

/-- An action adds to one of the lists. -/
theorem Within.process (h : Within n state) (action : Action) :
    Within (n + 1) (state.process action) := by
  have hack := h state.leases.toAck (by simp [pending])
  have hnack := h state.leases.toNack (by simp [pending])
  have heoAck := h state.eoLeases.toAck (by simp [pending])
  have heoNack := h state.eoLeases.toNack (by simp [pending])
  unfold Within pending
  cases action with
  | ack ackId =>
      simp [LeaseState.process, AtLeastOnceLeases.ack]
      omega
  | nack ackId =>
      simp only [LeaseState.process, AtLeastOnceLeases.nack]
      split_ifs with hlease
      · simp
        omega
      · simp
        omega
  | exactlyOnceAck ackId =>
      simp only [LeaseState.process, ExactlyOnceLeases.ack]
      split
      · simp
        omega
      · simp
        omega
  | exactlyOnceNack ackId =>
      simp only [LeaseState.process, ExactlyOnceLeases.nack]
      split
      · simp
        omega
      · simp
        omega

/-- Nothing needs to be flushed below the limit. -/
theorem within_of_needsFlush (h : state.needsFlush = false) : Within 999 state := by
  simp [needsFlush, Leases.needsFlush, maxIdsPerRpc] at h
  unfold Within pending
  simp
  omega

theorem Within.mono {m : ℕ} (h : Within n state) (hle : n ≤ m) : Within m state :=
  fun ids hids => (h ids hids).trans hle

/-! ## Calls -/

def CallsWithin (state : LeaseState) : Prop := ∀ call ∈ state.calls, call.ackIds.length ≤ 1000

theorem eq_of_mem_callUnlessEmpty {call : LeaserCall} {f : List String → LeaserCall}
    {ackIds : List String} (h : call ∈ callUnlessEmpty f ackIds) : call = f ackIds := by
  unfold callUnlessEmpty at h
  split_ifs at h with hempty
  · cases h
  · exact List.mem_singleton.mp h

theorem CallsWithin.flush (h : CallsWithin state) (hwithin : Within 1000 state) :
    CallsWithin state.flush := by
  have hpending : ∀ ids ∈ state.pending, ids.length ≤ 1000 := hwithin
  simp only [pending, List.mem_cons, List.not_mem_nil, or_false, forall_eq_or_imp,
    forall_eq] at hpending
  intro call hcall
  simp only [LeaseState.flush, Leases.drain, ExactlyOnceLeases.drain, List.mem_append] at hcall
  obtain (((hold | hack) | hnack) | heoAck) | heoNack := hcall
  · exact h call hold
  · rw [eq_of_mem_callUnlessEmpty hack]
    exact hpending.1
  · rw [eq_of_mem_callUnlessEmpty hnack]
    exact hpending.2.1
  · rw [eq_of_mem_callUnlessEmpty heoAck]
    exact hpending.2.2.1
  · rw [eq_of_mem_callUnlessEmpty heoNack]
    exact hpending.2.2.2

theorem within_flush : Within 0 state.flush := by
  simp [Within, pending, LeaseState.flush, Leases.drain, ExactlyOnceLeases.drain]

theorem CallsWithin.extend (h : CallsWithin state) (options : LeaseOptions) (now : ℕ)
    (order : List String) : CallsWithin (state.extend options now order) := by
  intro call hcall
  simp only [LeaseState.extend, List.mem_append, List.mem_map] at hcall
  obtain (hold | ⟨ids, hids, rfl⟩) | ⟨ids, hids, rfl⟩ := hcall
  · exact h call hold
  · exact AtLeastOnceLeases.length_retain _ _ _ _ ids hids
  · exact ((ExactlyOnceLeases.retain_extends _ _ _ _ _).sizes ids hids).2

theorem CallsWithin.shutdown (h : CallsWithin state) (hack : state.leases.toAck.length ≤ 1000)
    (order : List String) : CallsWithin (state.shutdown order) := by
  intro call hcall
  simp only [LeaseState.shutdown, AtLeastOnceLeases.evictAndDrain,
    ExactlyOnceLeases.evictAndDrain, List.mem_append, List.mem_map] at hcall
  obtain ((hold | hnew) | ⟨ids, hids, rfl⟩) | ⟨ids, hids, rfl⟩ := hcall
  · exact h call hold
  · rw [eq_of_mem_callUnlessEmpty hnew]
    exact hack
  · exact length_batch _ ids hids
  · exact length_batch _ ids hids

/-- All ids to acknowledge are in one call. -/
theorem ack_mem_shutdown (hack : state.leases.toAck ≠ []) (order : List String) :
    .ack state.leases.toAck ∈ (state.shutdown order).calls := by
  simp [LeaseState.shutdown, AtLeastOnceLeases.evictAndDrain, callUnlessEmpty, hack]

/-! ## Calls are never taken back -/

theorem calls_flush : state.calls <+: state.flush.calls := by
  simp only [LeaseState.flush, List.append_assoc]
  exact List.prefix_append _ _

theorem calls_extend (options : LeaseOptions) (now : ℕ) (order : List String) :
    state.calls <+: (state.extend options now order).calls := by
  simp only [LeaseState.extend, List.append_assoc]
  exact List.prefix_append _ _

theorem calls_shutdown (order : List String) : state.calls <+: (state.shutdown order).calls := by
  simp only [LeaseState.shutdown, List.append_assoc]
  exact List.prefix_append _ _

theorem calls_add (message : NewMessage) : (state.add message).calls = state.calls := by
  unfold add
  split
  · rfl
  · rfl

theorem calls_process (action : Action) : (state.process action).calls = state.calls := by
  cases action with
  | ack ackId | nack ackId | exactlyOnceAck ackId | exactlyOnceNack ackId => rfl

end LeaseState

/-! ## The loop -/

def Action.isAck : Action → Bool
  | ack _ => true
  | _ => false

theorem LeaseState.length_toAck_process (state : LeaseState) (action : Action) :
    (state.process action).leases.toAck.length =
      state.leases.toAck.length + if action.isAck then 1 else 0 := by
  cases action with
  | ack ackId => simp [process, AtLeastOnceLeases.ack, Action.isAck]
  | nack ackId =>
      simp only [process, AtLeastOnceLeases.nack]
      by_cases hlease : (state.leases.underLease.lookup ackId).isSome
      · rw [if_pos hlease]
        rfl
      · rw [if_neg hlease]
        rfl
  | exactlyOnceAck ackId | exactlyOnceNack ackId => rfl

namespace LeaseLoop

variable {loop : LeaseLoop}

/-- What is queued is processed without a flush. -/
theorem drain_spec (actions : List Action) (loop : LeaseLoop) :
    (actions.foldl processAction loop).state.calls = loop.state.calls ∧
      (actions.foldl processAction loop).state.leases.toAck.length =
        loop.state.leases.toAck.length + actions.countP Action.isAck := by
  induction actions generalizing loop with
  | nil => exact ⟨rfl, rfl⟩
  | cons action actions ih =>
      obtain ⟨hcalls, hlength⟩ := ih (loop.processAction action)
      have hone : (loop.processAction action).state.leases.toAck.length = _ :=
        LeaseState.length_toAck_process loop.state action
      refine ⟨hcalls.trans (LeaseState.calls_process action), ?_⟩
      rw [List.foldl_cons, hlength, hone, List.countP_cons]
      omega

theorem step_calls (event : Event) : loop.state.calls <+: (loop.step event).state.calls := by
  by_cases hpoll : event.IsPoll
  · cases event with
    | poll event order =>
        have hpolled := polled loop event order
        rw [step]
        generalize loop.poll event order = next at hpolled ⊢
        cases hpolled with
        | flush => exact LeaseState.calls_flush
        | extend => exact LeaseState.calls_extend _ _ _
        | add _ message => exact (LeaseState.calls_add message).symm ▸ List.prefix_rfl
        | messageClosed =>
            have hcalls := (drain_spec loop.ackRx { loop with ackRx := [] }).1
            exact hcalls ▸ LeaseState.calls_shutdown order
        | process _ action => exact (LeaseState.calls_process action).symm ▸ List.prefix_rfl
        | ackClosed => exact LeaseState.calls_shutdown order
        | _ => exact List.prefix_rfl
    | _ => exact hpoll.elim
  · rw [(step_untouched loop hpoll).state]

theorem run_calls (loop : LeaseLoop) (events : List Event) :
    loop.state.calls <+: (run loop events).state.calls := by
  induction events generalizing loop with
  | nil => exact List.prefix_rfl
  | cons event events ih => exact (step_calls event).trans (ih (loop.step event))

/-- The message channel has closed, and the acks do not fit into one call. -/
def Crowded (loop : LeaseLoop) : Prop :=
  loop.polling = .message ∧ loop.messageRx = [] ∧ loop.messageOpen = false ∧
    1000 < loop.state.leases.toAck.length + loop.ackRx.countP Action.isAck

/-- A list may be full only when it is about to be flushed. -/
structure Limited (loop : LeaseLoop) : Prop where
  calls : loop.state.CallsWithin
  event : loop.polling = .event → loop.state.Within 1000
  later : loop.polling ≠ .event → loop.polling ≠ .done → loop.state.Within 999

theorem Limited.poll (h : Limited loop) (event : Option LeaseEvent) (order : List String)
    (hcrowded : ¬ Crowded loop) : Limited (loop.poll event order) := by
  have hlater : loop.polling = .message ∨ loop.polling = .action ∨ loop.polling = .confirmed ∨
      loop.polling = .extended → loop.state.Within 999 := by
    rintro (hpolling | hpolling | hpolling | hpolling) <;>
      exact h.later (by simp [hpolling]) (by simp [hpolling])
  have hpolled := polled loop event order
  generalize loop.poll event order = next at hpolled ⊢
  cases hpolled with
  | flush hpolling =>
      refine ⟨h.calls.flush (h.event hpolling), fun _ => ?_, fun hne => absurd hpolling hne⟩
      exact LeaseState.within_flush.mono (by decide)
  | extend hpolling hflush =>
      exact ⟨h.calls.extend _ _ _, h.event, h.later⟩
  | extendCompleted hpolling hflush ackIds =>
      refine ⟨h.calls, fun _ => ?_, fun hne => absurd hpolling hne⟩
      unfold LeaseState.Within
      rw [LeaseState.pending_updateLastExtension]
      exact h.event hpolling
  | noEvent hpolling hflush =>
      exact ⟨h.calls, by simp, fun _ _ => LeaseState.within_of_needsFlush hflush⟩
  | add hpolling message messageRx hrx =>
      refine ⟨?_, fun _ => ?_, by simp⟩
      · unfold LeaseState.CallsWithin
        rw [LeaseState.calls_add]
        exact h.calls
      · unfold LeaseState.Within
        rw [LeaseState.pending_add]
        exact (hlater (.inl hpolling)).mono (by decide)
  | noMessage hpolling hrx hopen =>
      exact ⟨h.calls, by simp, fun _ _ => hlater (.inl hpolling)⟩
  | messageClosed hpolling hrx hopen =>
      obtain ⟨hcalls, hlength⟩ := drain_spec loop.ackRx { loop with ackRx := [] }
      have hfits : loop.state.leases.toAck.length + loop.ackRx.countP Action.isAck ≤ 1000 := by
        by_contra hover
        exact hcrowded ⟨hpolling, hrx, hopen, by omega⟩
      refine ⟨?_, by simp [LeaseLoop.shutdown], by simp [LeaseLoop.shutdown]⟩
      refine LeaseState.CallsWithin.shutdown ?_ (hlength.trans_le hfits) order
      unfold LeaseState.CallsWithin
      rw [hcalls]
      exact h.calls
  | process hpolling action ackRx hrx =>
      refine ⟨?_, fun _ => ?_, by simp [processAction]⟩
      · unfold LeaseState.CallsWithin
        rw [processAction, LeaseState.calls_process]
        exact h.calls
      · exact (hlater (.inr (.inl hpolling))).process action
  | noAction hpolling hrx hopen =>
      exact ⟨h.calls, by simp, fun _ _ => hlater (.inr (.inl hpolling))⟩
  | ackClosed hpolling hrx hopen =>
      refine ⟨h.calls.shutdown ?_ order, by simp, by simp⟩
      have hack := hlater (.inr (.inl hpolling)) loop.state.leases.toAck
        (by simp [LeaseState.pending])
      omega
  | confirm hpolling results confirmedRx hrx =>
      refine ⟨h.calls, fun _ => ?_, by simp⟩
      unfold LeaseState.Within
      rw [LeaseState.pending_confirm]
      exact (hlater (.inr (.inr (.inl hpolling)))).mono (by decide)
  | noConfirmed hpolling =>
      exact ⟨h.calls, by simp, fun _ _ => hlater (.inr (.inr (.inl hpolling)))⟩
  | extended hpolling ackIds eoExtendRx =>
      refine ⟨h.calls, fun _ => ?_, by simp⟩
      unfold LeaseState.Within
      rw [LeaseState.pending_updateLastExtensionEo]
      exact (hlater (.inr (.inr (.inr hpolling)))).mono (by decide)
  | noExtended hpolling =>
      refine ⟨h.calls, fun _ => ?_, by simp⟩
      exact (hlater (.inr (.inr (.inr hpolling)))).mono (by decide)
  | done hpolling => exact h

theorem Limited.step (h : Limited loop) (event : Event)
    (hcrowded : event.IsPoll → ¬ Crowded loop) : Limited (loop.step event) := by
  by_cases hpoll : event.IsPoll
  · cases event with
    | poll event order => exact h.poll event order (hcrowded hpoll)
    | _ => exact hpoll.elim
  · have hsame := step_untouched loop hpoll
    constructor
    · rw [hsame.state]
      exact h.calls
    · rw [hsame.state, hsame.polling]
      exact h.event
    · rw [hsame.state, hsame.polling]
      exact h.later

/-- A crowded loop makes a call that is too large. -/
theorem not_callsWithin_poll (h : Crowded loop) (event : Option LeaseEvent) (order : List String) :
    ¬ (loop.poll event order).state.CallsWithin := by
  obtain ⟨hpolling, hrx, hopen, hover⟩ := h
  have hpoll : loop.poll event order = loop.shutdown order := by
    rw [poll.eq_def, hpolling, hrx, hopen]
    rfl
  obtain ⟨-, hlength⟩ := drain_spec loop.ackRx { loop with ackRx := [] }
  rw [← hlength] at hover
  intro hwithin
  rw [hpoll] at hwithin
  have hack := hwithin _ (LeaseState.ack_mem_shutdown (List.ne_nil_of_length_pos (by omega)) order)
  exact absurd hover (Nat.not_lt.mpr hack)

theorem run_limited (events : List Event) {options : LeaseOptions}
    (hcrowded : ∀ before event order after, events = before ++ Event.poll event order :: after →
      ¬ Crowded (run (new options) before)) : Limited (run (new options) events) := by
  induction events using List.reverseRecOn with
  | nil => exact ⟨by simp [run, new, LeaseState.CallsWithin],
      by simp [run, new, LeaseState.Within, LeaseState.pending], by simp [run, new]⟩
  | append_singleton events event ih =>
      rw [run_concat]
      refine (ih ?_).step event ?_
      · intro before polled order after hevents
        exact hcrowded before polled order (after ++ [event]) (by simp [hevents])
      · intro hpoll
        cases event with
        | poll polled order => exact hcrowded events polled order [] rfl
        | _ => exact hpoll.elim

/-- Every call has at most 1000 ids if and only if the loop is never polled while crowded. -/
theorem run_callsWithin_iff (options : LeaseOptions) (events : List Event) :
    (∀ call ∈ (run (new options) events).state.calls, call.ackIds.length ≤ 1000) ↔
      ∀ before event order after, events = before ++ Event.poll event order :: after →
        ¬ Crowded (run (new options) before) := by
  constructor
  · rintro hwithin before event order after rfl hcrowded
    refine not_callsWithin_poll hcrowded event order ?_
    intro call hcall
    refine hwithin call ?_
    rw [run_append]
    exact (run_calls ((run (new options) before).poll event order) after).subset hcall
  · intro hcrowded
    exact (run_limited events hcrowded).calls

/-! ## A run with a call that is too large -/

/-- The application holds messages, all of which are under lease. -/
structure Holds (n : ℕ) (loop : LeaseLoop) : Prop where
  behavior : loop.options.shutdownBehavior = .nackImmediately
  senders : loop.senders = true
  polling : loop.polling = .event
  messageRx : loop.messageRx = []
  pool : loop.pool = []
  handlers : loop.handlers.length = n
  atLeastOnce : ∀ handler ∈ loop.handlers, handler.exactlyOnce = false
  pending : loop.state.pending = [[], [], [], []]

/-- A message is delivered, put under lease and handed out. -/
def receive (ackId : String) : List Event :=
  [.deliver ackId false true, .poll none [], .poll none [], .next]

theorem run_receive {n : ℕ} (h : Holds n loop) (ackId : String) :
    run loop (receive ackId) = { loop with
      state := loop.state.add ⟨ackId, .atLeastOnce { receiveTime := loop.now }⟩
      log := loop.log ++ [.add ackId false]
      late := []
      delivered := loop.delivered ++ [ackId]
      handlers := loop.handlers ++ [⟨ackId, false⟩] } := by
  have hflush : loop.state.needsFlush = false := by
    have hpending := h.pending
    simp only [LeaseState.pending, List.cons.injEq] at hpending
    simp [LeaseState.needsFlush, Leases.needsFlush, hpending, maxIdsPerRpc]
  obtain ⟨-, hsenders, hpolling, hrx, hpool, -, -, -⟩ := h
  cases loop
  cases hsenders
  cases hpolling
  cases hrx
  cases hpool
  simp only at hflush
  simp [run, receive, step, deliver, messageOpen, poll, hflush, ackOpen]

theorem Holds.receive {n : ℕ} (h : Holds n loop) (ackId : String) :
    Holds (n + 1) (run loop (receive ackId)) := by
  rw [run_receive h]
  refine ⟨h.behavior, h.senders, h.polling, h.messageRx, h.pool, by simp [h.handlers], ?_, ?_⟩
  · intro handler hhandler
    obtain hold | hnew := List.mem_append.mp hhandler
    · exact h.atLeastOnce handler hold
    · rw [List.mem_singleton.mp hnew]
  · rw [LeaseState.pending_add]
    exact h.pending

def receiveAll (n : ℕ) : List Event := (List.range n).flatMap fun i => receive (toString i)

theorem holds_receiveAll (n : ℕ) :
    Holds n (run (new ⟨600, 60, .nackImmediately⟩) (receiveAll n)) := by
  induction n with
  | zero => exact ⟨rfl, rfl, rfl, rfl, rfl, rfl, by simp [run, new, receiveAll], rfl⟩
  | succ n ih =>
      rw [receiveAll, List.range_succ, List.flatMap_append, List.flatMap_singleton, run_append]
      exact ih.receive (toString n)

/-- All messages are acknowledged at once. -/
theorem run_acks {n : ℕ} (hdone : loop.polling ≠ .done) (hhandlers : loop.handlers.length = n)
    (hkind : ∀ handler ∈ loop.handlers, handler.exactlyOnce = false) :
    (run loop (List.replicate n (.ack 0))).ackRx.countP Action.isAck =
        loop.ackRx.countP Action.isAck + n ∧
      (run loop (List.replicate n (.ack 0))).messageRx = loop.messageRx ∧
      (run loop (List.replicate n (.ack 0))).senders = loop.senders := by
  induction n generalizing loop with
  | zero => exact ⟨rfl, rfl, rfl⟩
  | succ n ih =>
      cases hall : loop.handlers with
      | nil => simp [hall] at hhandlers
      | cons handler handlers =>
          have hstep : loop.step (.ack 0) = { loop with
              handlers := handlers, ackRx := loop.ackRx ++ [.ack handler.ackId] } := by
            simp [step, settle, hall, sendAction, hdone, hkind handler (by simp [hall])]
          have hnext := @ih (loop.step (.ack 0))
          rw [hstep] at hnext
          obtain ⟨hcount, hrx, hsenders⟩ := hnext hdone (by simpa [hall] using hhandlers)
            (fun other hother => hkind other (by simp [hall, hother]))
          refine ⟨?_, ?_, ?_⟩
          · rw [List.replicate_succ, run, List.foldl_cons, ← run, hstep, hcount,
              List.countP_append]
            simp [Action.isAck]
            omega
          · rw [List.replicate_succ, run, List.foldl_cons, ← run, hstep, hrx]
          · rw [List.replicate_succ, run, List.foldl_cons, ← run, hstep, hsenders]

/-- The messages are acknowledged while the loop waits, then the stream is closed. -/
def rush (n : ℕ) : List Event :=
  receiveAll n ++ List.replicate n (.ack 0) ++ [.close, .dropSenders, .poll none []]

theorem crowded_rush {n : ℕ} (hn : 1000 < n) :
    Crowded (run (new ⟨600, 60, .nackImmediately⟩) (rush n)) := by
  rw [rush, run_append, run_append]
  have hheld := holds_receiveAll n
  generalize run (new ⟨600, 60, .nackImmediately⟩) (receiveAll n) = loop at hheld ⊢
  obtain ⟨hcount, hrx, hsenders⟩ := @run_acks loop n (by simp [hheld.polling])
    hheld.handlers hheld.atLeastOnce
  have hsame := @run_untouched loop (List.replicate n (.ack 0))
    (by simp [List.mem_replicate, Event.IsPoll])
  generalize run loop (List.replicate n (.ack 0)) = next at *
  have hpending : next.state.pending = [[], [], [], []] := hsame.state ▸ hheld.pending
  simp only [LeaseState.pending, List.cons.injEq] at hpending
  have hflush : next.state.needsFlush = false := by
    simp [LeaseState.needsFlush, Leases.needsFlush, hpending, maxIdsPerRpc]
  simp only [Crowded, run, List.foldl_cons, List.foldl_nil, step, if_true, poll,
    hsame.polling.trans hheld.polling, hflush, Bool.false_eq_true, if_false, messageOpen,
    hsame.options, hheld.behavior, hrx.trans hheld.messageRx, hcount]
  exact ⟨trivial, trivial, by simp, by omega⟩

/-- When the stream is closed 1001 queued acknowledgements are sent in one call. -/
theorem rush_exceeds_limit :
    ¬ ∀ call ∈ (run (new ⟨600, 60, .nackImmediately⟩)
        (rush 1001 ++ [.poll none []])).state.calls, call.ackIds.length ≤ 1000 := by
  rw [run_concat]
  have hcrowded := crowded_rush (show 1000 < 1001 by decide)
  generalize run (new ⟨600, 60, .nackImmediately⟩) (rush 1001) = loop at hcrowded ⊢
  exact not_callsWithin_poll hcrowded none []

end LeaseLoop

end GoogleCloudRust.Subscriber
