import GoogleCloudRust.Verification.LeaseLoop.Steps

/-! # Messages are added before they are acknowledged

The stream sends an id before it hands out the handler. The loop sees the two channels at
different times, so that an action can overtake its message. -/

namespace GoogleCloudRust.Subscriber

def LogEntry.added? : LogEntry → Option String
  | add ackId _ => some ackId
  | process _ _ => none

def LogEntry.processed? : LogEntry → Option Action
  | add _ _ => none
  | process action _ => some action

def added (log : List LogEntry) : List String := log.filterMap LogEntry.added?

def processed (log : List LogEntry) : List Action := log.filterMap LogEntry.processed?

@[simp]
theorem added_append (log more : List LogEntry) : added (log ++ more) = added log ++ added more :=
  List.filterMap_append

@[simp]
theorem processed_append (log more : List LogEntry) :
    processed (log ++ more) = processed log ++ processed more := List.filterMap_append

@[simp]
theorem added_add (ackId : String) (exactlyOnce : Bool) :
    added [.add ackId exactlyOnce] = [ackId] := rfl

@[simp]
theorem added_process (action : Action) (leased : Bool) : added [.process action leased] = [] := rfl

@[simp]
theorem processed_add (ackId : String) (exactlyOnce : Bool) :
    processed [.add ackId exactlyOnce] = [] := rfl

@[simp]
theorem processed_process (action : Action) (leased : Bool) :
    processed [.process action leased] = [action] := rfl

namespace LeaseLoop

variable {loop : LeaseLoop}

def pooledIds (loop : LeaseLoop) : List String := loop.pool.map Handler.ackId
def handlerIds (loop : LeaseLoop) : List String := loop.handlers.map Handler.ackId
def messageIds (loop : LeaseLoop) : List String := loop.messageRx.map NewMessage.ackId

/-- All actions that were sent to the loop, in order. -/
def sentActions (loop : LeaseLoop) : List Action := processed loop.log ++ loop.ackRx

def sentIds (loop : LeaseLoop) : List String := loop.sentActions.map Action.ackId

/-- Where the messages of the stream are. -/
structure Accounted (loop : LeaseLoop) : Prop where
  messages : loop.delivered = added loop.log ++ loop.messageIds
  actions : ∀ id, loop.sentIds.count id + loop.handlerIds.count id + loop.pooledIds.count id ≤
    loop.delivered.count id
  late : loop.polling ≠ .event → loop.polling ≠ .message → loop.polling ≠ .done →
    loop.late = loop.messageIds

/-! ## The other tasks -/

theorem count_handlers {handlers : List Handler} {index : ℕ} {handler : Handler}
    (hhandler : handlers[index]? = some handler) (id : String) :
    (handlers.map Handler.ackId).count id =
      ((handlers.eraseIdx index).map Handler.ackId).count id + [handler.ackId].count id := by
  obtain ⟨hindex, rfl⟩ := List.getElem?_eq_some_iff.mp hhandler
  have hperm := (List.getElem_cons_eraseIdx_perm hindex).map Handler.ackId
  rw [← hperm.count_eq id, List.map_cons, List.count_cons, List.count_singleton]

theorem Accounted.acted {next : LeaseLoop} (h : Accounted loop) (hacted : Acted loop next) :
    Accounted next := by
  have hle := h.actions
  simp only [sentIds, sentActions, handlerIds, pooledIds, List.map_append,
    List.count_append] at hle
  cases hacted with
  | deliver hopen message pooled hpooled =>
      refine ⟨by simp [h.messages, messageIds], fun id => ?_, fun hevent hmessage hdone => ?_⟩
      · have hold := hle id
        simp only [sentIds, sentActions, handlerIds, pooledIds, List.map_append, List.count_append]
        obtain rfl | rfl := hpooled
        · rw [List.map_nil, List.count_nil]
          omega
        · simp only [List.map_singleton]
          omega
      · simp [h.late hevent hmessage hdone, messageIds]
  | handOut hopen handler pool hpool =>
      refine ⟨h.messages, fun id => ?_, h.late⟩
      have hold := hle id
      rw [hpool, List.map_cons, List.count_cons] at hold
      simp only [sentIds, sentActions, handlerIds, pooledIds, List.map_append, List.count_append,
        List.map_singleton, List.count_singleton]
      omega
  | discard pool hpool cancelled =>
      refine ⟨h.messages, fun id => ?_, h.late⟩
      have hold := hle id
      have hcount := (hpool.sublist.map Handler.ackId).count_le id
      simp only [sentIds, sentActions, handlerIds, pooledIds, List.map_append, List.count_append]
      omega
  | settle hdone index handler hhandler futures action haction =>
      refine ⟨h.messages, fun id => ?_, h.late⟩
      have hold := hle id
      rw [count_handlers hhandler] at hold
      simp only [sentIds, sentActions, handlerIds, pooledIds, List.map_append, List.count_append,
        List.map_singleton, haction.ackId_eq]
      omega
  | settleDone hdone index =>
      refine ⟨h.messages, fun id => ?_, h.late⟩
      have hold := hle id
      have hcount := ((loop.handlers.eraseIdx_sublist index).map Handler.ackId).count_le id
      simp only [sentIds, sentActions, handlerIds, pooledIds, List.map_append, List.count_append]
      omega
  | dropSenders | complete | dropFuture | report | tick => exact ⟨h.messages, h.actions, h.late⟩

/-! ## The loop -/

/-- What is queued is processed in order, and nothing else changes. -/
theorem drain_eq (actions : List Action) (loop : LeaseLoop) :
    ∃ state log, actions.foldl processAction loop = { loop with state := state, log := log } ∧
      loop.log <+: log ∧ added log = added loop.log ∧
      processed log = processed loop.log ++ actions := by
  induction actions generalizing loop with
  | nil => exact ⟨loop.state, loop.log, rfl, List.prefix_rfl, rfl, (List.append_nil _).symm⟩
  | cons action actions ih =>
      obtain ⟨state, log, hdrained, hlog, hadded, hprocessed⟩ := ih (loop.processAction action)
      refine ⟨state, log, hdrained, (List.prefix_append _ _).trans hlog, ?_, ?_⟩
      · simp [hadded, processAction]
      · simp [hprocessed, processAction]

theorem Accounted.poll (h : Accounted loop) (event : Option LeaseEvent) (order : List String) :
    Accounted (loop.poll event order) := by
  have hpolled := polled loop event order
  generalize loop.poll event order = next at hpolled ⊢
  cases hpolled with
  | flush | extend | extendCompleted => exact ⟨h.messages, h.actions, h.late⟩
  | noEvent hpolling hflush => exact ⟨h.messages, h.actions, by simp⟩
  | add hpolling message messageRx hrx =>
      refine ⟨?_, fun id => ?_, by simp⟩
      · simp [h.messages, messageIds, hrx]
      · simpa [sentIds, sentActions, handlerIds, pooledIds] using h.actions id
  | noMessage hpolling hrx hopen =>
      exact ⟨h.messages, h.actions, by simp [messageIds, hrx]⟩
  | messageClosed hpolling hrx hopen =>
      obtain ⟨state, log, hdrained, -, hadded, hprocessed⟩ :=
        drain_eq loop.ackRx { loop with ackRx := [] }
      simp only [shutdown, hdrained]
      refine ⟨?_, fun id => ?_, by simp⟩
      · simpa [messageIds, hadded] using h.messages
      · simpa [sentIds, sentActions, handlerIds, pooledIds, hprocessed] using h.actions id
  | process hpolling action ackRx hrx =>
      refine ⟨?_, fun id => ?_, by simp [processAction]⟩
      · simpa [processAction, messageIds] using h.messages
      · simpa [processAction, sentIds, sentActions, handlerIds, pooledIds, hrx] using h.actions id
  | noAction hpolling | noConfirmed hpolling =>
      exact ⟨h.messages, h.actions, fun _ _ _ => h.late (by simp [hpolling]) (by simp [hpolling])
        (by simp [hpolling])⟩
  | ackClosed => exact ⟨h.messages, h.actions, by simp⟩
  | confirm | extended | noExtended => exact ⟨h.messages, h.actions, by simp⟩
  | done => exact h

theorem Accounted.step (h : Accounted loop) (event : Event) : Accounted (loop.step event) := by
  obtain ⟨polled, order, rfl⟩ | hpoll := event.eq_poll_or_not
  · exact h.poll polled order
  · exact h.acted (LeaseLoop.acted hpoll)

theorem run_accounted (options : LeaseOptions) (events : List Event) :
    Accounted (run (new options) events) := by
  induction events using List.reverseRecOn with
  | nil => exact ⟨rfl, fun id => le_rfl, by simp [run, new]⟩
  | append_singleton events event ih =>
      rw [run_concat]
      exact ih.step event

/-! ## What has happened stays -/

theorem poll_log (event : Option LeaseEvent) (order : List String) :
    loop.log <+: (loop.poll event order).log := by
  have hpolled := polled loop event order
  generalize loop.poll event order = next at hpolled ⊢
  cases hpolled with
  | add | process => exact List.prefix_append _ _
  | messageClosed =>
      obtain ⟨state, log, hdrained, hlog, -, -⟩ := drain_eq loop.ackRx { loop with ackRx := [] }
      simpa only [shutdown, hdrained] using hlog
  | _ => exact List.prefix_rfl

theorem poll_delivered (event : Option LeaseEvent) (order : List String) :
    (loop.poll event order).delivered = loop.delivered := by
  have hpolled := polled loop event order
  generalize loop.poll event order = next at hpolled ⊢
  cases hpolled with
  | messageClosed =>
      obtain ⟨state, log, hdrained, -⟩ := drain_eq loop.ackRx { loop with ackRx := [] }
      simp only [shutdown, hdrained]
  | _ => rfl

theorem Acted.delivered {next : LeaseLoop} (h : Acted loop next) :
    loop.delivered <+: next.delivered := by
  cases h with
  | deliver => exact List.prefix_append _ _
  | _ => exact List.prefix_rfl

theorem step_grows (loop : LeaseLoop) (event : Event) :
    loop.log <+: (loop.step event).log ∧ loop.delivered <+: (loop.step event).delivered := by
  obtain ⟨polled, order, rfl⟩ | hpoll := event.eq_poll_or_not
  · refine ⟨poll_log polled order, ?_⟩
    rw [step, poll_delivered]
  · refine ⟨?_, (acted hpoll).delivered⟩
    rw [(acted hpoll).untouched.log]

theorem run_grows (loop : LeaseLoop) (events : List Event) :
    loop.log <+: (run loop events).log ∧ loop.delivered <+: (run loop events).delivered := by
  induction events generalizing loop with
  | nil => exact ⟨List.prefix_rfl, List.prefix_rfl⟩
  | cons event events ih =>
      obtain ⟨hlog, hdelivered⟩ := step_grows loop event
      obtain ⟨hlogs, hdelivereds⟩ := ih (loop.step event)
      exact ⟨hlog.trans hlogs, hdelivered.trans hdelivereds⟩

/-! ## Messages and actions in order -/

end LeaseLoop

/-- Every id that is processed was added before, and is not added again. -/
def AddsFirst (log : List LogEntry) : Prop :=
  ∀ before action leased after, log = before ++ LogEntry.process action leased :: after →
    action.ackId ∈ added before ∧ action.ackId ∉ added after

variable {log : List LogEntry} {id : String} {action : Action}

theorem AddsFirst.of_log {log' : List LogEntry} (h : AddsFirst log') (hmore : log <+: log') :
    AddsFirst log := by
  obtain ⟨more, rfl⟩ := hmore
  rintro before action leased after rfl
  obtain ⟨hbefore, hafter⟩ := h before action leased (after ++ more) (by simp)
  refine ⟨hbefore, fun hmem => hafter ?_⟩
  rw [added_append]
  exact List.mem_append_left _ hmem

theorem AddsFirst.concat (h : AddsFirst log) {entry : LogEntry}
    (hadd : ∀ id exactlyOnce, entry = .add id exactlyOnce → id ∉ added log)
    (hprocess : ∀ action leased, entry = .process action leased → action.ackId ∈ added log) :
    AddsFirst (log ++ [entry]) := by
  intro before action leased after heq
  obtain rfl | ⟨rest, last, rfl⟩ := after.eq_nil_or_concat
  · obtain ⟨rfl, hentry⟩ := List.append_inj' heq rfl
    cases hentry
    exact ⟨hprocess action leased rfl, by simp [added]⟩
  · rw [List.concat_eq_append, ← List.cons_append, ← List.append_assoc] at heq
    obtain ⟨rfl, hlast⟩ := List.append_inj' heq rfl
    cases hlast
    obtain ⟨hbefore, hafter⟩ := h before action leased rest rfl
    refine ⟨hbefore, ?_⟩
    rw [List.concat_eq_append, added_append, List.mem_append, not_or]
    refine ⟨hafter, ?_⟩
    cases entry with
    | process other leased => simp
    | add ackId exactlyOnce =>
        rw [added_add, List.mem_singleton]
        rintro rfl
        refine hadd _ exactlyOnce rfl ?_
        rw [added_append]
        exact List.mem_append_left _ hbefore

theorem addsFirst_nil : AddsFirst [] := by
  intro before action leased after h
  simp at h

theorem AddsFirst.add (h : AddsFirst log) (ackId : String) (exactlyOnce : Bool)
    (hnew : ackId ∉ added log) : AddsFirst (log ++ [.add ackId exactlyOnce]) := by
  refine h.concat ?_ (by simp)
  rintro id kind heq
  cases heq
  exact hnew

theorem AddsFirst.process (h : AddsFirst log) (action : Action) (leased : Bool)
    (hadded : action.ackId ∈ added log) : AddsFirst (log ++ [.process action leased]) := by
  refine h.concat (by simp) ?_
  rintro other kind heq
  cases heq
  exact hadded

namespace LeaseLoop

/-- The next action is one for a message that was sent after the messages were looked at. -/
def Overtakes (loop : LeaseLoop) : Prop :=
  loop.polling = .action ∧ ∃ action ackRx, loop.ackRx = action :: ackRx ∧ action.ackId ∈ loop.late

/-- An action of the application is for a message that was delivered. -/
theorem Accounted.mem_delivered (h : Accounted loop) (action : Action)
    (haction : action ∈ loop.sentActions) : action.ackId ∈ loop.delivered := by
  have hmem : action.ackId ∈ loop.sentIds := List.mem_map_of_mem haction
  have hle := h.actions action.ackId
  have hpos := List.count_pos_iff.mpr hmem
  exact List.count_pos_iff.mp (by omega)

theorem addsFirst_drain (loop : LeaseLoop) {actions : List Action} (hlog : AddsFirst loop.log)
    (hadded : ∀ action ∈ actions, action.ackId ∈ added loop.log) :
    AddsFirst (actions.foldl processAction loop).log := by
  induction actions generalizing loop with
  | nil => exact hlog
  | cons action actions ih =>
      rw [List.forall_mem_cons] at hadded
      refine ih (loop.processAction action) (hlog.process action _ hadded.1) ?_
      intro other hother
      simpa [processAction] using hadded.2 other hother

theorem addsFirst_poll (h : Accounted loop) (hlog : AddsFirst loop.log)
    (hdistinct : loop.delivered.Nodup) (hovertakes : ¬ Overtakes loop)
    (event : Option LeaseEvent) (order : List String) :
    AddsFirst (loop.poll event order).log := by
  have hpolled := polled loop event order
  generalize loop.poll event order = next at hpolled ⊢
  cases hpolled with
  | add hpolling message messageRx hrx =>
      refine hlog.add _ _ fun hmem => ?_
      rw [h.messages] at hdistinct
      exact (List.nodup_append.mp hdistinct).2.2 _ hmem _ (by simp [messageIds, hrx]) rfl
  | messageClosed hpolling hrx hopen =>
      refine addsFirst_drain { loop with ackRx := [] } hlog fun action haction => ?_
      have hmem := h.mem_delivered action (by simp [sentActions, haction])
      simpa [h.messages, messageIds, hrx] using hmem
  | process hpolling action ackRx hrx =>
      refine hlog.process action _ ?_
      have hmem := h.mem_delivered action (by simp [sentActions, hrx])
      rw [h.messages] at hmem
      refine (List.mem_append.mp hmem).resolve_right fun hmessage => ?_
      rw [← h.late (by simp [hpolling]) (by simp [hpolling]) (by simp [hpolling])] at hmessage
      exact hovertakes ⟨hpolling, action, ackRx, hrx, hmessage⟩
  | _ => exact hlog

/-- With distinct ids, messages are added before their actions if and only if no action
overtakes its message. -/
theorem run_addsFirst_iff (options : LeaseOptions) (events : List Event)
    (hdistinct : (run (new options) events).delivered.Nodup) :
    AddsFirst (run (new options) events).log ↔
      ∀ before event order after, events = before ++ Event.poll event order :: after →
        ¬ Overtakes (run (new options) before) := by
  constructor
  · rintro hlog before event order after rfl ⟨hpolling, action, ackRx, hrx, hlate⟩
    have haccounted := run_accounted options before
    rw [run_append] at hlog hdistinct
    have hdelivered := (run_grows (run (new options) before)
      (.poll event order :: after)).2.sublist.nodup hdistinct
    have hpoll : ((run (new options) before).poll event order).log = (run (new options) before).log ++
        [.process action ((run (new options) before).state.leases.underLease.lookup
          action.ackId).isSome] := by
      rw [poll.eq_def, hpolling, hrx]
      rfl
    have hmore := (run_grows ((run (new options) before).poll event order) after).1
    rw [hpoll] at hmore
    have hadded := ((hlog.of_log hmore) _ _ _ [] rfl).1
    rw [haccounted.late (by simp [hpolling]) (by simp [hpolling]) (by simp [hpolling])] at hlate
    rw [haccounted.messages] at hdelivered
    exact (List.nodup_append.mp hdelivered).2.2 _ hadded _ hlate rfl
  · intro hovertakes
    induction events using List.reverseRecOn with
    | nil => exact addsFirst_nil
    | append_singleton events event ih =>
        rw [run_concat] at hdistinct ⊢
        have hdelivered := (step_grows _ event).2.sublist.nodup hdistinct
        have hlog := ih hdelivered fun before polled order after hevents =>
          hovertakes before polled order (after ++ [event]) (by simp [hevents])
        obtain ⟨polled, order, rfl⟩ | hpoll := event.eq_poll_or_not
        · exact addsFirst_poll (run_accounted options events) hlog hdelivered
            (hovertakes events polled order [] rfl) polled order
        · rw [(acted hpoll).untouched.log]
          exact hlog

/-- Two messages are acknowledged, one after the other. -/
theorem run_addsFirst_two :
    AddsFirst (run (new ⟨600, 60, .waitForProcessing⟩)
      [.deliver "a" false true, .deliver "b" true true, .next, .next, .ack 0, .poll none [],
        .poll none [], .poll none [], .poll none [], .confirmedAck 0, .poll none [],
        .poll none []]).log ↔
      ∀ before event order after,
        [.deliver "a" false true, .deliver "b" true true, .next, .next, .ack 0, .poll none [],
          .poll none [], .poll none [], .poll none [], .confirmedAck 0, .poll none [],
          .poll none []] = before ++ Event.poll event order :: after →
        ¬ Overtakes (run (new ⟨600, 60, .waitForProcessing⟩) before) :=
  run_addsFirst_iff _ _ (by decide)

/-- A message is delivered, handed out and acknowledged between the two polls. -/
theorem ack_overtakes :
    ¬ AddsFirst (run (new ⟨600, 60, .waitForProcessing⟩)
      [.poll none [], .poll none [], .deliver "a" true true, .next, .confirmedAck 0,
        .poll none []]).log := by
  intro h
  have hadded := (h [] (.exactlyOnceAck "a") false [] rfl).1
  cases hadded

end LeaseLoop

end GoogleCloudRust.Subscriber
