import GoogleCloudRust.Verification.LeaseLoop.Decisions

/-! # Waiting for processing

When the loop waits for processing it shuts down only after the application has decided on all
messages that it was given. -/

namespace GoogleCloudRust.Subscriber.LeaseLoop

open ExactlyOnceLeases (replies)

variable {loop : LeaseLoop} {evicted eoEvicted : List String}

/-- Nobody can send an action, and all decisions have been passed to the leaser. -/
structure Ended (loop : LeaseLoop) : Prop where
  senders : loop.senders = false
  handlers : loop.handlers = []
  futures : loop.futures = []
  ackRx : loop.ackRx = []
  leases : loop.state.leases = {}
  eoLeases : loop.state.eoLeases.toLeases = {}

/-- The loop goes on, or all decisions have been carried out. -/
structure Waits (loop : LeaseLoop) (evicted eoEvicted : List String) : Prop where
  behavior : loop.options.shutdownBehavior = .waitForProcessing
  decided : loop.state.Decided loop.log evicted
  answered : loop.state.Answered loop.log eoEvicted
  live : loop.polling ≠ .done → evicted = [] ∧ eoEvicted = [] ∧ loop.state.Live
  undecided : evicted.Nodup ∧ ∀ id ∈ evicted, id ∉ Subscriber.decided loop.log
  distinct : eoEvicted.Nodup
  completed : ∀ entry ∈ loop.completed, entry.2 ≠ .shutdown
  ended : loop.polling = .done → Ended loop

theorem ne_shutdown_of_live (h : loop.state.Live) {ackId : String} {reply : Reply}
    (hreply : (ackId, reply) ∈ loop.state.eoLeases.sent) : reply ≠ .shutdown := by
  rintro rfl
  exact h ackId (List.mem_filterMap.mpr ⟨(ackId, .shutdown), hreply, by simp⟩)

theorem Waits.acted {next : LeaseLoop} (h : Waits loop evicted eoEvicted)
    (hacted : Acted loop next) : Waits next evicted eoEvicted := by
  cases hacted with
  | deliver | discard | report | tick =>
      exact ⟨h.behavior, h.decided, h.answered, h.live, h.undecided, h.distinct, h.completed,
        fun hdone => { h.ended hdone with }⟩
  | dropSenders =>
      exact ⟨h.behavior, h.decided, h.answered, h.live, h.undecided, h.distinct, h.completed,
        fun hdone => { h.ended hdone with senders := rfl }⟩
  | handOut hopen handler pool hpool =>
      refine ⟨h.behavior, h.decided, h.answered, h.live, h.undecided, h.distinct, h.completed,
        fun hdone => ?_⟩
      have hended := h.ended hdone
      simp [ackOpen, hended.senders, hended.handlers, hended.futures] at hopen
  | settle hdone index handler hhandler futures action haction =>
      exact ⟨h.behavior, h.decided, h.answered, h.live, h.undecided, h.distinct, h.completed,
        fun hended => absurd hended hdone⟩
  | settleDone hdone index =>
      refine ⟨h.behavior, h.decided, h.answered, h.live, h.undecided, h.distinct, h.completed,
        fun hdone => ?_⟩
      have hended := h.ended hdone
      exact { hended with handlers := by simp [hended.handlers] }
  | complete index ackId hfuture reply hreply =>
      have hdone : loop.polling ≠ .done := by
        intro hended
        simp [(h.ended hended).futures] at hfuture
      refine ⟨h.behavior, h.decided, h.answered, h.live, h.undecided, h.distinct, ?_,
        fun hended => absurd hended hdone⟩
      intro entry hentry
      obtain hold | hnew := List.mem_append.mp hentry
      · exact h.completed entry hold
      · rw [List.mem_singleton.mp hnew]
        exact ne_shutdown_of_live (h.live hdone).2.2 hreply
  | dropFuture index =>
      refine ⟨h.behavior, h.decided, h.answered, h.live, h.undecided, h.distinct, h.completed,
        fun hdone => ?_⟩
      have hended := h.ended hdone
      exact { hended with futures := by simp [hended.futures] }

/-- The loop has processed something and goes on. -/
theorem Waits.goes_on {next : LeaseLoop} (h : Waits loop [] []) (hoptions : next.options = loop.options)
    (hcompleted : next.completed = loop.completed) (hpolling : next.polling ≠ .done)
    (hdecided : next.state.Decided next.log []) (hanswered : next.state.Answered next.log [])
    (hlive : next.state.Live) : Waits next [] [] :=
  ⟨hoptions ▸ h.behavior, hdecided, hanswered, fun _ => ⟨rfl, rfl, hlive⟩, by simp, by simp,
    hcompleted ▸ h.completed, fun hdone => absurd hdone hpolling⟩

/-- All messages are added or answered; those under lease are nacked. -/
theorem Waits.ends (h : Waits loop [] []) (hrx : loop.ackRx = []) (hopen : loop.ackOpen = false)
    (order : List String) :
    Waits { loop with state := loop.state.shutdown order, polling := .done }
      (loop.state.leasedIds order) (loop.state.eoLeasedIds order) := by
  refine ⟨h.behavior, h.decided.shutdown order, h.answered.shutdown order, by simp,
    ⟨Leases.nodup_visit order, fun id hid => ?_⟩, Leases.nodup_visit order, h.completed,
    fun _ => ?_⟩
  · obtain ⟨⟨_, info⟩, hentry, rfl⟩ := List.mem_map.mp hid
    refine h.decided.leased _ ?_
    rw [(Leases.mem_visit order).mp hentry]
    rfl
  · obtain ⟨⟨hsenders, hhandlers⟩, hfutures⟩ :
        (loop.senders = false ∧ loop.handlers = []) ∧ loop.futures = [] := by
      simpa [ackOpen] using hopen
    exact ⟨hsenders, hhandlers, hfutures, hrx, rfl, rfl⟩

theorem Waits.poll (h : Waits loop [] []) (hdone : loop.polling ≠ .done) (hlive : loop.state.Live)
    (event : Option LeaseEvent) (order : List String)
    (hfirst : AddsFirst (loop.poll event order).log) :
    ∃ evicted eoEvicted, Waits (loop.poll event order) evicted eoEvicted := by
  have hpolled := polled loop event order
  generalize loop.poll event order = next at hpolled hfirst ⊢
  cases hpolled with
  | flush hpolling =>
      exact ⟨[], [], h.goes_on rfl rfl hdone h.decided.flush h.answered.flush
        (hlive.step .drain rfl)⟩
  | extend hpolling hflush =>
      exact ⟨[], [], h.goes_on rfl rfl hdone (h.decided.extend _ _ _) (h.answered.extend _ _ _)
        (hlive.step (.retain loop.now loop.options.maxLease loop.options.maxLeaseExtension order) rfl)⟩
  | extendCompleted hpolling hflush ackIds =>
      exact ⟨[], [], h.goes_on rfl rfl hdone (h.decided.updateLastExtension _ _)
        (h.answered.of_eq rfl rfl) hlive⟩
  | add hpolling message messageRx hrx =>
      have hnew := hfirst.notMem_processedIds
      exact ⟨[], [], h.goes_on rfl rfl (by simp) (h.decided.add message hnew)
        (h.answered.add message) (hlive.add message)⟩
  | messageClosed hpolling hrx hopen =>
      simp [messageOpen, h.behavior, hdone] at hopen
  | process hpolling action ackRx hrx =>
      exact ⟨[], [], h.goes_on rfl rfl (by simp [processAction]) (h.decided.process action)
        (h.answered.process action _) (hlive.process action)⟩
  | ackClosed hpolling hrx hopen => exact ⟨_, _, h.ends hrx hopen order⟩
  | confirm hpolling results confirmedRx hrx =>
      exact ⟨[], [], h.goes_on rfl rfl (by simp) (h.decided.of_eq rfl rfl rfl)
        (h.answered.confirm results) (hlive.confirm results)⟩
  | extended hpolling ackIds eoExtendRx =>
      exact ⟨[], [], h.goes_on rfl rfl (by simp) (h.decided.of_eq rfl rfl rfl)
        (h.answered.updateLastExtensionEo _ ackIds) (hlive.step (.updateLastExtension _ ackIds) rfl)⟩
  | noEvent | noMessage | noAction | noConfirmed | noExtended =>
      exact ⟨[], [], h.goes_on rfl rfl (by simp) h.decided h.answered hlive⟩
  | done => exact ⟨[], [], h⟩

theorem Waits.step (h : Waits loop evicted eoEvicted) (event : Event)
    (hfirst : AddsFirst (loop.step event).log) :
    ∃ evicted eoEvicted, Waits (loop.step event) evicted eoEvicted := by
  obtain ⟨polled, order, rfl⟩ | hpoll := event.eq_poll_or_not
  · by_cases hdone : loop.polling = .done
    · have hpoll : loop.poll polled order = loop := by rw [LeaseLoop.poll.eq_def, hdone]
      rw [LeaseLoop.step, hpoll]
      exact ⟨evicted, eoEvicted, h⟩
    · obtain ⟨rfl, rfl, hlive⟩ := h.live hdone
      exact h.poll hdone hlive polled order hfirst
  · exact ⟨evicted, eoEvicted, h.acted (LeaseLoop.acted hpoll)⟩

theorem run_waits (options : LeaseOptions) (hbehavior : options.shutdownBehavior = .waitForProcessing)
    (events : List Event) (hfirst : AddsFirst (run (new options) events).log) :
    ∃ evicted eoEvicted, Waits (run (new options) events) evicted eoEvicted := by
  induction events using List.reverseRecOn with
  | nil =>
      refine ⟨[], [], hbehavior, ⟨rfl, rfl, ?_, ?_⟩, ⟨⟨[], rfl, ?_⟩, ?_⟩, ?_, ?_, ?_, ?_, ?_⟩
      all_goals simp [run, new, LeaseState.Live, replies]
  | append_singleton events event ih =>
      rw [run_concat] at hfirst ⊢
      obtain ⟨evicted, eoEvicted, h⟩ := ih (hfirst.of_log (step_grows _ event).1)
      exact h.step event hfirst

/-! ## Actions that were sent -/

theorem poll_sentActions (event : Option LeaseEvent) (order : List String) :
    (loop.poll event order).sentActions = loop.sentActions := by
  have hpolled := polled loop event order
  generalize loop.poll event order = next at hpolled ⊢
  cases hpolled with
  | add => simp [sentActions]
  | process hpolling action ackRx hrx => simp [sentActions, processAction, hrx]
  | messageClosed =>
      obtain ⟨state, log, hdrained, -, -, hprocessed⟩ :=
        drain_eq loop.ackRx { loop with ackRx := [] }
      simp [sentActions, shutdown, hdrained, hprocessed]
  | _ => rfl

theorem step_sentActions (event : Event) : loop.sentActions <+: (loop.step event).sentActions := by
  obtain ⟨polled, order, rfl⟩ | hpoll := event.eq_poll_or_not
  · rw [step, poll_sentActions]
  · have hacted : Acted loop (loop.step event) := acted hpoll
    generalize loop.step event = next at hacted ⊢
    cases hacted with
    | settle => exact ⟨_, List.append_assoc _ _ _⟩
    | _ => exact List.prefix_rfl

theorem run_sentActions (loop : LeaseLoop) (events : List Event) :
    loop.sentActions <+: (run loop events).sentActions := by
  induction events generalizing loop with
  | nil => exact List.prefix_rfl
  | cons event events ih => exact (step_sentActions event).trans (ih (loop.step event))

/-- An action of the application has been processed when the loop has ended. -/
theorem mem_log_of_done (loop : LeaseLoop) {events : List Event} {action : Action}
    (h : Waits (run loop events) evicted eoEvicted) (hdone : (run loop events).polling = .done)
    (haction : action ∈ loop.sentActions) :
    ∃ leased, .process action leased ∈ (run loop events).log := by
  have hmem := (run_sentActions loop events).subset haction
  rw [sentActions, (h.ended hdone).ackRx, List.append_nil] at hmem
  obtain ⟨entry, hentry, hprocessed⟩ := List.mem_filterMap.mp hmem
  cases entry with
  | add ackId exactlyOnce => cases hprocessed
  | process action leased =>
      cases hprocessed
      exact ⟨leased, hentry⟩

theorem Accounted.count_processedIds (h : Accounted loop) (hdistinct : loop.delivered.Nodup)
    (id : String) : (processedIds loop.log).count id ≤ 1 := by
  have hle := h.actions id
  have honce := List.nodup_iff_count_le_one.mp hdistinct id
  rw [sentIds, sentActions, List.map_append, List.count_append] at hle
  rw [processedIds]
  omega

/-! ## Results -/

/-- What is passed to the leaser is what the application has decided, and a message that
nothing was decided on is nacked if it is still under lease. -/
structure Honours (options : LeaseOptions) (events : List Event) : Prop where
  consumed : (run (new options) events).polling = .done →
    (run (new options) events).handlers = [] ∧ (run (new options) events).futures = []
  acked : ∀ before index after id, events = before ++ Event.ack index :: after →
    (run (new options) before).handlers[index]? = some ⟨id, false⟩ →
    (run (new options) events).polling = .done →
    (run (new options) events).state.ackedIds.count id = 1 ∧
      (run (new options) events).state.nackedIds.count id = 0
  nacked : ∀ before index after id, events = before ++ Event.nack index :: after →
    (run (new options) before).handlers[index]? = some ⟨id, false⟩ →
    (run (new options) events).polling = .done →
    ∃ leased, .process (.nack id) leased ∈ (run (new options) events).log ∧
      (run (new options) events).state.nackedIds.count id = (if leased then 1 else 0) ∧
      (run (new options) events).state.ackedIds.count id = 0
  completed : ∀ entry ∈ (run (new options) events).completed,
    (∃ result, entry.2 = .confirmed result) ∨ entry.2 = .leaseExpired
  undecided : (run (new options) events).polling = .done →
    ∀ id, .add id false ∈ (run (new options) events).log →
      id ∉ processedIds (run (new options) events).log →
      id ∈ (run (new options) events).state.expired ∨
        (run (new options) events).state.nackedIds.count id = 1
  unanswered : (run (new options) events).polling = .done →
    ∀ id, .add id true ∈ (run (new options) events).log →
      id ∉ processedIds (run (new options) events).log →
      (∃ reply ∈ replies (run (new options) events).state.eoLeases.sent id, reply ≠ .shutdown) ∨
        (run (new options) events).state.confirmedNackedIds.count id = 1

/-- The calls of the leaser for a message that the application has decided on. -/
theorem Waits.count_of_decided (h : Waits loop evicted eoEvicted) (hdone : loop.polling = .done)
    {action : Action} {leased : Bool} (hmem : .process action leased ∈ loop.log)
    (honce : (processedIds loop.log).count action.ackId ≤ 1)
    (hdecided : action.ackId ∈ Subscriber.decided [.process action leased]) :
    loop.state.ackedIds.count action.ackId =
        (Subscriber.acked [.process action leased]).count action.ackId ∧
      loop.state.nackedIds.count action.ackId =
        (Subscriber.nacked [.process action leased]).count action.ackId := by
  obtain ⟨hacked, hnacked⟩ := count_of_processed_once hmem honce
  have hcalls := h.decided.acked
  have hnackCalls := h.decided.nacked
  rw [(h.ended hdone).leases, List.append_nil] at hcalls hnackCalls
  rw [hcalls, hnackCalls, List.count_append, hacked, hnacked]
  have hevicted : action.ackId ∉ evicted := by
    intro hid
    refine h.undecided.2 _ hid ?_
    obtain ⟨before, after, hlog⟩ := List.append_of_mem hmem
    rw [hlog, ← List.singleton_append, decided_append, decided_append]
    exact List.mem_append_right _ (List.mem_append_left _ hdecided)
  rw [List.count_eq_zero.mpr hevicted]
  exact ⟨rfl, rfl⟩

/-- A message that nothing was decided on is nacked, unless its lease has expired. -/
theorem Waits.count_of_undecided (h : Waits loop evicted eoEvicted) (hdone : loop.polling = .done)
    {id : String} (hadded : .add id false ∈ loop.log) (hid : id ∉ processedIds loop.log) :
    id ∈ loop.state.expired ∨ loop.state.nackedIds.count id = 1 := by
  have hundecided : id ∉ Subscriber.decided loop.log := fun hmem => hid (mem_processedIds hmem)
  have hnackCalls := h.decided.nacked
  rw [(h.ended hdone).leases, List.append_nil] at hnackCalls
  obtain hsome | hexpired | hmem | hevicted := h.decided.added id hadded
  · simp [(h.ended hdone).leases] at hsome
  · exact .inl hexpired
  · exact absurd hmem hundecided
  · refine .inr ?_
    rw [hnackCalls, List.count_append,
      List.count_eq_zero.mpr fun hmem => hundecided (nacked_subset _ hmem),
      List.count_eq_one_of_mem h.undecided.1 hevicted]

theorem Waits.count_of_unanswered (h : Waits loop evicted eoEvicted) (hdone : loop.polling = .done)
    {id : String} (hadded : .add id true ∈ loop.log) (hid : id ∉ processedIds loop.log) :
    (∃ reply ∈ replies loop.state.eoLeases.sent id, reply ≠ .shutdown) ∨
      loop.state.confirmedNackedIds.count id = 1 := by
  obtain ⟨earlier, hearlier, hprocessed⟩ := h.answered.nacked
  obtain hsome | hreply | hevicted := h.answered.added id hadded
  · simp [(h.ended hdone).eoLeases] at hsome
  · exact .inl hreply
  · refine .inr ?_
    have hnone : id ∉ earlier := fun hmem => hid (hprocessed id (List.mem_append_left _ hmem))
    rw [hearlier, List.count_append, List.count_eq_zero.mpr hnone,
      List.count_eq_one_of_mem h.distinct hevicted]

/-- The handler is consumed and its action is sent. -/
theorem Waits.mem_sentActions (h : Waits loop evicted eoEvicted) {index : ℕ} {id : String}
    (hhandler : loop.handlers[index]? = some ⟨id, false⟩) (atLeastOnce exactlyOnce : String → Action) :
    atLeastOnce id ∈ (loop.settle index atLeastOnce exactlyOnce).sentActions := by
  have hdone : loop.polling ≠ .done := by
    intro hdone
    simp [(h.ended hdone).handlers] at hhandler
  rw [settle, hhandler]
  simp [sendAction, hdone, sentActions]

/-- With distinct ids, and messages that are added before their actions, the decisions of the
application are honoured. -/
theorem run_honours (options : LeaseOptions) (events : List Event)
    (hbehavior : options.shutdownBehavior = .waitForProcessing)
    (hdistinct : (run (new options) events).delivered.Nodup)
    (hfirst : AddsFirst (run (new options) events).log) : Honours options events := by
  obtain ⟨evicted, eoEvicted, h⟩ := run_waits options hbehavior events hfirst
  have honce := (run_accounted options events).count_processedIds hdistinct
  have hprocessed : ∀ before event after (action : Action), events = before ++ event :: after →
      action ∈ ((run (new options) before).step event).sentActions →
      (run (new options) events).polling = .done →
      ∃ leased, .process action leased ∈ (run (new options) events).log := by
    rintro before event after action rfl haction hdone
    rw [run_append] at h hdone ⊢
    exact mem_log_of_done ((run (new options) before).step event) h hdone haction
  have hbefore : ∀ before after, events = before ++ after →
      ∃ evicted eoEvicted, Waits (run (new options) before) evicted eoEvicted := by
    rintro before after rfl
    rw [run_append] at hfirst
    exact run_waits options hbehavior before (hfirst.of_log (run_grows _ after).1)
  refine ⟨fun hdone => ⟨(h.ended hdone).handlers, (h.ended hdone).futures⟩, ?_, ?_, ?_,
    fun hdone id => h.count_of_undecided hdone, fun hdone id => h.count_of_unanswered hdone⟩
  · intro before index after id hevents hhandler hdone
    obtain ⟨_, _, hwaits⟩ := hbefore before _ hevents
    obtain ⟨leased, hmem⟩ := hprocessed before (.ack index) after (.ack id) hevents
      (hwaits.mem_sentActions hhandler .ack .exactlyOnceAck) hdone
    obtain ⟨hacked, hnacked⟩ := h.count_of_decided hdone hmem (honce _)
      (by simp [decided, LogEntry.decided?, Action.ackId])
    refine ⟨hacked.trans ?_, hnacked.trans ?_⟩
    · exact List.count_singleton_self
    · rfl
  · intro before index after id hevents hhandler hdone
    obtain ⟨_, _, hwaits⟩ := hbefore before _ hevents
    obtain ⟨leased, hmem⟩ := hprocessed before (.nack index) after (.nack id) hevents
      (hwaits.mem_sentActions hhandler .nack .exactlyOnceNack) hdone
    obtain ⟨hacked, hnacked⟩ := h.count_of_decided hdone hmem (honce _)
      (by simp [decided, LogEntry.decided?, Action.ackId])
    refine ⟨leased, hmem, hnacked.trans ?_, hacked.trans ?_⟩
    · cases leased with
      | true => exact List.count_singleton_self
      | false => rfl
    · rfl
  · intro entry hentry
    have hne := h.completed entry hentry
    cases hreply : entry.2 with
    | confirmed result => exact .inl ⟨result, rfl⟩
    | leaseExpired => exact .inr rfl
    | shutdown => exact absurd hreply hne

/-- Three messages: one is acknowledged, one is nacked and one is never handed out. -/
theorem run_honours_three :
    Honours ⟨600, 60, .waitForProcessing⟩
      [.deliver "a" false true, .deliver "b" false true, .deliver "c" true true, .poll none [],
        .poll none [], .poll none [], .poll none [], .poll none [], .poll none [], .next, .next,
        .cancel, .dropSenders, .ack 0, .poll none [], .poll none [], .poll none [], .nack 0,
        .poll none [], .poll none [], .poll none [], .close, .poll none [], .poll none [],
        .poll none []] := by
  refine run_honours _ _ rfl (by decide) ?_
  have hadded : AddsFirst [.add "a" false, .add "b" false, .add "c" true] :=
    ((addsFirst_nil.add "a" false (by decide)).add "b" false (by decide)).add "c" true (by decide)
  exact (hadded.process (.ack "a") true (by decide)).process (.nack "b") true (by decide)

/-- A message whose lease has expired is never handed out, and is not nacked when the loop
ends. -/
theorem expired_not_nacked :
    let loop := run (new ⟨10, 60, .waitForProcessing⟩)
      [.deliver "a" false true, .poll none [], .poll none [], .tick 11, .poll (some .extend) [],
        .close, .dropSenders, .poll none [], .poll none [], .poll none []]
    loop.delivered = ["a"] ∧ loop.log = [.add "a" false] ∧ AddsFirst loop.log ∧
      loop.polling = .done ∧ loop.state.calls = [] := by
  exact ⟨rfl, rfl, addsFirst_nil.add "a" false (by decide), rfl, rfl⟩

end GoogleCloudRust.Subscriber.LeaseLoop
