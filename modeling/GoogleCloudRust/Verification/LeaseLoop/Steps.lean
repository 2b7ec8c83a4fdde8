import GoogleCloudRust.Model.LeaseLoop

/-! # Steps of the lease loop

What polling a branch can do, and what the other tasks leave alone. -/

namespace GoogleCloudRust.Subscriber

def NewMessage.exactlyOnce (message : NewMessage) : Bool :=
  match message.leaseInfo with
  | .atLeastOnce _ => false
  | .exactlyOnce _ => true

namespace LeaseLoop

variable {loop : LeaseLoop}

/-- What polling the next branch can do. -/
inductive Polled (loop : LeaseLoop) (order : List String) : LeaseLoop → Prop
  | flush (hpolling : loop.polling = .event) :
      Polled loop order { loop with state := loop.state.flush }
  | extend (hpolling : loop.polling = .event) (hflush : loop.state.needsFlush = false) :
      Polled loop order { loop with state := loop.state.extend loop.options loop.now order }
  | extendCompleted (hpolling : loop.polling = .event) (hflush : loop.state.needsFlush = false)
      (ackIds : List String) :
      Polled loop order { loop with state := loop.state.updateLastExtension loop.now ackIds }
  | noEvent (hpolling : loop.polling = .event) (hflush : loop.state.needsFlush = false) :
      Polled loop order { loop with polling := .message }
  | add (hpolling : loop.polling = .message) (message : NewMessage) (messageRx : List NewMessage)
      (hrx : loop.messageRx = message :: messageRx) :
      Polled loop order { loop with
        state := loop.state.add message
        messageRx := messageRx
        log := loop.log ++ [.add message.ackId message.exactlyOnce]
        late := []
        polling := .event }
  | noMessage (hpolling : loop.polling = .message) (hrx : loop.messageRx = [])
      (hopen : loop.messageOpen = true) :
      Polled loop order { loop with late := [], polling := .action }
  | messageClosed (hpolling : loop.polling = .message) (hrx : loop.messageRx = [])
      (hopen : loop.messageOpen = false) : Polled loop order (loop.shutdown order)
  | process (hpolling : loop.polling = .action) (action : Action) (ackRx : List Action)
      (hrx : loop.ackRx = action :: ackRx) :
      Polled loop order ({ loop with ackRx := ackRx, polling := .event }.processAction action)
  | noAction (hpolling : loop.polling = .action) (hrx : loop.ackRx = [])
      (hopen : loop.ackOpen = true) : Polled loop order { loop with polling := .confirmed }
  | ackClosed (hpolling : loop.polling = .action) (hrx : loop.ackRx = [])
      (hopen : loop.ackOpen = false) :
      Polled loop order { loop with state := loop.state.shutdown order, polling := .done }
  | confirm (hpolling : loop.polling = .confirmed) (results : List (String × AckResult))
      (confirmedRx : List (List (String × AckResult)))
      (hrx : loop.confirmedRx = results :: confirmedRx) :
      Polled loop order { loop with
        state := loop.state.confirm results
        confirmedRx := confirmedRx
        polling := .event }
  | noConfirmed (hpolling : loop.polling = .confirmed) :
      Polled loop order { loop with polling := .extended }
  | extended (hpolling : loop.polling = .extended) (ackIds : List String)
      (eoExtendRx : List (List (String × AckResult))) :
      Polled loop order { loop with
        state := loop.state.updateLastExtensionEo loop.now ackIds
        eoExtendRx := eoExtendRx
        polling := .event }
  | noExtended (hpolling : loop.polling = .extended) :
      Polled loop order { loop with polling := .event }
  | done (hpolling : loop.polling = .done) : Polled loop order loop

theorem polled_event (event : Option LeaseEvent) (order : List String)
    (hpolling : loop.polling = .event) : Polled loop order (loop.poll event order) := by
  rw [poll.eq_def, hpolling]
  cases hflush : loop.state.needsFlush with
  | true => exact .flush hpolling
  | false =>
      cases event with
      | none => exact .noEvent hpolling hflush
      | some event =>
          cases event with
          | flush => exact .flush hpolling
          | extend => exact .extend hpolling hflush
          | extendCompleted ackIds => exact .extendCompleted hpolling hflush ackIds

theorem polled_message (event : Option LeaseEvent) (order : List String)
    (hpolling : loop.polling = .message) : Polled loop order (loop.poll event order) := by
  rw [poll.eq_def, hpolling]
  dsimp only
  split
  case h_1 message messageRx hrx => exact .add hpolling message messageRx hrx
  case h_2 hrx =>
    split_ifs with hopen
    · exact .noMessage hpolling hrx hopen
    · exact .messageClosed hpolling hrx (Bool.not_eq_true _ ▸ hopen)

theorem polled_action (event : Option LeaseEvent) (order : List String)
    (hpolling : loop.polling = .action) : Polled loop order (loop.poll event order) := by
  rw [poll.eq_def, hpolling]
  dsimp only
  split
  case h_1 action ackRx hrx => exact .process hpolling action ackRx hrx
  case h_2 hrx =>
    split_ifs with hopen
    · exact .noAction hpolling hrx hopen
    · exact .ackClosed hpolling hrx (Bool.not_eq_true _ ▸ hopen)

theorem polled (loop : LeaseLoop) (event : Option LeaseEvent) (order : List String) :
    Polled loop order (loop.poll event order) := by
  cases hpolling : loop.polling with
  | event => exact polled_event event order hpolling
  | message => exact polled_message event order hpolling
  | action => exact polled_action event order hpolling
  | confirmed =>
      rw [poll.eq_def, hpolling]
      dsimp only
      split
      case h_1 results confirmedRx hrx => exact .confirm hpolling results confirmedRx hrx
      case h_2 hrx => exact .noConfirmed hpolling
  | extended =>
      rw [poll.eq_def, hpolling]
      dsimp only
      split
      case h_1 results eoExtendRx hrx => exact .extended hpolling _ eoExtendRx
      case h_2 hrx => exact .noExtended hpolling
  | done =>
      rw [poll.eq_def, hpolling]
      exact .done hpolling

/-! ## The other tasks -/

def Event.IsPoll : Event → Prop
  | poll _ _ => True
  | _ => False

theorem Event.eq_poll_or_not (event : Event) :
    (∃ polled order, event = .poll polled order) ∨ ¬ event.IsPoll := by
  cases event with
  | poll polled order => exact .inl ⟨polled, order, rfl⟩
  | _ => exact .inr (by simp [IsPoll])

/-- The action that consumes a handler. -/
inductive Settles (handler : Handler) : Action → Prop
  | ack (h : handler.exactlyOnce = false) : Settles handler (.ack handler.ackId)
  | nack (h : handler.exactlyOnce = false) : Settles handler (.nack handler.ackId)
  | exactlyOnceAck (h : handler.exactlyOnce = true) : Settles handler (.exactlyOnceAck handler.ackId)
  | exactlyOnceNack (h : handler.exactlyOnce = true) :
      Settles handler (.exactlyOnceNack handler.ackId)

theorem Settles.ackId_eq {handler : Handler} {action : Action} (h : Settles handler action) :
    action.ackId = handler.ackId := by
  cases h with
  | ack | nack | exactlyOnceAck | exactlyOnceNack => rfl

/-- What the other tasks can do. -/
inductive Acted (loop : LeaseLoop) : LeaseLoop → Prop
  | deliver (hopen : loop.messageOpen = true) (message : NewMessage) (pooled : List Handler)
      (hpooled : pooled = [] ∨ pooled = [⟨message.ackId, message.exactlyOnce⟩]) :
      Acted loop { loop with
        messageRx := loop.messageRx ++ [message]
        late := loop.late ++ [message.ackId]
        delivered := loop.delivered ++ [message.ackId]
        pool := loop.pool ++ pooled }
  | handOut (hopen : loop.ackOpen = true) (handler : Handler) (pool : List Handler)
      (hpool : loop.pool = handler :: pool) :
      Acted loop { loop with pool := pool, handlers := loop.handlers ++ [handler] }
  | discard (pool : List Handler) (hpool : pool <:+ loop.pool) (cancelled : Bool) :
      Acted loop { loop with pool := pool, cancelled := cancelled }
  | dropSenders : Acted loop { loop with senders := false }
  | settle (hdone : loop.polling ≠ .done) (index : ℕ) (handler : Handler)
      (hhandler : loop.handlers[index]? = some handler) (futures : List String) (action : Action)
      (haction : Settles handler action) :
      Acted loop { loop with
        handlers := loop.handlers.eraseIdx index
        futures := loop.futures ++ futures
        ackRx := loop.ackRx ++ [action] }
  | settleDone (hdone : loop.polling = .done) (index : ℕ) :
      Acted loop { loop with handlers := loop.handlers.eraseIdx index }
  | complete (index : ℕ) (ackId : String) (hfuture : loop.futures[index]? = some ackId)
      (reply : Reply) (hreply : (ackId, reply) ∈ loop.state.eoLeases.sent) :
      Acted loop { loop with
        futures := loop.futures.eraseIdx index
        completed := loop.completed ++ [(ackId, reply)] }
  | dropFuture (index : ℕ) : Acted loop { loop with futures := loop.futures.eraseIdx index }
  | report (confirmedRx eoExtendRx : List (List (String × AckResult))) :
      Acted loop { loop with confirmedRx := confirmedRx, eoExtendRx := eoExtendRx }
  | tick (now : ℕ) : Acted loop { loop with now := now }

theorem Acted.refl (loop : LeaseLoop) : Acted loop loop := .tick loop.now

theorem acted_deliver (ackId : String) (exactlyOnce converts : Bool) :
    Acted loop (loop.deliver ackId exactlyOnce converts) := by
  by_cases hopen : loop.messageOpen = true
  · rw [deliver, if_pos hopen]
    cases exactlyOnce with
    | true =>
        cases converts with
        | true =>
            exact .deliver hopen ⟨ackId, .exactlyOnce { receiveTime := loop.now }⟩ _ (.inr rfl)
        | false =>
            have h := Acted.deliver hopen ⟨ackId, .exactlyOnce { receiveTime := loop.now }⟩ []
              (.inl rfl)
            rwa [List.append_nil] at h
    | false =>
        cases converts with
        | true =>
            exact .deliver hopen ⟨ackId, .atLeastOnce { receiveTime := loop.now }⟩ _ (.inr rfl)
        | false =>
            have h := Acted.deliver hopen ⟨ackId, .atLeastOnce { receiveTime := loop.now }⟩ []
              (.inl rfl)
            rwa [List.append_nil] at h
  · rw [deliver, if_neg hopen]
    exact .refl loop

theorem acted_settle (index : ℕ) {atLeastOnce exactlyOnce : String → Action}
    (hatLeastOnce : ∀ handler, handler.exactlyOnce = false →
      Settles handler (atLeastOnce handler.ackId))
    (hexactlyOnce : ∀ handler, handler.exactlyOnce = true →
      Settles handler (exactlyOnce handler.ackId)) :
    Acted loop (loop.settle index atLeastOnce exactlyOnce) := by
  unfold settle
  split
  · rename_i handler hhandler
    unfold sendAction
    by_cases hdone : loop.polling = .done
    · rw [if_pos hdone]
      exact .settleDone hdone index
    · rw [if_neg hdone]
      have haction : Settles handler (if handler.exactlyOnce then exactlyOnce handler.ackId
          else atLeastOnce handler.ackId) := by
        split_ifs with hkind
        · exact hexactlyOnce handler hkind
        · exact hatLeastOnce handler (Bool.not_eq_true _ ▸ hkind)
      have h := Acted.settle hdone index handler hhandler [] _ haction
      rwa [List.append_nil] at h
  · exact .refl loop

theorem acted_settleConfirmed (index : ℕ) {action : String → Action}
    (haction : ∀ ackId, Settles ⟨ackId, true⟩ (action ackId)) :
    Acted loop (loop.settleConfirmed index action) := by
  unfold settleConfirmed
  split
  · rename_i ackId hhandler
    by_cases hdone : loop.polling = .done
    · rw [if_pos hdone]
      exact .settleDone hdone index
    · rw [if_neg hdone, sendAction, if_neg hdone]
      exact .settle hdone index ⟨ackId, true⟩ hhandler [ackId] (action ackId) (haction ackId)
  · exact .refl loop

theorem acted {event : Event} (h : ¬ event.IsPoll) : Acted loop (loop.step event) := by
  cases event with
  | deliver ackId exactlyOnce converts => exact acted_deliver ackId exactlyOnce converts
  | next =>
      rw [step.eq_def]
      dsimp only
      split
      case h_1 handler pool hpool =>
        split_ifs with hopen
        · exact .handOut hopen handler pool hpool
        · exact .discard pool (hpool ▸ List.suffix_cons handler pool) loop.cancelled
      case h_2 => exact .refl loop
  | close => exact .discard [] List.nil_suffix true
  | cancel => exact .discard loop.pool List.suffix_rfl true
  | dropSenders =>
      rw [step.eq_def]
      dsimp only
      split_ifs with hcancelled
      · exact .dropSenders
      · exact .refl loop
  | ack index => exact acted_settle index (fun _ h => .ack h) (fun _ h => .exactlyOnceAck h)
  | nack index => exact acted_settle index (fun _ h => .nack h) (fun _ h => .exactlyOnceNack h)
  | confirmedAck index => exact acted_settleConfirmed index fun _ => .exactlyOnceAck rfl
  | confirmedNack index => exact acted_settleConfirmed index fun _ => .exactlyOnceNack rfl
  | await index =>
      rw [step.eq_def]
      dsimp only
      split
      case h_1 ackId hfuture =>
        split
        case h_1 reply hreply =>
          obtain rfl : reply.1 = ackId := by simpa using List.find?_some hreply
          exact .complete index reply.1 hfuture reply.2 (List.mem_of_find?_eq_some hreply)
        case h_2 => exact .refl loop
      case h_2 => exact .refl loop
  | dropFuture index => exact .dropFuture index
  | confirm results => exact .report _ _
  | eoExtend results => exact .report _ _
  | tick duration => exact .tick _
  | poll event order => exact absurd trivial h

/-- What only the loop changes. -/
structure Untouched (loop next : LeaseLoop) : Prop where
  options : next.options = loop.options
  state : next.state = loop.state
  polling : next.polling = loop.polling
  log : next.log = loop.log

theorem Untouched.refl (loop : LeaseLoop) : Untouched loop loop := ⟨rfl, rfl, rfl, rfl⟩

theorem Acted.untouched {next : LeaseLoop} (h : Acted loop next) : Untouched loop next := by
  cases h with
  | _ => exact ⟨rfl, rfl, rfl, rfl⟩

theorem step_untouched (loop : LeaseLoop) {event : Event} (h : ¬ event.IsPoll) :
    Untouched loop (loop.step event) := (acted h).untouched

theorem Untouched.trans {middle last : LeaseLoop} (h : Untouched loop middle)
    (h' : Untouched middle last) : Untouched loop last :=
  ⟨h'.options.trans h.options, h'.state.trans h.state, h'.polling.trans h.polling,
    h'.log.trans h.log⟩

theorem run_untouched (loop : LeaseLoop) {events : List Event} (h : ∀ event ∈ events, ¬ event.IsPoll) :
    Untouched loop (run loop events) := by
  induction events generalizing loop with
  | nil => exact .refl loop
  | cons event events ih =>
      rw [List.forall_mem_cons] at h
      exact (step_untouched loop h.1).trans (ih (loop.step event) h.2)

theorem run_append (before after : List Event) :
    run loop (before ++ after) = run (run loop before) after := List.foldl_append ..

theorem run_concat (events : List Event) (event : Event) :
    run loop (events ++ [event]) = (run loop events).step event := List.foldl_concat ..

end LeaseLoop

end GoogleCloudRust.Subscriber
