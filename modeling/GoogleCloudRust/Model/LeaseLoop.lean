import GoogleCloudRust.Model.Leases

/-! # The lease loop of a subscriber

Model of `lease_state.rs`, `lease_loop.rs`, `handler.rs` and of what `message_stream.rs` does
with the channels of the loop. The branches of `select!` are polled one after the other, and
the other tasks may send between any two polls. -/

namespace GoogleCloudRust.Subscriber

/-- The action an application does with a message. -/
inductive Action
  | ack (ackId : String)
  | nack (ackId : String)
  | exactlyOnceAck (ackId : String)
  | exactlyOnceNack (ackId : String)
deriving DecidableEq, Repr

def Action.ackId : Action → String
  | ack ackId | nack ackId | exactlyOnceAck ackId | exactlyOnceNack ackId => ackId

inductive LeaseInfo
  | atLeastOnce (info : AtLeastOnceInfo)
  | exactlyOnce (info : ExactlyOnceInfo)

structure NewMessage where
  ackId : String
  leaseInfo : LeaseInfo

/-- The calls of the leaser. -/
inductive LeaserCall
  | ack (ackIds : List String)
  | nack (ackIds : List String)
  | extend (ackIds : List String)
  | confirmedAck (ackIds : List String)
  | confirmedNack (ackIds : List String)
  | eoExtend (ackIds : List String)
deriving DecidableEq, Repr

def LeaserCall.ackIds : LeaserCall → List String
  | ack ackIds | nack ackIds | extend ackIds | confirmedAck ackIds | confirmedNack ackIds
  | eoExtend ackIds => ackIds

/-! ## The lease state -/

inductive ShutdownBehavior
  | waitForProcessing
  | nackImmediately
deriving DecidableEq, Repr

structure LeaseOptions where
  maxLease : ℕ
  maxLeaseExtension : ℕ
  shutdownBehavior : ShutdownBehavior

inductive LeaseEvent
  | flush
  | extend
  | extendCompleted (ackIds : List String)

/-- `calls` lists the calls of the leaser, and `expired` the at-least-once messages that were
dropped because their leases had expired. -/
structure LeaseState where
  leases : AtLeastOnceLeases := {}
  eoLeases : ExactlyOnceLeases := {}
  calls : List LeaserCall := []
  expired : List String := []

namespace LeaseState

def needsFlush (state : LeaseState) : Bool := state.leases.needsFlush || state.eoLeases.needsFlush

def add (state : LeaseState) (message : NewMessage) : LeaseState :=
  match message.leaseInfo with
  | .atLeastOnce info => { state with leases := state.leases.add message.ackId info }
  | .exactlyOnce info => { state with eoLeases := state.eoLeases.add message.ackId info }

def process (state : LeaseState) : Action → LeaseState
  | .ack ackId => { state with leases := AtLeastOnceLeases.ack state.leases ackId }
  | .nack ackId => { state with leases := AtLeastOnceLeases.nack state.leases ackId }
  | .exactlyOnceAck ackId => { state with eoLeases := state.eoLeases.ack ackId }
  | .exactlyOnceNack ackId => { state with eoLeases := state.eoLeases.nack ackId }

def confirm (state : LeaseState) (results : List (String × AckResult)) : LeaseState :=
  { state with
    eoLeases := results.foldl (fun leases result => leases.confirm result.1 result.2)
      state.eoLeases }

def updateLastExtension (state : LeaseState) (now : ℕ) (ackIds : List String) : LeaseState :=
  { state with leases := AtLeastOnceLeases.updateLastExtension state.leases now ackIds }

def updateLastExtensionEo (state : LeaseState) (now : ℕ) (ackIds : List String) : LeaseState :=
  { state with eoLeases := state.eoLeases.updateLastExtension now ackIds }

/-- A call of the leaser, unless there is nothing to do. -/
def callUnlessEmpty (call : List String → LeaserCall) (ackIds : List String) : List LeaserCall :=
  if ackIds.isEmpty then [] else [call ackIds]

def flush (state : LeaseState) : LeaseState :=
  let (toAck, toNack, leases) := state.leases.drain
  let (eoToAck, eoToNack, eoLeases) := state.eoLeases.drain
  { state with
    leases := leases
    eoLeases := eoLeases
    calls := state.calls ++ callUnlessEmpty .ack toAck ++ callUnlessEmpty .nack toNack ++
      callUnlessEmpty .confirmedAck eoToAck ++ callUnlessEmpty .confirmedNack eoToNack }

def extend (state : LeaseState) (options : LeaseOptions) (now : ℕ) (order : List String) :
    LeaseState :=
  let (batches, leases) := AtLeastOnceLeases.retain state.leases now options.maxLease
    options.maxLeaseExtension order
  let (eoBatches, eoLeases) := state.eoLeases.retain now options.maxLease
    options.maxLeaseExtension order
  let expired := (state.leases.visit order).filter fun entry =>
    AtLeastOnceLeases.isExpired now options.maxLease entry.2
  { leases := leases
    eoLeases := eoLeases
    calls := state.calls ++ batches.map .extend ++ eoBatches.map .eoExtend
    expired := state.expired ++ expired.map Prod.fst }

/-- Flush the acks and nack all other messages. -/
def shutdown (state : LeaseState) (order : List String) : LeaseState :=
  let (toAck, toNack) := AtLeastOnceLeases.evictAndDrain state.leases order
  let (_, eoToNack, sent) := state.eoLeases.evictAndDrain order
  { state with
    leases := {}
    eoLeases := { sent := sent }
    calls := state.calls ++ callUnlessEmpty .ack toAck ++ toNack.map .nack ++
      eoToNack.map .confirmedNack }

end LeaseState

/-! ## The loop and the tasks around it -/

/-- The branch of `select!` that is polled next, unless the loop has ended. -/
inductive Poll
  | event
  | message
  | action
  | confirmed
  | extended
  | done
deriving DecidableEq, Repr

/-- A handler, or what the stream has to create one. -/
structure Handler where
  ackId : String
  exactlyOnce : Bool
deriving DecidableEq, Repr

inductive LogEntry
  | add (ackId : String) (exactlyOnce : Bool)
  /-- An action, and whether the message was under an at-least-once lease. -/
  | process (action : Action) (leased : Bool)
deriving DecidableEq, Repr

/-- The channels and the state of the loop; whether shutdown was signalled and the strong senders
are still held; the pool of the stream; the handlers of the application and its futures that wait
for a result. Then what has happened: what the loop has processed, the ids sent on `message_tx`
since `message_rx` was polled, and the results that futures have returned. -/
structure LeaseLoop where
  options : LeaseOptions
  now : ℕ := 0
  state : LeaseState := {}
  messageRx : List NewMessage := []
  ackRx : List Action := []
  confirmedRx : List (List (String × AckResult)) := []
  eoExtendRx : List (List (String × AckResult)) := []
  polling : Poll := .event
  cancelled : Bool := false
  senders : Bool := true
  pool : List Handler := []
  handlers : List Handler := []
  futures : List String := []
  delivered : List String := []
  log : List LogEntry := []
  late : List String := []
  completed : List (String × Reply) := []

namespace LeaseLoop

/-- `message_tx` has a strong sender: `shutdown_guard` is one. -/
def messageOpen (loop : LeaseLoop) : Bool :=
  loop.polling ≠ .done &&
    (loop.senders || loop.options.shutdownBehavior = .waitForProcessing)

/-- `ack_tx` has a strong sender: handlers and their futures hold one. -/
def ackOpen (loop : LeaseLoop) : Bool :=
  loop.senders || !loop.handlers.isEmpty || !loop.futures.isEmpty

/-- Send an action; nobody receives it when the loop has ended. -/
def sendAction (loop : LeaseLoop) (action : Action) : LeaseLoop :=
  if loop.polling = .done then loop else { loop with ackRx := loop.ackRx ++ [action] }

def processAction (loop : LeaseLoop) (action : Action) : LeaseLoop :=
  { loop with
    state := loop.state.process action
    log := loop.log ++
      [.process action (loop.state.leases.underLease.lookup action.ackId).isSome] }

/-- `shutdown`, which processes what is queued first. -/
def shutdown (loop : LeaseLoop) (order : List String) : LeaseLoop :=
  let drained := loop.ackRx.foldl processAction { loop with ackRx := [] }
  { drained with state := drained.state.shutdown order, polling := .done }

def handleEvent (loop : LeaseLoop) (order : List String) : LeaseEvent → LeaseLoop
  | .flush => { loop with state := loop.state.flush }
  | .extend => { loop with state := loop.state.extend loop.options loop.now order }
  | .extendCompleted ackIds =>
      { loop with state := loop.state.updateLastExtension loop.now ackIds }

/-- Poll the next branch. The timers and the extensions decide on the event; when the branch is
ready the next round begins. -/
def poll (loop : LeaseLoop) (event : Option LeaseEvent) (order : List String) : LeaseLoop :=
  match loop.polling with
  | .event =>
      if loop.state.needsFlush then loop.handleEvent order .flush
      else
        match event with
        | some event => loop.handleEvent order event
        | none => { loop with polling := .message }
  | .message =>
      match loop.messageRx with
      | message :: messageRx =>
          let exactlyOnce := match message.leaseInfo with
            | .atLeastOnce _ => false
            | .exactlyOnce _ => true
          { loop with
            state := loop.state.add message
            messageRx := messageRx
            log := loop.log ++ [.add message.ackId exactlyOnce]
            late := []
            polling := .event }
      | [] =>
          if loop.messageOpen then { loop with late := [], polling := .action }
          else loop.shutdown order
  | .action =>
      match loop.ackRx with
      | action :: ackRx => { loop with ackRx := ackRx, polling := .event }.processAction action
      | [] =>
          if loop.ackOpen then { loop with polling := .confirmed }
          else { loop with state := loop.state.shutdown order, polling := .done }
  | .confirmed =>
      match loop.confirmedRx with
      | results :: confirmedRx =>
          { loop with
            state := loop.state.confirm results
            confirmedRx := confirmedRx
            polling := .event }
      -- The leaser holds a sender.
      | [] => { loop with polling := .extended }
  | .extended =>
      match loop.eoExtendRx with
      | results :: eoExtendRx =>
          let extended := results.filterMap fun result =>
            match result.2 with
            | .ok _ => some result.1
            | .error _ => none
          { loop with
            state := loop.state.updateLastExtensionEo loop.now extended
            eoExtendRx := eoExtendRx
            polling := .event }
      | [] => { loop with polling := .event }
  | .done => loop

/-- What happens next; what does not fit the state is ignored. -/
inductive Event
  /-- The stream receives a message; it is not pooled if it cannot be converted. -/
  | deliver (ackId : String) (exactlyOnce converts : Bool)
  /-- The stream hands out a message of the pool. -/
  | next
  /-- The stream is closed or dropped. -/
  | close
  /-- Shutdown is signalled through a token. -/
  | cancel
  /-- The task that holds the strong senders drops them. -/
  | dropSenders
  | ack (index : ℕ)
  /-- Also when a handler is dropped. -/
  | nack (index : ℕ)
  | confirmedAck (index : ℕ)
  | confirmedNack (index : ℕ)
  /-- A future receives its result. -/
  | await (index : ℕ)
  | dropFuture (index : ℕ)
  /-- The leaser reports results of acknowledgements, or of extensions. -/
  | confirm (results : List (String × AckResult))
  | eoExtend (results : List (String × AckResult))
  | tick (duration : ℕ)
  | poll (event : Option LeaseEvent) (order : List String)

def deliver (loop : LeaseLoop) (ackId : String) (exactlyOnce converts : Bool) : LeaseLoop :=
  if loop.messageOpen then
    let leaseInfo : LeaseInfo :=
      if exactlyOnce then .exactlyOnce { receiveTime := loop.now }
      else .atLeastOnce { receiveTime := loop.now }
    { loop with
      messageRx := loop.messageRx ++ [⟨ackId, leaseInfo⟩]
      late := loop.late ++ [ackId]
      delivered := loop.delivered ++ [ackId]
      pool := if converts then loop.pool ++ [⟨ackId, exactlyOnce⟩] else loop.pool }
  else loop

/-- The handler is consumed. -/
def settle (loop : LeaseLoop) (index : ℕ) (atLeastOnce exactlyOnce : String → Action) : LeaseLoop :=
  match loop.handlers[index]? with
  | some handler =>
      let action := if handler.exactlyOnce then exactlyOnce handler.ackId
        else atLeastOnce handler.ackId
      { loop with handlers := loop.handlers.eraseIdx index }.sendAction action
  | none => loop

/-- `confirmed_ack` and `confirmed_nack` of an exactly-once handler: the future keeps its sender
until it is done. When the loop has ended it returns an error at once. -/
def settleConfirmed (loop : LeaseLoop) (index : ℕ) (action : String → Action) : LeaseLoop :=
  match loop.handlers[index]? with
  | some ⟨ackId, true⟩ =>
      let loop := { loop with handlers := loop.handlers.eraseIdx index }
      if loop.polling = .done then loop
      else { loop with futures := loop.futures ++ [ackId] }.sendAction (action ackId)
  | _ => loop

def step (loop : LeaseLoop) : Event → LeaseLoop
  | .deliver ackId exactlyOnce converts => loop.deliver ackId exactlyOnce converts
  | .next =>
      match loop.pool with
      | handler :: pool =>
          if loop.ackOpen then { loop with pool := pool, handlers := loop.handlers ++ [handler] }
          else { loop with pool := pool }
      | [] => loop
  | .close => { loop with pool := [], cancelled := true }
  | .cancel => { loop with cancelled := true }
  | .dropSenders => if loop.cancelled then { loop with senders := false } else loop
  | .ack index => loop.settle index .ack .exactlyOnceAck
  | .nack index => loop.settle index .nack .exactlyOnceNack
  | .confirmedAck index => loop.settleConfirmed index .exactlyOnceAck
  | .confirmedNack index => loop.settleConfirmed index .exactlyOnceNack
  | .await index =>
      match loop.futures[index]? with
      | some ackId =>
          match loop.state.eoLeases.sent.find? fun entry => entry.1 = ackId with
          | some reply =>
              { loop with
                futures := loop.futures.eraseIdx index
                completed := loop.completed ++ [reply] }
          | none => loop
      | none => loop
  | .dropFuture index => { loop with futures := loop.futures.eraseIdx index }
  | .confirm results => { loop with confirmedRx := loop.confirmedRx ++ [results] }
  | .eoExtend results => { loop with eoExtendRx := loop.eoExtendRx ++ [results] }
  | .tick duration => { loop with now := loop.now + duration }
  | .poll event order => loop.poll event order

def new (options : LeaseOptions) : LeaseLoop := { options := options }

def run (loop : LeaseLoop) (events : List Event) : LeaseLoop := events.foldl step loop

end LeaseLoop

end GoogleCloudRust.Subscriber
