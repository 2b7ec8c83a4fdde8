import GoogleCloudRust.Library.Time
import GoogleCloudRust.Model.LeaseLoop

/-! # Deadlines of leases

Model of `set_max_lease_extension` of `builder.rs`, of the options that `message_stream.rs`
makes of it, and of the lease state of `lease_state.rs` together with the server that holds the
deadlines. All requests to extend leases succeed, and what is on its way arrives in time. -/

namespace GoogleCloudRust.Subscriber

/-- `set_max_lease_extension`: the ack deadline in seconds. -/
def setMaxLeaseExtension (v : Duration) : ℕ := max 10 (min (v.1 / 10 ^ 9) 600)

/-- The options of the lease loop, whose leaser extends leases by `ackDeadlineSeconds` as well. -/
def streamOptions (maxLease ackDeadlineSeconds : ℕ) (shutdownBehavior : ShutdownBehavior) :
    LeaseOptions :=
  { maxLease := maxLease
    maxLeaseExtension := ackDeadlineSeconds * 10 ^ 9
    shutdownBehavior := shutdownBehavior }

/-- How long a message, a request or a response is on its way at most. -/
def maxDelay : ℕ := 10 ^ 9

/-- A message that has left the server. -/
structure Message where
  ackId : String
  exactlyOnce : Bool
  leftAt : ℕ
deriving DecidableEq, Repr

/-- A request to extend at-least-once leases, which may have reached the server. -/
structure PendingExtend where
  ackIds : List String
  sentAt : ℕ
  reachedAt : Option ℕ := none
deriving DecidableEq, Repr

/-- The lease state with its timer, what is on its way between it and the server, and the
deadlines of the server. -/
structure TimedLeases where
  options : LeaseOptions
  now : ℕ
  nextExtend : ℕ
  state : LeaseState := {}
  messages : List Message := []
  pendingExtends : List PendingExtend := []
  deadlines : String → ℕ := fun _ => 0

namespace TimedLeases

/-- What happens next; it is impossible when it does not fit the state. -/
inductive Event
  | elapse (duration : ℕ)
  /-- A message leaves the server. -/
  | deliver (ackId : String) (exactlyOnce : Bool)
  /-- A message comes under lease that the stream has received. -/
  | add (message : Message) (receiveTime : ℕ)
  | process (action : Action)
  | confirm (results : List (String × AckResult))
  | updateLastExtensionEo (ackIds : List String)
  | flush
  | extend (order : List String)
  /-- A request to extend leases reaches the server. -/
  | reach (pending : PendingExtend)
  /-- Its response is processed. -/
  | extendCompleted (pending : PendingExtend)

/-- What has to happen before time goes on beyond it. -/
def limits (timed : TimedLeases) : List ℕ :=
  timed.nextExtend :: timed.messages.map (fun message => message.leftAt + maxDelay) ++
    timed.pendingExtends.map fun pending => pending.reachedAt.getD pending.sentAt + maxDelay

/-- The deadlines once the server extends some of them. -/
def extendDeadlines (timed : TimedLeases) (ackIds : List String) : String → ℕ :=
  fun id => if id ∈ ackIds then timed.now + timed.options.maxLeaseExtension else timed.deadlines id

/-- The requests to extend leases among the calls of the leaser. -/
def requests (now : ℕ) (calls : List LeaserCall) : List PendingExtend :=
  calls.filterMap fun call =>
    match call with
    | .extend ackIds => some { ackIds := ackIds, sentAt := now }
    | .ack _ | .nack _ | .confirmedAck _ | .confirmedNack _ | .eoExtend _ => none

def step (timed : TimedLeases) : Event → Option TimedLeases
  | .elapse duration =>
      if ∀ limit ∈ timed.limits, timed.now + duration ≤ limit then
        some { timed with now := timed.now + duration }
      else none
  | .deliver ackId exactlyOnce =>
      some { timed with
        messages := timed.messages ++ [⟨ackId, exactlyOnce, timed.now⟩]
        deadlines := timed.extendDeadlines [ackId] }
  | .add message receiveTime =>
      if message ∈ timed.messages ∧ message.leftAt ≤ receiveTime ∧ receiveTime ≤ timed.now then
        let leaseInfo : LeaseInfo :=
          if message.exactlyOnce then .exactlyOnce { receiveTime := receiveTime }
          else .atLeastOnce { receiveTime := receiveTime }
        some { timed with
          messages := timed.messages.erase message
          state := timed.state.add ⟨message.ackId, leaseInfo⟩ }
      else none
  | .process action => some { timed with state := timed.state.process action }
  | .confirm results => some { timed with state := timed.state.confirm results }
  | .updateLastExtensionEo ackIds =>
      some { timed with state := timed.state.updateLastExtensionEo timed.now ackIds }
  | .flush => some { timed with state := timed.state.flush }
  | .extend order =>
      if timed.now = timed.nextExtend then
        let state := timed.state.extend timed.options timed.now order
        some { timed with
          state := state
          nextExtend := timed.nextExtend + extendPeriod
          pendingExtends := timed.pendingExtends ++
            requests timed.now (state.calls.drop timed.state.calls.length) }
      else none
  | .reach pending =>
      if pending ∈ timed.pendingExtends ∧ pending.reachedAt = none then
        some { timed with
          pendingExtends := timed.pendingExtends.erase pending ++
            [{ pending with reachedAt := some timed.now }]
          deadlines := timed.extendDeadlines pending.ackIds }
      else none
  | .extendCompleted pending =>
      if pending ∈ timed.pendingExtends ∧ pending.reachedAt ≠ none then
        some { timed with
          state := timed.state.updateLastExtension timed.now pending.ackIds
          pendingExtends := timed.pendingExtends.erase pending }
      else none

def run (timed : TimedLeases) (events : List Event) : Option TimedLeases := events.foldlM step timed

/-- The timer fires first when `extendStart` has elapsed. -/
def new (options : LeaseOptions) (now extendStart : ℕ) : TimedLeases :=
  { options := options, now := now, nextExtend := now + extendStart }

end TimedLeases

end GoogleCloudRust.Subscriber
