import Mathlib.Data.List.AList
import Mathlib.Data.List.Sort
import GoogleCloudRust.Library.Batches
import GoogleCloudRust.Model.ExactlyOnceRetry

/-! # Leases of a subscriber

Model of `lease_state/at_least_once.rs` and `lease_state/exactly_once.rs`. Instants are in
nanoseconds. What visits all entries of a hash map is given an order; entries that are not in
it come last. -/

namespace GoogleCloudRust.Subscriber

def maxIdsPerRpc : ℕ := 1000
def extendPeriod : ℕ := 3 * 10 ^ 9
def extendBuffer : ℕ := 2 * 10 ^ 9

/-- Chunk ack ids into chunks of `MAX_IDS_PER_RPC`. -/
def batch (ackIds : List String) : List (List String) := Batches.chunks maxIdsPerRpc ackIds

/-! ## What both kinds of leases have -/

/-- Ack ids under lease management, and those to acknowledge or to nack. -/
structure Leases (ι : Type) where
  underLease : AList fun _ : String => ι := ∅
  toAck : List String := []
  toNack : List String := []

namespace Leases

variable {ι : Type}

def add (leases : Leases ι) (ackId : String) (info : ι) : Leases ι :=
  { leases with underLease := leases.underLease.insert ackId info }

def needsFlush (leases : Leases ι) : Bool :=
  leases.toAck.length ≥ maxIdsPerRpc || leases.toNack.length ≥ maxIdsPerRpc

def drain (leases : Leases ι) : List String × List String × Leases ι :=
  (leases.toAck, leases.toNack, { leases with toAck := [], toNack := [] })

/-- Change what is known about an id, if it is under lease. -/
def modify (leases : Leases ι) (ackId : String) (f : ι → ι) : Leases ι :=
  match leases.underLease.lookup ackId with
  | some info => { leases with underLease := leases.underLease.insert ackId (f info) }
  | none => leases

/-- The ids in the order in which the hash map is visited. -/
def visit (leases : Leases ι) (order : List String) : List (String × ι) :=
  (leases.underLease.entries.map fun entry => (entry.1, entry.2)).insertionSort
    fun entry other => order.idxOf entry.1 ≤ order.idxOf other.1

/-- Drop some of the entries. -/
def filter (leases : Leases ι) (keeps : ι → Bool) : Leases ι :=
  { leases with
    underLease := ⟨leases.underLease.entries.filter fun entry => keeps entry.2,
      leases.underLease.nodupKeys.sublist List.filter_sublist⟩ }

end Leases

/-- The lease is valid beyond the next time that leases are extended. -/
def outlasts (now maxLeaseExtension : ℕ) (lastExtension : Option ℕ) : Bool :=
  lastExtension.any fun i => i + maxLeaseExtension > now + extendPeriod + extendBuffer

/-! ## At-least-once delivery -/

structure AtLeastOnceInfo where
  receiveTime : ℕ
  lastExtension : Option ℕ := none

abbrev AtLeastOnceLeases := Leases AtLeastOnceInfo

namespace AtLeastOnceLeases

def ack (leases : AtLeastOnceLeases) (ackId : String) : AtLeastOnceLeases :=
  { leases with
    underLease := leases.underLease.erase ackId
    -- Unconditionally, even if the lease has expired.
    toAck := leases.toAck ++ [ackId] }

def nack (leases : AtLeastOnceLeases) (ackId : String) : AtLeastOnceLeases :=
  if (leases.underLease.lookup ackId).isSome then
    { leases with
      underLease := leases.underLease.erase ackId
      toNack := leases.toNack ++ [ackId] }
  else leases

def updateLastExtension (leases : AtLeastOnceLeases) (now : ℕ) (ackIds : List String) :
    AtLeastOnceLeases :=
  ackIds.foldl (fun leases id => leases.modify id fun info => { info with lastExtension := some now })
    leases

def isExpired (now maxLease : ℕ) (info : AtLeastOnceInfo) : Bool :=
  info.receiveTime + maxLease < now

/-- The ids to extend, in batches, once expired messages are dropped. -/
def retain (leases : AtLeastOnceLeases) (now maxLease maxLeaseExtension : ℕ)
    (order : List String) : List (List String) × AtLeastOnceLeases :=
  let extended := (leases.visit order).foldl (fun (batches : Batches String) entry =>
    if isExpired now maxLease entry.2 then batches
    else if outlasts now maxLeaseExtension entry.2.lastExtension then batches
    else batches.push maxIdsPerRpc entry.1) {}
  (extended.finish, leases.filter fun info => !isExpired now maxLease info)

def evictAndDrain (leases : AtLeastOnceLeases) (order : List String) :
    List String × List (List String) :=
  (leases.toAck, batch (leases.toNack ++ (leases.visit order).map Prod.fst))

end AtLeastOnceLeases

/-! ## Exactly-once delivery -/

inductive MessageStatus
  | leased
  | acking
  | nacking
deriving DecidableEq, Repr

structure ExactlyOnceInfo where
  receiveTime : ℕ
  status : MessageStatus := .leased
  lastExtension : Option ℕ := none
deriving DecidableEq, Repr

/-- What is sent on the result channel of a message. -/
inductive Reply
  | confirmed (result : AckResult)
  | leaseExpired
  | shutdown

def Reply.result : Reply → AckResult
  | confirmed result => result
  | leaseExpired => .error .leaseExpired
  | shutdown => .error .shutdown

/-- `sent` lists what has been sent on the result channels. -/
structure ExactlyOnceLeases extends Leases ExactlyOnceInfo where
  sent : List (String × Reply) := []

namespace ExactlyOnceLeases

def add (leases : ExactlyOnceLeases) (ackId : String) (info : ExactlyOnceInfo) :
    ExactlyOnceLeases :=
  { leases with toLeases := leases.toLeases.add ackId info }

/-- Forward the result of an ack to the application. -/
def confirm (leases : ExactlyOnceLeases) (ackId : String) (result : AckResult) :
    ExactlyOnceLeases :=
  match leases.underLease.lookup ackId with
  | some _ =>
      { leases with
        underLease := leases.underLease.erase ackId
        sent := leases.sent ++ [(ackId, .confirmed result)] }
  | none => leases

def ack (leases : ExactlyOnceLeases) (ackId : String) : ExactlyOnceLeases :=
  match leases.underLease.lookup ackId with
  | some info =>
      { leases with
        underLease := leases.underLease.insert ackId { info with status := .acking }
        toAck := leases.toAck ++ [ackId] }
  | none => leases

def nack (leases : ExactlyOnceLeases) (ackId : String) : ExactlyOnceLeases :=
  match leases.underLease.lookup ackId with
  | some info =>
      { leases with
        underLease := leases.underLease.insert ackId { info with status := .nacking }
        toNack := leases.toNack ++ [ackId] }
  | none => leases

def drain (leases : ExactlyOnceLeases) : List String × List String × ExactlyOnceLeases :=
  let (toAck, toNack, drained) := leases.toLeases.drain
  (toAck, toNack, { leases with toLeases := drained })

def updateLastExtension (leases : ExactlyOnceLeases) (now : ℕ) (ackIds : List String) :
    ExactlyOnceLeases :=
  { leases with
    toLeases := ackIds.foldl (fun leases id =>
      leases.modify id fun info => { info with lastExtension := some now }) leases.toLeases }

/-- An expired lease is extracted only while the application holds the message. -/
def isExpired (now maxLease : ℕ) (info : ExactlyOnceInfo) : Bool :=
  match info.status with
  | .leased => info.receiveTime + maxLease < now
  | .nacking | .acking => false

def retain (leases : ExactlyOnceLeases) (now maxLease maxLeaseExtension : ℕ)
    (order : List String) : List (List String) × ExactlyOnceLeases :=
  let extended := (leases.visit order).foldl (fun (batches : Batches String) entry =>
    if isExpired now maxLease entry.2 then batches
    else
      match entry.2.status with
      | .nacking => batches
      | .acking | .leased =>
          if outlasts now maxLeaseExtension entry.2.lastExtension then batches
          else batches.push maxIdsPerRpc entry.1) {}
  let expired := (leases.visit order).filter fun entry => isExpired now maxLease entry.2
  (extended.finish,
    { leases with
      toLeases := leases.toLeases.filter fun info => !isExpired now maxLease info
      sent := leases.sent ++ expired.map fun entry => (entry.1, .leaseExpired) })

/-- The leases at the end are those whose results have been sent. -/
def evictAndDrain (leases : ExactlyOnceLeases) (order : List String) :
    List String × List (List String) × List (String × Reply) :=
  let toNack := (leases.visit order).map Prod.fst
  (leases.toAck, batch toNack, leases.sent ++ toNack.map fun ackId => (ackId, .shutdown))

/-- What is done with the leases, at which time where it matters. -/
inductive Event
  | add (ackId : String) (receiveTime : ℕ)
  | ack (ackId : String)
  | nack (ackId : String)
  | confirm (ackId : String) (result : AckResult)
  | updateLastExtension (now : ℕ) (ackIds : List String)
  | drain
  | retain (now maxLease maxLeaseExtension : ℕ) (order : List String)

def step (leases : ExactlyOnceLeases) : Event → ExactlyOnceLeases
  | .add ackId receiveTime => leases.add ackId { receiveTime := receiveTime }
  | .ack ackId => leases.ack ackId
  | .nack ackId => leases.nack ackId
  | .confirm ackId result => leases.confirm ackId result
  | .updateLastExtension now ackIds => leases.updateLastExtension now ackIds
  | .drain => leases.drain.2.2
  | .retain now maxLease maxLeaseExtension order =>
      (leases.retain now maxLease maxLeaseExtension order).2

def run (events : List Event) : ExactlyOnceLeases := events.foldl step {}

end ExactlyOnceLeases

end GoogleCloudRust.Subscriber
