import GoogleCloudRust.Library.Float64
import Mathlib.Data.List.Basic

/-! # The pool of `AppendRows` streams and its dispatchers

Model of `pool.rs` and of `Dispatcher::send_one_attempt`. A pool operation is one step under the
lock; loading the cached entry, sending and swapping it are steps of their own. -/

namespace GoogleCloudRust.BigQuery

structure StreamPoolOptions where
  maxStreams : ℕ
  maxOutstandingRequests : Option ℕ
  maxOutstandingBytes : Option ℕ
  loadThreshold : F64

/-- A stream; its request channel and its load counters are shared by all that hold it. -/
structure StreamEntry where
  id : ℕ
deriving DecidableEq, Repr

/-- The outstanding requests and bytes of a stream. -/
structure Load where
  outstandingRequests : ℕ
  outstandingBytes : ℕ

/-- The load of every stream, each time it is read. Senders change it at any time. -/
abbrev Loads := ℕ → StreamEntry → Load

structure StreamPool where
  /-- An `AtomicU64` that does not reach its wrap. -/
  nextStreamId : ℕ
  streams : List StreamEntry
  options : StreamPoolOptions
  /-- The ids handed out by `new_stream_entry`. -/
  handedOut : List ℕ
  /-- The failed ids that were replaced in place. -/
  replaced : List ℕ

namespace StreamPool

def new (options : StreamPoolOptions) : StreamPool where
  nextStreamId := 1
  streams := []
  options
  handedOut := []
  replaced := []

def normalizeLoad (pool : StreamPool) (load : Load) : F64 :=
  let r := (pool.options.maxOutstandingRequests.map fun m =>
    (F64.ofNat load.outstandingRequests).div (F64.ofNat m)).getD (F64.ofNat 0)
  let b := (pool.options.maxOutstandingBytes.map fun m =>
    (F64.ofNat load.outstandingBytes).div (F64.ofNat m)).getD (F64.ofNat 0)
  F64.max r b

def isLoaded (pool : StreamPool) (load : Load) : Bool :=
  F64.lt pool.options.loadThreshold (pool.normalizeLoad load)

/-- `min_by` on the load, which keeps the first of equally loaded streams; `reading` counts the
comparisons made so far. -/
def leastLoadedOf (pool : StreamPool) (loads : Loads) (reading : ℕ) (least : StreamEntry) :
    List StreamEntry → StreamEntry
  | [] => least
  | entry :: streams =>
    let loadA := pool.normalizeLoad (loads reading least)
    let loadB := pool.normalizeLoad (loads reading entry)
    pool.leastLoadedOf loads (reading + 1)
      (match loadA.totalCmp loadB with
        | .gt => entry
        | _ => least) streams

def leastLoaded (pool : StreamPool) (loads : Loads) : List StreamEntry → Option StreamEntry
  | [] => none
  | entry :: streams => some (pool.leastLoadedOf loads 0 entry streams)

def newStreamEntry (pool : StreamPool) : StreamPool × StreamEntry :=
  ({ pool with
     nextStreamId := pool.nextStreamId + 1
     handedOut := pool.handedOut ++ [pool.nextStreamId] },
   ⟨pool.nextStreamId⟩)

/-- `none` is the branch that is marked as unreachable. -/
def getImpl (pool : StreamPool) (isClosed : ℕ → Bool) (loads : Loads) :
    Option (StreamPool × StreamEntry) :=
  let streams := pool.streams.filter fun s => !isClosed s.id
  let leastLoaded := pool.leastLoaded loads streams
  let shouldGrow := leastLoaded.all fun s => pool.isLoaded (loads streams.length s)
  if streams.length < pool.options.maxStreams ∧ shouldGrow then
    let (pool, stream) := pool.newStreamEntry
    some ({ pool with streams := streams ++ [stream] }, stream)
  else
    leastLoaded.map fun s => ({ pool with streams }, s)

def get (pool : StreamPool) (isClosed : ℕ → Bool) (loads : Loads) :
    Option (StreamPool × StreamEntry) :=
  pool.getImpl isClosed loads

def evictAndReplace (pool : StreamPool) (failedId : ℕ) (isClosed : ℕ → Bool) (loads : Loads) :
    Option (StreamPool × StreamEntry) :=
  match pool.streams.findIdx? fun entry => entry.id = failedId with
  | some pos =>
    let (pool, stream) := pool.newStreamEntry
    some ({ pool with
      streams := pool.streams.set pos stream
      replaced := pool.replaced ++ [failedId] }, stream)
  | none => pool.getImpl isClosed loads

end StreamPool

/-! ## Dispatchers -/

/-- A dispatcher caches one entry. Every entry it has cached is an allocation of its own, named
by its place in the order in which they were cached. -/
structure Dispatcher where
  past : List StreamEntry
  entry : StreamEntry
deriving DecidableEq, Repr

namespace Dispatcher

/-- The pointer to the cached entry. -/
def pointer (dispatcher : Dispatcher) : ℕ := dispatcher.past.length

def compareAndSwap (dispatcher : Dispatcher) (current : ℕ) (newStream : StreamEntry) :
    Dispatcher :=
  if current = dispatcher.pointer then
    { past := dispatcher.past ++ [dispatcher.entry], entry := newStream }
  else dispatcher

end Dispatcher

/-- Where a call of `send_one_attempt` is. -/
inductive Attempt
  | sending
  /-- The stream failed and `evict_and_replace` returned `newStream`. -/
  | evicted (newStream : StreamEntry)
  /-- The attempt has returned the stream-level failure. -/
  | failed
  /-- The attempt has returned otherwise, or was dropped while it was sending. -/
  | over
deriving DecidableEq, Repr

structure Send where
  dispatcher : ℕ
  /-- The entry the attempt loaded, and the pointer to it. -/
  stream : StreamEntry
  pointer : ℕ
  attempt : Attempt
deriving DecidableEq, Repr

/-- A pool with the dispatchers that share it. -/
structure WriteSystem where
  pool : StreamPool
  /-- The streams whose runner has terminated. -/
  closed : List ℕ
  dispatchers : List Dispatcher
  sends : List Send

namespace WriteSystem

inductive Event
  | get (loads : Loads)
  | evictAndReplace (failedId : ℕ) (loads : Loads)
  | terminate (id : ℕ)
  | newDispatcher (loads : Loads)
  | load (dispatcher : ℕ)
  | succeed (send : ℕ)
  | fail (send : ℕ) (loads : Loads)
  | swap (send : ℕ)

def new (options : StreamPoolOptions) : WriteSystem where
  pool := .new options
  closed := []
  dispatchers := []
  sends := []

def isClosed (system : WriteSystem) (id : ℕ) : Bool := system.closed.contains id

def evict (system : WriteSystem) (failedId : ℕ) (loads : Loads) :
    Option (StreamPool × StreamEntry) :=
  system.pool.evictAndReplace failedId system.isClosed loads

def step (system : WriteSystem) : Event → WriteSystem
  | .get loads =>
    match system.pool.get system.isClosed loads with
    | some (pool, _) => { system with pool }
    | none => system
  | .evictAndReplace failedId loads =>
    -- Only the id of an entry can be reported.
    if failedId ∈ system.pool.handedOut then
      match system.evict failedId loads with
      | some (pool, _) => { system with pool }
      | none => system
    else system
  | .terminate id => { system with closed := id :: system.closed }
  | .newDispatcher loads =>
    match system.pool.get system.isClosed loads with
    | some (pool, stream) =>
      { system with pool, dispatchers := system.dispatchers ++ [⟨[], stream⟩] }
    | none => system
  | .load index =>
    match system.dispatchers[index]? with
    | some dispatcher =>
      { system with
        sends := system.sends ++ [⟨index, dispatcher.entry, dispatcher.pointer, .sending⟩] }
    | none => system
  | .succeed index =>
    match system.sends[index]? with
    | some send =>
      match send.attempt with
      | .sending => { system with sends := system.sends.set index { send with attempt := .over } }
      | _ => system
    | none => system
  | .fail index loads =>
    match system.sends[index]? with
    | some send =>
      match send.attempt with
      | .sending =>
        match system.evict send.stream.id loads with
        | some (pool, newStream) =>
          { system with
            pool
            sends := system.sends.set index { send with attempt := .evicted newStream } }
        | none => system
      | _ => system
    | none => system
  | .swap index =>
    match system.sends[index]? with
    | some send =>
      match send.attempt with
      | .evicted newStream =>
        { system with
          dispatchers := system.dispatchers.modify send.dispatcher fun dispatcher =>
            dispatcher.compareAndSwap send.pointer newStream
          sends := system.sends.set index { send with attempt := .failed } }
      | _ => system
    | none => system

def run (options : StreamPoolOptions) (events : List Event) : WriteSystem :=
  events.foldl step (new options)

end WriteSystem

end GoogleCloudRust.BigQuery
