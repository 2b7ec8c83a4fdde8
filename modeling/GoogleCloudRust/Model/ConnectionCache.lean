import GoogleCloudRust.Library.HashMap

/-! # Cached server connections

Model of `routing/connection_cache.rs`. The parsing of addresses belongs to another crate:
the key of an address is a parameter. A call of `get` advances by atomic steps: the bodies
under one lock, the operations of a `OnceCell`, and the drops in between. Whoever holds an
`Arc` of a cell is counted where the code asks for the strong count. -/

namespace GoogleCloudRust

/-- `routing/server_connection.rs`; dialled channels are known by their number. -/
structure ServerConnection where
  address : String
  channel : ℕ
  isDefault : Bool
deriving DecidableEq, Repr

namespace ConnectionCache

variable {Key : Type} [DecidableEq Key]

/-- A `tokio::sync::OnceCell`: at most one caller at a time holds its permit, and only the
holder of the permit can set the value. -/
structure OnceCell where
  value : Option ServerConnection := none
  initializing : Bool := false
deriving DecidableEq, Repr

def OnceCell.new : OnceCell where

inductive Phase
  /-- Before the read lock. -/
  | looking
  /-- The key was absent; the read lock is released. -/
  | missing
  /-- The cleanup guard owns a reference to the cell. -/
  | holding (cell : ℕ)
  /-- Inside `get_or_try_init`, with the permit. -/
  | dialing (cell : ℕ)
  /-- The guard is dropped after an error, a panic or a cancellation. -/
  | dropping (cell : ℕ)
  /-- In `remove_uninitialized`, before the write lock. -/
  | removing (cell : ℕ)
  /-- The result is known, and the reference to the cell still has to be dropped. -/
  | releasing (cell : ℕ) (result : Option ServerConnection)
  /-- `none` after an error or a cancellation. -/
  | ended (result : Option ServerConnection)
deriving DecidableEq, Repr

namespace Phase

/-- The cell whose reference count includes the call. -/
def cell? : Phase → Option ℕ
  | holding cell | dialing cell | dropping cell | removing cell | releasing cell _ => some cell
  | looking | missing | ended _ => none

/-- The cell that the call still has to clean up, should it fail. -/
def tended : Phase → Option ℕ
  | holding cell | dialing cell | dropping cell | removing cell => some cell
  | looking | missing | releasing _ _ | ended _ => none

def result : Phase → Option ServerConnection
  | releasing _ result | ended result => result
  | _ => none

end Phase

structure Call where
  address : String
  phase : Phase := .looking
deriving DecidableEq, Repr

end ConnectionCache

open ConnectionCache in
/-- The cache with the cells that were ever allocated and the calls of `get`. -/
structure ConnectionCache (Key : Type) where
  defaultConnection : ServerConnection
  defaultKey : Key
  servers : HashMap Key ℕ
  cells : List OnceCell
  channels : ℕ := 0
  calls : List Call := []

namespace ConnectionCache

variable {Key : Type} [DecidableEq Key] (cacheKey : String → Key)

def new (defaultConnection : ServerConnection) : ConnectionCache Key where
  defaultConnection := defaultConnection
  defaultKey := cacheKey defaultConnection.address
  servers := Finmap.singleton (cacheKey defaultConnection.address) 0
  cells := [{ value := some defaultConnection }]

def isDefaultAddress (cache : ConnectionCache Key) (address : String) : Bool :=
  if address = cache.defaultConnection.address then true
  else decide (cache.defaultKey = cacheKey address)

/-- `OnceCell::get`. -/
def value (cache : ConnectionCache Key) (cell : ℕ) : Option ServerConnection :=
  cache.cells[cell]?.bind OnceCell.value

def getIfPresent (cache : ConnectionCache Key) (address : String) : Option ServerConnection :=
  if cache.isDefaultAddress cacheKey address then some cache.defaultConnection
  else (cache.servers.lookup (cacheKey address)).bind cache.value

def evict (cache : ConnectionCache Key) (address : String) : Bool × ConnectionCache Key :=
  if cache.isDefaultAddress cacheKey address then (false, cache)
  else
    ((cache.servers.lookup (cacheKey address)).isSome,
      { cache with servers := cache.servers.erase (cacheKey address) })

/-- `Arc::strong_count`: the entries of the map and the calls that own a reference. -/
def strongCount (cache : ConnectionCache Key) (cell : ℕ) : ℕ :=
  cache.servers.entries.countP (fun entry => entry.2 = cell) +
    cache.calls.countP fun call => call.phase.cell? = some cell

/-! ## The steps of `get` -/

/-- The default address, or the body under the read lock. -/
def look (cache : ConnectionCache Key) (address : String) : Phase :=
  if cache.isDefaultAddress cacheKey address then .ended (some cache.defaultConnection)
  else
    match cache.servers.lookup (cacheKey address) with
    | some cell =>
        match cache.value cell with
        | some connection => .ended (some connection)
        | none => .holding cell
    | none => .missing

/-- The body under the write lock: `entry(key).or_insert_with(..)`. -/
def orInsert (cache : ConnectionCache Key) (address : String) : Phase × ConnectionCache Key :=
  match cache.servers.lookup (cacheKey address) with
  | some cell => (.holding cell, cache)
  | none =>
      (.holding cache.cells.length,
        { cache with
          servers := cache.servers.insert (cacheKey address) cache.cells.length
          cells := cache.cells ++ [.new] })

/-- `get_or_try_init`: a caller that finds neither a value nor the permit waits. -/
def acquire (cache : ConnectionCache Key) (cell : ℕ) : Phase × ConnectionCache Key :=
  match cache.cells[cell]? with
  | some ⟨some connection, _⟩ => (.releasing cell (some connection), cache)
  | some ⟨none, false⟩ =>
      (.dialing cell, { cache with cells := cache.cells.set cell { initializing := true } })
  | _ => (.holding cell, cache)

/-- `Channel::create` has succeeded. -/
def dialed (cache : ConnectionCache Key) (address : String) (cell : ℕ) :
    Phase × ConnectionCache Key :=
  let connection : ServerConnection := ⟨address, cache.channels, false⟩
  (.releasing cell (some connection),
    { cache with
      cells := cache.cells.set cell { value := some connection }
      channels := cache.channels + 1 })

/-- The future of the initialisation ends or is dropped, and its permit is returned. -/
def abandon (cache : ConnectionCache Key) (cell : ℕ) : Phase × ConnectionCache Key :=
  (.dropping cell, { cache with cells := cache.cells.set cell .new })

/-- `remove_uninitialized` of the call with this index. What it finds before it has the write
lock it finds again under it. -/
def removeUninitialized (cache : ConnectionCache Key) (index : ℕ) (call : Call) (cell : ℕ) :
    Phase × ConnectionCache Key :=
  match cache.servers.lookup (cacheKey call.address) with
  | none => (.releasing cell none, cache)
  | some existing =>
      if existing ≠ cell ∨ (cache.value existing).isSome then (.releasing cell none, cache)
      else
        let dropped : ConnectionCache Key :=
          { cache with calls := cache.calls.set index { call with phase := .ended none } }
        if dropped.strongCount existing = 1 ∧ (cache.value existing).isNone then
          (.ended none, { cache with servers := cache.servers.erase (cacheKey call.address) })
        else (.ended none, cache)

/-- What happens to a call next; what does not fit its phase is ignored. -/
inductive Action
  | look
  | orInsert
  | acquire
  | dialed
  | dialFailed
  | cancel
  | dropGuard
  | removeUninitialized
  | release
deriving DecidableEq, Repr

def perform (cache : ConnectionCache Key) (index : ℕ) (call : Call) (action : Action) :
    Phase × ConnectionCache Key :=
  match call.phase, action with
  | .looking, .look => (cache.look cacheKey call.address, cache)
  | .missing, .orInsert => cache.orInsert cacheKey call.address
  | .holding cell, .acquire => cache.acquire cell
  | .holding cell, .cancel => (.dropping cell, cache)
  | .dialing cell, .dialed => cache.dialed call.address cell
  | .dialing cell, .dialFailed | .dialing cell, .cancel => cache.abandon cell
  | .dropping cell, .dropGuard =>
      (if (cache.value cell).isNone then .removing cell else .releasing cell none, cache)
  | .removing cell, .removeUninitialized => cache.removeUninitialized cacheKey index call cell
  | .releasing _ result, .release => (.ended result, cache)
  | phase, _ => (phase, cache)

inductive Event
  | get (address : String)
  | evict (address : String)
  | perform (index : ℕ) (action : Action)
deriving DecidableEq, Repr

def step (cache : ConnectionCache Key) : Event → ConnectionCache Key
  | .get address => { cache with calls := cache.calls ++ [{ address := address }] }
  | .evict address => (cache.evict cacheKey address).2
  | .perform index action =>
      match cache.calls[index]? with
      | none => cache
      | some call =>
          let (phase, next) := cache.perform cacheKey index call action
          { next with calls := next.calls.set index { call with phase := phase } }

def run (cache : ConnectionCache Key) (events : List Event) : ConnectionCache Key :=
  events.foldl (step cacheKey) cache

end ConnectionCache

end GoogleCloudRust
