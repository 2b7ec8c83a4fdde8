import GoogleCloudRust.Library.HashMap

/-! # CLOCK cache

Model of `routing/clock_cache.rs`. The reference bits are atomics that readers set
under a shared lock; here a read returns the store with its bit set. -/

namespace GoogleCloudRust

structure ClockEntry (V : Type) where
  value : V
  referenced : Bool

structure ClockStore (K V : Type) where
  entries : HashMap K (ClockEntry V)
  order : List K
  capacity : ℕ

namespace ClockStore

variable {K V : Type}

/-- `with_capacity` and `with_initial_capacity`; the preallocated size is not modelled. -/
def withCapacity (capacity : ℕ) : ClockStore K V := ⟨∅, [], capacity⟩

/-- `clear`, which keeps the capacity. -/
def clear (store : ClockStore K V) : ClockStore K V := { store with entries := ∅, order := [] }

def takeAll (store : ClockStore K V) : HashMap K (ClockEntry V) × ClockStore K V :=
  (store.entries, { store with entries := ∅, order := [] })

variable [DecidableEq K]

def len (store : ClockStore K V) : ℕ := HashMap.size store.entries

/-- `get` and `get_ref`, which differ in whether they clone the value. -/
def get (store : ClockStore K V) (key : K) : Option V × ClockStore K V :=
  match store.entries.lookup key with
  | none => (none, store)
  | some entry =>
      (some entry.value,
        if entry.referenced then store
        else { store with entries := store.entries.insert key { entry with referenced := true } })

/-- One round of the eviction loop, and whether the loop goes on. -/
def evictStep (store : ClockStore K V) : Bool × ClockStore K V :=
  if store.len < store.capacity then (false, store)
  else
    match store.order with
    | [] => (false, store)
    | candidateKey :: order =>
        match store.entries.lookup candidateKey with
        | none => (true, { store with order := order })
        | some entry =>
            if entry.referenced then
              (true, { store with
                entries := store.entries.insert candidateKey { entry with referenced := false }
                order := order ++ [candidateKey] })
            else
              (false, { store with entries := store.entries.erase candidateKey, order := order })

def evictLoop : ℕ → ClockStore K V → ClockStore K V
  | 0, store => store
  | fuel + 1, store =>
      match evictStep store with
      | (true, store) => evictLoop fuel store
      | (false, store) => store

/-- A round that goes on shortens the queue or clears a reference bit, so that the
loop ends within this many rounds. -/
def evictForInsert (store : ClockStore K V) : ClockStore K V :=
  if store.capacity = 0 then store else evictLoop (store.order.length + store.len + 1) store

def insert (store : ClockStore K V) (key : K) (value : V) : Option V × ClockStore K V :=
  if store.capacity = 0 then (none, store)
  else
    match store.entries.lookup key with
    | some entry =>
        (some entry.value,
          { store with entries := store.entries.insert key { value := value, referenced := true } })
    | none =>
        let store := evictForInsert store
        (none, { store with
          entries := store.entries.insert key { value := value, referenced := false }
          order := store.order ++ [key] })

end ClockStore

end GoogleCloudRust
