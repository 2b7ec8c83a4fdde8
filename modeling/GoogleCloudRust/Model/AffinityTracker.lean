import GoogleCloudRust.Library.HashMap
import GoogleCloudRust.Library.LinkedSlots
import GoogleCloudRust.Model.Proto

/-! # Transaction affinity

Model of `AffinityTracker` in `routing/location_router.rs`. The entries are linked through
the slots of a vector, in the order of their insertion. -/

namespace GoogleCloudRust

open LinkedSlots (Links)

structure AffinityEntry where
  transactionId : Bytes
  address : String
  prev : Option ℕ
  next : Option ℕ
deriving DecidableEq, Repr

structure AffinityTracker where
  entries : HashMap Bytes ℕ
  slots : List (Option AffinityEntry)
  freeSlots : List ℕ
  head : Option ℕ
  tail : Option ℕ
  maxCapacity : ℕ

namespace AffinityTracker

/-- The initial capacities of the collections are not observable. -/
def withMaxCapacity (maxCapacity : ℕ) : AffinityTracker := ⟨∅, [], [], none, none, maxCapacity⟩

/-- The entry of an occupied slot. -/
def entryAt (tracker : AffinityTracker) (index : ℕ) : Option AffinityEntry :=
  tracker.slots[index]?.join

/-- `if let Some(Some(entry)) = self.slots.get_mut(index)`. -/
def modifyEntry (tracker : AffinityTracker) (index : ℕ) (update : AffinityEntry → AffinityEntry) :
    AffinityTracker :=
  { tracker with slots := tracker.slots.modify index (Option.map update) }

def get (tracker : AffinityTracker) (transactionId : Bytes) : Option String :=
  if transactionId = [] then none
  else do
    let slotIndex ← tracker.entries.lookup transactionId
    let entry ← tracker.entryAt slotIndex
    return entry.address

/-! ## Removal -/

/-- Unlinks an entry from the previous one, or updates the head. -/
def unlinkPrev (tracker : AffinityTracker) (entry : AffinityEntry) : AffinityTracker :=
  match entry.prev with
  | some prevIndex => tracker.modifyEntry prevIndex fun prev => { prev with next := entry.next }
  | none => { tracker with head := entry.next }

/-- Unlinks an entry from the next one, or updates the tail. -/
def unlinkNext (tracker : AffinityTracker) (entry : AffinityEntry) : AffinityTracker :=
  match entry.next with
  | some nextIndex => tracker.modifyEntry nextIndex fun next => { next with prev := entry.prev }
  | none => { tracker with tail := entry.prev }

def remove (tracker : AffinityTracker) (transactionId : Bytes) : Option String × AffinityTracker :=
  if transactionId = [] then (none, tracker)
  else
    match tracker.entries.lookup transactionId with
    | none => (none, tracker)
    | some slotIndex =>
        let tracker := { tracker with entries := tracker.entries.erase transactionId }
        match tracker.entryAt slotIndex with
        | none => (none, tracker)
        | some entry =>
            let tracker := { tracker with slots := tracker.slots.set slotIndex none }
            let tracker := (tracker.unlinkPrev entry).unlinkNext entry
            (some entry.address, { tracker with freeSlots := tracker.freeSlots ++ [slotIndex] })

/-! ## Insertion -/

/-- Evicts the oldest entry if the tracker has reached its maximum capacity. -/
def evictOldest (tracker : AffinityTracker) : AffinityTracker :=
  if tracker.maxCapacity ≤ tracker.entries.size then
    match tracker.head.bind tracker.entryAt with
    | some oldestEntry => (tracker.remove oldestEntry.transactionId).2
    | none => tracker
  else tracker

/-- Allocates a slot index, recycling from free slots if available. -/
def allocate (tracker : AffinityTracker) : ℕ × AffinityTracker :=
  match tracker.freeSlots.getLast? with
  | some freeIndex => (freeIndex, { tracker with freeSlots := tracker.freeSlots.dropLast })
  | none => (tracker.slots.length, { tracker with slots := tracker.slots ++ [none] })

/-- Links the slot at the tail. -/
def linkTail (tracker : AffinityTracker) (slotIndex : ℕ) : AffinityTracker :=
  let tracker := match tracker.tail with
    | some tailIndex => tracker.modifyEntry tailIndex fun tail => { tail with next := some slotIndex }
    | none => { tracker with head := some slotIndex }
  { tracker with tail := some slotIndex }

/-- Stores an entry in an allocated slot behind all others. The result is `none` if the index
into the slots panics. -/
def insertNew (tracker : AffinityTracker) (transactionId : Bytes) (address : String) :
    Option AffinityTracker :=
  let (slotIndex, tracker) := tracker.allocate
  let previousTail := tracker.tail
  let tracker := tracker.linkTail slotIndex
  if slotIndex < tracker.slots.length then
    some { tracker with
      slots := tracker.slots.set slotIndex (some ⟨transactionId, address, previousTail, none⟩)
      entries := tracker.entries.insert transactionId slotIndex }
  else none

def insert (tracker : AffinityTracker) (transactionId : Bytes) (address : String) :
    Option AffinityTracker :=
  if transactionId = [] ∨ tracker.maxCapacity = 0 then some tracker
  else
    match tracker.entries.lookup transactionId with
    | some slotIndex =>
        some (tracker.modifyEntry slotIndex fun entry =>
          if entry.address ≠ address then { entry with address := address } else entry)
    | none => tracker.evictOldest.insertNew transactionId address

/-! ## Runs -/

inductive Call
  | insert (transactionId : Bytes) (address : String)
  | get (transactionId : Bytes)
  | remove (transactionId : Bytes)
deriving DecidableEq, Repr

def step (tracker : AffinityTracker) : Call → Option (Option String × AffinityTracker)
  | .insert transactionId address => (tracker.insert transactionId address).map fun next => (none, next)
  | .get transactionId => some (tracker.get transactionId, tracker)
  | .remove transactionId => some (tracker.remove transactionId)

/-- The results of a sequence of calls. -/
def run (tracker : AffinityTracker) : List Call → Option (List (Option String) × AffinityTracker)
  | [] => some ([], tracker)
  | call :: calls => do
      let (result, tracker) ← tracker.step call
      let (results, tracker) ← tracker.run calls
      return (result :: results, tracker)

/-- The links of a slot. -/
def links (tracker : AffinityTracker) (index : ℕ) : Option (Links ℕ) :=
  (tracker.entryAt index).map fun entry => (entry.prev, entry.next)

end AffinityTracker

end GoogleCloudRust
