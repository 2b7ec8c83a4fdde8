import Mathlib.Algebra.Order.Group.Multiset
import Mathlib.Algebra.BigOperators.Group.List.Basic
import Mathlib.Logic.Relation

/-! # Workers with barriers

A worker takes the commands of its inbox in order. It holds the items that it has taken
until they are consumed, and acknowledges a barrier when it holds nothing. Items and
barriers carry stamps in the order in which they were issued. -/

namespace GoogleCloudRust.Barrier

inductive Command (α : Type*)
  | item (a : α)
  | barrier (id : ℕ)
  | other

/-- `current` is the barrier that has been taken and not acknowledged. -/
@[ext]
structure Worker (α : Type*) where
  inbox : List (Command α)
  held : Multiset α
  consumed : Multiset α
  current : Option ℕ
  acknowledged : List ℕ

variable {α : Type*} {w w' : Worker α} {stamp : α → ℕ} {later : List ℕ}

namespace Command

def item? : Command α → Option α
  | item a => some a
  | barrier _ | other => none

def stamp? (stamp : α → ℕ) : Command α → Option ℕ
  | item a => some (stamp a)
  | barrier id => some id
  | other => none

end Command

namespace Worker

/-- The items of the inbox. -/
def queued (w : Worker α) : Multiset α := ↑(w.inbox.filterMap Command.item?)

/-- The items that have not been consumed. -/
def waiting (w : Worker α) : Multiset α := w.queued + w.held

def items (w : Worker α) : Multiset α := w.waiting + w.consumed

def put (w : Worker α) (command : Command α) : Worker α :=
  { w with inbox := w.inbox ++ [command] }

end Worker

/-- One step of a worker; the inbox and the barriers that a constructor does not mention stay as
they are. -/
inductive Step (w w' : Worker α) : Prop
  | take (a : α) (hinbox : w.inbox = .item a :: w'.inbox) (hheld : w'.held = w.held + {a})
      (hconsumed : w'.consumed = w.consumed) (hcurrent : w'.current = w.current)
      (hacknowledged : w'.acknowledged = w.acknowledged)
  | skip (hinbox : w.inbox = .other :: w'.inbox) (hheld : w'.held = w.held)
      (hconsumed : w'.consumed = w.consumed) (hcurrent : w'.current = w.current)
      (hacknowledged : w'.acknowledged = w.acknowledged)
  | consume (gone : Multiset α) (hinbox : w'.inbox = w.inbox) (hheld : w.held = w'.held + gone)
      (hconsumed : w'.consumed = w.consumed + gone) (hcurrent : w'.current = w.current)
      (hacknowledged : w'.acknowledged = w.acknowledged)
  | start (id : ℕ) (hinbox : w.inbox = .barrier id :: w'.inbox) (hheld : w'.held = w.held)
      (hconsumed : w'.consumed = w.consumed) (hnone : w.current = none)
      (hcurrent : w'.current = some id) (hacknowledged : w'.acknowledged = w.acknowledged)
  | acknowledge (id : ℕ) (hinbox : w'.inbox = w.inbox) (hheld : w.held = 0) (hempty : w'.held = 0)
      (hconsumed : w'.consumed = w.consumed) (hcurrent : w.current = some id)
      (hnone : w'.current = none) (hacknowledged : w'.acknowledged = w.acknowledged ++ [id])

abbrev Steps : Worker α → Worker α → Prop := Relation.ReflTransGen Step

theorem Steps.of_eq (h : w = w') : Steps w w' := by
  rw [h]

/-! ## Nothing is lost -/

theorem Worker.queued_cons {command : Command α} {inbox : List (Command α)}
    (h : w.inbox = command :: inbox) (hitem : command.item? = none) :
    w.queued = ↑(inbox.filterMap Command.item?) := by
  rw [Worker.queued, h, List.filterMap_cons_none hitem]

theorem Worker.queued_item {a : α} {inbox : List (Command α)} (h : w.inbox = .item a :: inbox) :
    w.queued = {a} + ↑(inbox.filterMap Command.item?) := by
  rw [Worker.queued, h, List.filterMap_cons_some (show Command.item? (.item a) = some a from rfl),
    ← Multiset.cons_coe, Multiset.singleton_add]

/-- What leaves the items that wait is consumed. -/
theorem Step.waiting_eq (h : Step w w') :
    ∃ gone, w.waiting = w'.waiting + gone ∧ w'.consumed = w.consumed + gone := by
  cases h with
  | take a hinbox hheld hconsumed hcurrent hacknowledged =>
      refine ⟨0, ?_, by rw [hconsumed, add_zero]⟩
      rw [Worker.waiting, Worker.waiting, Worker.queued_item hinbox, hheld, Worker.queued,
        add_zero, ← add_assoc]
      exact (add_assoc _ _ _).trans (add_comm _ _)
  | skip hinbox hheld hconsumed hcurrent hacknowledged =>
      refine ⟨0, ?_, by rw [hconsumed, add_zero]⟩
      rw [Worker.waiting, Worker.waiting, Worker.queued_cons hinbox rfl, hheld, Worker.queued,
        add_zero]
  | consume gone hinbox hheld hconsumed hcurrent hacknowledged =>
      refine ⟨gone, ?_, hconsumed⟩
      rw [Worker.waiting, Worker.waiting, hheld, Worker.queued, Worker.queued, hinbox, add_assoc]
  | start id hinbox hheld hconsumed hnone hcurrent hacknowledged =>
      refine ⟨0, ?_, by rw [hconsumed, add_zero]⟩
      rw [Worker.waiting, Worker.waiting, Worker.queued_cons hinbox rfl, hheld, Worker.queued,
        add_zero]
  | acknowledge id hinbox hheld hempty hconsumed hcurrent hnone hacknowledged =>
      refine ⟨0, ?_, by rw [hconsumed, add_zero]⟩
      rw [Worker.waiting, Worker.waiting, hheld, hempty, Worker.queued, Worker.queued, hinbox,
        add_zero, add_zero]

theorem Step.items_eq (h : Step w w') : w'.items = w.items := by
  obtain ⟨gone, hwaiting, hconsumed⟩ := h.waiting_eq
  rw [Worker.items, Worker.items, hwaiting, hconsumed, add_assoc, add_comm gone]

theorem Steps.items_eq (h : Steps w w') : w'.items = w.items := by
  induction h with
  | refl => rfl
  | tail _ hstep ih => rw [hstep.items_eq, ih]

theorem Step.waiting_le (h : Step w w') : w'.waiting ≤ w.waiting := by
  obtain ⟨gone, hwaiting, -⟩ := h.waiting_eq
  rw [hwaiting]
  exact Multiset.le_add_right w'.waiting gone

theorem Steps.waiting_le (h : Steps w w') : w'.waiting ≤ w.waiting := by
  induction h with
  | refl => exact le_rfl
  | tail _ hstep ih => exact hstep.waiting_le.trans ih

/-! ## Barriers -/

/-- What comes later is stamped later: the commands of the inbox, and those in `later`. -/
structure Ordered (stamp : α → ℕ) (later : List ℕ) (w : Worker α) : Prop where
  sorted : (w.current.toList ++ w.inbox.filterMap (Command.stamp? stamp) ++ later).Pairwise (· < ·)
  waiting : ∀ id ∈ w.acknowledged, ∀ a ∈ w.waiting, id < stamp a
  later : ∀ id ∈ w.acknowledged, ∀ n ∈ later, id < n

theorem Ordered.of_sublist {fewer : List ℕ} (h : Ordered stamp later w)
    (hsublist : fewer.Sublist later) : Ordered stamp fewer w where
  sorted := h.sorted.sublist (hsublist.append_left _)
  waiting := h.waiting
  later := fun id hid n hn => h.later id hid n (hsublist.subset hn)

theorem stamp_mem_of_queued {a : α} (h : a ∈ w.queued) :
    stamp a ∈ w.inbox.filterMap (Command.stamp? stamp) := by
  obtain ⟨command, hmem, hitem⟩ := List.mem_filterMap.mp (Multiset.mem_coe.mp h)
  cases command with
  | item b =>
      cases hitem
      exact List.mem_filterMap.mpr ⟨_, hmem, rfl⟩
  | barrier id => cases hitem
  | other => cases hitem

theorem Ordered.step (h : Ordered stamp later w) (hstep : Step w w') : Ordered stamp later w' := by
  have hsorted := h.sorted
  have hwaiting : ∀ id ∈ w.acknowledged, ∀ a ∈ w'.waiting, id < stamp a :=
    fun id hid a ha => h.waiting id hid a (Multiset.mem_of_le hstep.waiting_le ha)
  cases hstep with
  | take a hinbox hheld hconsumed hcurrent hacknowledged =>
      refine ⟨?_, hacknowledged ▸ hwaiting, hacknowledged ▸ h.later⟩
      simp only [hinbox, List.filterMap_cons, Command.stamp?] at hsorted
      rw [hcurrent]
      refine hsorted.sublist (List.Sublist.append_right (List.Sublist.append_left ?_ _) _)
      exact List.sublist_cons_self _ _
  | skip hinbox hheld hconsumed hcurrent hacknowledged =>
      refine ⟨?_, hacknowledged ▸ hwaiting, hacknowledged ▸ h.later⟩
      rw [hcurrent]
      simpa only [hinbox, List.filterMap_cons, Command.stamp?] using hsorted
  | consume gone hinbox hheld hconsumed hcurrent hacknowledged =>
      refine ⟨?_, hacknowledged ▸ hwaiting, hacknowledged ▸ h.later⟩
      rw [hcurrent, hinbox]
      exact hsorted
  | start id hinbox hheld hconsumed hnone hcurrent hacknowledged =>
      refine ⟨?_, hacknowledged ▸ hwaiting, hacknowledged ▸ h.later⟩
      rw [hcurrent]
      simpa only [hinbox, hnone, List.filterMap_cons, Command.stamp?, Option.toList_none,
        Option.toList_some, List.nil_append, List.singleton_append] using hsorted
  | acknowledge id hinbox hheld hempty hconsumed hcurrent hnone hacknowledged =>
      simp only [hcurrent, Option.toList_some, List.cons_append, List.nil_append,
        List.pairwise_cons] at hsorted
      obtain ⟨hfirst, hrest⟩ := hsorted
      rw [← hinbox] at hfirst hrest
      refine ⟨by simpa [hnone] using hrest, ?_, ?_⟩
      · intro other hother a ha
        rw [hacknowledged] at hother
        obtain hold | hnew := List.mem_append.mp hother
        · exact hwaiting other hold a ha
        · obtain rfl := List.mem_singleton.mp hnew
          -- Nothing is held, so the item is still in the inbox, behind the barrier.
          rw [Worker.waiting, hempty, add_zero] at ha
          exact hfirst _ (List.mem_append_left _ (stamp_mem_of_queued ha))
      · intro other hother n hn
        rw [hacknowledged] at hother
        obtain hold | hnew := List.mem_append.mp hother
        · exact h.later other hold n hn
        · obtain rfl := List.mem_singleton.mp hnew
          exact hfirst n (List.mem_append_right _ hn)

theorem Ordered.steps (h : Ordered stamp later w) (hsteps : Steps w w') :
    Ordered stamp later w' := by
  induction hsteps with
  | refl => exact h
  | tail _ hstep ih => exact ih.step hstep

/-- The next command is put into the inbox. -/
theorem Ordered.put {command : Command α} {n : ℕ} (h : Ordered stamp (n :: later) w)
    (hstamp : command.stamp? stamp = some n) : Ordered stamp later (w.put command) where
  sorted := by
    have hsorted := h.sorted
    simpa [Worker.put, hstamp] using hsorted
  waiting := by
    intro id hid a ha
    simp only [Worker.waiting, Worker.queued, Worker.put, List.filterMap_append,
      Multiset.mem_add, Multiset.mem_coe, List.mem_append] at ha
    obtain (hqueued | hnew) | hheld := ha
    · exact h.waiting id hid a (Multiset.mem_add.mpr (.inl (Multiset.mem_coe.mpr hqueued)))
    · obtain ⟨found, hfound, hitem⟩ := List.mem_filterMap.mp hnew
      obtain rfl := List.mem_singleton.mp hfound
      cases found with
      | item b =>
          cases hitem
          cases hstamp
          exact h.later id hid _ List.mem_cons_self
      | barrier id => cases hitem
      | other => cases hitem
    · exact h.waiting id hid a (Multiset.mem_add.mpr (.inr hheld))
  later := fun id hid m hm => h.later id hid m (List.mem_cons_of_mem _ hm)

theorem Ordered.put_other (h : Ordered stamp later w) : Ordered stamp later (w.put .other) where
  sorted := by simpa [Worker.put, Command.stamp?, List.filterMap_cons] using h.sorted
  waiting := by simpa [Worker.waiting, Worker.queued, Worker.put, Command.item?] using h.waiting
  later := h.later

theorem pairwise_issue {ids : List ℕ} {n : ℕ} (h : (ids ++ [n]).Pairwise (· < ·)) :
    (ids ++ [n] ++ [n + 1]).Pairwise (· < ·) := by
  refine List.pairwise_append.mpr ⟨h, List.pairwise_singleton _ _, ?_⟩
  intro m hm next hnext
  obtain rfl := List.mem_singleton.mp hnext
  obtain hbefore | hlast := List.mem_append.mp hm
  · have hlt := (List.pairwise_append.mp h).2.2 m hbefore n (List.mem_singleton_self n)
    exact Nat.lt_succ_of_lt hlt
  · obtain rfl := List.mem_singleton.mp hlast
    exact Nat.lt_succ_self m

theorem lt_issue {ids : List ℕ} {id n : ℕ} (h : ∀ m ∈ ids ++ [n], id < m) :
    ∀ m ∈ ids ++ [n] ++ [n + 1], id < m := by
  intro m hm
  obtain hbefore | hlast := List.mem_append.mp hm
  · exact h m hbefore
  · obtain rfl := List.mem_singleton.mp hlast
    have hlt := h n (List.mem_append_right _ (List.mem_singleton_self n))
    exact Nat.lt_succ_of_lt hlt

/-- One more stamp is issued. -/
theorem Ordered.issue {ids : List ℕ} {n : ℕ} (h : Ordered stamp (ids ++ [n]) w) :
    Ordered stamp (ids ++ [n] ++ [n + 1]) w where
  sorted := by
    have hsorted := h.sorted
    rw [← List.append_assoc] at hsorted
    have hissued := pairwise_issue hsorted
    rwa [List.append_assoc, List.append_assoc, ← List.append_assoc ids] at hissued
  waiting := h.waiting
  later := fun id hid => lt_issue (h.later id hid)

end GoogleCloudRust.Barrier
