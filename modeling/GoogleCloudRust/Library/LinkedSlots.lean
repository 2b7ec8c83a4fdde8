import Mathlib.Data.List.Basic
import Mathlib.Data.List.Induction
import Mathlib.Data.List.Nodup
import Mathlib.Tactic.Common

/-! # Slots that hold a list

In a doubly linked list every linked slot names the slot before it and the slot after it. The lists
are described by the order in which they visit their slots. Other slots are filled from the front:
the first ones hold the elements of a list and the rest are empty. -/

namespace GoogleCloudRust

namespace LinkedSlots

variable {ι : Type*}

/-- The links of a slot: its predecessor and its successor. -/
abbrev Links (ι : Type*) := Option ι × Option ι

/-- The links of the slots are those of the given order. -/
def Chained (links : ι → Option (Links ι)) (order : List ι) : Prop :=
  ∀ before index after, order = before ++ index :: after →
    links index = some (before.getLast?, after.head?)

/-- The slots that are met along a link, up to a number of steps. -/
def follow (next : ι → Option ι) : ℕ → Option ι → List ι
  | 0, _ => []
  | _ + 1, none => []
  | steps + 1, some index => index :: follow next steps (next index)

def nextOf (links : ι → Option (Links ι)) (index : ι) : Option ι := (links index).bind Prod.snd
def prevOf (links : ι → Option (Links ι)) (index : ι) : Option ι := (links index).bind Prod.fst

variable {links links' : ι → Option (Links ι)} {order before after : List ι} {index : ι}

theorem chained_nil (links : ι → Option (Links ι)) : Chained links [] := by
  intro before index after h
  simp at h

/-! ## Walks -/

theorem follow_nil (next : ι → Option ι) (steps : ℕ) : follow next steps none = [] := by
  cases steps <;> rfl

theorem Chained.follow_suffix (h : Chained links order) (horder : order = before ++ after)
    {steps : ℕ} (hsteps : after.length ≤ steps) :
    follow (nextOf links) steps after.head? = after := by
  induction after generalizing before steps with
  | nil => exact follow_nil _ _
  | cons index after ih =>
      cases steps with
      | zero => simp at hsteps
      | succ steps =>
          have hnext : nextOf links index = after.head? := by
            rw [nextOf, h before index after horder]
            rfl
          have hrest : order = (before ++ [index]) ++ after := by simpa using horder
          rw [List.head?_cons, follow, hnext, ih hrest (by simpa using hsteps)]

/-- The next links lead from the first slot through the whole order and stop there. -/
theorem Chained.follow_next (h : Chained links order) {steps : ℕ} (hsteps : order.length ≤ steps) :
    follow (nextOf links) steps order.head? = order :=
  h.follow_suffix (List.nil_append order).symm hsteps

theorem Chained.follow_initial (h : Chained links order) (horder : order = before ++ after)
    {steps : ℕ} (hsteps : before.length ≤ steps) :
    follow (prevOf links) steps before.getLast? = before.reverse := by
  induction before using List.reverseRecOn generalizing after steps with
  | nil => exact follow_nil _ _
  | append_singleton before index ih =>
      cases steps with
      | zero => simp at hsteps
      | succ steps =>
          have hrest : order = before ++ index :: after := by simpa using horder
          have hprev : prevOf links index = before.getLast? := by
            rw [prevOf, h before index after hrest]
            rfl
          rw [List.getLast?_concat, follow, hprev, ih hrest (by simpa using hsteps),
            List.reverse_concat]

/-- The previous links lead from the last slot back through the whole order. -/
theorem Chained.follow_prev (h : Chained links order) {steps : ℕ} (hsteps : order.length ≤ steps) :
    follow (prevOf links) steps order.getLast? = order.reverse :=
  h.follow_initial (List.append_nil order).symm hsteps

/-! ## Updates -/

variable [DecidableEq ι]

omit [DecidableEq ι] in
/-- Slots in two positions of one list are different. -/
theorem notMem_of_split (hnodup : order.Nodup) (horder : order = before ++ index :: after) :
    index ∉ before ∧ index ∉ after := by
  rw [horder, List.nodup_middle, List.nodup_cons, List.mem_append, not_or] at hnodup
  exact hnodup.1

omit [DecidableEq ι] in
/-- A position in a concatenation lies in one of its parts. -/
theorem split_cases {front back : List ι} (h : before ++ after = front ++ index :: back) :
    (∃ rest, before = front ++ index :: rest ∧ back = rest ++ after) ∨
      ∃ rest, front = before ++ rest ∧ after = rest ++ index :: back := by
  rcases List.append_eq_append_iff.mp h with ⟨rest, hfront, hafter⟩ | ⟨rest, hbefore, hback⟩
  · exact .inr ⟨rest, hfront, hafter⟩
  · cases rest with
    | nil => exact .inr ⟨[], by simpa using hbefore.symm, by simpa using hback.symm⟩
    | cons first rest =>
        obtain ⟨rfl, rfl⟩ := List.cons.inj hback
        exact .inl ⟨rest, hbefore, rfl⟩

/-- A slot is linked behind the last one. -/
theorem Chained.concat (h : Chained links order) (hnodup : order.Nodup)
    (hnew : links' index = some (order.getLast?, none))
    (hold : ∀ other ∈ order, links' other = (links other).map fun l =>
      (l.1, if order.getLast? = some other then some index else l.2)) :
    Chained links' (order ++ [index]) := by
  intro before other after horder
  cases after using List.reverseRecOn with
  | nil =>
      obtain ⟨rfl, rfl⟩ : order = before ∧ index = other := by simpa using horder
      exact hnew
  | append_singleton after last =>
      rw [← List.cons_append, ← List.append_assoc] at horder
      obtain ⟨rfl, hlast⟩ := List.append_inj' horder rfl
      obtain rfl : index = last := by simpa using hlast
      rw [hold other (by simp), h before other after rfl]
      -- The next link is a new one only at the end.
      cases after with
      | nil => simp
      | cons next after =>
          have hother := (notMem_of_split hnodup rfl).2
          have hne : (before ++ other :: next :: after).getLast? ≠ some other := by
            intro hlast
            rw [List.getLast?_append_cons, List.getLast?_cons_cons] at hlast
            exact hother (List.mem_of_getLast? hlast)
          rw [Option.map_some, if_neg hne]
          rfl

/-- A slot is taken out and its neighbours are linked to each other. -/
theorem Chained.erase (h : Chained links (before ++ index :: after))
    (hnodup : (before ++ index :: after).Nodup)
    (hold : ∀ other ∈ before ++ after, links' other = (links other).map fun l =>
      (if after.head? = some other then before.getLast? else l.1,
        if before.getLast? = some other then after.head? else l.2)) :
    Chained links' (before ++ after) := by
  have hdisjoint : ∀ other ∈ before, other ∉ after := fun other hbefore hafter =>
    (List.nodup_append'.mp hnodup).2.2 hbefore (List.mem_cons_of_mem index hafter)
  intro front other back horder
  rcases split_cases horder with ⟨rest, rfl, rfl⟩ | ⟨rest, rfl, rfl⟩
  · -- The other slot stands before the gap, and its next link is new if it is the last one there.
    have hhead : after.head? ≠ some other := fun hhead =>
      hdisjoint other (by simp) (List.mem_of_head? hhead)
    rw [hold other (by simp), h front other (rest ++ index :: after) (by simp), Option.map_some,
      if_neg hhead]
    cases rest with
    | nil => simp
    | cons first rest =>
        have hne : (front ++ other :: first :: rest).getLast? ≠ some other := by
          intro hlast
          rw [List.getLast?_append_cons, List.getLast?_cons_cons] at hlast
          have hrest := (notMem_of_split hnodup.of_append_left rfl).2
          exact hrest (List.mem_of_getLast? hlast)
        rw [if_neg hne]
        rfl
  · -- The other slot stands behind the gap, and its previous link is new if it is the first.
    have hlast : before.getLast? ≠ some other := fun hlast =>
      hdisjoint other (List.mem_of_getLast? hlast) (by simp)
    rw [hold other (by simp), h (before ++ index :: rest) other back (by simp), Option.map_some,
      if_neg hlast]
    cases rest with
    | nil => simp
    | cons first rest =>
        have hne : (first :: rest ++ other :: back).head? ≠ some other := by
          intro hhead
          have hafter := hnodup.of_append_right.of_cons
          obtain rfl : first = other := by simpa using hhead
          exact (notMem_of_split hafter rfl).1 List.mem_cons_self
        rw [if_neg hne]
        simp

end LinkedSlots

/-! ## Slots filled from the front -/

variable {α : Type*} {capacity : ℕ} {l : List α}

def filled (capacity : ℕ) (l : List α) : List (Option α) :=
  l.map some ++ List.replicate (capacity - l.length) none

theorem length_filled (h : l.length ≤ capacity) : (filled capacity l).length = capacity := by
  rw [filled, List.length_append, List.length_map, List.length_replicate]
  omega

theorem take_filled (capacity : ℕ) (l : List α) : (filled capacity l).take l.length = l.map some :=
  List.take_left' (List.length_map some)

theorem drop_filled (capacity : ℕ) (l : List α) :
    (filled capacity l).drop l.length = List.replicate (capacity - l.length) none :=
  List.drop_left' (List.length_map some)

/-- The next slot takes one more element. -/
theorem set_filled (h : l.length < capacity) (a : α) :
    (filled capacity l).set l.length (some a) = filled capacity (l ++ [a]) := by
  obtain ⟨others, hothers⟩ := Nat.exists_eq_add_of_lt h
  have hnext : capacity - l.length = others + 1 := by omega
  have hrest : capacity - (l ++ [a]).length = others := by
    rw [List.length_append, List.length_singleton]
    omega
  rw [filled, filled, hnext, hrest, List.replicate_succ, List.map_append,
    List.set_append_right _ _ (by simp)]
  simp

/-- A slot in use holds the element at its place. -/
theorem getElem?_filled {index : ℕ} (h : index < l.length) :
    (filled capacity l)[index]?.join = l[index]? := by
  rw [filled, List.getElem?_append_left (by simpa using h), List.getElem?_map]
  cases l[index]? <;> rfl

/-- Beyond the capacity an element is not taken. -/
theorem take_concat (capacity : ℕ) (l : List α) (a : α) :
    (l ++ [a]).take capacity =
      if l.length < capacity then l ++ [a] else l.take capacity := by
  split_ifs with h
  · exact List.take_of_length_le (by rwa [List.length_append])
  · exact List.take_append_of_le_length (Nat.not_lt.mp h)

end GoogleCloudRust
