import Mathlib.Data.List.Pairwise
import Mathlib.Order.Lattice
import Mathlib.Tactic.Tauto

/-! # Ordered maps

Finite maps kept as a strictly increasing list of entries, with the range queries of
a search tree. -/

namespace GoogleCloudRust

/-- One end of a range of keys. -/
inductive Bound (κ : Type*)
  | unbounded
  | included (key : κ)
  | excluded (key : κ)

namespace Bound

variable {κ : Type*} [LinearOrder κ]

/-- The key is on the inner side of a lower bound. -/
def isBelow : Bound κ → κ → Bool
  | unbounded, _ => true
  | included lo, key => lo ≤ key
  | excluded lo, key => lo < key

/-- The key is on the inner side of an upper bound. -/
def isAbove : Bound κ → κ → Bool
  | unbounded, _ => true
  | included hi, key => key ≤ hi
  | excluded hi, key => key < hi

end Bound

structure OrdMap (κ ν : Type*) [LinearOrder κ] where
  entries : List (κ × ν)
  sorted : entries.Pairwise fun a b => a.1 < b.1

namespace OrdMap

variable {κ ν : Type*} [LinearOrder κ]

def empty : OrdMap κ ν := ⟨[], List.Pairwise.nil⟩

instance : Membership (κ × ν) (OrdMap κ ν) := ⟨fun m e => e ∈ m.entries⟩

theorem mem_def {m : OrdMap κ ν} {e : κ × ν} : e ∈ m ↔ e ∈ m.entries := Iff.rfl

def insert (m : OrdMap κ ν) (key : κ) (value : ν) : OrdMap κ ν where
  entries := m.entries.filter (fun e => e.1 < key) ++
    (key, value) :: m.entries.filter (fun e => key < e.1)
  sorted := by
    rw [List.pairwise_append]
    refine ⟨m.sorted.filter _, List.pairwise_cons.mpr ⟨?_, m.sorted.filter _⟩, ?_⟩
    · intro e he
      simpa using (List.mem_filter.mp he).2
    · intro a ha b hb
      have hak : a.1 < key := by simpa using (List.mem_filter.mp ha).2
      rcases List.mem_cons.mp hb with rfl | hb
      · exact hak
      · exact lt_trans hak (by simpa using (List.mem_filter.mp hb).2)

def erase (m : OrdMap κ ν) (key : κ) : OrdMap κ ν where
  entries := m.entries.filter fun e => e.1 ≠ key
  sorted := m.sorted.filter _

/-- The entries between two bounds, in increasing order. -/
def range (m : OrdMap κ ν) (lo hi : Bound κ) : List (κ × ν) :=
  m.entries.filter fun e => lo.isBelow e.1 && hi.isAbove e.1

/-- The last entry whose key is at most `key`. -/
def lastLE (m : OrdMap κ ν) (key : κ) : Option (κ × ν) :=
  (m.range .unbounded (.included key)).getLast?

/-! ## Membership -/

variable {m : OrdMap κ ν} {key : κ} {value : ν} {e e' : κ × ν}

@[simp] theorem not_mem_empty : e ∉ (empty : OrdMap κ ν) := List.not_mem_nil

@[simp] theorem mem_insert : e ∈ m.insert key value ↔ e = (key, value) ∨ e ∈ m ∧ e.1 ≠ key := by
  simp only [mem_def, insert, List.mem_append, List.mem_cons, List.mem_filter, decide_eq_true_eq,
    ne_iff_lt_or_gt]
  tauto

@[simp] theorem mem_erase : e ∈ m.erase key ↔ e ∈ m ∧ e.1 ≠ key := by
  simp [mem_def, erase]

/-- A key has at most one entry. -/
theorem eq_of_key_eq (h : e ∈ m) (h' : e' ∈ m) (hkey : e.1 = e'.1) : e = e' := by
  by_contra hne
  have hsorted := List.pairwise_iff_getElem.mp m.sorted
  obtain ⟨i, hi, rfl⟩ := List.mem_iff_getElem.mp h
  obtain ⟨j, hj, rfl⟩ := List.mem_iff_getElem.mp h'
  rcases Nat.lt_trichotomy i j with hij | rfl | hij
  · exact ne_of_lt (hsorted i j hi hj hij) hkey
  · exact hne rfl
  · exact ne_of_gt (hsorted j i hj hi hij) hkey

theorem mem_range {lo hi : Bound κ} :
    e ∈ m.range lo hi ↔ e ∈ m ∧ lo.isBelow e.1 = true ∧ hi.isAbove e.1 = true := by
  simp [range, mem_def]

/-! ## First and last entries -/

/-- In an increasing list of entries nothing precedes the head. -/
theorem head_le {l : List (κ × ν)} (hsorted : l.Pairwise fun a b => a.1 < b.1)
    (hhead : l.head? = some e) (h : e' ∈ l) : e.1 ≤ e'.1 := by
  cases l with
  | nil => cases hhead
  | cons a l =>
      obtain rfl : a = e := Option.some.inj hhead
      rcases List.mem_cons.mp h with rfl | h
      · exact le_rfl
      · exact le_of_lt ((List.pairwise_cons.mp hsorted).1 e' h)

/-- In an increasing list of entries nothing follows the last. -/
theorem le_getLast {l : List (κ × ν)} (hsorted : l.Pairwise fun a b => a.1 < b.1)
    (hlast : l.getLast? = some e) (h : e' ∈ l) : e'.1 ≤ e.1 := by
  obtain ⟨init, rfl⟩ := List.getLast?_eq_some_iff.mp hlast
  rcases List.mem_append.mp h with h | h
  · exact le_of_lt ((List.pairwise_append.mp hsorted).2.2 e' h e (by simp))
  · rw [List.mem_singleton.mp h]

theorem lastLE_eq_some_iff :
    m.lastLE key = some e ↔ e ∈ m ∧ e.1 ≤ key ∧ ∀ e' ∈ m, e'.1 ≤ key → e'.1 ≤ e.1 := by
  have hmem : ∀ e', e' ∈ m.range .unbounded (.included key) ↔ e' ∈ m ∧ e'.1 ≤ key := by
    intro e'
    simp [mem_range, Bound.isBelow, Bound.isAbove]
  have hsorted : (m.range .unbounded (.included key)).Pairwise fun a b => a.1 < b.1 :=
    m.sorted.filter _
  constructor
  · intro h
    obtain ⟨hm, hle⟩ := (hmem e).mp (List.mem_of_getLast? h)
    exact ⟨hm, hle, fun e' he' hle' => le_getLast hsorted h ((hmem e').mpr ⟨he', hle'⟩)⟩
  · rintro ⟨hm, hle, hmax⟩
    cases hlast : m.lastLE key with
    | none =>
        have hnil := List.getLast?_eq_none_iff.mp hlast
        exact absurd ((hmem e).mpr ⟨hm, hle⟩) (by simp [hnil])
    | some last =>
        obtain ⟨hm', hle'⟩ := (hmem last).mp (List.mem_of_getLast? hlast)
        have hkey := le_antisymm (hmax last hm' hle')
          (le_getLast hsorted hlast ((hmem e).mpr ⟨hm, hle⟩))
        rw [eq_of_key_eq hm' hm hkey]

/-! ## Removing several keys -/

def eraseAll (m : OrdMap κ ν) (keys : List κ) : OrdMap κ ν := keys.foldl erase m

@[simp] theorem mem_eraseAll {keys : List κ} : e ∈ m.eraseAll keys ↔ e ∈ m ∧ e.1 ∉ keys := by
  unfold eraseAll
  induction keys generalizing m with
  | nil => simp
  | cons k keys ih =>
      rw [List.foldl_cons, ih, mem_erase, List.mem_cons, not_or, and_assoc]

/-! ## Counting values -/

/-- The number of entries whose value satisfies `p`. -/
def count (m : OrdMap κ ν) (p : ν → Bool) : ℕ := m.entries.countP fun e => p e.2

variable {p : ν → Bool}

theorem count_pos_iff : 0 < m.count p ↔ ∃ e ∈ m, p e.2 = true := by
  rw [count, List.countP_pos_iff]
  rfl

/-- Inserting under a fresh key adds one entry. -/
theorem count_insert (hfresh : ∀ e ∈ m, e.1 ≠ key) :
    (m.insert key value).count p = m.count p + if p value then 1 else 0 := by
  have hsplit : m.entries.filter (fun e => ¬ e.1 < key) = m.entries.filter (fun e => key < e.1) := by
    refine List.filter_congr fun e he => ?_
    simpa using (hfresh e he).symm.le_iff_lt
  have hcount := m.entries.countP_eq_countP_filter_add (fun e => p e.2) (fun e => e.1 < key)
  simp only [decide_not] at hsplit hcount
  rw [count, count, insert, List.countP_append, List.countP_cons, ← hsplit, hcount]
  exact (Nat.add_assoc _ _ _).symm

/-- Only the entry of the key itself is replaced by an insertion. -/
theorem insert_erase : (m.erase key).insert key value = m.insert key value := by
  have hlt : ∀ e : κ × ν, (decide (e.1 < key) && decide (e.1 ≠ key)) = decide (e.1 < key) := by
    intro e
    simpa using ne_of_lt
  have hgt : ∀ e : κ × ν, (decide (key < e.1) && decide (e.1 ≠ key)) = decide (key < e.1) := by
    intro e
    simpa using ne_of_gt
  simp only [insert, erase, List.filter_filter, hlt, hgt]

theorem filter_key_eq (h : (key, value) ∈ m) :
    m.entries.filter (fun e => e.1 = key) = [(key, value)] := by
  have hmem : ∀ e ∈ m.entries.filter (fun e => e.1 = key), e = (key, value) := by
    intro e he
    obtain ⟨he, hkey⟩ := List.mem_filter.mp he
    exact eq_of_key_eq he h (by simpa using hkey)
  have hsorted := m.sorted.filter fun e => decide (e.1 = key)
  have hself : (key, value) ∈ m.entries.filter (fun e => e.1 = key) :=
    List.mem_filter.mpr ⟨h, by simp⟩
  rcases hl : m.entries.filter (fun e => e.1 = key) with _ | ⟨a, _ | ⟨b, l⟩⟩
  · simp [hl] at hself
  · rw [hl, hmem a (by simp [hl])]
  · rw [hl, List.pairwise_cons] at hsorted
    have hlt := hsorted.1 b (by simp)
    rw [hmem a (by simp [hl]), hmem b (by simp [hl])] at hlt
    exact absurd hlt (lt_irrefl _)

/-- Erasing a key removes its entry and no other. -/
theorem count_erase (h : (key, value) ∈ m) :
    (m.erase key).count p + (if p value then 1 else 0) = m.count p := by
  have hcount := m.entries.countP_eq_countP_filter_add (fun e => p e.2) (fun e => e.1 = key)
  rw [filter_key_eq h] at hcount
  simp only [List.countP_singleton] at hcount
  rw [count, count, hcount, Nat.add_comm, erase]
  simp only [ne_eq, decide_not]

/-- Replacing a value by one that is counted alike. -/
theorem count_insert_of_mem {value' : ν} (h : (key, value) ∈ m) (hp : p value' = p value) :
    (m.insert key value').count p = m.count p := by
  rw [← insert_erase, count_insert (fun e he => (mem_erase.mp he).2), hp, count_erase h]

theorem count_eraseAll {l : List (κ × ν)} (hmem : ∀ e ∈ l, e ∈ m)
    (hsorted : l.Pairwise fun a b => a.1 < b.1) :
    (m.eraseAll (l.map Prod.fst)).count p + l.countP (fun e => p e.2) = m.count p := by
  unfold eraseAll
  induction l generalizing m with
  | nil => rfl
  | cons e l ih =>
      obtain ⟨hfirst, htail⟩ := List.pairwise_cons.mp hsorted
      have hrest : ∀ e' ∈ l, e' ∈ m.erase e.1 := fun e' he' =>
        mem_erase.mpr ⟨hmem e' (List.mem_cons_of_mem _ he'), ne_of_gt (hfirst e' he')⟩
      rw [List.map_cons, List.foldl_cons, List.countP_cons, ← Nat.add_assoc, ih hrest htail]
      exact count_erase (hmem e List.mem_cons_self)

end OrdMap

end GoogleCloudRust
