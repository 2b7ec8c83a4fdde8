import Mathlib.Order.Lattice

/-! # A register of the highest element

A register takes an element when its key is strictly above the key of the one it holds. After any
sequence of elements it holds the one with the highest key, in whatever order they come and however
often. -/

namespace GoogleCloudRust.Highest

variable {α κ : Type*} [LinearOrder κ] {key : α → κ} {list list' : List α} {held : Option α} {a : α}

/-- The register after it was offered an element. -/
def offer (key : α → κ) (held : Option α) (a : α) : Option α :=
  match held with
  | none => some a
  | some b => if key b < key a then some a else some b

def offers (key : α → κ) (held : Option α) (list : List α) : Option α :=
  list.foldl (offer key) held

/-- The element is one of the list, and none of the list has a higher key. -/
def IsHighest (key : α → κ) (list : List α) : Option α → Prop
  | none => list = []
  | some a => a ∈ list ∧ ∀ b ∈ list, key b ≤ key a

theorem isHighest_offer (h : IsHighest key list held) :
    IsHighest key (list ++ [a]) (offer key held a) := by
  cases held with
  | none =>
      obtain rfl : list = [] := h
      exact ⟨by simp, by simp⟩
  | some b =>
      obtain ⟨hmem, hmax⟩ := h
      by_cases hlt : key b < key a
      · rw [offer, if_pos hlt]
        refine ⟨by simp, ?_⟩
        intro c hc
        rcases List.mem_append.mp hc with hc | hc
        · exact (hmax c hc).trans hlt.le
        · rw [List.mem_singleton.mp hc]
      · rw [offer, if_neg hlt]
        refine ⟨List.mem_append_left [a] hmem, ?_⟩
        intro c hc
        rcases List.mem_append.mp hc with hc | hc
        · exact hmax c hc
        · rw [List.mem_singleton.mp hc]
          exact not_lt.mp hlt

theorem isHighest_offers (h : IsHighest key list held) (more : List α) :
    IsHighest key (list ++ more) (offers key held more) := by
  induction more generalizing list held with
  | nil => simpa [offers] using h
  | cons a more ih =>
      have hrest := ih (isHighest_offer (a := a) h)
      rwa [List.append_assoc, List.singleton_append] at hrest

/-- Two highest elements of the same elements are one, where keys tell elements apart. -/
theorem IsHighest.unique {held held' : Option α} (h : IsHighest key list held)
    (h' : IsHighest key list' held') (hsame : ∀ a, a ∈ list ↔ a ∈ list')
    (hkey : ∀ a ∈ list, ∀ b ∈ list, key a = key b → a = b) : held = held' := by
  cases held with
  | none =>
      obtain rfl : list = [] := h
      cases held' with
      | none => rfl
      | some b => exact absurd ((hsame b).mpr h'.1) List.not_mem_nil
  | some a =>
      cases held' with
      | none =>
          obtain rfl : list' = [] := h'
          exact absurd ((hsame a).mp h.1) List.not_mem_nil
      | some b =>
          have hb := (hsame b).mpr h'.1
          have heq := le_antisymm (h'.2 a ((hsame a).mp h.1)) (h.2 b hb)
          rw [hkey a h.1 b hb heq]

end GoogleCloudRust.Highest
