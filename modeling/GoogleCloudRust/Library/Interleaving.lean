import Mathlib.Data.List.Nodup
import Mathlib.Order.Basic

/-! # Interleaved processes

A system keeps one record for each of its processes in a list. An event lets one
process take its next atomic step or adds a process; a run is a list of events. -/

namespace GoogleCloudRust.Interleaving

variable {σ ε π : Type*} {step : σ → ε → σ}

/-- What every step preserves holds along every run. -/
theorem foldl_invariant {motive : σ → Prop} (hstep : ∀ s event, motive s → motive (step s event))
    {s : σ} (h : motive s) (events : List ε) : motive (events.foldl step s) :=
  List.foldlRecOn events step h fun s hs event _ => hstep s event hs

/-- Every step of a run meets a condition on the state before it and the event. -/
def Along (step : σ → ε → σ) (condition : σ → ε → Prop) : σ → List ε → Prop
  | _, [] => True
  | s, event :: events => condition s event ∧ Along step condition (step s event) events

instance Along.decidable (step : σ → ε → σ) (condition : σ → ε → Prop)
    [∀ s event, Decidable (condition s event)] :
    ∀ s events, Decidable (Along step condition s events)
  | _, [] => isTrue trivial
  | s, event :: events =>
      have := Along.decidable step condition (step s event) events
      inferInstanceAs (Decidable (_ ∧ _))

/-- What every step that meets a condition preserves holds along every run of such steps. -/
theorem along_invariant {motive : σ → Prop} {condition : σ → ε → Prop}
    (hstep : ∀ s event, condition s event → motive s → motive (step s event)) {s : σ}
    (h : motive s) {events : List ε} (halong : Along step condition s events) :
    motive (events.foldl step s) := by
  induction events generalizing s with
  | nil => exact h
  | cons event events ih => exact ih (hstep s event halong.1 h) halong.2

/-- What no step decreases no run decreases, from any state that satisfies an invariant. -/
theorem foldl_monotone {α : Type*} [Preorder α] {motive : σ → Prop} (measure : σ → α)
    (hmotive : ∀ s event, motive s → motive (step s event))
    (hstep : ∀ s event, motive s → measure s ≤ measure (step s event))
    {s : σ} (h : motive s) (events : List ε) : measure s ≤ measure (events.foldl step s) := by
  induction events generalizing s with
  | nil => exact le_rfl
  | cons event events ih => exact (hstep s event h).trans (ih (hmotive s event h))

variable {processes : List π} {process found : π} {index other : ℕ}

/-- After a step of one process the others are where they were. -/
theorem getElem?_set_cases (h : (processes.set index process)[other]? = some found) :
    (other = index ∧ found = process) ∨ (other ≠ index ∧ processes[other]? = some found) := by
  by_cases heq : index = other
  · subst heq
    rw [List.getElem?_set_self'] at h
    obtain ⟨_, -, rfl⟩ := Option.map_eq_some_iff.mp h
    exact .inl ⟨rfl, rfl⟩
  · rw [List.getElem?_set_ne heq] at h
    exact .inr ⟨fun h' => heq h'.symm, h⟩

/-- A step of one process keeps another in a given condition, unless the first was the only
one in it and leaves it. -/
theorem exists_mem_set {condition : π → Prop} (hindex : processes[index]? = some found)
    (h : ∃ process ∈ processes, condition process) (hstep : condition found → condition process) :
    ∃ process' ∈ processes.set index process, condition process' := by
  obtain ⟨other, hmem, hother⟩ := h
  obtain ⟨position, hposition⟩ := List.mem_iff_getElem?.mp hmem
  by_cases heq : index = position
  · subst heq
    obtain rfl := Option.some.inj (hindex.symm.trans hposition)
    exact ⟨process, List.mem_set (List.getElem?_eq_some_iff.mp hindex).1 process, hstep hother⟩
  · refine ⟨other, List.mem_iff_getElem?.mpr ⟨position, ?_⟩, hother⟩
    rw [List.getElem?_set_ne heq, hposition]

/-- A new process comes last. -/
theorem getElem?_concat_cases (h : (processes ++ [process])[other]? = some found) :
    processes[other]? = some found ∨ (other = processes.length ∧ found = process) := by
  rcases Nat.lt_trichotomy other processes.length with hlt | rfl | hgt
  · rw [List.getElem?_append_left hlt] at h
    exact .inl h
  · simp only [List.getElem?_concat_length, Option.some.injEq] at h
    exact .inr ⟨rfl, h.symm⟩
  · rw [List.getElem?_eq_none (by simpa using Nat.succ_le_of_lt hgt)] at h
    cases h

/-! ## Ids from a counter -/

/-- Ids below the wrap of a 64-bit counter are told apart by their words. -/
theorem nodup_words {ids : List ℕ} (hlt : ∀ id ∈ ids, id < UInt64.size) (h : ids.Nodup) :
    (ids.map UInt64.ofNat).Nodup :=
  h.map_on fun id hid other hother heq => by
    rw [← UInt64.toNat_ofNat_of_lt' (hlt id hid), heq, UInt64.toNat_ofNat_of_lt' (hlt other hother)]

end GoogleCloudRust.Interleaving
