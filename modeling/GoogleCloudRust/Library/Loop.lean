import Mathlib.Logic.Basic
import Mathlib.Tactic.Common

/-! # Loops that may not end

One round of a loop changes the state, and may end the loop with a result. A number of
rounds is given to a run; a run that has ended does not depend on it. -/

namespace GoogleCloudRust.Loop

variable {σ β : Type*} {step : σ → σ × Option β}

def run (step : σ → σ × Option β) : ℕ → σ → σ × Option β
  | 0, s => (s, none)
  | rounds + 1, s =>
      match step s with
      | (s', none) => run step rounds s'
      | (s', some result) => (s', some result)

/-- The loop ends, in a state and with a result. -/
def EndsIn (step : σ → σ × Option β) (s final : σ) (result : β) : Prop :=
  ∃ rounds, run step rounds s = (final, some result)

theorem run_succ_of_again {rounds : ℕ} {s s' : σ} (h : step s = (s', none)) :
    run step (rounds + 1) s = run step rounds s' := by
  rw [run, h]

theorem run_succ_of_done {rounds : ℕ} {s s' : σ} {result : β} (h : step s = (s', some result)) :
    run step (rounds + 1) s = (s', some result) := by
  rw [run, h]

/-- What holds at the start of every round, and when a round ends the loop, holds at any time. -/
theorem run_invariant {motive post : σ → Prop} (hpost : ∀ s, motive s → post s)
    (hagain : ∀ s s', motive s → step s = (s', none) → motive s')
    (hdone : ∀ s s' result, motive s → step s = (s', some result) → post s')
    (rounds : ℕ) {s : σ} (h : motive s) : post (run step rounds s).1 := by
  induction rounds generalizing s with
  | zero => exact hpost s h
  | succ rounds ih =>
      cases hs : step s with
      | mk s' ended =>
          cases ended with
          | none =>
              rw [run_succ_of_again hs]
              exact ih (hagain s s' h hs)
          | some result =>
              rw [run_succ_of_done hs]
              exact hdone s s' result h hs

/-- What holds when a round ends the loop holds when a run has ended. -/
theorem endsIn_result (motive : σ → Prop) (post : σ → β → Prop)
    (hagain : ∀ s s', motive s → step s = (s', none) → motive s')
    (hdone : ∀ s s' result, motive s → step s = (s', some result) → post s' result)
    {s final : σ} {result : β} (h : motive s) (hends : EndsIn step s final result) :
    post final result := by
  obtain ⟨rounds, hrun⟩ := hends
  induction rounds generalizing s with
  | zero => cases hrun
  | succ rounds ih =>
      cases hs : step s with
      | mk s' ended =>
          cases ended with
          | none =>
              rw [run_succ_of_again hs] at hrun
              exact ih (hagain s s' h hs) hrun
          | some value =>
              rw [run_succ_of_done hs] at hrun
              cases hrun
              exact hdone s final result h hs

theorem EndsIn.of_again {s s' final : σ} {result : β} (h : EndsIn step s final result)
    (hs : step s = (s', none)) : EndsIn step s' final result := by
  obtain ⟨rounds, hrun⟩ := h
  cases rounds with
  | zero => cases hrun
  | succ rounds =>
      rw [run_succ_of_again hs] at hrun
      exact ⟨rounds, hrun⟩

/-- A loop ends if every round that goes on lowers a measure. -/
theorem exists_endsIn {motive : σ → Prop} (measure : σ → ℕ)
    (hagain : ∀ s s', motive s → step s = (s', none) → motive s' ∧ measure s' < measure s)
    {s : σ} (h : motive s) : ∃ final result, EndsIn step s final result := by
  induction hmeasure : measure s using Nat.strongRecOn generalizing s with
  | _ value ih =>
      cases hs : step s with
      | mk s' ended =>
          cases ended with
          | none =>
              obtain ⟨hnext, hlt⟩ := hagain s s' h hs
              obtain ⟨final, result, rounds, hrun⟩ := ih _ (hmeasure ▸ hlt) hnext rfl
              exact ⟨final, result, rounds + 1, (run_succ_of_again hs).trans hrun⟩
          | some value => exact ⟨s', value, 1, run_succ_of_done hs⟩

end GoogleCloudRust.Loop
