import GoogleCloudRust.Library.Interleaving
import GoogleCloudRust.Model.CacheUpdater

/-! # Locks of the cache updater

A call that holds `update_lock` in write mode is alone, and at most one call holds
`address_sync_lock`. -/

namespace GoogleCloudRust.CacheUpdater

open Interleaving

variable {bound : ℕ}

/-! ## What a step does to the calls -/

namespace System

variable (system : System bound) (cacheUpdate : CacheUpdate) (now : Instant bound)

@[simp] theorem advanceIngest_calls (guard : Guard) (stage : Ingest) :
    (system.advanceIngest cacheUpdate guard now stage).2.calls = system.calls := by
  cases stage <;> rfl

@[simp] theorem advancePhase_calls (phase : Phase) :
    (system.advancePhase cacheUpdate now phase).2.calls = system.calls := by
  cases phase with
  | recheck guard =>
      cases guard with
      | read =>
          simp only [advancePhase]
          split <;> rfl
      | write =>
          simp only [advancePhase]
          split
          · split
            · rfl
            · split <;> rfl
          · rfl
  | ingest guard stage => simp [advancePhase]
  | _ => rfl

/-- Ingestion keeps its guard until it returns. -/
theorem advanceIngest_cases (guard : Guard) (stage : Ingest) :
    (system.advanceIngest cacheUpdate guard now stage).1 = .returned ∨
      ∃ stage', (system.advanceIngest cacheUpdate guard now stage).1 = .ingest guard stage' := by
  cases stage with
  | ranges =>
      simp only [advanceIngest]
      split
      · exact .inr ⟨_, rfl⟩
      · exact .inl rfl
  | prewarm newlyRegistered => exact .inl rfl
  | _ => exact .inr ⟨_, rfl⟩

/-- A step keeps the guard of its call, gives it back, or takes one that is available. -/
theorem advancePhase_guard (phase : Phase) :
    (system.advancePhase cacheUpdate now phase).1.updateGuard = none ∨
      (system.advancePhase cacheUpdate now phase).1.updateGuard = phase.updateGuard ∨
      ∃ guard, (system.advancePhase cacheUpdate now phase).1.updateGuard = some guard ∧
        system.isAvailable guard = true := by
  cases phase with
  | check => exact .inl rfl
  | acquire guard =>
      by_cases h : system.isAvailable guard = true
      · exact .inr (.inr ⟨guard, by simp [advancePhase, h, Phase.updateGuard], h⟩)
      · exact .inl (by simp [advancePhase, h, Phase.updateGuard])
  | recheck guard =>
      cases guard with
      | read =>
          simp only [advancePhase]
          split
          · exact .inl rfl
          · exact .inr (.inl rfl)
      | write =>
          simp only [advancePhase]
          split
          · split
            · exact .inl rfl
            · split <;> exact .inr (.inl rfl)
          · exact .inl rfl
  | ingest guard stage =>
      rcases system.advanceIngest_cases cacheUpdate now guard stage with h | ⟨stage', h⟩
      · exact .inl (by simp [advancePhase, h, Phase.updateGuard])
      · exact .inr (.inl (by simp [advancePhase, h, Phase.updateGuard]))
  | returned => exact .inl rfl
  | _ => exact .inr (.inl rfl)

/-- A step of an existing call. -/
theorem advance_of_call {index : ℕ} {call : ProcessCall} (hcall : system.calls[index]? = some call) :
    system.advance index now =
      ⟨(system.advancePhase call.cacheUpdate now call.phase).2.updater,
        system.calls.set index
          ⟨call.cacheUpdate, (system.advancePhase call.cacheUpdate now call.phase).1⟩,
        (system.advancePhase call.cacheUpdate now call.phase).2.ingested⟩ := by
  simp [advance, hcall]

end System

/-! ## Exclusion -/

/-- A writer is the only holder of the update lock. -/
def Exclusive (calls : List ProcessCall) : Prop :=
  ∀ (index index' : ℕ) (call call' : ProcessCall),
    calls[index]? = some call → calls[index']? = some call' →
    call.phase.updateGuard = some .write → call'.phase.updateGuard ≠ none → index = index'

variable {system : System bound} {index : ℕ} {call : ProcessCall}

/-- Nobody holds the update lock against an available guard. -/
theorem updateGuard_of_available {guard : Guard} (h : system.isAvailable guard = true)
    (hcall : system.calls[index]? = some call) :
    call.phase.updateGuard ≠ some .write ∧ (guard = .write → call.phase.updateGuard = none) := by
  have hmem := List.mem_of_getElem? hcall
  cases guard with
  | read =>
      simp only [System.isAvailable, System.isWriteLocked, Bool.not_eq_true', List.any_eq_false,
        decide_eq_true_eq] at h
      exact ⟨h call hmem, fun hread => by cases hread⟩
  | write =>
      simp only [System.isAvailable, System.isLocked, Bool.not_eq_true', List.any_eq_false,
        Option.not_isSome_iff_eq_none] at h
      have hnone := h call hmem
      exact ⟨by simp [hnone], fun _ => hnone⟩

theorem advance_exclusive (h : Exclusive system.calls) (index : ℕ) (now : Instant bound) :
    Exclusive (system.advance index now).calls := by
  cases hcall : system.calls[index]? with
  | none => simpa [System.advance, hcall] using h
  | some call =>
      rw [system.advance_of_call now hcall]
      have hguard := system.advancePhase_guard call.cacheUpdate now call.phase
      generalize system.advancePhase call.cacheUpdate now call.phase = next at hguard ⊢
      intro i j a b ha hb hwrite hheld
      rcases getElem?_set_cases ha with ⟨rfl, rfl⟩ | ⟨hi, hold⟩ <;>
        rcases getElem?_set_cases hb with ⟨rfl, rfl⟩ | ⟨hj, hold'⟩
      · rfl
      · -- The stepping call is the writer.
        rcases hguard with hnone | hsame | ⟨guard, hsome, havailable⟩
        · simp_all
        · exact h _ _ _ _ hcall hold' (hsame ▸ hwrite) hheld
        · obtain rfl : guard = .write := by simp_all
          exact absurd ((updateGuard_of_available havailable hold').2 rfl) hheld
      · -- The writer is another call, so that no guard was available.
        rcases hguard with hnone | hsame | ⟨guard, -, havailable⟩
        · simp_all
        · exact h _ _ _ _ hold hcall hwrite (hsame ▸ hheld)
        · exact absurd hwrite (updateGuard_of_available havailable hold).1
      · exact h _ _ _ _ hold hold' hwrite hheld

/-- At most one call holds the address lock. -/
def AddressExclusive (calls : List ProcessCall) : Prop :=
  ∀ (index index' : ℕ) (call call' : ProcessCall),
    calls[index]? = some call → calls[index']? = some call' →
    call.phase.holdsAddressLock = true → call'.phase.holdsAddressLock = true → index = index'

/-- A step that ends with the address lock had it or found it free. -/
theorem advancePhase_holdsAddressLock (system : System bound) (cacheUpdate : CacheUpdate)
    (now : Instant bound) (phase : Phase)
    (h : (system.advancePhase cacheUpdate now phase).1.holdsAddressLock = true) :
    phase.holdsAddressLock = true ∨ system.isAddressLocked = false := by
  cases phase with
  | acquire guard =>
      simp only [System.advancePhase] at h
      split at h <;> simp [Phase.holdsAddressLock] at h
  | recheck guard =>
      cases guard with
      | read =>
          simp only [System.advancePhase] at h
          split at h <;> simp [Phase.holdsAddressLock] at h
      | write =>
          simp only [System.advancePhase] at h
          split at h
          · split at h
            · simp [Phase.holdsAddressLock] at h
            · split at h <;> simp [Phase.holdsAddressLock] at h
          · simp [Phase.holdsAddressLock] at h
  | ingest guard stage =>
      cases stage with
      | ranges =>
          simp only [System.advancePhase, System.advanceIngest] at h
          split at h <;> simp [Phase.holdsAddressLock] at h
      | addressLock =>
          simp only [System.advancePhase, System.advanceIngest] at h
          cases hlocked : system.isAddressLocked with
          | true => simp [hlocked, Phase.holdsAddressLock] at h
          | false => exact .inr rfl
      | snapshot => exact .inl rfl
      | register activeAddresses => exact .inl rfl
      | _ => simp [System.advancePhase, System.advanceIngest, Phase.holdsAddressLock] at h
  | _ => simp [System.advancePhase, Phase.holdsAddressLock] at h

theorem advance_addressExclusive (h : AddressExclusive system.calls) (index : ℕ)
    (now : Instant bound) : AddressExclusive (system.advance index now).calls := by
  cases hcall : system.calls[index]? with
  | none => simpa [System.advance, hcall] using h
  | some call =>
      rw [system.advance_of_call now hcall]
      have hlock := advancePhase_holdsAddressLock system call.cacheUpdate now call.phase
      generalize system.advancePhase call.cacheUpdate now call.phase = next at hlock ⊢
      have hother : ∀ j b, system.calls[j]? = some b → b.phase.holdsAddressLock = true →
          next.1.holdsAddressLock = true → index = j := by
        intro j b hb hheld hnext
        rcases hlock hnext with hheld' | hfree
        · exact h _ _ _ _ hcall hb hheld' hheld
        · rw [System.isAddressLocked, List.any_eq_false] at hfree
          exact absurd hheld (hfree b (List.mem_of_getElem? hb))
      intro i j a b ha hb hheld hheld'
      rcases getElem?_set_cases ha with ⟨rfl, rfl⟩ | ⟨hi, hold⟩ <;>
        rcases getElem?_set_cases hb with ⟨rfl, rfl⟩ | ⟨hj, hold'⟩
      · rfl
      · exact hother j b hold' hheld' hheld
      · exact (hother i a hold hheld hheld').symm
      · exact h _ _ _ _ hold hold' hheld hheld'

end GoogleCloudRust.CacheUpdater
