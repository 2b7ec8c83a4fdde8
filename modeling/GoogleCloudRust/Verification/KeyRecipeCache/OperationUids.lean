import GoogleCloudRust.Verification.KeyRecipeCache.Slots

/-! # Operation UIDs

Under every interleaving of concurrent preparations each operation UID belongs to one
request shape, the shape it was allocated for. -/

namespace GoogleCloudRust.KeyRecipeCache

variable {owners : Owners}

/-! ## One step of the system -/

namespace System

/-- A phase only holds UIDs that belong to the shape of its request, and a request that
is not prepared never leaves the fast path. -/
def PhaseOwned (owners : Owners) (request : Request) : Phase → Prop
  | .lookup | .allocate => request.isUnprepared = false
  | .insert uid => request.isUnprepared = false ∧ owners uid = some request
  | .returned none => True
  | .returned (some uid) => request.isUnprepared = false ∧
      ∃ owner, owners uid = some owner ∧ owner.accepts request = true

structure Owned (owners : Owners) (system : System) : Prop where
  prepared : Prepared owners system.cache
  next : system.cache.nextOperationUid = UInt64.ofNat (1 + system.allocations)
  allocated : ∀ uid request, owners uid = some request →
    1 ≤ uid.toNat ∧ uid.toNat ≤ system.allocations
  calls : ∀ call ∈ system.calls, PhaseOwned owners call.request call.phase

variable {system : System}

theorem PhaseOwned.mono {owners owners' : Owners} {request : Request} {phase : Phase}
    (h : PhaseOwned owners request phase)
    (hextends : ∀ uid request, owners uid = some request → owners' uid = some request) :
    PhaseOwned owners' request phase := by
  cases phase with
  | lookup => exact h
  | allocate => exact h
  | insert uid => exact ⟨h.1, hextends _ _ h.2⟩
  | returned result =>
      cases result with
      | none => trivial
      | some uid =>
          obtain ⟨hprepared, owner, howner, haccepts⟩ := h
          exact ⟨hprepared, owner, hextends _ _ howner, haccepts⟩

/-- What the verdict on a slot returns belongs to the shape of the request. -/
theorem phaseOwned_verdict {cache : Cache} (h : Prepared owners cache) {request : Request}
    (hprepared : request.isUnprepared = false) {found : UInt64 × Bool}
    (hslot : request.slot cache = some found) :
    PhaseOwned owners request (.returned (verdict found)) := by
  rcases found with ⟨uid, accepted⟩
  cases accepted with
  | false => trivial
  | true => exact ⟨hprepared, h.owner_accepts hslot⟩

theorem advancePhase_calls (request : Request) (phase : Phase) :
    (system.advancePhase request phase).2.calls = system.calls := by
  cases phase with
  | lookup =>
      simp only [advancePhase]
      split <;> rfl
  | allocate => rfl
  | insert uid => rfl
  | returned result => rfl

theorem allocations_le_advancePhase (request : Request) (phase : Phase) :
    system.allocations ≤ (system.advancePhase request phase).2.allocations := by
  cases phase with
  | lookup =>
      simp only [advancePhase]
      split <;> exact le_rfl
  | allocate => exact Nat.le_succ _
  | insert uid => exact le_rfl
  | returned result => exact le_rfl

theorem advancePhase_lookup (request : Request) :
    system.advancePhase request .lookup =
      (match (request.slot system.cache).map verdict with
        | some result => .returned result
        | none => .allocate,
       { system with cache := (request.lookup system.cache).2 }) := by
  rw [← lookup_result]
  simp only [advancePhase]
  rcases request.lookup system.cache with ⟨result, cache⟩
  cases result <;> rfl

/-- An allocation is fresh as long as the counter has not wrapped. -/
theorem allocate_fresh (h : Owned owners system) (hbound : system.allocations + 1 < 2 ^ 64) :
    system.cache.nextOperationUid.toNat = system.allocations + 1 ∧
      owners system.cache.nextOperationUid = none := by
  have htoNat : system.cache.nextOperationUid.toNat = system.allocations + 1 := by
    rw [h.next, UInt64.toNat_ofNat', Nat.mod_eq_of_lt (by omega), Nat.add_comm]
  refine ⟨htoNat, ?_⟩
  cases howner : owners system.cache.nextOperationUid with
  | none => rfl
  | some request =>
      have := (h.allocated _ _ howner).2
      omega

theorem allocate_owned (h : Owned owners system) (hbound : system.allocations + 1 < 2 ^ 64)
    (request : Request) :
    let owners' := Function.update owners system.cache.nextOperationUid (some request)
    (∀ uid request, owners uid = some request → owners' uid = some request) ∧
      Owned owners' (system.advancePhase request .allocate).2 := by
  intro owners'
  obtain ⟨htoNat, hfresh⟩ := allocate_fresh h hbound
  have hextends : ∀ uid request, owners uid = some request → owners' uid = some request := by
    intro uid request howner
    have hne : uid ≠ system.cache.nextOperationUid := by
      rintro rfl
      rw [hfresh] at howner
      cases howner
    exact (Function.update_of_ne hne _ _).trans howner
  refine ⟨hextends, ?_, ?_, ?_, fun call hcall => (h.calls call hcall).mono hextends⟩
  · obtain ⟨hqueries, hreads⟩ := h.prepared.mono hextends
    exact ⟨hqueries, hreads⟩
  · change system.cache.nextOperationUid + 1 = UInt64.ofNat (1 + (system.allocations + 1))
    rw [h.next, ← Nat.add_assoc, UInt64.ofNat_add (1 + system.allocations)]
    rfl
  · intro uid owner howner
    change 1 ≤ uid.toNat ∧ uid.toNat ≤ system.allocations + 1
    by_cases heq : uid = system.cache.nextOperationUid
    · rw [heq]
      omega
    · have := h.allocated uid owner ((Function.update_of_ne heq _ _).symm.trans howner)
      omega

theorem advancePhase_owned (h : Owned owners system) {request : Request} {phase : Phase}
    (hphase : PhaseOwned owners request phase)
    (hbound : (system.advancePhase request phase).2.allocations < 2 ^ 64) :
    ∃ owners', (∀ uid request, owners uid = some request → owners' uid = some request) ∧
      Owned owners' (system.advancePhase request phase).2 ∧
      PhaseOwned owners' request (system.advancePhase request phase).1 := by
  cases phase with
  | lookup =>
      rw [advancePhase_lookup]
      refine ⟨owners, fun _ _ howner => howner, ⟨lookup_prepared h.prepared request,
        (lookup_nextOperationUid _ request).trans h.next, h.allocated, h.calls⟩, ?_⟩
      cases hslot : request.slot system.cache with
      | none => exact hphase
      | some found => exact phaseOwned_verdict h.prepared hphase hslot
  | allocate =>
      obtain ⟨hextends, howned⟩ := allocate_owned h hbound request
      exact ⟨_, hextends, howned, hphase, Function.update_self ..⟩
  | insert uid =>
      refine ⟨owners, fun _ _ howner => howner, ⟨insert_prepared h.prepared hphase.2,
        (insert_nextOperationUid _ request uid).trans h.next, h.allocated, h.calls⟩, ?_⟩
      obtain ⟨found, hslot, hresult⟩ := insert_slot_self h.prepared request uid
      change PhaseOwned owners request (.returned (request.insert system.cache uid).1)
      rw [hresult]
      exact phaseOwned_verdict (insert_prepared h.prepared hphase.2) hphase.1 hslot
  | returned result => exact ⟨owners, fun _ _ howner => howner, h, hphase⟩

/-- A phase that returns does so by the verdict on the slot it leaves. -/
theorem advancePhase_returned (h : Owned owners system) {request : Request} {phase : Phase}
    (hphase : ∀ result, phase ≠ .returned result) {result : Option UInt64}
    (hreturned : (system.advancePhase request phase).1 = .returned result) :
    ∃ found, request.slot (system.advancePhase request phase).2.cache = some found ∧
      result = verdict found := by
  cases phase with
  | lookup =>
      rw [advancePhase_lookup] at hreturned ⊢
      cases hslot : request.slot system.cache with
      | none =>
          rw [hslot] at hreturned
          cases hreturned
      | some found =>
          rw [hslot] at hreturned
          exact ⟨found, (lookup_slot _ request request).trans hslot,
            (Phase.returned.inj hreturned).symm⟩
  | allocate => cases hreturned
  | insert uid =>
      obtain ⟨found, hslot, hresult⟩ := insert_slot_self h.prepared request uid
      exact ⟨found, hslot, (Phase.returned.inj hreturned).symm.trans hresult⟩
  | returned result => exact absurd rfl (hphase result)

theorem advancePhase_slot (h : Owned owners system) (request : Request) (phase : Phase)
    {other : Request} {found : UInt64 × Bool} (hfound : other.slot system.cache = some found) :
    other.slot (system.advancePhase request phase).2.cache = some found ∨
      other.slot (system.advancePhase request phase).2.cache = none := by
  cases phase with
  | lookup =>
      rw [advancePhase_lookup]
      exact .inl ((lookup_slot _ request other).trans hfound)
  | allocate => cases other <;> exact .inl hfound
  | insert uid => exact insert_slot_other h.prepared request uid hfound
  | returned result => exact .inl hfound

theorem advance_of_getElem? {index : ℕ} {call : PrepareCall}
    (hcall : system.calls[index]? = some call) :
    system.advance index =
      { (system.advancePhase call.request call.phase).2 with
        calls := system.calls.set index
          { call with phase := (system.advancePhase call.request call.phase).1 } } := by
  simp only [advance, hcall, advancePhase_calls]

theorem allocations_le_step (event : Event) :
    system.allocations ≤ (system.step event).allocations := by
  cases event with
  | prepare request => exact le_rfl
  | advance index =>
      change _ ≤ (system.advance index).allocations
      cases hcall : system.calls[index]? with
      | none => simp [advance, hcall]
      | some call =>
          rw [advance_of_getElem? hcall]
          exact allocations_le_advancePhase call.request call.phase
  | call call => exact le_rfl

theorem prepare_phaseOwned (owners : Owners) (request : Request) :
    PhaseOwned owners request (if request.isUnprepared then .returned none else .lookup) := by
  cases hprepared : request.isUnprepared with
  | true => trivial
  | false => exact hprepared

theorem step_owned (h : Owned owners system) (event : Event)
    (hbound : (system.step event).allocations < 2 ^ 64) :
    ∃ owners', Owned owners' (system.step event) := by
  cases event with
  | prepare request =>
      refine ⟨owners, h.prepared, h.next, h.allocated, fun call hcall => ?_⟩
      rcases List.mem_append.mp hcall with hold | hnew
      · exact h.calls call hold
      · rw [List.mem_singleton.mp hnew]
        exact prepare_phaseOwned owners request
  | advance index =>
      change (system.advance index).allocations < 2 ^ 64 at hbound
      change ∃ owners', Owned owners' (system.advance index)
      cases hcall : system.calls[index]? with
      | none => exact ⟨owners, by rwa [advance, hcall]⟩
      | some call =>
          rw [advance_of_getElem? hcall] at hbound ⊢
          obtain ⟨owners', hextends, howned, hphase⟩ := advancePhase_owned h
            (h.calls call (List.mem_of_getElem? hcall)) hbound
          refine ⟨owners', howned.prepared, howned.next, howned.allocated, fun other hother => ?_⟩
          rcases List.mem_or_eq_of_mem_set hother with hold | rfl
          · exact (h.calls other hold).mono hextends
          · exact hphase
  | call call =>
      refine ⟨owners, step_prepared h.prepared call, ?_, h.allocated, h.calls⟩
      exact (step_prepared_cases system.cache call).1.trans h.next

/-- An occupied slot keeps its descriptor, or loses it. -/
theorem slot_step (h : Owned owners system) (event : Event) {request : Request}
    {found : UInt64 × Bool} (hfound : request.slot system.cache = some found) :
    request.slot (system.step event).cache = some found ∨
      request.slot (system.step event).cache = none := by
  cases event with
  | prepare other => exact .inl hfound
  | advance index =>
      change request.slot (system.advance index).cache = _ ∨
        request.slot (system.advance index).cache = _
      cases hcall : system.calls[index]? with
      | none => exact .inl (by rwa [advance, hcall])
      | some call =>
          rw [advance_of_getElem? hcall]
          exact advancePhase_slot h call.request call.phase hfound
  | call call => exact (step_slot system.cache call request).imp_left fun heq => heq.trans hfound

theorem returned?_eq_some {index : ℕ} {request : Request} {result : Option UInt64} :
    system.returned? index = some (request, result) ↔
      system.calls[index]? = some ⟨request, .returned result⟩ := by
  unfold returned?
  split
  · rename_i request' result' hcall
    simp [hcall]
  · rename_i hcall
    constructor
    · intro h
      cases h
    · intro h
      exact absurd h (hcall request result)

/-- A call returns from the fast path, or by the verdict on the slot it leaves. -/
theorem step_returned (h : Owned owners system) (event : Event) {index : ℕ} {request : Request}
    {result : Option UInt64} (hbefore : system.returned? index = none)
    (hafter : (system.step event).returned? index = some (request, result)) :
    (request.isUnprepared = true ∧ result = none) ∨
      (request.isUnprepared = false ∧ ∃ found,
        request.slot (system.step event).cache = some found ∧ result = verdict found) := by
  have hpending : system.calls[index]? ≠ some ⟨request, .returned result⟩ := by
    rw [Ne, ← returned?_eq_some, hbefore]
    nofun
  rw [returned?_eq_some] at hafter
  cases event with
  | prepare other =>
      simp only [step] at hafter
      rw [List.getElem?_append] at hafter
      split_ifs at hafter with hlt hprepared
      · exact absurd hafter hpending
      · have hmem := List.mem_singleton.mp (List.mem_of_getElem? hafter)
        obtain ⟨rfl, hphase⟩ := PrepareCall.mk.inj hmem
        exact .inl ⟨hprepared, Phase.returned.inj hphase⟩
      · have hmem := List.mem_singleton.mp (List.mem_of_getElem? hafter)
        cases (PrepareCall.mk.inj hmem).2
  | advance other =>
      change (system.advance other).calls[index]? = _ at hafter
      cases hcall : system.calls[other]? with
      | none =>
          rw [advance, hcall] at hafter
          exact absurd hafter hpending
      | some call =>
          rw [advance_of_getElem? hcall] at hafter
          rw [show system.step (.advance other) = _ from advance_of_getElem? hcall]
          dsimp only at hafter ⊢
          by_cases heq : other = index
          · subst heq
            rw [List.getElem?_set_self (List.getElem?_eq_some_iff.mp hcall).1] at hafter
            obtain ⟨rfl, hphase⟩ := PrepareCall.mk.inj (Option.some.inj hafter)
            have hrunning : ∀ result, call.phase ≠ .returned result := by
              intro result' hreturned
              have : system.returned? other = some (call.request, result') := by
                rw [returned?_eq_some, hcall, ← hreturned]
              rw [hbefore] at this
              cases this
            have hprepared : call.request.isUnprepared = false := by
              have howned := h.calls call (List.mem_of_getElem? hcall)
              cases hphase : call.phase with
              | lookup => rwa [hphase] at howned
              | allocate => rwa [hphase] at howned
              | insert uid =>
                  rw [hphase] at howned
                  exact howned.1
              | returned result' => exact absurd hphase (hrunning result')
            exact .inr ⟨hprepared, advancePhase_returned h hrunning hphase⟩
          · rw [List.getElem?_set_ne heq] at hafter
            exact absurd hafter hpending
  | call call => exact absurd hafter hpending

/-! ## A call without interruption -/

/-- The newest call takes its next step. -/
theorem advance_last (cache : Cache) (calls : List PrepareCall) (allocations : ℕ)
    (call : PrepareCall) :
    advance ⟨cache, calls ++ [call], allocations⟩ calls.length =
      let next := advancePhase ⟨cache, calls, allocations⟩ call.request call.phase
      ⟨next.2.cache, calls ++ [{ call with phase := next.1 }], next.2.allocations⟩ := by
  have hcall : (calls ++ [call])[calls.length]? = some call := by simp
  rw [show advance ⟨cache, calls ++ [call], allocations⟩ calls.length = _ from
    advance_of_getElem? hcall]
  rcases call with ⟨request, phase⟩
  cases phase with
  | lookup =>
      simp only [advancePhase_lookup]
      simp
  | allocate => simp [advancePhase]
  | insert uid => simp [advancePhase]
  | returned result => simp [advancePhase]

theorem getOrPrepare_eq (cache : Cache) (request : Request) :
    request.getOrPrepare cache =
      if request.isUnprepared then (none, cache)
      else
        match request.lookup cache with
        | (some result, cache) => (result, cache)
        | (none, cache) =>
            request.insert (allocateOperationUid cache).2 (allocateOperationUid cache).1 := by
  cases request <;> rfl

/-- The phases in a row are `get_or_prepare_query` and `get_or_prepare_read`. -/
theorem run_uninterrupted (system : System) (request : Request) :
    let index := system.calls.length
    let system' := system.run [.prepare request, .advance index, .advance index, .advance index]
    system'.returned? index = some (request, (request.getOrPrepare system.cache).1) ∧
      system'.cache = (request.getOrPrepare system.cache).2 := by
  obtain ⟨cache, calls, allocations⟩ := system
  simp only [run, List.foldl_cons, List.foldl_nil, step, advance_last, returned?, getOrPrepare_eq]
  cases request.isUnprepared with
  | true => simp [advancePhase]
  | false =>
      rcases hlookup : request.lookup cache with ⟨result, cache'⟩
      cases result with
      | none => simp [advancePhase, hlookup]
      | some result => simp [advancePhase, hlookup]

/-! ## Whole runs -/

theorem new_owned : Owned (fun _ => none) new := by
  refine ⟨⟨⟨ClockStore.withCapacity_synced _, by decide, ?_⟩,
    ⟨ClockStore.withCapacity_synced _, by decide, ?_⟩⟩, rfl, nofun, nofun⟩
  · intro fingerprint descriptor hvalue
    simp [new, KeyRecipeCache.new, RecipeStore.withCapacities, ClockStore.withCapacity,
      ClockStore.value?] at hvalue
  · intro fingerprint descriptor hvalue
    simp [new, KeyRecipeCache.new, RecipeStore.withCapacities, ClockStore.withCapacity,
      ClockStore.value?] at hvalue

theorem allocations_le_run (events : List Event) :
    system.allocations ≤ (system.run events).allocations := by
  refine List.foldlRecOn (motive := fun system' : System =>
    system.allocations ≤ system'.allocations) events step le_rfl ?_
  intro system' hle event _
  exact hle.trans (allocations_le_step event)

theorem run_append (events events' : List Event) :
    system.run (events ++ events') = (system.run events).run events' :=
  List.foldl_append ..

theorem run_owned {events : List Event} (hbound : (new.run events).allocations < 2 ^ 64) :
    ∃ owners, Owned owners (new.run events) := by
  induction events using List.reverseRecOn with
  | nil => exact ⟨_, new_owned⟩
  | append_singleton events event ih =>
      rw [run_append] at hbound ⊢
      obtain ⟨owners, howned⟩ := ih ((allocations_le_run [event]).trans_lt hbound)
      exact step_owned howned event hbound

/-- The state after the first `count` events. -/
def stateAt (events : List Event) (count : ℕ) : System :=
  new.run (events.take count)

theorem stateAt_owned {events : List Event} (hbound : (new.run events).allocations < 2 ^ 64)
    (count : ℕ) : ∃ owners, Owned owners (stateAt events count) := by
  refine run_owned (lt_of_le_of_lt ?_ hbound)
  have hrun : new.run events = (stateAt events count).run (events.drop count) := by
    rw [stateAt, ← run_append, List.take_append_drop]
  rw [hrun]
  exact allocations_le_run (events.drop count)

theorem stateAt_succ (events : List Event) (count : ℕ) :
    stateAt events (count + 1) = stateAt events count ∨
      ∃ event, stateAt events (count + 1) = (stateAt events count).step event := by
  unfold stateAt
  rw [List.take_add_one, run_append]
  cases events[count]? with
  | none => exact .inl rfl
  | some event => exact .inr ⟨event, rfl⟩

/-- The call returns at this event. -/
def ReturnsAt (events : List Event) (count index : ℕ) (request : Request)
    (result : Option UInt64) : Prop :=
  (stateAt events count).returned? index = none ∧
    (stateAt events (count + 1)).returned? index = some (request, result)

/-- No event strictly between the two evicts or clears the descriptor at the fingerprint
of the request. -/
def Undisturbed (events : List Event) (first last : ℕ) (request : Request) : Prop :=
  ∀ count, first < count → count < last →
    (request.slot (stateAt events count).cache).isSome = true →
    (request.slot (stateAt events (count + 1)).cache).isSome = true

/-- Calls with comparable requests return the same if the descriptor stays between. -/
def Agree (comparable : Request → Request → Bool) (events : List Event) : Prop :=
  ∀ first last index index' request request' result result', first < last →
    ReturnsAt events first index request result → ReturnsAt events last index' request' result' →
    comparable request request' = true → Undisturbed events first last request →
    result = result'

section Between

variable {events : List Event} (hbound : (new.run events).allocations < 2 ^ 64)

include hbound

theorem returnsAt_verdict {count index : ℕ} {request : Request} {result : Option UInt64}
    (h : ReturnsAt events count index request result) :
    (request.isUnprepared = true ∧ result = none) ∨
      (request.isUnprepared = false ∧ ∃ found,
        request.slot (stateAt events (count + 1)).cache = some found ∧
          result = verdict found) := by
  obtain ⟨owners, howned⟩ := stateAt_owned hbound count
  rcases stateAt_succ events count with heq | ⟨event, heq⟩
  · have hafter := h.2
    rw [heq, h.1] at hafter
    cases hafter
  · have hafter := h.2
    rw [heq] at hafter ⊢
    exact step_returned howned event h.1 hafter

theorem slot_stateAt_succ {count : ℕ} {request : Request} {found : UInt64 × Bool}
    (hfound : request.slot (stateAt events count).cache = some found) :
    request.slot (stateAt events (count + 1)).cache = some found ∨
      request.slot (stateAt events (count + 1)).cache = none := by
  obtain ⟨owners, howned⟩ := stateAt_owned hbound count
  rcases stateAt_succ events count with heq | ⟨event, heq⟩
  · rw [heq]
    exact .inl hfound
  · rw [heq]
    exact slot_step howned event hfound

/-- An undisturbed slot keeps its descriptor. -/
theorem slot_of_undisturbed {first last : ℕ} {request : Request} {found : UInt64 × Bool}
    (h : Undisturbed events first last request)
    (hfound : request.slot (stateAt events (first + 1)).cache = some found) {count : ℕ}
    (hfirst : first + 1 ≤ count) (hlast : count ≤ last) :
    request.slot (stateAt events count).cache = some found := by
  induction count, hfirst using Nat.le_induction with
  | base => exact hfound
  | succ count hcount ih =>
      have hslot := ih (by omega)
      rcases slot_stateAt_succ hbound hslot with hkept | hlost
      · exact hkept
      · have hsome := h count (by omega) (by omega) (by simp [hslot])
        simp [hlost] at hsome

theorem agree_of_equally_partitioned :
    Agree (fun a b => a.accepts b && a.isPartitioned == b.isPartitioned) events := by
  intro first last index index' request request' result result' hlt hreturns hreturns' hcomparable
    hundisturbed
  obtain ⟨haccepts, hpartitioned⟩ := Bool.and_eq_true_iff.mp hcomparable
  have hunprepared := Request.isUnprepared_eq haccepts (beq_iff_eq.mp hpartitioned)
  rcases returnsAt_verdict hbound hreturns with ⟨hfast, rfl⟩ | ⟨hslow, found, hfound, rfl⟩
  · rcases returnsAt_verdict hbound hreturns' with ⟨-, rfl⟩ | ⟨hslow', -⟩
    · rfl
    · rw [hunprepared, hslow'] at hfast
      cases hfast
  · rcases returnsAt_verdict hbound hreturns' with ⟨hfast', -⟩ | ⟨-, found', hfound', rfl⟩
    · rw [hunprepared, hfast'] at hslow
      cases hslow
    · have hlast := slot_of_undisturbed hbound hundisturbed hfound hlt le_rfl
      obtain ⟨owners, howned⟩ := stateAt_owned hbound (last + 1)
      rw [← howned.prepared.slot_congr haccepts] at hfound'
      rcases slot_stateAt_succ hbound hlast with hkept | hlost
      · rw [Option.some.inj (hkept.symm.trans hfound')]
      · rw [hlost] at hfound'
        cases hfound'

end Between

/-- Operation UIDs belong to one request shape each, under every interleaving. -/
theorem run_operationUids (events : List Event)
    (hbound : (new.run events).allocations < 2 ^ 64) :
    (∀ index index' request request' uid,
      (new.run events).returned? index = some (request, some uid) →
      (new.run events).returned? index' = some (request', some uid) →
      request.accepts request' = true) ∧
    (∀ index request, (new.run events).returned? index ≠ some (request, some 0)) ∧
    Agree (fun a b => a.accepts b && a.isPartitioned == b.isPartitioned) events := by
  obtain ⟨owners, howned⟩ := run_owned hbound
  have howner : ∀ index request uid,
      (new.run events).returned? index = some (request, some uid) →
      ∃ owner, owners uid = some owner ∧ owner.accepts request = true := by
    intro index request uid hreturned
    have hmem := List.mem_of_getElem? (returned?_eq_some.mp hreturned)
    exact (howned.calls _ hmem).2
  refine ⟨fun index index' request request' uid hreturned hreturned' => ?_,
    fun index request hreturned => ?_, agree_of_equally_partitioned hbound⟩
  · obtain ⟨owner, hown, haccepts⟩ := howner index request uid hreturned
    obtain ⟨owner', hown', haccepts'⟩ := howner index' request' uid hreturned'
    obtain rfl := Option.some.inj (hown.symm.trans hown')
    exact Request.accepts_trans (Request.accepts_symm haccepts) haccepts'
  · obtain ⟨owner, hown, -⟩ := howner index request 0 hreturned
    have := (howned.allocated 0 owner hown).1
    simp at this

/-- A query, and the same query partitioned. -/
def sampleQuery (partitionToken : Bytes) : Request :=
  .query ⟨"SELECT 1", none, ∅, partitionToken, none⟩

/-- Two calls race: both miss, both allocate, and the second one takes the descriptor of
the first. -/
def raceEvents : List Event :=
  [.prepare (sampleQuery []), .prepare (sampleQuery []), .advance 0, .advance 1, .advance 0,
    .advance 1, .advance 0, .call (.getTableRecipe "T"), .advance 1]

set_option maxRecDepth 2000 in
theorem run_operationUids_race :
    (new.run raceEvents).returned? 0 = some (sampleQuery [], some 1) ∧
      (new.run raceEvents).returned? 1 = some (sampleQuery [], some 1) ∧
      (sampleQuery []).accepts (sampleQuery []) = true ∧
      ReturnsAt raceEvents 6 0 (sampleQuery []) (some 1) ∧
      ∀ result, ReturnsAt raceEvents 8 1 (sampleQuery []) result → some 1 = result := by
  have h := run_operationUids raceEvents (by decide)
  have hreturns : ReturnsAt raceEvents 6 0 (sampleQuery []) (some 1) := ⟨rfl, rfl⟩
  refine ⟨rfl, rfl, h.1 0 1 _ _ 1 rfl rfl, hreturns, fun result hresult => ?_⟩
  refine h.2.2 6 8 0 1 _ _ _ _ (by decide) hreturns hresult (by decide) ?_
  intro count hfirst hlast _
  obtain rfl : count = 7 := by omega
  rfl

/-- A partitioned query returns nothing, although the descriptor of its shape is present. -/
theorem not_agree_partitioned :
    let events := [.prepare (sampleQuery []), .advance 0, .advance 0, .advance 0,
      .prepare (sampleQuery [7])]
    (new.run events).allocations < 2 ^ 64 ∧ ¬ Agree Request.accepts events := by
  refine ⟨by decide, fun h => ?_⟩
  have := h 3 4 0 1 (sampleQuery []) (sampleQuery [7]) (some 1) none (by decide) ⟨rfl, rfl⟩
    ⟨rfl, rfl⟩ (by decide) (fun count hfirst hlast => by omega)
  cases this

end System

end GoogleCloudRust.KeyRecipeCache
