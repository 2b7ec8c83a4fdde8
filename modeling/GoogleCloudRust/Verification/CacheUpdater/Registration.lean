import GoogleCloudRust.Verification.CacheUpdater.Locks
import GoogleCloudRust.Verification.EndpointLifecycle.Bookkeeping
import GoogleCloudRust.Verification.KeyRangeCache.Contributions

/-! # Registered endpoints

Once all calls have returned, the addresses registered for the source of the updater are
those of the routing table. -/

namespace GoogleCloudRust.CacheUpdater

open Interleaving
open KeyRangeCache (activeAddresses)

variable {bound : ℕ}

/-- A call at this phase has changed the routing table and will publish or withdraw its
addresses. -/
def Phase.willPublish : Phase → Bool
  | clearRecipes | unregister => true
  | ingest _ .addressLock | ingest _ .snapshot | ingest _ (.register _) => true
  | _ => false

/-- The routing table was cleared and its addresses are not withdrawn yet. -/
def Phase.isCleared : Phase → Bool
  | clearRecipes | unregister => true
  | _ => false

/-- A call at this phase waits for the address lock. -/
def Phase.waitsForAddressLock : Phase → Bool
  | ingest _ .addressLock => true
  | _ => false

/-- The snapshot that a call at this phase is about to publish. -/
def Phase.snapshot? : Phase → Option (Finset String)
  | ingest _ (.register addresses) => some addresses
  | _ => none

theorem Phase.holdsAddressLock_of_snapshot? {phase : Phase} {addresses : Finset String}
    (h : phase.snapshot? = some addresses) : phase.holdsAddressLock = true := by
  cases phase with
  | ingest guard stage =>
      cases stage with
      | register activeAddresses => rfl
      | _ => cases h
  | _ => cases h

theorem Phase.updateGuard_of_snapshot? {phase : Phase} {addresses : Finset String}
    (h : phase.snapshot? = some addresses) : phase.updateGuard ≠ none := by
  cases phase with
  | ingest guard stage => simp [Phase.updateGuard]
  | _ => cases h

theorem Phase.updateGuard_of_isCleared {phase : Phase} (h : phase.isCleared = true) :
    phase.updateGuard = some .write := by
  cases phase with
  | clearRecipes => rfl
  | unregister => rfl
  | _ => cases h

theorem Phase.willPublish_of_waits {phase : Phase} (h : phase.waitsForAddressLock = true) :
    phase.willPublish = true := by
  cases phase with
  | ingest guard stage =>
      cases stage with
      | addressLock => rfl
      | _ => cases h
  | _ => cases h

/-! ## The invariant -/

/-- The registered addresses are up to date, or some call will bring them up to date: a
snapshot is outdated only while another call waits to take a later one. -/
structure Published (system : System bound) : Prop where
  exclusive : Exclusive system.calls
  addressExclusive : AddressExclusive system.calls
  scope_ne : system.updater.databaseScope ≠ ""
  cleared : ∀ (index : ℕ) (call : ProcessCall), system.calls[index]? = some call →
    call.phase.isCleared = true → activeAddresses system.updater.keyRangeCache = ∅
  snapshot : ∀ (index : ℕ) (call : ProcessCall) (addresses : Finset String),
    system.calls[index]? = some call → call.phase.snapshot? = some addresses →
    addresses = activeAddresses system.updater.keyRangeCache ∨
      ∃ other ∈ system.calls, other.phase.waitsForAddressLock = true
  published : system.registered = activeAddresses system.updater.keyRangeCache ∨
    ∃ call ∈ system.calls, call.phase.willPublish = true

variable {system : System bound} {index : ℕ} {call : ProcessCall}

/-- A step that changes neither the routing table nor the registration, and with which the
call gives up no duty. -/
structure Quiet (system : System bound) (phase : Phase) (next : Phase × System bound) : Prop where
  scope : next.2.updater.databaseScope = system.updater.databaseScope
  active : activeAddresses next.2.updater.keyRangeCache =
    activeAddresses system.updater.keyRangeCache
  registered : next.2.registered = system.registered
  publish : phase.willPublish = true → next.1.willPublish = true
  waits : system.isAddressLocked = false ∨
    (phase.waitsForAddressLock = true → next.1.waitsForAddressLock = true)
  cleared : next.1.isCleared = true → phase.isCleared = true
  snapshot : ∀ addresses, next.1.snapshot? = some addresses →
    addresses = activeAddresses system.updater.keyRangeCache

/-- A call without a duty takes a step outside the table and the registration. -/
theorem Quiet.of_no_duty {phase phase' : Phase} {system' : System bound}
    (hduty : phase.willPublish = false) (hcleared : phase'.isCleared = false)
    (hsnapshot : phase'.snapshot? = none)
    (hscope : system'.updater.databaseScope = system.updater.databaseScope)
    (hranges : system'.updater.keyRangeCache = system.updater.keyRangeCache)
    (hendpoints : system'.updater.endpoints = system.updater.endpoints) :
    Quiet system phase (phase', system') where
  scope := hscope
  active := congrArg activeAddresses hranges
  registered := by rw [System.registered, System.registered, hscope, hendpoints]
  publish := by simp [hduty]
  waits := .inr fun hwaits => by cases hduty.symm.trans (Phase.willPublish_of_waits hwaits)
  cleared := by simp [hcleared]
  snapshot := by simp [hsnapshot]

theorem Published.quiet (h : Published system) (hcall : system.calls[index]? = some call)
    {next : Phase × System bound} (hquiet : Quiet system call.phase next)
    (hexclusive : Exclusive (system.calls.set index ⟨call.cacheUpdate, next.1⟩))
    (haddress : AddressExclusive (system.calls.set index ⟨call.cacheUpdate, next.1⟩)) :
    Published ⟨next.2.updater, system.calls.set index ⟨call.cacheUpdate, next.1⟩,
      next.2.ingested⟩ := by
  refine ⟨hexclusive, haddress, hquiet.scope ▸ h.scope_ne, fun other call' hcall' hphase => ?_,
    fun other call' addresses hcall' hphase => ?_, ?_⟩
  · rw [hquiet.active]
    rcases getElem?_set_cases hcall' with ⟨-, rfl⟩ | ⟨-, hold⟩
    · exact h.cleared index call hcall (hquiet.cleared hphase)
    · exact h.cleared other call' hold hphase
  · rw [hquiet.active]
    rcases getElem?_set_cases hcall' with ⟨-, rfl⟩ | ⟨-, hold⟩
    · exact .inl (hquiet.snapshot addresses hphase)
    · rcases hquiet.waits with hfree | hwaits
      · -- Nobody holds a snapshot while the address lock is free.
        rw [System.isAddressLocked, List.any_eq_false] at hfree
        exact absurd (Phase.holdsAddressLock_of_snapshot? hphase)
          (hfree call' (List.mem_of_getElem? hold))
      · exact (h.snapshot other call' addresses hold hphase).imp_right fun hother =>
          exists_mem_set hcall hother hwaits
  · rw [hquiet.active]
    refine h.published.imp (fun heq => ?_) fun hother =>
      exists_mem_set hcall hother hquiet.publish
    rw [← heq]
    exact hquiet.registered

/-! ## Steps that change the addresses -/

/-- The endpoints are left to the other calls while the table is empty. -/
theorem clearRanges_published (h : Published system) (hcall : system.calls[index]? = some call)
    (hphase : call.phase = .clearRanges) (now : Instant bound)
    (hexclusive : Exclusive (system.advance index now).calls)
    (haddress : AddressExclusive (system.advance index now).calls) :
    Published (system.advance index now) := by
  rw [system.advance_of_call now hcall, hphase] at hexclusive haddress ⊢
  have hempty : activeAddresses (KeyRangeCache.clear system.updater.keyRangeCache) = ∅ :=
    KeyRangeCache.activeAddresses_clear _
  refine ⟨hexclusive, haddress, h.scope_ne, fun _ _ _ _ => hempty,
    fun other call' addresses hcall' hsnapshot => ?_, .inr ⟨⟨call.cacheUpdate, .clearRecipes⟩,
      List.mem_set (List.getElem?_eq_some_iff.mp hcall).1 _, rfl⟩⟩
  -- The writer is alone, so that nobody holds a snapshot.
  rcases getElem?_set_cases hcall' with ⟨-, rfl⟩ | ⟨hne, hold⟩
  · cases hsnapshot
  · have hwrite : call.phase.updateGuard = some .write := by rw [hphase]; rfl
    exact absurd (h.exclusive index other call call' hcall hold hwrite
      (Phase.updateGuard_of_snapshot? hsnapshot)).symm hne

/-- The writer withdraws the addresses of a table that is still empty. -/
theorem unregister_published (h : Published system) (hcall : system.calls[index]? = some call)
    (hphase : call.phase = .unregister) (now : Instant bound)
    (hexclusive : Exclusive (system.advance index now).calls)
    (haddress : AddressExclusive (system.advance index now).calls) :
    Published (system.advance index now) := by
  rw [system.advance_of_call now hcall, hphase] at hexclusive haddress ⊢
  have hempty : activeAddresses system.updater.keyRangeCache = ∅ :=
    h.cleared index call hcall (by rw [hphase]; rfl)
  have hregistered := system.updater.endpoints.manager.addressesOf_unregisterSource h.scope_ne
    system.updater.databaseScope
  rw [if_pos rfl] at hregistered
  refine ⟨hexclusive, haddress, h.scope_ne, fun _ _ _ _ => hempty,
    fun other call' addresses hcall' hsnapshot => ?_, .inl ?_⟩
  · rcases getElem?_set_cases hcall' with ⟨-, rfl⟩ | ⟨-, hold⟩
    · cases hsnapshot
    · refine (h.snapshot other call' addresses hold hsnapshot).imp_right fun hother =>
        exists_mem_set hcall hother fun hwaits => ?_
      rw [hphase] at hwaits
      cases hwaits
  · exact (congrArg (Option.getD · ∅) hregistered).trans hempty.symm

/-- After a change of the groups the call itself is the one that waits. -/
theorem ranges_published (h : Published system) (hcall : system.calls[index]? = some call)
    {guard : Guard} (hphase : call.phase = .ingest guard .ranges) (now : Instant bound)
    (hexclusive : Exclusive (system.advance index now).calls)
    (haddress : AddressExclusive (system.advance index now).calls) :
    Published (system.advance index now) := by
  rw [system.advance_of_call now hcall, hphase] at hexclusive haddress ⊢
  rcases hresult : KeyRangeCache.addRanges system.updater.keyRangeCache
    call.cacheUpdate.toCacheUpdate with ⟨groupsChanged, keyRangeCache⟩
  simp only [System.advancePhase, System.advanceIngest, hresult] at hexclusive haddress ⊢
  cases groupsChanged with
  | false =>
      have hactive := KeyRangeCache.activeAddresses_of_addRanges_eq_false (congrArg Prod.fst hresult)
      rw [hresult] at hactive
      have hquiet : Quiet system call.phase (.returned, { system with
          updater := { system.updater with keyRangeCache := keyRangeCache } }) := by
        rw [hphase]
        exact ⟨rfl, hactive, rfl, (fun h => by cases h), .inr (fun h => by cases h),
          (fun h => by cases h), (fun _ h => by cases h)⟩
      exact h.quiet hcall hquiet hexclusive haddress
  | true =>
      have hmem := List.mem_set (List.getElem?_eq_some_iff.mp hcall).1
        (⟨call.cacheUpdate, .ingest guard .addressLock⟩ : ProcessCall)
      refine ⟨hexclusive, haddress, h.scope_ne, fun other call' hcall' hcleared => ?_,
        fun _ _ _ _ _ => .inr ⟨_, hmem, rfl⟩, .inr ⟨_, hmem, rfl⟩⟩
      -- Whoever cleared the table is a writer, and this call holds the lock as well.
      rcases getElem?_set_cases hcall' with ⟨-, rfl⟩ | ⟨hne, hold⟩
      · cases hcleared
      · exact absurd (h.exclusive other index call' call hold hcall
          (Phase.updateGuard_of_isCleared hcleared) (by simp [hphase, Phase.updateGuard])) hne

/-- The only snapshot is published, and whoever changed the table since then waits. -/
theorem register_published (h : Published system) (hcall : system.calls[index]? = some call)
    {guard : Guard} {addresses : Finset String}
    (hphase : call.phase = .ingest guard (.register addresses)) (now : Instant bound)
    (hexclusive : Exclusive (system.advance index now).calls)
    (haddress : AddressExclusive (system.advance index now).calls) :
    Published (system.advance index now) := by
  have hlock : call.phase.holdsAddressLock = true := by rw [hphase]; rfl
  have hsnapshot := h.snapshot index call addresses hcall (by rw [hphase]; rfl)
  rw [system.advance_of_call now hcall, hphase] at hexclusive haddress ⊢
  have hregistered := system.updater.endpoints.manager.addressesOf_updateActiveAddressesAt
    h.scope_ne addresses now system.updater.databaseScope
  rw [if_pos rfl] at hregistered
  refine ⟨hexclusive, haddress, h.scope_ne, fun other call' hcall' hcleared => ?_,
    fun other call' addresses' hcall' hother => ?_, ?_⟩
  · rcases getElem?_set_cases hcall' with ⟨-, rfl⟩ | ⟨-, hold⟩
    · cases hcleared
    · exact h.cleared other call' hold hcleared
  · rcases getElem?_set_cases hcall' with ⟨-, rfl⟩ | ⟨hne, hold⟩
    · cases hother
    · exact absurd (h.addressExclusive other index call' call hold hcall
        (Phase.holdsAddressLock_of_snapshot? hother) hlock) hne
  · refine hsnapshot.imp (fun heq => ?_) fun hwaiting => ?_
    · exact (congrArg (Option.getD · ∅) hregistered).trans heq
    · refine Exists.imp (fun other hother => ⟨hother.1, Phase.willPublish_of_waits hother.2⟩)
        (exists_mem_set hcall hwaiting fun hwaits => ?_)
      rw [hphase] at hwaits
      cases hwaits

/-! ## Runs -/

/-- Connections are opened without any effect on the sources. -/
theorem prewarm_addressesOf (addresses : List String) (endpoints : EndpointLifecycle.System bound)
    (source : String) :
    (addresses.foldl (fun endpoints address => endpoints.step (.prewarmEndpoint address))
      endpoints).manager.addressesOf source = endpoints.manager.addressesOf source := by
  induction addresses generalizing endpoints with
  | nil => rfl
  | cons address addresses ih =>
      rw [List.foldl_cons, ih]
      exact endpoints.step_addressesOf rfl

/-- All other steps are quiet. -/
theorem advancePhase_quiet (system : System bound) (cacheUpdate : CacheUpdate) (now : Instant bound)
    {phase : Phase} (hclear : phase ≠ .clearRanges) (hunregister : phase ≠ .unregister)
    (hranges : ∀ guard, phase ≠ .ingest guard .ranges)
    (hregister : ∀ guard addresses, phase ≠ .ingest guard (.register addresses)) :
    Quiet system phase (system.advancePhase cacheUpdate now phase) := by
  cases phase with
  | check => exact .of_no_duty rfl rfl rfl rfl rfl rfl
  | acquire guard =>
      simp only [System.advancePhase]
      split <;> exact .of_no_duty rfl rfl rfl rfl rfl rfl
  | recheck guard =>
      cases guard with
      | read =>
          simp only [System.advancePhase]
          split <;> exact .of_no_duty rfl rfl rfl rfl rfl rfl
      | write =>
          simp only [System.advancePhase]
          split
          · split
            · exact .of_no_duty rfl rfl rfl rfl rfl rfl
            · split <;> exact .of_no_duty rfl rfl rfl rfl rfl rfl
          · exact .of_no_duty rfl rfl rfl rfl rfl rfl
  | clearRanges => exact absurd rfl hclear
  | clearRecipes =>
      exact ⟨rfl, rfl, rfl, fun _ => rfl, .inr (fun h => by cases h), fun _ => rfl,
        (fun _ h => by cases h)⟩
  | unregister => exact absurd rfl hunregister
  | storeId => exact .of_no_duty rfl rfl rfl rfl rfl rfl
  | ingest guard stage =>
      cases stage with
      | recipes => exact .of_no_duty rfl rfl rfl rfl rfl rfl
      | ranges => exact absurd rfl (hranges guard)
      | addressLock =>
          simp only [System.advancePhase, System.advanceIngest]
          cases hlocked : system.isAddressLocked with
          | true =>
              exact ⟨rfl, rfl, rfl, fun _ => rfl, .inr fun _ => rfl, (fun h => by cases h),
                (fun _ h => by cases h)⟩
          | false =>
              exact ⟨rfl, rfl, rfl, fun _ => rfl, .inl hlocked, (fun h => by cases h),
                (fun _ h => by cases h)⟩
      | snapshot =>
          refine ⟨rfl, rfl, rfl, fun _ => rfl, .inr (fun h => by cases h), (fun h => by cases h),
            fun addresses haddresses => ?_⟩
          exact (Option.some.inj haddresses).symm
      | register addresses => exact absurd rfl (hregister guard addresses)
      | prewarm newlyRegistered =>
          refine ⟨rfl, rfl, ?_, (fun h => by cases h), .inr (fun h => by cases h),
            (fun h => by cases h), (fun _ h => by cases h)⟩
          exact congrArg (Option.getD · ∅) (prewarm_addressesOf _ _ _)
  | returned => exact .of_no_duty rfl rfl rfl rfl rfl rfl

theorem advance_published (h : Published system) (index : ℕ) (now : Instant bound) :
    Published (system.advance index now) := by
  have hexclusive := advance_exclusive h.exclusive index now
  have haddress := advance_addressExclusive h.addressExclusive index now
  cases hcall : system.calls[index]? with
  | none =>
      have hsame : system.advance index now = system := by simp [System.advance, hcall]
      rwa [hsame]
  | some call =>
      by_cases hclear : call.phase = .clearRanges
      · exact clearRanges_published h hcall hclear now hexclusive haddress
      by_cases hunregister : call.phase = .unregister
      · exact unregister_published h hcall hunregister now hexclusive haddress
      by_cases hranges : ∃ guard, call.phase = .ingest guard .ranges
      · obtain ⟨guard, hranges⟩ := hranges
        exact ranges_published h hcall hranges now hexclusive haddress
      by_cases hregister : ∃ guard addresses, call.phase = .ingest guard (.register addresses)
      · obtain ⟨guard, addresses, hregister⟩ := hregister
        exact register_published h hcall hregister now hexclusive haddress
      rw [system.advance_of_call now hcall] at hexclusive haddress ⊢
      refine h.quiet hcall (advancePhase_quiet system call.cacheUpdate now hclear hunregister ?_ ?_)
        hexclusive haddress
      · exact fun guard heq => hranges ⟨guard, heq⟩
      · exact fun guard addresses heq => hregister ⟨guard, addresses, heq⟩

/-- A step outside the calls that changes neither the addresses nor the registration. -/
theorem Published.of_updater (h : Published system) {updater : Updater bound}
    (hscope : updater.databaseScope = system.updater.databaseScope)
    (hactive : activeAddresses updater.keyRangeCache =
      activeAddresses system.updater.keyRangeCache)
    (hregistered : ({ system with updater := updater } : System bound).registered =
      system.registered) :
    Published { system with updater := updater } where
  exclusive := h.exclusive
  addressExclusive := h.addressExclusive
  scope_ne := hscope ▸ h.scope_ne
  cleared := by
    intro other call hcall hphase
    rw [hactive]
    exact h.cleared other call hcall hphase
  snapshot := by
    intro other call addresses hcall hphase
    rw [hactive]
    exact h.snapshot other call addresses hcall hphase
  published := by
    rw [hregistered, hactive]
    exact h.published

theorem step_published (h : Published system) (event : Event bound) :
    Published (system.step event) := by
  cases event with
  | process cacheUpdate =>
      have hmem : ∀ {condition : ProcessCall → Prop}, (∃ call ∈ system.calls, condition call) →
          ∃ call ∈ system.calls ++ [⟨cacheUpdate, .check⟩], condition call := by
        rintro condition ⟨call, hcall, hcondition⟩
        exact ⟨call, List.mem_append_left _ hcall, hcondition⟩
      refine ⟨fun i j a b ha hb hwrite hheld => ?_, fun i j a b ha hb hheld hheld' => ?_, h.scope_ne,
        fun other call hcall hphase => ?_, fun other call addresses hcall hphase => ?_,
        h.published.imp_right hmem⟩
      · rcases getElem?_concat_cases ha with ha | ⟨-, rfl⟩
        · rcases getElem?_concat_cases hb with hb | ⟨-, rfl⟩
          · exact h.exclusive i j a b ha hb hwrite hheld
          · exact absurd rfl hheld
        · cases hwrite
      · rcases getElem?_concat_cases ha with ha | ⟨-, rfl⟩
        · rcases getElem?_concat_cases hb with hb | ⟨-, rfl⟩
          · exact h.addressExclusive i j a b ha hb hheld hheld'
          · cases hheld'
        · cases hheld
      · rcases getElem?_concat_cases hcall with hcall | ⟨-, rfl⟩
        · exact h.cleared other call hcall hphase
        · cases hphase
      · rcases getElem?_concat_cases hcall with hcall | ⟨-, rfl⟩
        · exact (h.snapshot other call addresses hcall hphase).imp_right hmem
        · cases hphase
  | advance index now => exact advance_published h index now
  | findRange uniformRandom key limit mode =>
      refine h.of_updater rfl (KeyRangeCache.activeAddresses_congr fun groupUid => ?_) rfl
      rw [KeyRangeCache.getGroup, KeyRangeCache.findRange_groups]
      rfl
  | getRecipe target => exact h.of_updater rfl rfl rfl
  | endpoint event =>
      simp only [System.step]
      split
      · exact h
      · rename_i htouches
        refine h.of_updater rfl rfl (congrArg (Option.getD · ∅) ?_)
        exact system.updater.endpoints.step_addressesOf (Bool.not_eq_true _ ▸ htouches)

theorem new_published {databaseScope : String} (hscope : databaseScope ≠ "")
    (idleEvictionDuration : Duration) (defaultEndpointAddress : String) :
    Published (System.new databaseScope idleEvictionDuration defaultEndpointAddress :
      System bound) where
  exclusive := by simp [Exclusive, System.new]
  addressExclusive := by simp [AddressExclusive, System.new]
  scope_ne := hscope
  cleared := by simp [System.new]
  snapshot := by simp [System.new]
  published := .inl rfl

/-- Once every call has returned, the addresses registered for the source of the updater are
exactly those of the routing table. -/
theorem run_registered {databaseScope : String} (hscope : databaseScope ≠ "")
    (idleEvictionDuration : Duration) (defaultEndpointAddress : String)
    (events : List (Event bound)) :
    let system := (System.new databaseScope idleEvictionDuration defaultEndpointAddress).run events
    (∀ call ∈ system.calls, call.phase = .returned) →
      system.registered = activeAddresses system.updater.keyRangeCache := by
  intro system hreturned
  have h : Published system :=
    foldl_invariant (motive := Published) (fun _ event hs => step_published hs event)
      (new_published hscope _ _) events
  rcases h.published with heq | ⟨call, hcall, hduty⟩
  · exact heq
  · rw [hreturned call hcall] at hduty
    cases hduty

/-- The second call replaces the group while the first one is about to publish its address. -/
def lateSnapshot : List (Event 10) :=
  let cacheUpdate (generation : UInt8) (serverAddress : String) : CacheUpdate := {
    range := [⟨[1], [5], 7, 1, [1]⟩]
    group := [⟨7, [⟨1, serverAddress, "", .readWrite, [], 0, false⟩], 0, [generation]⟩]
    databaseId := 0
    keyRecipes := none }
  let advance (index steps : ℕ) : List (Event 10) :=
    List.replicate steps (.advance index ⟨0, by decide⟩)
  [.process (cacheUpdate 1 "a"), .process (cacheUpdate 2 "b")] ++ advance 0 7 ++ advance 1 7 ++
    advance 0 2 ++ advance 1 4

theorem run_registered_lateSnapshot :
    let system := (System.new "db" (Duration.fromSecs 1) "default").run lateSnapshot
    (∀ call ∈ system.calls, call.phase = .returned) ∧ "b" ∈ system.registered ∧
      system.registered = activeAddresses system.updater.keyRangeCache := by
  have hreturned : ∀ call ∈
      ((System.new "db" (Duration.fromSecs 1) "default").run lateSnapshot).calls,
      call.phase = .returned := by
    decide +kernel
  have hregistered := run_registered (by decide : "db" ≠ "") (Duration.fromSecs 1) "default"
    lateSnapshot hreturned
  refine ⟨hreturned, ?_, hregistered⟩
  rw [hregistered]
  decide +kernel

end GoogleCloudRust.CacheUpdater
