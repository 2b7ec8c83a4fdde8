import GoogleCloudRust.Verification.CacheUpdater.Locks
import GoogleCloudRust.Verification.KeyRangeCache.Contributions
import GoogleCloudRust.Verification.KeyRangeCache.References
import GoogleCloudRust.Verification.KeyRecipeCache.Generations

/-! # Database incarnations do not mix

Whatever the caches hold was contributed by an update of the current database or by one
without a database id. -/

namespace GoogleCloudRust.CacheUpdater

open Interleaving

variable {bound : ℕ}

/-! ## Contributions -/

/-- The range belongs to an ingested update whose database id is valid. -/
def Submitted (valid : UInt64 → Prop) (ingested : List CacheUpdate)
    (rangeIn : KeyRangeCache.Range) : Prop :=
  ∃ cacheUpdate ∈ ingested, valid cacheUpdate.databaseId ∧ rangeIn ∈ cacheUpdate.range

/-- Ranges and groups come from ingested updates whose database id is valid. -/
structure RangesFrom (valid : UInt64 → Prop) (ingested : List CacheUpdate)
    (cache : KeyRangeCache.Cache) : Prop where
  ranges : KeyRangeCache.Stores (Submitted valid ingested) cache.state.ranges
  groups : ∀ groupUid group, KeyRangeCache.getGroup cache groupUid = some group →
    ∃ cacheUpdate ∈ ingested, valid cacheUpdate.databaseId ∧
      ∃ groupIn ∈ cacheUpdate.group, groupIn.groupUid = groupUid ∧ group = .fromProto groupIn

/-- Recipes come from ingested updates whose database id is valid. -/
def RecipesFrom (valid : UInt64 → Prop) (ingested : List CacheUpdate)
    (cache : KeyRecipeCache.Cache) : Prop :=
  ∀ target recipe, cache.store.recipeAt target = some recipe →
    ∃ cacheUpdate ∈ ingested, valid cacheUpdate.databaseId ∧
      ∃ keyRecipes, cacheUpdate.keyRecipes = some keyRecipes ∧
        recipe ∈ keyRecipes.recipe ∧ recipe.target = some target

/-- An update of this database, or one that names none. -/
def Current (databaseId updateDatabaseId : UInt64) : Prop :=
  updateDatabaseId = databaseId ∨ updateDatabaseId = 0

variable {valid valid' : UInt64 → Prop} {ingested ingested' : List CacheUpdate}
  {keyRangeCache : KeyRangeCache.Cache} {keyRecipeCache : KeyRecipeCache.Cache}
  {cacheUpdate : CacheUpdate}

theorem RangesFrom.mono (h : RangesFrom valid ingested keyRangeCache)
    (hvalid : ∀ id, valid id → valid' id) (hsub : ingested ⊆ ingested') :
    RangesFrom valid' ingested' keyRangeCache := by
  refine ⟨fun e he => ?_, fun groupUid group hgroup => ?_⟩
  · obtain ⟨rangeIn, ⟨origin, horigin, hid, hmem⟩, hpart⟩ := h.ranges e he
    exact ⟨rangeIn, ⟨origin, hsub horigin, hvalid _ hid, hmem⟩, hpart⟩
  · obtain ⟨origin, horigin, hid, hfound⟩ := h.groups groupUid group hgroup
    exact ⟨origin, hsub horigin, hvalid _ hid, hfound⟩

theorem RecipesFrom.mono (h : RecipesFrom valid ingested keyRecipeCache)
    (hvalid : ∀ id, valid id → valid' id) (hsub : ingested ⊆ ingested') :
    RecipesFrom valid' ingested' keyRecipeCache := by
  intro target recipe hrecipe
  obtain ⟨origin, horigin, hid, hfound⟩ := h target recipe hrecipe
  exact ⟨origin, hsub horigin, hvalid _ hid, hfound⟩

theorem clear_rangesFrom (cache : KeyRangeCache.Cache) :
    RangesFrom valid ingested (KeyRangeCache.clear cache) := by
  refine ⟨fun e he => absurd he OrdMap.not_mem_empty, fun groupUid group hgroup => ?_⟩
  simp [KeyRangeCache.getGroup, KeyRangeCache.clear] at hgroup

theorem clear_recipesFrom (cache : KeyRecipeCache.Cache) :
    RecipesFrom valid ingested (KeyRecipeCache.clear cache) := by
  intro target recipe hrecipe
  rw [(KeyRecipeCache.clear_recipeAt cache).2 target] at hrecipe
  cases hrecipe

theorem addRanges_rangesFrom (hexact : KeyRangeCache.Exact keyRangeCache.state)
    (h : RangesFrom valid ingested keyRangeCache) (hmem : cacheUpdate ∈ ingested)
    (hid : valid cacheUpdate.databaseId) :
    RangesFrom valid ingested
      (KeyRangeCache.addRanges keyRangeCache cacheUpdate.toCacheUpdate).2 := by
  refine ⟨KeyRangeCache.addRanges_stores hexact.wellFormed h.ranges fun rangeIn hrange =>
    ⟨cacheUpdate, hmem, hid, hrange⟩, fun groupUid group hgroup => ?_⟩
  rw [KeyRangeCache.getGroup_eq_payload] at hgroup
  rcases KeyRangeCache.addRanges_payload keyRangeCache cacheUpdate.toCacheUpdate groupUid with
    heq | ⟨-, hnone | ⟨groupIn, hgroupIn, huid, hpayload⟩⟩
  · exact h.groups groupUid group (heq.symm.trans hgroup)
  · rw [hnone] at hgroup
    cases hgroup
  · rw [hpayload] at hgroup
    exact ⟨cacheUpdate, hmem, hid, groupIn, hgroupIn, huid, (Option.some.inj hgroup).symm⟩

/-! ## What a call may rely on -/

/-- The caches and what they hold. -/
structure Sourced (updater : Updater bound) (ingested : List CacheUpdate) : Prop where
  exact : KeyRangeCache.Exact updater.keyRangeCache.state
  synced : updater.keyRecipeCache.store.Synced
  ranges : RangesFrom (Current updater.databaseId) ingested updater.keyRangeCache
  recipes : RecipesFrom (Current updater.databaseId) ingested updater.keyRecipeCache

/-- What holds when a call is at the given phase. -/
def Allowed (updater : Updater bound) (ingested : List CacheUpdate) (cacheUpdate : CacheUpdate) :
    Phase → Prop
  | .acquire .write | .recheck .write => cacheUpdate.databaseId ≠ 0
  | .acquire .read | .recheck .read =>
      cacheUpdate.databaseId = 0 ∨ cacheUpdate.databaseId ≤ updater.databaseId
  | .clearRanges => updater.databaseId < cacheUpdate.databaseId
  | .clearRecipes => updater.databaseId < cacheUpdate.databaseId ∧
      RangesFrom (· = 0) ingested updater.keyRangeCache
  | .unregister | .storeId => updater.databaseId < cacheUpdate.databaseId ∧
      RangesFrom (· = 0) ingested updater.keyRangeCache ∧
      RecipesFrom (· = 0) ingested updater.keyRecipeCache
  | .ingest _ .recipes => Current updater.databaseId cacheUpdate.databaseId
  | .ingest _ .ranges =>
      Current updater.databaseId cacheUpdate.databaseId ∧ cacheUpdate ∈ ingested
  | .check | .ingest _ _ | .returned => True

/-- A step of another call that does not write under this one, and changes the database id
only while this one holds nothing. -/
theorem Allowed.of_other {updater updater' : Updater bound} {phase : Phase}
    (h : Allowed updater ingested cacheUpdate phase)
    (hle : updater.databaseId ≤ updater'.databaseId) (hsub : ingested ⊆ ingested')
    (hwrite : phase.updateGuard ≠ some .write)
    (hid : updater'.databaseId = updater.databaseId ∨ phase.updateGuard = none) :
    Allowed updater' ingested' cacheUpdate phase := by
  cases phase with
  | acquire guard =>
      cases guard with
      | read => exact h.imp_right fun hle' => UInt64.le_trans hle' hle
      | write => exact h
  | recheck guard =>
      cases guard with
      | read => exact h.imp_right fun hle' => UInt64.le_trans hle' hle
      | write => exact absurd rfl hwrite
  | ingest guard stage =>
      have heq : updater'.databaseId = updater.databaseId := hid.resolve_right (by
        simp [Phase.updateGuard])
      cases stage with
      | recipes => simpa only [Allowed, heq] using h
      | ranges =>
          rw [Allowed, heq]
          exact ⟨h.1, hsub h.2⟩
      | _ => trivial
  | check => trivial
  | returned => trivial
  | _ => exact absurd rfl hwrite

/-! ## One step -/

/-- What the step of a call achieves. -/
structure StepSound (system : System bound) (cacheUpdate : CacheUpdate)
    (next : Phase × System bound) : Prop where
  sourced : Sourced next.2.updater next.2.ingested
  allowed : Allowed next.2.updater next.2.ingested cacheUpdate next.1
  le : system.updater.databaseId ≤ next.2.updater.databaseId
  sub : system.ingested ⊆ next.2.ingested

variable {system : System bound}

/-- A step that only moves the call on. -/
theorem StepSound.stay (hs : Sourced system.updater system.ingested) {phase : Phase}
    (h : Allowed system.updater system.ingested cacheUpdate phase) :
    StepSound system cacheUpdate (phase, system) :=
  ⟨hs, h, UInt64.le_rfl, List.Subset.refl _⟩

theorem advanceIngest_stepSound (hs : Sourced system.updater system.ingested) {guard : Guard}
    {stage : Ingest} (h : Allowed system.updater system.ingested cacheUpdate (.ingest guard stage))
    (now : Instant bound) :
    StepSound system cacheUpdate (system.advanceIngest cacheUpdate guard now stage) := by
  cases stage with
  | recipes =>
      have hsub : system.ingested ⊆ system.ingested ++ [cacheUpdate] :=
        List.subset_append_left _ _
      have hmem : cacheUpdate ∈ system.ingested ++ [cacheUpdate] := by simp
      have hrecipes := hs.recipes.mono (fun _ hid => hid) hsub
      cases hkeyRecipes : cacheUpdate.keyRecipes with
      | none =>
          simp only [System.advanceIngest, hkeyRecipes]
          exact ⟨⟨hs.exact, hs.synced, hs.ranges.mono (fun _ hid => hid) hsub, hrecipes⟩,
            ⟨h, hmem⟩, UInt64.le_rfl, hsub⟩
      | some keyRecipes =>
          obtain ⟨hsynced, hfound⟩ :=
            KeyRecipeCache.updateFromRecipeList_recipeAt hs.synced keyRecipes
          simp only [System.advanceIngest, hkeyRecipes]
          refine ⟨⟨hs.exact, hsynced, hs.ranges.mono (fun _ hid => hid) hsub,
            fun target recipe hrecipe => ?_⟩, ⟨h, hmem⟩, UInt64.le_rfl, hsub⟩
          rcases hfound target recipe hrecipe with hold | hnew
          · exact hrecipes target recipe hold
          · exact ⟨cacheUpdate, hmem, h, keyRecipes, hkeyRecipes, hnew⟩
  | ranges =>
      obtain ⟨hid, hmem⟩ := h
      refine ⟨⟨KeyRangeCache.exact_addRanges hs.exact _, hs.synced,
        addRanges_rangesFrom hs.exact hs.ranges hmem hid, hs.recipes⟩, ?_, UInt64.le_rfl,
        List.Subset.refl _⟩
      simp only [System.advanceIngest]
      split <;> trivial
  | addressLock =>
      simp only [System.advanceIngest]
      split <;> exact StepSound.stay hs trivial
  | snapshot => exact StepSound.stay hs trivial
  | register activeAddresses => exact ⟨⟨hs.exact, hs.synced, hs.ranges, hs.recipes⟩, trivial,
      UInt64.le_rfl, List.Subset.refl _⟩
  | prewarm newlyRegistered => exact ⟨⟨hs.exact, hs.synced, hs.ranges, hs.recipes⟩, trivial,
      UInt64.le_rfl, List.Subset.refl _⟩

theorem advancePhase_stepSound (hs : Sourced system.updater system.ingested) {phase : Phase}
    (h : Allowed system.updater system.ingested cacheUpdate phase) (now : Instant bound) :
    StepSound system cacheUpdate (system.advancePhase cacheUpdate now phase) := by
  cases phase with
  | check =>
      simp only [System.advancePhase]
      split
      · rename_i hdiffers
        exact StepSound.stay hs hdiffers.1
      · rename_i hsame
        refine StepSound.stay hs ?_
        by_cases hzero : cacheUpdate.databaseId = 0
        · exact .inl hzero
        · exact .inr (UInt64.le_of_eq (not_not.mp fun hne => hsame ⟨hzero, fun heq => hne heq.symm⟩))
  | acquire guard =>
      simp only [System.advancePhase]
      split
      · cases guard <;> exact StepSound.stay hs h
      · exact StepSound.stay hs h
  | recheck guard =>
      cases guard with
      | read =>
          simp only [System.advancePhase]
          split
          · exact StepSound.stay hs trivial
          · rename_i hnewer
            refine StepSound.stay hs ?_
            -- The database id has not moved past the one of the update.
            rcases h with hzero | hle
            · exact .inr hzero
            · by_cases hzero : cacheUpdate.databaseId = 0
              · exact .inr hzero
              · exact .inl (UInt64.le_antisymm hle (UInt64.not_lt.mp fun hlt => hnewer ⟨hzero, hlt⟩))
      | write =>
          simp only [System.advancePhase]
          split
          · rename_i hne
            split
            · exact StepSound.stay hs trivial
            · rename_i hstale
              split
              · rename_i hcurrent
                have hle : system.updater.databaseId ≤ cacheUpdate.databaseId :=
                  UInt64.not_lt.mp fun hlt => hstale ⟨hcurrent, hlt⟩
                exact StepSound.stay hs (UInt64.lt_of_le_of_ne hle hne)
              · rename_i hcurrent
                have hzero : system.updater.databaseId = 0 := not_not.mp hcurrent
                have hvalid : ∀ id, Current system.updater.databaseId id → id = 0 :=
                  fun id hid => hid.elim (fun heq => heq.trans hzero) fun heq => heq
                refine StepSound.stay hs ⟨?_, hs.ranges.mono hvalid (List.Subset.refl _),
                  hs.recipes.mono hvalid (List.Subset.refl _)⟩
                rw [hzero]
                exact UInt64.pos_iff_ne_zero.mpr h
          · rename_i heq
            exact StepSound.stay hs (.inr (UInt64.le_of_eq (not_not.mp heq).symm))
  | clearRanges => exact ⟨⟨KeyRangeCache.exact_new, hs.synced, clear_rangesFrom _, hs.recipes⟩,
      ⟨h, clear_rangesFrom _⟩, UInt64.le_rfl, List.Subset.refl _⟩
  | clearRecipes =>
      exact ⟨⟨hs.exact, (KeyRecipeCache.clear_recipeAt _).1, hs.ranges, clear_recipesFrom _⟩,
        ⟨h.1, h.2, clear_recipesFrom _⟩, UInt64.le_rfl, List.Subset.refl _⟩
  | unregister => exact ⟨⟨hs.exact, hs.synced, hs.ranges, hs.recipes⟩, h, UInt64.le_rfl,
      List.Subset.refl _⟩
  | storeId =>
      obtain ⟨hlt, hranges, hrecipes⟩ := h
      exact ⟨⟨hs.exact, hs.synced, hranges.mono (fun _ => .inr) (List.Subset.refl _),
        hrecipes.mono (fun _ => .inr) (List.Subset.refl _)⟩, .inl rfl, UInt64.le_of_lt hlt,
        List.Subset.refl _⟩
  | ingest guard stage => exact advanceIngest_stepSound hs h now
  | returned => exact StepSound.stay hs trivial

/-- A call without a guard changes nothing but its phase. -/
theorem advancePhase_of_no_guard {phase : Phase} (h : phase.updateGuard = none)
    (now : Instant bound) : (system.advancePhase cacheUpdate now phase).2 = system := by
  cases phase with
  | check => rfl
  | acquire guard => rfl
  | returned => rfl
  | _ => simp [Phase.updateGuard] at h

/-- Only a writer changes the database id. -/
theorem advancePhase_databaseId {phase : Phase} (h : phase.updateGuard ≠ some .write)
    (now : Instant bound) :
    (system.advancePhase cacheUpdate now phase).2.updater.databaseId =
      system.updater.databaseId := by
  cases phase with
  | check => rfl
  | acquire guard => rfl
  | returned => rfl
  | recheck guard =>
      cases guard with
      | read =>
          simp only [System.advancePhase]
          split <;> rfl
      | write => exact absurd rfl h
  | ingest guard stage => cases stage <;> rfl
  | _ => exact absurd rfl h

/-! ## Runs -/

/-- What every interleaving maintains. -/
structure Sound (system : System bound) : Prop where
  exclusive : Exclusive system.calls
  sourced : Sourced system.updater system.ingested
  allowed : ∀ (index : ℕ) (call : ProcessCall), system.calls[index]? = some call →
    Allowed system.updater system.ingested call.cacheUpdate call.phase

theorem advance_sound (h : Sound system) (index : ℕ) (now : Instant bound) :
    Sound (system.advance index now) ∧
      system.updater.databaseId ≤ (system.advance index now).updater.databaseId := by
  have hexclusive := advance_exclusive h.exclusive index now
  cases hcall : system.calls[index]? with
  | none =>
      have hsame : system.advance index now = system := by simp [System.advance, hcall]
      rw [hsame]
      exact ⟨h, UInt64.le_rfl⟩
  | some call =>
      have hstep := advancePhase_stepSound h.sourced (h.allowed index call hcall) now
      rw [system.advance_of_call now hcall] at hexclusive ⊢
      refine ⟨⟨hexclusive, hstep.sourced, fun other call' hcall' => ?_⟩, hstep.le⟩
      rcases getElem?_set_cases hcall' with ⟨rfl, rfl⟩ | ⟨hne, hold⟩
      · exact hstep.allowed
      · have hallowed := h.allowed other call' hold
        -- The guard of the stepping call keeps the others from what it changes.
        cases hguard : call.phase.updateGuard with
        | none => rwa [advancePhase_of_no_guard hguard now]
        | some guard =>
            have hwrite : call'.phase.updateGuard ≠ some .write := by
              intro hwrite
              exact hne (h.exclusive other index call' call hold hcall hwrite (by simp [hguard]))
            refine hallowed.of_other hstep.le hstep.sub hwrite ?_
            cases guard with
            | read => exact .inl (advancePhase_databaseId (by simp [hguard]) now)
            | write =>
                refine .inr (not_not.mp fun hheld => hne ?_)
                exact (h.exclusive index other call call' hcall hold hguard hheld).symm

/-- A step outside the calls that keeps the origin of everything. -/
theorem Sound.of_caches (h : Sound system) {updater : Updater bound}
    (hid : updater.databaseId = system.updater.databaseId)
    (hexact : KeyRangeCache.Exact updater.keyRangeCache.state)
    (hsynced : updater.keyRecipeCache.store.Synced)
    (hranges : ∀ valid, RangesFrom valid system.ingested system.updater.keyRangeCache →
      RangesFrom valid system.ingested updater.keyRangeCache)
    (hrecipes : ∀ valid, RecipesFrom valid system.ingested system.updater.keyRecipeCache →
      RecipesFrom valid system.ingested updater.keyRecipeCache) :
    Sound { system with updater := updater } := by
  refine ⟨h.exclusive, ⟨hexact, hsynced, ?_, ?_⟩, fun index call hcall => ?_⟩
  · rw [hid]
    exact hranges _ h.sourced.ranges
  · rw [hid]
    exact hrecipes _ h.sourced.recipes
  · have hallowed := h.allowed index call hcall
    rcases call with ⟨cacheUpdate, phase⟩
    cases phase with
    | acquire guard => cases guard <;> simpa only [Allowed, hid] using hallowed
    | recheck guard => cases guard <;> simpa only [Allowed, hid] using hallowed
    | clearRanges => simpa only [Allowed, hid] using hallowed
    | clearRecipes => exact ⟨hid.symm ▸ hallowed.1, hranges _ hallowed.2⟩
    | unregister => exact ⟨hid.symm ▸ hallowed.1, hranges _ hallowed.2.1, hrecipes _ hallowed.2.2⟩
    | storeId => exact ⟨hid.symm ▸ hallowed.1, hranges _ hallowed.2.1, hrecipes _ hallowed.2.2⟩
    | ingest guard stage =>
        cases stage with
        | recipes => simpa only [Allowed, hid] using hallowed
        | ranges => simpa only [Allowed, hid] using hallowed
        | _ => trivial
    | check => trivial
    | returned => trivial

theorem findRange_rangesFrom (h : RangesFrom valid ingested keyRangeCache)
    (uniformRandom : ℕ → ℕ) (key limit : Bytes) (mode : KeyRangeCache.RangeMode) :
    RangesFrom valid ingested
      (KeyRangeCache.findRange keyRangeCache uniformRandom key limit mode).2 := by
  refine ⟨KeyRangeCache.findRange_stores h.ranges uniformRandom key limit mode,
    fun groupUid group hgroup => h.groups groupUid group ?_⟩
  rwa [KeyRangeCache.getGroup, KeyRangeCache.findRange_groups] at hgroup

theorem getRecipe_recipeAt (hsynced : keyRecipeCache.store.Synced) (target : Target) :
    (System.getRecipe keyRecipeCache target).store.Synced ∧ ∀ other,
      (System.getRecipe keyRecipeCache target).store.recipeAt other =
        keyRecipeCache.store.recipeAt other := by
  cases target with
  | tableName name =>
      exact KeyRecipeCache.step_recipeAt hsynced (.getTableRecipe name) (by simp) (by simp)
  | indexName name =>
      exact KeyRecipeCache.step_recipeAt hsynced (.getIndexRecipe name) (by simp) (by simp)
  | operationUid uid =>
      exact KeyRecipeCache.step_recipeAt hsynced (.getQueryRecipe uid) (by simp) (by simp)

theorem step_sound (h : Sound system) (event : Event bound) :
    Sound (system.step event) ∧
      system.updater.databaseId ≤ (system.step event).updater.databaseId := by
  cases event with
  | process cacheUpdate =>
      refine ⟨⟨fun i j a b ha hb hwrite hheld => ?_, h.sourced, fun index call hcall => ?_⟩,
        UInt64.le_rfl⟩
      · rcases getElem?_concat_cases ha with ha | ⟨-, rfl⟩
        · rcases getElem?_concat_cases hb with hb | ⟨-, rfl⟩
          · exact h.exclusive i j a b ha hb hwrite hheld
          · exact absurd rfl hheld
        · cases hwrite
      · rcases getElem?_concat_cases hcall with hcall | ⟨-, rfl⟩
        · exact h.allowed index call hcall
        · trivial
  | advance index now => exact advance_sound h index now
  | findRange uniformRandom key limit mode =>
      refine ⟨h.of_caches rfl ?_ h.sourced.synced (fun valid hranges => ?_) fun _ => id,
        UInt64.le_rfl⟩
      · exact KeyRangeCache.exact_step (.findRange uniformRandom key limit mode) h.sourced.exact
      · exact findRange_rangesFrom hranges uniformRandom key limit mode
  | getRecipe target =>
      obtain ⟨hsynced, hrecipes⟩ := getRecipe_recipeAt h.sourced.synced target
      refine ⟨h.of_caches rfl h.sourced.exact hsynced (fun _ => id)
        fun valid hfrom other recipe hrecipe => ?_, UInt64.le_rfl⟩
      exact hfrom other recipe ((hrecipes other).symm.trans hrecipe)
  | endpoint event =>
      simp only [System.step]
      split
      · exact ⟨h, UInt64.le_rfl⟩
      · exact ⟨h.of_caches rfl h.sourced.exact h.sourced.synced (fun _ => id) fun _ => id,
          UInt64.le_rfl⟩

theorem new_sound (databaseScope : String) (idleEvictionDuration : Duration)
    (defaultEndpointAddress : String) :
    Sound (System.new databaseScope idleEvictionDuration defaultEndpointAddress :
      System bound) where
  exclusive := by simp [Exclusive, System.new]
  sourced := {
    exact := KeyRangeCache.exact_new
    synced := KeyRecipeCache.RecipeStore.withCapacities_synced _ _
    ranges := clear_rangesFrom KeyRangeCache.new
    recipes := fun target recipe hrecipe => by
      cases target <;> simp [System.new, new, KeyRecipeCache.new, KeyRecipeCache.RecipeStore.recipeAt,
        KeyRecipeCache.RecipeStore.withCapacities, ClockStore.withCapacity, ClockStore.value?]
        at hrecipe }
  allowed := by simp [System.new]

theorem run_sound (h : Sound system) (events : List (Event bound)) : Sound (system.run events) :=
  foldl_invariant (motive := Sound) (fun _ event hs => (step_sound hs event).1) h events

/-- In every interleaving the database id only grows, and at every moment each stored range,
group and recipe was contributed by an ingested update of the current database or of none. -/
theorem run_incarnations (databaseScope : String) (idleEvictionDuration : Duration)
    (defaultEndpointAddress : String) (events : List (Event bound)) :
    let system := (System.new databaseScope idleEvictionDuration defaultEndpointAddress).run events
    let databaseId := system.updater.databaseId
    let keyRangeCache := system.updater.keyRangeCache
    (∀ later, databaseId ≤ (system.run later).updater.databaseId) ∧
    (∀ e ∈ keyRangeCache.state.ranges, ∃ cacheUpdate ∈ system.ingested,
      (cacheUpdate.databaseId = databaseId ∨ cacheUpdate.databaseId = 0) ∧
        ∃ rangeIn ∈ cacheUpdate.range, KeyRangeCache.IsPart e.2 rangeIn) ∧
    (∀ groupUid ∈ keyRangeCache.state.groups,
      (∃ e ∈ keyRangeCache.state.ranges, e.2.groupUid = groupUid) ∧
      ∀ group, KeyRangeCache.getGroup keyRangeCache groupUid = some group →
        ∃ cacheUpdate ∈ system.ingested,
          (cacheUpdate.databaseId = databaseId ∨ cacheUpdate.databaseId = 0) ∧
            ∃ groupIn ∈ cacheUpdate.group,
              groupIn.groupUid = groupUid ∧ group = .fromProto groupIn) ∧
    (∀ target recipe, system.updater.keyRecipeCache.store.recipeAt target = some recipe →
      ∃ cacheUpdate ∈ system.ingested,
        (cacheUpdate.databaseId = databaseId ∨ cacheUpdate.databaseId = 0) ∧
          ∃ keyRecipes, cacheUpdate.keyRecipes = some keyRecipes ∧
            recipe ∈ keyRecipes.recipe ∧ recipe.target = some target) := by
  intro system databaseId keyRangeCache
  have h : Sound system := run_sound (new_sound _ _ _) events
  refine ⟨fun later => ?_, fun e he => ?_, fun groupUid hmem => ⟨?_, ?_⟩, h.sourced.recipes⟩
  · rw [UInt64.le_iff_toNat_le]
    exact foldl_monotone (fun system : System bound => system.updater.databaseId.toNat)
      (fun _ event hs => (step_sound hs event).1)
      (fun _ event hs => UInt64.le_iff_toNat_le.mp (step_sound hs event).2) h later
  · obtain ⟨rangeIn, ⟨cacheUpdate, hingested, hid, hrange⟩, hpart⟩ := h.sourced.ranges.ranges e he
    exact ⟨cacheUpdate, hingested, hid, rangeIn, hrange, hpart⟩
  · exact h.sourced.exact.mem_groups_iff.mp hmem
  · exact h.sourced.ranges.groups groupUid

end GoogleCloudRust.CacheUpdater
