import GoogleCloudRust.Model.KeyRecipeCache
import GoogleCloudRust.Verification.ClockStore.Invariant

/-! # Schema generations

Along every run the stored recipes come from lists of the current schema generation or
from lists without one, and the generation only grows until the cache is cleared. A recipe list
leaves behind only its own recipes, under their targets, and recipes that were stored before. -/

namespace GoogleCloudRust.KeyRecipeCache

namespace RecipeStore

/-- The recipe stored for a target. -/
def recipeAt (store : RecipeStore) : Target → Option KeyRecipe
  | .tableName name => store.tables.value? name
  | .indexName name => store.indexes.value? name
  | .operationUid operationUid => store.queries.value? operationUid

structure Synced (store : RecipeStore) : Prop where
  tables : store.tables.Synced
  indexes : store.indexes.Synced
  queries : store.queries.Synced

theorem withCapacities_synced (schemaCapacity queryCapacity : ℕ) :
    Synced (withCapacities schemaCapacity queryCapacity) :=
  ⟨ClockStore.withCapacity_synced _, ClockStore.withCapacity_synced _,
    ClockStore.withCapacity_synced _⟩

theorem invalidateAll_synced (store : RecipeStore) (newSchemaGeneration : Option Bytes) :
    Synced (store.invalidateAll newSchemaGeneration) :=
  ⟨ClockStore.takeAll_synced _, ClockStore.takeAll_synced _, ClockStore.takeAll_synced _⟩

theorem insertRecipe_synced {store : RecipeStore} (h : Synced store) (target : Target)
    (recipe : KeyRecipe) : Synced (store.insertRecipe target recipe) := by
  cases target with
  | tableName name => exact ⟨ClockStore.insert_synced h.tables _ _, h.indexes, h.queries⟩
  | indexName name => exact ⟨h.tables, ClockStore.insert_synced h.indexes _ _, h.queries⟩
  | operationUid uid => exact ⟨h.tables, h.indexes, ClockStore.insert_synced h.queries _ _⟩

@[simp]
theorem insertRecipe_schemaGeneration (store : RecipeStore) (target : Target)
    (recipe : KeyRecipe) :
    (store.insertRecipe target recipe).schemaGeneration = store.schemaGeneration := by
  cases target <;> rfl

/-- Invalidation empties all three stores at once. -/
theorem recipeAt_invalidateAll (store : RecipeStore) (newSchemaGeneration : Option Bytes)
    (target : Target) : (store.invalidateAll newSchemaGeneration).recipeAt target = none := by
  cases target <;> simp [recipeAt, invalidateAll, ClockStore.takeAll, ClockStore.value?]

/-- A recipe found after an insertion is the inserted one or was there before. -/
theorem recipeAt_insertRecipe {store : RecipeStore} (h : Synced store) {target other : Target}
    {recipe found : KeyRecipe}
    (hfound : (store.insertRecipe target recipe).recipeAt other = some found) :
    (other = target ∧ found = recipe) ∨ (other ≠ target ∧ store.recipeAt other = some found) := by
  cases target with
  | tableName name =>
      cases other with
      | tableName name' =>
          simpa only [RecipeStore.recipeAt, Target.tableName.injEq, ne_eq] using
            ClockStore.insert_value?_cases h.tables hfound
      | indexName name' => exact .inr ⟨by simp, hfound⟩
      | operationUid uid' => exact .inr ⟨by simp, hfound⟩
  | indexName name =>
      cases other with
      | tableName name' => exact .inr ⟨by simp, hfound⟩
      | indexName name' =>
          simpa only [RecipeStore.recipeAt, Target.indexName.injEq, ne_eq] using
            ClockStore.insert_value?_cases h.indexes hfound
      | operationUid uid' => exact .inr ⟨by simp, hfound⟩
  | operationUid uid =>
      cases other with
      | tableName name' => exact .inr ⟨by simp, hfound⟩
      | indexName name' => exact .inr ⟨by simp, hfound⟩
      | operationUid uid' =>
          simpa only [RecipeStore.recipeAt, Target.operationUid.injEq, ne_eq] using
            ClockStore.insert_value?_cases h.queries hfound

end RecipeStore

/-! ## Tags -/

/-- Where the recipe of each target comes from: the recipe that was stored last, and the
schema generation of its list. -/
abbrev Origins := Target → Option (KeyRecipe × Bytes)

/-- Every stored recipe carries a tag, and its tag is `valid`. -/
def Tagged (valid : Bytes → Prop) (store : RecipeStore) (origins : Origins) : Prop :=
  ∀ target recipe, store.recipeAt target = some recipe →
    ∃ generation, origins target = some (recipe, generation) ∧ valid generation

/-- The tag of a recipe that may stay in a store of this generation. -/
def Current (schemaGeneration : Option Bytes) (generation : Bytes) : Prop :=
  generation = [] ∨ schemaGeneration = some generation

/-- A list is dropped when it has nothing to say or comes from an older generation. -/
def isDropped (cache : Cache) (recipeList : RecipeList) : Bool :=
  (recipeList.recipe.isEmpty && recipeList.schemaGeneration.isEmpty) ||
    (switchGeneration cache.store recipeList.schemaGeneration).isNone

/-- Tag the recipes of a list that is stored. -/
def tagRecipes (origins : Origins) (recipeList : RecipeList) : Origins :=
  (targeted recipeList.recipe).foldl (fun origins entry =>
    Function.update origins entry.1 (some (entry.2, recipeList.schemaGeneration))) origins

variable {valid : Bytes → Prop} {store : RecipeStore} {origins : Origins}

theorem insertRecipe_tagged (hsynced : store.Synced) (h : Tagged valid store origins)
    {generation : Bytes} (hvalid : valid generation) (target : Target) (recipe : KeyRecipe) :
    Tagged valid (store.insertRecipe target recipe)
      (Function.update origins target (some (recipe, generation))) := by
  intro other found hfound
  rcases RecipeStore.recipeAt_insertRecipe hsynced hfound with ⟨rfl, rfl⟩ | ⟨hne, hold⟩
  · exact ⟨generation, Function.update_self .., hvalid⟩
  · rw [Function.update_of_ne hne]
    exact h other found hold

/-- Storing the recipes of a list keeps the generation and tags what it stores. -/
theorem insertRecipes_tagged {generation : Bytes} (hvalid : valid generation)
    (entries : List (Target × KeyRecipe)) (hsynced : store.Synced)
    (h : Tagged valid store origins) :
    let store' := entries.foldl (fun store entry => store.insertRecipe entry.1 entry.2) store
    store'.Synced ∧ store'.schemaGeneration = store.schemaGeneration ∧
      Tagged valid store' (entries.foldl (fun origins entry =>
        Function.update origins entry.1 (some (entry.2, generation))) origins) := by
  induction entries generalizing store origins with
  | nil => exact ⟨hsynced, rfl, h⟩
  | cons entry entries ih =>
      obtain ⟨hsynced', hgeneration, htagged⟩ := ih
        (RecipeStore.insertRecipe_synced hsynced entry.1 entry.2)
        (insertRecipe_tagged hsynced h hvalid entry.1 entry.2)
      refine ⟨hsynced', ?_, htagged⟩
      simpa using hgeneration

/-! ## The switch of generations -/

/-- A switch keeps the recipes of the current generation only, and never goes back. -/
theorem switchGeneration_spec {incomingGeneration : Bytes} {store' : RecipeStore}
    (h : switchGeneration store incomingGeneration = some store') (hsynced : store.Synced)
    (htagged : Tagged (Current store.schemaGeneration) store origins) :
    store'.Synced ∧ Tagged (Current store'.schemaGeneration) store' origins ∧
      Current store'.schemaGeneration incomingGeneration ∧
      ∀ generation, store.schemaGeneration = some generation →
        ∃ generation', store'.schemaGeneration = some generation' ∧
          generation ≤ generation' := by
  unfold switchGeneration at h
  cases hempty : incomingGeneration.isEmpty with
  | true =>
      rw [hempty] at h
      obtain rfl : store = store' := Option.some.inj h
      exact ⟨hsynced, htagged, .inl (List.isEmpty_iff.mp hempty), fun generation hgeneration =>
        ⟨generation, hgeneration, le_rfl⟩⟩
  | false =>
      rw [hempty] at h
      cases hcurrent : store.schemaGeneration with
      | none =>
          rw [hcurrent] at h htagged
          obtain rfl := Option.some.inj h
          refine ⟨⟨hsynced.tables, hsynced.indexes, hsynced.queries⟩, ?_, .inr rfl, nofun⟩
          -- without a generation only recipes without one are stored
          intro target recipe hrecipe
          obtain ⟨generation, horigin, hvalid⟩ := htagged target recipe
            (by cases target <;> exact hrecipe)
          exact ⟨generation, horigin, .inl (hvalid.resolve_right nofun)⟩
      | some current =>
          rw [hcurrent] at h
          dsimp only at h
          split_ifs at h with hstale hnewer
          · obtain rfl := Option.some.inj h
            refine ⟨RecipeStore.invalidateAll_synced _ _, ?_, .inr rfl, ?_⟩
            · intro target recipe hrecipe
              rw [RecipeStore.recipeAt_invalidateAll] at hrecipe
              cases hrecipe
            · intro generation hgeneration
              obtain rfl := Option.some.inj hgeneration
              exact ⟨incomingGeneration, rfl, hnewer.le⟩
          · obtain rfl : store = store' := Option.some.inj h
            have heq : current = incomingGeneration :=
              le_antisymm (not_lt.mp hstale) (not_lt.mp hnewer)
            exact ⟨hsynced, htagged, .inr (heq ▸ hcurrent), fun generation hgeneration =>
              ⟨generation, hcurrent.trans hgeneration, le_rfl⟩⟩

/-! ## Runs -/

/-- The tags after a call that is made in `cache`. -/
def tagStep (cache : Cache) (origins : Origins) : Call → Origins
  | .updateFromRecipeList recipeList =>
      if isDropped cache recipeList then origins else tagRecipes origins recipeList
  | .clear => fun _ => none
  | _ => origins

/-- The tags along a run. -/
def tagRun (cache : Cache) (origins : Origins) : List Call → Origins
  | [] => origins
  | call :: calls => tagRun (step cache call) (tagStep cache origins call) calls

/-- What every run maintains. -/
structure Generational (cache : Cache) (origins : Origins) : Prop where
  synced : cache.store.Synced
  tagged : Tagged (Current cache.store.schemaGeneration) cache.store origins

/-- The generation has not been lost, and has not gone back. -/
def NotBefore (before after : Option Bytes) : Prop :=
  ∀ generation, before = some generation →
    ∃ generation', after = some generation' ∧ generation ≤ generation'

theorem NotBefore.refl (generation : Option Bytes) : NotBefore generation generation :=
  fun generation h => ⟨generation, h, le_rfl⟩

theorem NotBefore.trans {a b c : Option Bytes} (h : NotBefore a b) (h' : NotBefore b c) :
    NotBefore a c := by
  intro generation hgeneration
  obtain ⟨generation', hb, hle⟩ := h generation hgeneration
  obtain ⟨generation'', hc, hle'⟩ := h' generation' hb
  exact ⟨generation'', hc, hle.trans hle'⟩

theorem updateFromRecipeList_generational {cache : Cache} (h : Generational cache origins)
    (recipeList : RecipeList) :
    Generational (updateFromRecipeList cache recipeList)
        (tagStep cache origins (.updateFromRecipeList recipeList)) ∧
      NotBefore cache.store.schemaGeneration
        (updateFromRecipeList cache recipeList).store.schemaGeneration := by
  unfold updateFromRecipeList tagStep isDropped
  by_cases hnothing : (recipeList.recipe.isEmpty && recipeList.schemaGeneration.isEmpty) = true
  · simp only [hnothing, if_true, Bool.true_or]
    exact ⟨h, NotBefore.refl _⟩
  · simp only [hnothing, if_false, Bool.false_or, Bool.false_eq_true]
    cases hswitch : switchGeneration cache.store recipeList.schemaGeneration with
    | none => exact ⟨h, NotBefore.refl _⟩
    | some store =>
        obtain ⟨hsynced, htagged, hcurrent, hnotBefore⟩ :=
          switchGeneration_spec hswitch h.synced h.tagged
        obtain ⟨hsynced', hgeneration, htagged'⟩ := insertRecipes_tagged hcurrent
          (targeted recipeList.recipe) hsynced htagged
        refine ⟨⟨hsynced', ?_⟩, ?_⟩
        · rw [hgeneration]
          exact htagged'
        · rw [hgeneration]
          exact hnotBefore

theorem clear_generational (cache : Cache) : Generational (clear cache) fun _ => none := by
  refine ⟨RecipeStore.invalidateAll_synced _ _, fun target recipe hrecipe => ?_⟩
  rw [clear, RecipeStore.recipeAt_invalidateAll] at hrecipe
  cases hrecipe

/-- Looking recipes up changes none of them. -/
theorem step_recipeAt {cache : Cache} (hsynced : cache.store.Synced) (call : Call)
    (hupdate : ∀ recipeList, call ≠ .updateFromRecipeList recipeList) (hclear : call ≠ .clear) :
    (step cache call).store.Synced ∧
      ∀ target, (step cache call).store.recipeAt target = cache.store.recipeAt target := by
  cases call with
  | updateFromRecipeList recipeList => exact absurd rfl (hupdate recipeList)
  | clear => exact absurd rfl hclear
  | getTableRecipe tableName =>
      refine ⟨⟨ClockStore.get_synced hsynced.tables tableName, hsynced.indexes,
        hsynced.queries⟩, fun target => ?_⟩
      cases target with
      | tableName name => exact ClockStore.get_value? _ tableName name
      | indexName name => rfl
      | operationUid uid => rfl
  | getIndexRecipe indexName =>
      refine ⟨⟨hsynced.tables, ClockStore.get_synced hsynced.indexes indexName,
        hsynced.queries⟩, fun target => ?_⟩
      cases target with
      | tableName name => rfl
      | indexName name => exact ClockStore.get_value? _ indexName name
      | operationUid uid => rfl
  | getQueryRecipe operationUid =>
      refine ⟨⟨hsynced.tables, hsynced.indexes,
        ClockStore.get_synced hsynced.queries operationUid⟩, fun target => ?_⟩
      cases target with
      | tableName name => rfl
      | indexName name => rfl
      | operationUid uid => exact ClockStore.get_value? _ operationUid uid

theorem step_generational {cache : Cache} (h : Generational cache origins) (call : Call) :
    Generational (step cache call) (tagStep cache origins call) ∧
      (call ≠ .clear →
        NotBefore cache.store.schemaGeneration (step cache call).store.schemaGeneration) := by
  have hlookup : ∀ call, (∀ recipeList, call ≠ .updateFromRecipeList recipeList) →
      call ≠ .clear →
      (step cache call).store.schemaGeneration = cache.store.schemaGeneration →
      Generational (step cache call) origins ∧ (call ≠ .clear →
        NotBefore cache.store.schemaGeneration (step cache call).store.schemaGeneration) := by
    intro call hupdate hclear hgeneration
    obtain ⟨hsynced, hrecipes⟩ := step_recipeAt h.synced call hupdate hclear
    refine ⟨⟨hsynced, fun target recipe hrecipe => ?_⟩, fun _ => hgeneration ▸ NotBefore.refl _⟩
    rw [hgeneration]
    exact h.tagged target recipe ((hrecipes target).symm.trans hrecipe)
  cases call with
  | updateFromRecipeList recipeList =>
      exact (updateFromRecipeList_generational h recipeList).imp_right fun hnotBefore _ => hnotBefore
  | clear => exact ⟨clear_generational cache, fun hne => absurd rfl hne⟩
  | getTableRecipe tableName => exact hlookup (.getTableRecipe tableName) (by simp) (by simp) rfl
  | getIndexRecipe indexName => exact hlookup (.getIndexRecipe indexName) (by simp) (by simp) rfl
  | getQueryRecipe operationUid =>
      exact hlookup (.getQueryRecipe operationUid) (by simp) (by simp) rfl

theorem run_generational {cache : Cache} (h : Generational cache origins) (calls : List Call) :
    Generational (run cache calls) (tagRun cache origins calls) ∧
      (.clear ∉ calls →
        NotBefore cache.store.schemaGeneration (run cache calls).store.schemaGeneration) := by
  induction calls generalizing cache origins with
  | nil => exact ⟨h, fun _ => NotBefore.refl _⟩
  | cons call calls ih =>
      obtain ⟨hstep, hnotBefore⟩ := step_generational h call
      obtain ⟨hrun, hnotBefore'⟩ := ih hstep
      refine ⟨hrun, fun hclear => ?_⟩
      rw [List.mem_cons, not_or] at hclear
      exact (hnotBefore fun heq => hclear.1 heq.symm).trans (hnotBefore' hclear.2)

/-- An empty cache, as `new` makes it, of any capacities. -/
def emptyCache (schemaCapacity queryCapacity : ℕ) : Cache :=
  { new with store := .withCapacities schemaCapacity queryCapacity }

theorem emptyCache_generational (schemaCapacity queryCapacity : ℕ) :
    Generational (emptyCache schemaCapacity queryCapacity) fun _ => none := by
  refine ⟨RecipeStore.withCapacities_synced _ _, fun target recipe hrecipe => ?_⟩
  cases target <;>
    simp [emptyCache, RecipeStore.recipeAt, RecipeStore.withCapacities, ClockStore.withCapacity,
      ClockStore.value?] at hrecipe

/-- No recipe outlives its schema generation, and the generation never goes back while
the cache is not cleared. -/
theorem run_recipes_current (schemaCapacity queryCapacity : ℕ) (calls : List Call) :
    let start := emptyCache schemaCapacity queryCapacity
    let cache := run start calls
    (∀ target recipe, cache.store.recipeAt target = some recipe →
      ∃ generation, tagRun start (fun _ => none) calls target = some (recipe, generation) ∧
        (generation = [] ∨ cache.store.schemaGeneration = some generation)) ∧
    ∀ calls', .clear ∉ calls' → ∀ generation, cache.store.schemaGeneration = some generation →
      ∃ generation', (run cache calls').store.schemaGeneration = some generation' ∧
        generation ≤ generation' := by
  intro start cache
  have hstart := emptyCache_generational schemaCapacity queryCapacity
  have hrun := (run_generational hstart calls).1
  exact ⟨hrun.tagged, fun calls' hclear => (run_generational hrun calls').2 hclear⟩

/-- A table recipe of the first generation, and the switch to the second one. -/
theorem run_recipes_current_two :
    let recipe : KeyRecipe := ⟨[], some (.tableName "T")⟩
    let first : Call := .updateFromRecipeList ⟨[1], [recipe]⟩
    let second : Call := .updateFromRecipeList ⟨[2], []⟩
    let cache := run (emptyCache 1000 2000) [first]
    (∃ generation, tagRun (emptyCache 1000 2000) (fun _ => none) [first] (.tableName "T") =
        some (recipe, generation) ∧
      (generation = [] ∨ cache.store.schemaGeneration = some generation)) ∧
    ∃ generation', (run cache [second]).store.schemaGeneration = some generation' ∧
      [1] ≤ generation' := by
  intro recipe first second cache
  have h := run_recipes_current 1000 2000 [first]
  exact ⟨h.1 (.tableName "T") recipe rfl, h.2 [second] (by simp [second]) [1] rfl⟩

/-! ## Where recipes come from -/

/-- Switching the generation keeps or drops recipes. -/
theorem switchGeneration_recipeAt {store store' : RecipeStore} {incomingGeneration : Bytes}
    (hsynced : store.Synced) (h : switchGeneration store incomingGeneration = some store') :
    store'.Synced ∧ ∀ target recipe, store'.recipeAt target = some recipe →
      store.recipeAt target = some recipe := by
  unfold switchGeneration at h
  cases hempty : incomingGeneration.isEmpty with
  | true =>
      rw [hempty] at h
      obtain rfl : store = store' := Option.some.inj h
      exact ⟨hsynced, fun target recipe hrecipe => hrecipe⟩
  | false =>
      rw [hempty] at h
      cases hcurrent : store.schemaGeneration with
      | none =>
          rw [hcurrent] at h
          obtain rfl := Option.some.inj h
          refine ⟨⟨hsynced.tables, hsynced.indexes, hsynced.queries⟩, fun target recipe hrecipe => ?_⟩
          cases target <;> exact hrecipe
      | some current =>
          rw [hcurrent] at h
          dsimp only at h
          split_ifs at h
          · obtain rfl := Option.some.inj h
            refine ⟨RecipeStore.invalidateAll_synced _ _, fun target recipe hrecipe => ?_⟩
            rw [RecipeStore.recipeAt_invalidateAll] at hrecipe
            cases hrecipe
          · obtain rfl : store = store' := Option.some.inj h
            exact ⟨hsynced, fun target recipe hrecipe => hrecipe⟩

theorem insertRecipes_recipeAt (entries : List (Target × KeyRecipe)) {store : RecipeStore}
    (hsynced : store.Synced) :
    (entries.foldl (fun store entry => store.insertRecipe entry.1 entry.2) store).Synced ∧
      ∀ target recipe,
        (entries.foldl (fun store entry => store.insertRecipe entry.1 entry.2) store).recipeAt
            target = some recipe →
          store.recipeAt target = some recipe ∨ (target, recipe) ∈ entries := by
  induction entries generalizing store with
  | nil => exact ⟨hsynced, fun target recipe hrecipe => .inl hrecipe⟩
  | cons entry entries ih =>
      obtain ⟨hsynced', hfound⟩ := ih (RecipeStore.insertRecipe_synced hsynced entry.1 entry.2)
      refine ⟨hsynced', fun target recipe hrecipe => ?_⟩
      rcases hfound target recipe hrecipe with hold | hmem
      · rcases RecipeStore.recipeAt_insertRecipe hsynced hold with ⟨rfl, rfl⟩ | ⟨-, hold⟩
        · exact .inr List.mem_cons_self
        · exact .inl hold
      · exact .inr (List.mem_cons_of_mem entry hmem)

theorem mem_targeted {recipes : List KeyRecipe} {target : Target} {recipe : KeyRecipe} :
    (target, recipe) ∈ targeted recipes ↔ recipe ∈ recipes ∧ recipe.target = some target := by
  simp only [targeted, List.mem_filterMap, Option.map_eq_some_iff, Prod.mk.injEq]
  constructor
  · rintro ⟨found, hmem, _, htarget, rfl, rfl⟩
    exact ⟨hmem, htarget⟩
  · rintro ⟨hmem, htarget⟩
    exact ⟨recipe, hmem, target, htarget, rfl, rfl⟩

/-- A recipe found after an update was there before, or is one of the list. -/
theorem updateFromRecipeList_recipeAt {cache : Cache} (hsynced : cache.store.Synced)
    (recipeList : RecipeList) :
    (updateFromRecipeList cache recipeList).store.Synced ∧
      ∀ target recipe,
        (updateFromRecipeList cache recipeList).store.recipeAt target = some recipe →
          cache.store.recipeAt target = some recipe ∨
            (recipe ∈ recipeList.recipe ∧ recipe.target = some target) := by
  unfold updateFromRecipeList
  split_ifs
  · exact ⟨hsynced, fun target recipe hrecipe => .inl hrecipe⟩
  · cases hswitch : switchGeneration cache.store recipeList.schemaGeneration with
    | none => exact ⟨hsynced, fun target recipe hrecipe => .inl hrecipe⟩
    | some store =>
        obtain ⟨hsynced', hkept⟩ := switchGeneration_recipeAt hsynced hswitch
        obtain ⟨hsynced'', hfound⟩ := insertRecipes_recipeAt (targeted recipeList.recipe) hsynced'
        refine ⟨hsynced'', fun target recipe hrecipe => ?_⟩
        exact (hfound target recipe hrecipe).imp (hkept target recipe) mem_targeted.mp

theorem clear_recipeAt (cache : Cache) :
    (clear cache).store.Synced ∧ ∀ target, (clear cache).store.recipeAt target = none :=
  ⟨RecipeStore.invalidateAll_synced _ _, RecipeStore.recipeAt_invalidateAll _ _⟩

end GoogleCloudRust.KeyRecipeCache
