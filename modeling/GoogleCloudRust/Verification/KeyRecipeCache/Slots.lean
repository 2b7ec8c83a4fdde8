import GoogleCloudRust.Model.KeyRecipeCache
import GoogleCloudRust.Verification.ClockStore.Invariant
import GoogleCloudRust.Verification.PreparedOperation.Matching

/-! # Slots of prepared operations

The descriptor at the fingerprint of a request decides what a call returns. Every
descriptor describes the request its UID was allocated for. -/

namespace GoogleCloudRust.KeyRecipeCache

open GoogleCloudRust.PreparedOperation

/-! ## Matching requests -/

namespace Request

theorem accepts_query (a b : ExecuteSqlRequest) :
    (query a).accepts (query b) = true ↔ SameQueryShape a b :=
  matchesRequest_iff a b 0

theorem accepts_read (a b : ReadRequest) :
    (read a).accepts (read b) = true ↔ SameReadShape a b :=
  matchesProtoReadRequest_iff a b 0

theorem accepts_symm {a b : Request} (h : a.accepts b = true) : b.accepts a = true := by
  cases a with
  | query a =>
      cases b with
      | query b => exact (accepts_query b a).mpr ((accepts_query a b).mp h).symm
      | read b => cases h
  | read a =>
      cases b with
      | query b => cases h
      | read b => exact (accepts_read b a).mpr ((accepts_read a b).mp h).symm

theorem accepts_trans {a b c : Request} (h : a.accepts b = true) (h' : b.accepts c = true) :
    a.accepts c = true := by
  cases a with
  | query a =>
      cases b with
      | query b =>
          cases c with
          | query c =>
              exact (accepts_query a c).mpr
                (((accepts_query a b).mp h).trans ((accepts_query b c).mp h'))
          | read c => cases h'
      | read b => cases h
  | read a =>
      cases b with
      | query b => cases h
      | read b =>
          cases c with
          | query c => cases h'
          | read c =>
              exact (accepts_read a c).mpr
                (((accepts_read a b).mp h).trans ((accepts_read b c).mp h'))

/-- Requests of one shape are both refused by the fast path, if they are equally
partitioned. -/
theorem isUnprepared_eq {a b : Request} (h : a.accepts b = true)
    (hpartitioned : a.isPartitioned = b.isPartitioned) : a.isUnprepared = b.isUnprepared := by
  cases a with
  | query a =>
      cases b with
      | query b =>
          simp only [isPartitioned] at hpartitioned
          simp only [isUnprepared, isUnpreparedQuery, ((accepts_query a b).mp h).sql, hpartitioned]
      | read b => cases h
  | read a =>
      cases b with
      | query b => cases h
      | read b =>
          simp only [isPartitioned] at hpartitioned
          simp only [isUnprepared, isUnpreparedRead, ((accepts_read a b).mp h).table, hpartitioned]

end Request

/-! ## Slots -/

/-- The UID of the descriptor at the fingerprint of a request, and whether the descriptor
matches. -/
def Request.slot (cache : Cache) : Request → Option (UInt64 × Bool)
  | .query request =>
      (cache.store.preparedQueries.value? (fingerprintExecuteSqlRequest request)).map
        fun prepared => (prepared.operationUid, prepared.matchesRequest request)
  | .read request =>
      (cache.store.preparedReads.value? (fingerprintProtoReadRequest request)).map
        fun prepared => (prepared.operationUid, prepared.matchesProtoReadRequest request)

/-- What a call returns that finds this descriptor. -/
def verdict (found : UInt64 × Bool) : Option UInt64 :=
  if found.2 then some found.1 else none

section Stores

variable {T : Type} {describes : UInt64 → T → Prop} {store : ClockStore UInt64 T}

/-- A store of descriptors that describe what they are filed under. -/
structure Filed (describes : UInt64 → T → Prop) (store : ClockStore UInt64 T) : Prop where
  synced : store.Synced
  capacity : store.capacity ≠ 0
  describes : ∀ fingerprint descriptor, store.value? fingerprint = some descriptor →
    describes fingerprint descriptor

theorem Filed.get (h : Filed describes store) (fingerprint : UInt64) :
    Filed describes (store.get fingerprint).2 := by
  refine ⟨ClockStore.get_synced h.synced fingerprint, ?_, fun other descriptor hvalue => ?_⟩
  · rw [ClockStore.get_capacity]
    exact h.capacity
  · rw [ClockStore.get_value?] at hvalue
    exact h.describes other descriptor hvalue

theorem Filed.insert (h : Filed describes store) {fingerprint : UInt64} {descriptor : T}
    (hdescribes : describes fingerprint descriptor) :
    Filed describes (store.insert fingerprint descriptor).2 := by
  refine ⟨ClockStore.insert_synced h.synced _ _, ?_, fun other found hvalue => ?_⟩
  · rw [ClockStore.insert_capacity h.synced]
    exact h.capacity
  · rcases ClockStore.insert_value?_cases h.synced hvalue with ⟨rfl, rfl⟩ | ⟨-, hold⟩
    · exact hdescribes
    · exact h.describes other found hold

theorem Filed.takeAll (h : Filed describes store) : Filed describes store.takeAll.2 := by
  refine ⟨ClockStore.takeAll_synced _, h.capacity, fun other found hvalue => ?_⟩
  simp [ClockStore.takeAll, ClockStore.value?] at hvalue

/-- Filing a new descriptor keeps every other one, or evicts it. -/
theorem Filed.insert_keeps (h : Filed describes store) {fingerprint other : UInt64}
    (hnone : store.value? fingerprint = none) {found : T} (hfound : store.value? other = some found)
    (descriptor : T) :
    (store.insert fingerprint descriptor).2.value? other = some found ∨
      (store.insert fingerprint descriptor).2.value? other = none := by
  cases hvalue : (store.insert fingerprint descriptor).2.value? other with
  | none => exact .inr rfl
  | some value =>
      rcases ClockStore.insert_value?_cases h.synced hvalue with ⟨rfl, -⟩ | ⟨-, hold⟩
      · rw [hnone] at hfound
        cases hfound
      · exact .inl (hold.symm.trans hfound)

theorem Filed.mono {describes' : UInt64 → T → Prop} (h : Filed describes store)
    (himp : ∀ fingerprint descriptor, describes fingerprint descriptor →
      describes' fingerprint descriptor) : Filed describes' store :=
  ⟨h.synced, h.capacity, fun fingerprint descriptor hvalue =>
    himp fingerprint descriptor (h.describes fingerprint descriptor hvalue)⟩

end Stores

/-! ## Ownership of UIDs -/

/-- The request for which each UID was allocated. -/
abbrev Owners := UInt64 → Option Request

def DescribesQuery (owners : Owners) (fingerprint : UInt64) (prepared : PreparedQuery) : Prop :=
  ∃ request, owners prepared.operationUid = some (.query request) ∧
    prepared = PreparedQuery.new request prepared.operationUid ∧
    fingerprint = fingerprintExecuteSqlRequest request

def DescribesRead (owners : Owners) (fingerprint : UInt64) (prepared : PreparedRead) : Prop :=
  ∃ request, owners prepared.operationUid = some (.read request) ∧
    prepared = PreparedRead.fromProtoReadRequest request prepared.operationUid ∧
    fingerprint = fingerprintProtoReadRequest request

/-- Every descriptor describes the owner of its UID, at the owner's fingerprint. -/
structure Prepared (owners : Owners) (cache : Cache) : Prop where
  queries : Filed (DescribesQuery owners) cache.store.preparedQueries
  reads : Filed (DescribesRead owners) cache.store.preparedReads

/-- Ownership may be extended. -/
theorem Prepared.mono {owners owners' : Owners} {cache : Cache} (h : Prepared owners cache)
    (hextends : ∀ uid request, owners uid = some request → owners' uid = some request) :
    Prepared owners' cache := by
  refine ⟨h.queries.mono ?_, h.reads.mono ?_⟩
  · rintro fingerprint prepared ⟨request, howner, heq, hfingerprint⟩
    exact ⟨request, hextends _ _ howner, heq, hfingerprint⟩
  · rintro fingerprint prepared ⟨request, howner, heq, hfingerprint⟩
    exact ⟨request, hextends _ _ howner, heq, hfingerprint⟩

variable {owners : Owners} {cache : Cache}

/-- A descriptor that matches has an owner that matches. -/
theorem Prepared.owner_accepts (h : Prepared owners cache) {request : Request} {uid : UInt64}
    (hslot : request.slot cache = some (uid, true)) :
    ∃ owner, owners uid = some owner ∧ owner.accepts request = true := by
  cases request with
  | query request =>
      obtain ⟨prepared, hvalue, hfound⟩ := Option.map_eq_some_iff.mp hslot
      obtain ⟨rfl, hmatches⟩ := Prod.mk.inj hfound
      obtain ⟨owner, howner, heq, -⟩ := h.queries.describes _ _ hvalue
      rw [heq, matchesRequest_iff] at hmatches
      exact ⟨.query owner, howner, (Request.accepts_query owner request).mpr hmatches⟩
  | read request =>
      obtain ⟨prepared, hvalue, hfound⟩ := Option.map_eq_some_iff.mp hslot
      obtain ⟨rfl, hmatches⟩ := Prod.mk.inj hfound
      obtain ⟨owner, howner, heq, -⟩ := h.reads.describes _ _ hvalue
      rw [heq, matchesProtoReadRequest_iff] at hmatches
      exact ⟨.read owner, howner, (Request.accepts_read owner request).mpr hmatches⟩

/-- Matching requests find the same descriptor, and it matches both or neither. -/
theorem Prepared.slot_congr (h : Prepared owners cache) {a b : Request}
    (haccepts : a.accepts b = true) : a.slot cache = b.slot cache := by
  cases a with
  | query a =>
      cases b with
      | query b =>
          have hshape := (Request.accepts_query a b).mp haccepts
          simp only [Request.slot, hshape.fingerprint]
          refine Option.map_congr fun prepared hvalue => ?_
          obtain ⟨owner, -, heq, -⟩ := h.queries.describes _ _ hvalue
          rw [heq, Prod.mk.injEq, Bool.eq_iff_iff, matchesRequest_iff, matchesRequest_iff]
          exact ⟨rfl, fun hmatch => hmatch.trans hshape, fun hmatch => hmatch.trans hshape.symm⟩
      | read b => cases haccepts
  | read a =>
      cases b with
      | query b => cases haccepts
      | read b =>
          have hshape := (Request.accepts_read a b).mp haccepts
          simp only [Request.slot, hshape.fingerprint]
          refine Option.map_congr fun prepared hvalue => ?_
          obtain ⟨owner, -, heq, -⟩ := h.reads.describes _ _ hvalue
          rw [heq, Prod.mk.injEq, Bool.eq_iff_iff, matchesProtoReadRequest_iff,
            matchesProtoReadRequest_iff]
          exact ⟨rfl, fun hmatch => hmatch.trans hshape, fun hmatch => hmatch.trans hshape.symm⟩

/-! ## The phases -/

section Phases

variable {T : Type} [PreparedOperation T] {fingerprint : UInt64} {accepts : T → Bool}

/-- The second check finds a descriptor and returns as a lookup does. -/
theorem insertPrepared_of_found {result : Option UInt64}
    (h : (lookupPrepared cache fingerprint accepts).1 = some result) (prepared : T) :
    insertPrepared cache fingerprint accepts prepared =
      (result, (lookupPrepared cache fingerprint accepts).2) := by
  rw [insertPrepared, ← Prod.mk.eta (p := lookupPrepared cache fingerprint accepts), h]

/-- The second check finds nothing and stores the new descriptor. -/
theorem insertPrepared_of_absent (h : (lookupPrepared cache fingerprint accepts).1 = none)
    (prepared : T) :
    insertPrepared cache fingerprint accepts prepared =
      let cache := (lookupPrepared cache fingerprint accepts).2
      let stored := (PreparedOperation.clockStore (T := T) cache.store).insert fingerprint prepared
      (some (PreparedOperation.operationUid prepared),
        { cache with store := PreparedOperation.setClockStore cache.store stored.2 }) := by
  rw [insertPrepared, ← Prod.mk.eta (p := lookupPrepared cache fingerprint accepts), h]

end Phases

theorem lookup_result (cache : Cache) (request : Request) :
    (request.lookup cache).1 = (request.slot cache).map verdict := by
  cases request with
  | query request =>
      simp only [Request.lookup, lookupPrepared, Request.slot, ClockStore.get_fst, Option.map_map]
      rfl
  | read request =>
      simp only [Request.lookup, lookupPrepared, Request.slot, ClockStore.get_fst, Option.map_map]
      rfl

/-- A lookup only sets a reference bit. -/
theorem lookup_slot (cache : Cache) (request other : Request) :
    other.slot (request.lookup cache).2 = other.slot cache := by
  cases request <;> cases other <;>
    simp [Request.lookup, lookupPrepared, Request.slot, PreparedOperation.setClockStore,
      PreparedOperation.clockStore, ClockStore.get_value?]

theorem lookup_prepared (h : Prepared owners cache) (request : Request) :
    Prepared owners (request.lookup cache).2 := by
  cases request with
  | query request => exact ⟨h.queries.get _, h.reads⟩
  | read request => exact ⟨h.queries, h.reads.get _⟩

theorem lookup_nextOperationUid (cache : Cache) (request : Request) :
    (request.lookup cache).2.nextOperationUid = cache.nextOperationUid := by
  cases request <;> rfl

/-- The second check finds a descriptor: its verdict is the result. -/
theorem insert_of_slot_eq_some {request : Request} {found : UInt64 × Bool}
    (hslot : request.slot cache = some found) (uid : UInt64) :
    request.insert cache uid = (verdict found, (request.lookup cache).2) := by
  have hlookup := lookup_result cache request
  rw [hslot, Option.map_some] at hlookup
  cases request with
  | query request => exact insertPrepared_of_found hlookup _
  | read request => exact insertPrepared_of_found hlookup _

/-- The second check finds nothing: the descriptor of the request is stored. -/
theorem insert_of_slot_eq_none {request : Request} (hslot : request.slot cache = none)
    (uid : UInt64) :
    request.insert cache uid = (some uid,
      match request with
      | .query request =>
          let store := ((Request.query request).lookup cache).2.store
          { cache with store := { store with
            preparedQueries := (store.preparedQueries.insert
              (fingerprintExecuteSqlRequest request) (PreparedQuery.new request uid)).2 } }
      | .read request =>
          let store := ((Request.read request).lookup cache).2.store
          { cache with store := { store with
            preparedReads := (store.preparedReads.insert
              (fingerprintProtoReadRequest request)
              (PreparedRead.fromProtoReadRequest request uid)).2 } }) := by
  have hlookup := lookup_result cache request
  rw [hslot, Option.map_none] at hlookup
  cases request with
  | query request => exact insertPrepared_of_absent hlookup _
  | read request => exact insertPrepared_of_absent hlookup _

theorem insert_nextOperationUid (cache : Cache) (request : Request) (uid : UInt64) :
    (request.insert cache uid).2.nextOperationUid = cache.nextOperationUid := by
  cases hslot : request.slot cache with
  | some found =>
      rw [insert_of_slot_eq_some hslot]
      exact lookup_nextOperationUid cache request
  | none =>
      rw [insert_of_slot_eq_none hslot uid]
      cases request <;> rfl

theorem insert_prepared (h : Prepared owners cache) {request : Request} {uid : UInt64}
    (howner : owners uid = some request) : Prepared owners (request.insert cache uid).2 := by
  have hlookup := lookup_prepared h request
  cases hslot : request.slot cache with
  | some found =>
      rw [insert_of_slot_eq_some hslot]
      exact hlookup
  | none =>
      rw [insert_of_slot_eq_none hslot uid]
      cases request with
      | query request => exact ⟨hlookup.queries.insert ⟨request, howner, rfl, rfl⟩, hlookup.reads⟩
      | read request => exact ⟨hlookup.queries, hlookup.reads.insert ⟨request, howner, rfl, rfl⟩⟩

/-- After the second check the slot is taken, and by what the result says. -/
theorem insert_slot_self (h : Prepared owners cache) (request : Request) (uid : UInt64) :
    ∃ found, request.slot (request.insert cache uid).2 = some found ∧
      (request.insert cache uid).1 = verdict found := by
  cases hslot : request.slot cache with
  | some found =>
      rw [insert_of_slot_eq_some hslot]
      exact ⟨found, (lookup_slot cache request request).trans hslot, rfl⟩
  | none =>
      rw [insert_of_slot_eq_none hslot uid]
      refine ⟨(uid, true), ?_, rfl⟩
      have hlookup := lookup_prepared h request
      cases request with
      | query request =>
          have hmatches := (matchesRequest_iff request request uid).mpr (SameQueryShape.refl _)
          simp only [Request.slot, ClockStore.insert_value?_self hlookup.queries.capacity,
            Option.map_some, hmatches]
          rfl
      | read request =>
          have hmatches := (matchesProtoReadRequest_iff request request uid).mpr ⟨rfl, rfl, rfl⟩
          simp only [Request.slot, ClockStore.insert_value?_self hlookup.reads.capacity,
            Option.map_some, hmatches]
          rfl

/-- An occupied slot keeps its descriptor, or loses it to an eviction. -/
theorem insert_slot_other (h : Prepared owners cache) (request : Request) (uid : UInt64)
    {other : Request} {found : UInt64 × Bool} (hfound : other.slot cache = some found) :
    other.slot (request.insert cache uid).2 = some found ∨
      other.slot (request.insert cache uid).2 = none := by
  have hother := (lookup_slot cache request other).trans hfound
  cases hslot : request.slot cache with
  | some result =>
      rw [insert_of_slot_eq_some hslot]
      exact .inl hother
  | none =>
      rw [insert_of_slot_eq_none hslot uid]
      have hlookup := lookup_prepared h request
      have hself := (lookup_slot cache request request).trans hslot
      cases request with
      | query request =>
          cases other with
          | query other =>
              obtain ⟨prepared, hvalue, rfl⟩ := Option.map_eq_some_iff.mp hother
              rcases hlookup.queries.insert_keeps (Option.map_eq_none_iff.mp hself) hvalue
                (PreparedQuery.new request uid) with hkept | hlost
              · exact .inl (congrArg (Option.map _) hkept)
              · exact .inr (congrArg (Option.map _) hlost)
          | read other => exact .inl hother
      | read request =>
          cases other with
          | query other => exact .inl hother
          | read other =>
              obtain ⟨prepared, hvalue, rfl⟩ := Option.map_eq_some_iff.mp hother
              rcases hlookup.reads.insert_keeps (Option.map_eq_none_iff.mp hself) hvalue
                (PreparedRead.fromProtoReadRequest request uid) with hkept | hlost
              · exact .inl (congrArg (Option.map _) hkept)
              · exact .inr (congrArg (Option.map _) hlost)

/-! ## Other calls -/

theorem insertRecipes_prepared (entries : List (Target × KeyRecipe)) (store : RecipeStore) :
    let store' := entries.foldl (fun store entry => store.insertRecipe entry.1 entry.2) store
    store'.preparedQueries = store.preparedQueries ∧ store'.preparedReads = store.preparedReads := by
  induction entries generalizing store with
  | nil => exact ⟨rfl, rfl⟩
  | cons entry entries ih =>
      obtain ⟨hqueries, hreads⟩ := ih (store.insertRecipe entry.1 entry.2)
      refine ⟨hqueries.trans ?_, hreads.trans ?_⟩
      · cases entry.1 <;> rfl
      · cases entry.1 <;> rfl

theorem switchGeneration_prepared {store store' : RecipeStore} {incomingGeneration : Bytes}
    (h : switchGeneration store incomingGeneration = some store') :
    store'.preparedQueries = store.preparedQueries ∧
      store'.preparedReads = store.preparedReads := by
  unfold switchGeneration at h
  split at h
  · split_ifs at h
    · cases h
      exact ⟨rfl, rfl⟩
    · cases h
      exact ⟨rfl, rfl⟩
  · cases h
    exact ⟨rfl, rfl⟩
  · cases h
    exact ⟨rfl, rfl⟩

/-- A new generation of recipes keeps the descriptors. -/
theorem updateFromRecipeList_prepared (cache : Cache) (recipeList : RecipeList) :
    let cache' := updateFromRecipeList cache recipeList
    cache'.store.preparedQueries = cache.store.preparedQueries ∧
      cache'.store.preparedReads = cache.store.preparedReads ∧
      cache'.nextOperationUid = cache.nextOperationUid := by
  unfold updateFromRecipeList
  split_ifs
  · exact ⟨rfl, rfl, rfl⟩
  · cases hswitch : switchGeneration cache.store recipeList.schemaGeneration with
    | none => exact ⟨rfl, rfl, rfl⟩
    | some store =>
        obtain ⟨hqueries, hreads⟩ := switchGeneration_prepared hswitch
        obtain ⟨hqueries', hreads'⟩ :=
          insertRecipes_prepared (targeted recipeList.recipe) store
        exact ⟨hqueries'.trans hqueries, hreads'.trans hreads, rfl⟩

/-- A call under one lock takes all descriptors away or none. -/
theorem step_prepared_cases (cache : Cache) (call : Call) :
    (step cache call).nextOperationUid = cache.nextOperationUid ∧
    (((step cache call).store.preparedQueries = cache.store.preparedQueries ∧
        (step cache call).store.preparedReads = cache.store.preparedReads) ∨
      ((step cache call).store.preparedQueries = cache.store.preparedQueries.takeAll.2 ∧
        (step cache call).store.preparedReads = cache.store.preparedReads.takeAll.2)) := by
  cases call with
  | updateFromRecipeList recipeList =>
      obtain ⟨hqueries, hreads, hnext⟩ := updateFromRecipeList_prepared cache recipeList
      exact ⟨hnext, .inl ⟨hqueries, hreads⟩⟩
  | clear => exact ⟨rfl, .inr ⟨rfl, rfl⟩⟩
  | getTableRecipe tableName => exact ⟨rfl, .inl ⟨rfl, rfl⟩⟩
  | getIndexRecipe indexName => exact ⟨rfl, .inl ⟨rfl, rfl⟩⟩
  | getQueryRecipe operationUid => exact ⟨rfl, .inl ⟨rfl, rfl⟩⟩

theorem step_prepared (h : Prepared owners cache) (call : Call) :
    Prepared owners (step cache call) := by
  rcases (step_prepared_cases cache call).2 with ⟨hqueries, hreads⟩ | ⟨hqueries, hreads⟩
  · exact ⟨hqueries ▸ h.queries, hreads ▸ h.reads⟩
  · exact ⟨hqueries ▸ h.queries.takeAll, hreads ▸ h.reads.takeAll⟩

theorem step_slot (cache : Cache) (call : Call) (request : Request) :
    request.slot (step cache call) = request.slot cache ∨
      request.slot (step cache call) = none := by
  rcases (step_prepared_cases cache call).2 with ⟨hqueries, hreads⟩ | ⟨hqueries, hreads⟩
  · left
    cases request <;> simp [Request.slot, hqueries, hreads]
  · right
    cases request <;>
      simp [Request.slot, hqueries, hreads, ClockStore.takeAll, ClockStore.value?]

end GoogleCloudRust.KeyRecipeCache
