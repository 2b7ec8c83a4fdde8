import GoogleCloudRust.Verification.KeyRangeCache.Partition

/-! # Where ranges and groups come from

An update message leaves behind only parts of its own ranges, its own groups and what
was stored before. Its result tells whether the payload of any group changed. -/

namespace GoogleCloudRust.KeyRangeCache

open IntervalMap

/-! ## Payloads -/

/-- The group stored under a uid. -/
def payload (state : CacheState) (groupUid : UInt64) : Option CachedGroup :=
  (state.groups.lookup groupUid).bind GroupEntry.group

theorem getGroup_eq_payload (cache : Cache) (groupUid : UInt64) :
    getGroup cache groupUid = payload cache.state groupUid := rfl

theorem mem_activeAddresses {cache : Cache} {address : String} :
    address ∈ activeAddresses cache ↔ ∃ groupUid group, getGroup cache groupUid = some group ∧
      ∃ tablet ∈ group.tablets, tablet.serverAddress = address ∧ address ≠ "" := by
  simp only [activeAddresses, Finset.mem_biUnion, Finmap.mem_keys]
  constructor
  · rintro ⟨groupUid, -, hmem⟩
    cases hgroup : getGroup cache groupUid with
    | none => simp [hgroup] at hmem
    | some group =>
        obtain ⟨⟨tablet, htablet, haddress⟩, hne⟩ :
            (∃ tablet ∈ group.tablets, tablet.serverAddress = address) ∧ address ≠ "" := by
          simpa [hgroup] using hmem
        exact ⟨groupUid, group, hgroup, tablet, htablet, haddress, hne⟩
  · rintro ⟨groupUid, group, hgroup, tablet, htablet, rfl, hne⟩
    refine ⟨groupUid, ?_, ?_⟩
    · by_contra hmem
      rw [getGroup, Finmap.lookup_eq_none.mpr hmem] at hgroup
      cases hgroup
    · rw [hgroup]
      simpa [hne] using ⟨tablet, htablet, rfl⟩

/-- Only payloads matter for the active addresses. -/
theorem activeAddresses_congr {cache cache' : Cache}
    (h : ∀ groupUid, getGroup cache' groupUid = getGroup cache groupUid) :
    activeAddresses cache' = activeAddresses cache := by
  ext address
  simp only [mem_activeAddresses, h]

theorem activeAddresses_clear (cache : Cache) : activeAddresses (clear cache) = ∅ := by
  ext address
  simp [mem_activeAddresses, getGroup, clear]

/-- Writing an entry that keeps the payload of its group keeps all payloads. -/
theorem payload_insert {state : CacheState} {groupUid : UInt64} {entry : GroupEntry}
    (h : entry.group = payload state groupUid) (other : UInt64) :
    payload { state with groups := state.groups.insert groupUid entry } other =
      payload state other := by
  rw [payload, HashMap.lookup_insert_eq]
  split_ifs with heq
  · rw [heq, ← h]
    rfl
  · rfl

@[simp] theorem payload_incrementGroupReferences (state : CacheState) (groupUid other : UInt64) :
    payload (state.incrementGroupReferences groupUid) other = payload state other := by
  refine payload_insert ?_ other
  rw [payload]
  cases state.groups.lookup groupUid <;> rfl

@[simp] theorem payload_insertRange (state : CacheState) (startKey : Bytes) (range : CachedRange)
    (other : UInt64) : payload (state.insertRange startKey range) other = payload state other := rfl

@[simp] theorem payload_decrementGroupReferences (state : CacheState) (groupUid other : UInt64) :
    payload (state.decrementGroupReferences groupUid).2 other = payload state other := by
  unfold CacheState.decrementGroupReferences
  cases hlookup : state.groups.lookup groupUid with
  | none => rfl
  | some entry =>
      refine payload_insert ?_ other
      rw [payload, hlookup]
      rfl

@[simp] theorem payload_decrementAll (replaced : List (Bytes × CachedRange)) (state : CacheState)
    (maybeUnreferenced : List UInt64) (other : UInt64) :
    payload (decrementAll replaced state maybeUnreferenced).1 other = payload state other := by
  induction replaced generalizing state maybeUnreferenced with
  | nil => rfl
  | cons existing rest ih =>
      rw [decrementAll]
      simp [ih]

@[simp] theorem payload_insertHead (rangeIn : Range) (first : CachedRange) (state : CacheState)
    (other : UInt64) : payload (insertHead rangeIn first state) other = payload state other := by
  unfold insertHead
  split_ifs <;> simp

@[simp] theorem payload_insertTail (rangeIn : Range) (last : CachedRange) (state : CacheState)
    (other : UInt64) : payload (insertTail rangeIn last state) other = payload state other := by
  unfold insertTail
  split_ifs <;> simp

@[simp] theorem payload_insertNew (rangeIn : Range) (now : UInt64) (state : CacheState)
    (other : UInt64) : payload (insertNew rangeIn now state) other = payload state other := by
  simp [insertNew]

@[simp] theorem payload_cutState (rangeIn : Range) (state : CacheState) (other : UInt64) :
    payload (cutState rangeIn state) other = payload state other := by
  have hkept : payload { state with ranges := kept state.ranges rangeIn } other =
      payload state other := rfl
  unfold cutState
  dsimp only
  cases (overlapping state.ranges rangeIn).head? <;>
    cases (overlapping state.ranges rangeIn).getLast? <;> simp [hkept]

/-- Range updates move references only. -/
theorem payload_replaceRangeIfNewerLocked (cache : Cache) (rangeIn : Range)
    (maybeUnreferenced : List UInt64) (other : UInt64) :
    payload (replaceRangeIfNewerLocked cache rangeIn maybeUnreferenced).1.state other =
      payload cache.state other := by
  rw [replaceRangeIfNewerLocked_eq]
  split_ifs
  · rfl
  · simp [acceptedState]

theorem payload_replaceRanges (cache : Cache) (ranges : List Range)
    (maybeUnreferenced : List UInt64) (other : UInt64) :
    payload (replaceRanges cache ranges maybeUnreferenced).1.state other =
      payload cache.state other := by
  refine List.foldlRecOn (motive := fun acc : Cache × List UInt64 =>
    payload acc.1.state other = payload cache.state other) ranges _ rfl fun acc hacc rangeIn _ => ?_
  rw [payload_replaceRangeIfNewerLocked, hacc]

/-- Removing a group is reported. -/
theorem removeIfUnreferenced_payload (state : CacheState) (groupUid other : UInt64) :
    (payload (state.removeIfUnreferenced groupUid).2 other = payload state other) ∨
      ((state.removeIfUnreferenced groupUid).1 = true ∧
        payload (state.removeIfUnreferenced groupUid).2 other = none) := by
  unfold CacheState.removeIfUnreferenced
  cases hlookup : state.groups.lookup groupUid with
  | none => exact .inl rfl
  | some entry =>
      dsimp only
      split_ifs
      · have hpayload : payload { state with groups := state.groups.erase groupUid } other =
            if other = groupUid then none else payload state other := by
          rw [payload, HashMap.lookup_erase_eq]
          split_ifs <;> rfl
        by_cases heq : other = groupUid
        · subst heq
          rw [hpayload, if_pos rfl, payload, hlookup]
          cases hgroup : entry.group with
          | none => exact .inl hgroup.symm
          | some group => exact .inr ⟨rfl, rfl⟩
        · exact .inl (by rw [hpayload, if_neg heq])
      · exact .inl rfl

theorem removeUnreferenced_payload (state : CacheState) (maybeUnreferenced : List UInt64)
    (other : UInt64) :
    (payload (removeUnreferenced state maybeUnreferenced).2 other = payload state other) ∨
      ((removeUnreferenced state maybeUnreferenced).1 = true ∧
        payload (removeUnreferenced state maybeUnreferenced).2 other = none) := by
  refine List.foldlRecOn (motive := fun acc : Bool × CacheState =>
    payload acc.2 other = payload state other ∨ (acc.1 = true ∧ payload acc.2 other = none))
    maybeUnreferenced _ (.inl rfl) fun acc hacc groupUid _ => ?_
  dsimp only
  rcases removeIfUnreferenced_payload acc.2 groupUid other with heq | ⟨hremoved, hnone⟩
  · rw [heq]
    exact hacc.imp_right fun ⟨hremoved, hnone⟩ => ⟨by rw [hremoved, Bool.true_or], hnone⟩
  · exact .inr ⟨by rw [hremoved, Bool.or_true], hnone⟩

/-- Storing a group is reported. -/
theorem updateGroup_payload (state : CacheState) (groupIn : Group) (other : UInt64) :
    (payload (updateGroup state groupIn).2 other = payload state other) ∨
      ((updateGroup state groupIn).1 = true ∧ groupIn.groupUid = other ∧
        payload (updateGroup state groupIn).2 other = some (.fromProto groupIn)) := by
  unfold updateGroup
  cases hlookup : state.groups.lookup groupIn.groupUid with
  | none => exact .inl rfl
  | some entry =>
      dsimp only
      split_ifs
      · by_cases heq : other = groupIn.groupUid
        · refine .inr ⟨rfl, heq.symm, ?_⟩
          rw [payload, HashMap.lookup_insert_eq, if_pos heq]
          rfl
        · refine .inl ?_
          rw [payload, HashMap.lookup_insert_eq, if_neg heq]
          rfl
      · exact .inl rfl

theorem updateGroups_payload (state : CacheState) (groups : List Group) (other : UInt64) :
    (payload (updateGroups state groups).2 other = payload state other) ∨
      ((updateGroups state groups).1 = true ∧ ∃ groupIn ∈ groups, groupIn.groupUid = other ∧
        payload (updateGroups state groups).2 other = some (.fromProto groupIn)) := by
  refine List.foldlRecOn (motive := fun acc : Bool × CacheState =>
    payload acc.2 other = payload state other ∨ (acc.1 = true ∧ ∃ groupIn ∈ groups,
      groupIn.groupUid = other ∧ payload acc.2 other = some (.fromProto groupIn)))
    groups _ (.inl rfl) fun acc hacc groupIn hmem => ?_
  dsimp only
  rcases updateGroup_payload acc.2 groupIn other with heq | ⟨hupdated, huid, hgroup⟩
  · rw [heq]
    exact hacc.imp_right fun ⟨hupdated, hgroup⟩ => ⟨by rw [hupdated, Bool.true_or], hgroup⟩
  · exact .inr ⟨by rw [hupdated, Bool.or_true], groupIn, hmem, huid, hgroup⟩

/-- The payload of a group after an update is the old one, none, or a group of the update;
the result of the update covers the last two. -/
theorem addRanges_payload (cache : Cache) (cacheUpdate : CacheUpdate) (other : UInt64) :
    (payload (addRanges cache cacheUpdate).2.state other = payload cache.state other) ∨
      ((addRanges cache cacheUpdate).1 = true ∧
        (payload (addRanges cache cacheUpdate).2.state other = none ∨
          ∃ groupIn ∈ cacheUpdate.group, groupIn.groupUid = other ∧
            payload (addRanges cache cacheUpdate).2.state other = some (.fromProto groupIn))) := by
  unfold addRanges
  split_ifs
  · exact .inl rfl
  · have hranges := payload_replaceRanges cache cacheUpdate.range [] other
    dsimp only
    generalize replaceRanges cache cacheUpdate.range [] = replaced at hranges ⊢
    have hremoved := removeUnreferenced_payload replaced.1.state replaced.2 other
    generalize removeUnreferenced replaced.1.state replaced.2 = removed at hremoved ⊢
    rcases updateGroups_payload removed.2 cacheUpdate.group other with heq | ⟨hupdated, hgroup⟩
    · rw [heq]
      rcases hremoved with heq' | ⟨htrue, hnone⟩
      · exact .inl (heq'.trans hranges)
      · exact .inr ⟨by rw [htrue, Bool.true_or], .inl hnone⟩
    · exact .inr ⟨by rw [hupdated, Bool.or_true], .inr hgroup⟩

/-- An update that reports no change leaves the active addresses alone. -/
theorem activeAddresses_of_addRanges_eq_false {cache : Cache} {cacheUpdate : CacheUpdate}
    (h : (addRanges cache cacheUpdate).1 = false) :
    activeAddresses (addRanges cache cacheUpdate).2 = activeAddresses cache := by
  refine activeAddresses_congr fun groupUid => ?_
  rcases addRanges_payload cache cacheUpdate groupUid with heq | ⟨htrue, -⟩
  · exact heq
  · rw [h] at htrue
    cases htrue

/-! ## Ranges -/

/-- The stored range is a part of the incoming one. -/
structure IsPart (range : CachedRange) (rangeIn : Range) : Prop where
  groupUid_eq : range.groupUid = rangeIn.groupUid
  splitId_eq : range.splitId = rangeIn.splitId
  generation_eq : range.generation = rangeIn.generation
  within : ∀ key, Contains range key →
    rangeIn.startKey ≤ key ∧ (rangeIn.limitKey = [] ∨ key < rangeIn.limitKey)

theorem newRange_isPart (rangeIn : Range) (now : UInt64) : IsPart (newRange rangeIn now) rangeIn :=
  ⟨rfl, rfl, rfl, fun _ h => h⟩

/-- A range with the data of a part that covers no other keys is a part. -/
theorem IsPart.of_rangeData {range range' : CachedRange} {rangeIn : Range}
    (h : IsPart range rangeIn) (hdata : rangeData range' = rangeData range)
    (hcontains : ∀ key, Contains range' key → Contains range key) : IsPart range' rangeIn := by
  obtain ⟨hgroup, hsplit, hgeneration⟩ : range'.groupUid = range.groupUid ∧
      range'.splitId = range.splitId ∧ range'.generation = range.generation := by
    simpa [rangeData] using hdata
  exact ⟨hgroup.trans h.groupUid_eq, hsplit.trans h.splitId_eq,
    hgeneration.trans h.generation_eq, fun key hkey => h.within key (hcontains key hkey)⟩

/-- What every part of the ranges of `accepted` satisfies holds of the stored ranges. -/
def Stores (accepted : Range → Prop) (ranges : OrdMap Bytes CachedRange) : Prop :=
  ∀ e ∈ ranges, ∃ rangeIn, accepted rangeIn ∧ IsPart e.2 rangeIn

theorem replaceRangeIfNewerLocked_stores {accepted : Range → Prop} {cache : Cache}
    (hwell : WellFormed cache.state.ranges) (h : Stores accepted cache.state.ranges)
    {rangeIn : Range} (hrange : accepted rangeIn) (maybeUnreferenced : List UInt64) :
    Stores accepted
      (replaceRangeIfNewerLocked cache rangeIn maybeUnreferenced).1.state.ranges := by
  have hwell' := replaceRangeIfNewerLocked_wellFormed hwell rangeIn maybeUnreferenced
  rcases replaceRangeIfNewerLocked_cases hwell rangeIn maybeUnreferenced with ⟨heq, -⟩ | ⟨-, -, ho⟩
  · rw [heq]
    exact h
  · intro e he
    rcases ho.origin he with rfl | ⟨a, ha, hrest, hdata⟩
    · exact ⟨rangeIn, hrange, newRange_isPart rangeIn _⟩
    · obtain ⟨origin, horigin, hpart⟩ := h a ha
      refine ⟨origin, horigin, hpart.of_rangeData hdata fun key hkey => ?_⟩
      exact (contains_iff_covers hwell ha).mpr
        (hrest.covers ((contains_iff_covers hwell' he).mp hkey))

theorem addRanges_stores {accepted : Range → Prop} {cache : Cache}
    (hwell : WellFormed cache.state.ranges) (h : Stores accepted cache.state.ranges)
    {cacheUpdate : CacheUpdate} (hranges : ∀ rangeIn ∈ cacheUpdate.range, accepted rangeIn) :
    Stores accepted (addRanges cache cacheUpdate).2.state.ranges := by
  rw [addRanges_ranges]
  refine (List.foldlRecOn (motive := fun acc : Cache × List UInt64 =>
    WellFormed acc.1.state.ranges ∧ Stores accepted acc.1.state.ranges) cacheUpdate.range _
    ⟨hwell, h⟩ fun acc hacc rangeIn hmem => ?_).2
  exact ⟨replaceRangeIfNewerLocked_wellFormed hacc.1 rangeIn _,
    replaceRangeIfNewerLocked_stores hacc.1 hacc.2 (hranges rangeIn hmem) _⟩

/-- A lookup changes access times only. -/
theorem findRange_stores {accepted : Range → Prop} {cache : Cache}
    (h : Stores accepted cache.state.ranges) (uniformRandom : ℕ → ℕ) (key limit : Bytes)
    (mode : RangeMode) :
    Stores accepted (findRange cache uniformRandom key limit mode).2.state.ranges := by
  rcases findRange_cases cache uniformRandom key limit mode with heq | ⟨e, he, heq⟩
  · rw [heq]
    exact h
  · rw [heq, touch_ranges]
    intro e' he'
    rcases OrdMap.mem_insert.mp he' with rfl | ⟨he', -⟩
    · obtain ⟨rangeIn, hrange, hpart⟩ := h e he
      exact ⟨rangeIn, hrange, hpart.of_rangeData rfl fun _ hkey => hkey⟩
    · exact h e' he'

theorem findRange_groups (cache : Cache) (uniformRandom : ℕ → ℕ) (key limit : Bytes)
    (mode : RangeMode) :
    (findRange cache uniformRandom key limit mode).2.state.groups = cache.state.groups := by
  rcases findRange_cases cache uniformRandom key limit mode with heq | ⟨e, -, heq⟩ <;> rw [heq]
  rfl

end GoogleCloudRust.KeyRangeCache
