import GoogleCloudRust.Verification.KeyRangeCache.Partition

/-! # Updates are pointwise overwrites

The stored ranges denote a function from keys to range data, which is what a point
lookup returns. A range update is rejected as a whole, or it overwrites this function
on the keys of the incoming range. -/

namespace GoogleCloudRust.KeyRangeCache

open IntervalMap

/-- What a point lookup finds at a key. -/
def pointData (uniformRandom : ℕ → ℕ) (cache : Cache) (key : Bytes) :
    Option (UInt64 × UInt64 × Bytes) :=
  (findRange cache uniformRandom key [] .coveringSplit).1.map rangeData

/-- The data the stored ranges denote at a key. -/
noncomputable def dataAt (ranges : OrdMap Bytes CachedRange) (key : Bytes) :
    Option (UInt64 × UInt64 × Bytes) :=
  (valueAt rangeLimit ranges key).map rangeData

theorem pointData_eq (uniformRandom : ℕ → ℕ) (cache : Cache) (key : Bytes) :
    pointData uniformRandom cache key = dataAt cache.state.ranges key := by
  unfold pointData dataAt findRange valueAt
  dsimp only
  cases cache.state.ranges.lastLE key with
  | none => rfl
  | some first =>
      simp only [if_true, Option.bind_some, rangeLimit, lt_limit_iff, inRange, decide_eq_true_eq]
      split_ifs <;> rfl

theorem dataAt_eq_some_iff {ranges : OrdMap Bytes CachedRange} (h : WellFormed ranges)
    {key : Bytes} {data : UInt64 × UInt64 × Bytes} :
    dataAt ranges key = some data ↔
      ∃ e ∈ ranges, Covers rangeLimit e key ∧ rangeData e.2 = data := by
  simp only [dataAt, Option.map_eq_some_iff, valueAt_eq_some_iff h.partition]
  constructor
  · rintro ⟨_, ⟨e, he, hc, rfl⟩, rfl⟩
    exact ⟨e, he, hc, rfl⟩
  · rintro ⟨e, he, hc, rfl⟩
    exact ⟨e.2, ⟨e, he, hc, rfl⟩, rfl⟩

/-! ## Lookups leave the function alone -/

theorem touch_dataAt {cache : Cache} {e : Bytes × CachedRange} (he : e ∈ cache.state.ranges)
    (h : WellFormed cache.state.ranges) (key : Bytes) :
    dataAt (touch cache e).2.state.ranges key = dataAt cache.state.ranges key := by
  ext data
  rw [dataAt_eq_some_iff h, dataAt_eq_some_iff (touch_wellFormed he h)]
  simp only [touch_ranges, OrdMap.mem_insert]
  constructor
  · rintro ⟨a, rfl | ⟨ha, -⟩, hc, rfl⟩
    · exact ⟨e, he, hc, rfl⟩
    · exact ⟨a, ha, hc, rfl⟩
  · rintro ⟨a, ha, hc, rfl⟩
    by_cases hkey : a.1 = e.1
    · obtain rfl := OrdMap.eq_of_key_eq ha he hkey
      exact ⟨_, .inl rfl, hc, rfl⟩
    · exact ⟨a, .inr ⟨ha, hkey⟩, hc, rfl⟩

/-! ## One update -/

/-- The key lies in the incoming range. -/
def InRange (rangeIn : Range) (key : Bytes) : Prop :=
  rangeIn.startKey ≤ key ∧ (rangeIn.limitKey = [] ∨ key < rangeIn.limitKey)

instance (rangeIn : Range) (key : Bytes) : Decidable (InRange rangeIn key) := by
  unfold InRange
  infer_instance

/-- The later of the two start keys is common to both intervals, if any key is. -/
theorem meetsRange_iff {ranges : OrdMap Bytes CachedRange} (h : WellFormed ranges) {rangeIn : Range}
    (hproper : Proper rangeIn) {e : Bytes × CachedRange} (he : e ∈ ranges) :
    MeetsRange rangeIn e ↔ ∃ key, Contains e.2 key ∧ InRange rangeIn key := by
  simp only [contains_iff_covers h he, Covers, InRange, ← lt_limit_iff]
  constructor
  · rintro ⟨hbelow, habove⟩
    rcases le_total e.1 rangeIn.startKey with hle | hle
    · exact ⟨rangeIn.startKey, ⟨hle, habove⟩, le_rfl, hproper.start_lt⟩
    · exact ⟨e.1, ⟨le_rfl, h.partition.nonempty e he⟩, hle, hbelow⟩
  · rintro ⟨key, hc, hin⟩
    exact ⟨(WithTop.coe_le_coe.mpr hc.1).trans_lt hin.2,
      (WithTop.coe_le_coe.mpr hin.1).trans_lt hc.2⟩

theorem Overwrites.dataAt_eq {ranges ranges' : OrdMap Bytes CachedRange} {rangeIn : Range}
    {now : UInt64} (ho : Overwrites ranges ranges' rangeIn now) (h : WellFormed ranges)
    (key : Bytes) :
    dataAt ranges' key = if InRange rangeIn key then
      some (rangeIn.groupUid, rangeIn.splitId, rangeIn.generation) else dataAt ranges key := by
  classical
  have heq := ho.valueAt_eq h.partition key
  simp only [lt_limit_iff] at heq
  simp only [dataAt, heq, InRange]
  rfl

/-- Where an update is accepted, the ranges it replaces are no newer than it is. -/
theorem generation_le_of_not_rejected {ranges : OrdMap Bytes CachedRange} (h : WellFormed ranges)
    {rangeIn : Range} (hrejected : rejected ranges rangeIn = false) {e : Bytes × CachedRange}
    (he : e ∈ ranges) (hmeets : MeetsRange rangeIn e) : e.2.generation ≤ rangeIn.generation := by
  by_contra hlt
  have hreject : rejects rangeIn e.2 = true := decide_eq_true (.inl (not_le.mp hlt))
  have htrue := (rejected_iff h).mpr ⟨e, he, hmeets, hreject⟩
  rw [hrejected] at htrue
  cases htrue

/-! ## Generations never decrease -/

/-- Whatever is found at a key before is replaced by something at least as new. -/
def NoOlder (ranges ranges' : OrdMap Bytes CachedRange) : Prop :=
  ∀ key data, dataAt ranges key = some data →
    ∃ data', dataAt ranges' key = some data' ∧ data.2.2 ≤ data'.2.2

theorem NoOlder.of_eq {ranges ranges' : OrdMap Bytes CachedRange}
    (h : ∀ key, dataAt ranges' key = dataAt ranges key) : NoOlder ranges ranges' :=
  fun key data hdata => ⟨data, (h key).trans hdata, le_rfl⟩

theorem NoOlder.trans {ranges ranges' ranges'' : OrdMap Bytes CachedRange}
    (h : NoOlder ranges ranges') (h' : NoOlder ranges' ranges'') : NoOlder ranges ranges'' := by
  intro key data hdata
  obtain ⟨data', hdata', hle⟩ := h key data hdata
  obtain ⟨data'', hdata'', hle'⟩ := h' key data' hdata'
  exact ⟨data'', hdata'', hle.trans hle'⟩

theorem replaceRangeIfNewerLocked_noOlder {cache : Cache} (h : WellFormed cache.state.ranges)
    (rangeIn : Range) (maybeUnreferenced : List UInt64) :
    NoOlder cache.state.ranges
      (replaceRangeIfNewerLocked cache rangeIn maybeUnreferenced).1.state.ranges := by
  rcases replaceRangeIfNewerLocked_cases h rangeIn maybeUnreferenced with
    ⟨heq, -⟩ | ⟨hproper, hrejected, ho⟩
  · rw [heq]
    exact NoOlder.of_eq fun _ => rfl
  · intro key data hdata
    rw [Overwrites.dataAt_eq ho h]
    split_ifs with hin
    · obtain ⟨e, he, hc, rfl⟩ := (dataAt_eq_some_iff h).mp hdata
      have hmeets := (meetsRange_iff h hproper he).mpr ⟨key, (contains_iff_covers h he).mpr hc, hin⟩
      exact ⟨_, rfl, generation_le_of_not_rejected h hrejected he hmeets⟩
    · exact ⟨data, hdata, le_rfl⟩

theorem replaceRanges_noOlder {cache : Cache} (h : WellFormed cache.state.ranges)
    (ranges : List Range) (maybeUnreferenced : List UInt64) :
    NoOlder cache.state.ranges
      (replaceRanges cache ranges maybeUnreferenced).1.state.ranges := by
  induction ranges generalizing cache maybeUnreferenced with
  | nil => exact NoOlder.of_eq fun _ => rfl
  | cons rangeIn ranges ih =>
      exact (replaceRangeIfNewerLocked_noOlder h rangeIn maybeUnreferenced).trans
        (ih (replaceRangeIfNewerLocked_wellFormed h rangeIn maybeUnreferenced) _)

theorem step_noOlder {cache : Cache} (h : WellFormed cache.state.ranges) {call : Call}
    (hcall : call ≠ .clear) : NoOlder cache.state.ranges (step cache call).state.ranges := by
  cases call with
  | addRanges cacheUpdate =>
      rw [step, addRanges_ranges]
      exact replaceRanges_noOlder h cacheUpdate.range []
  | findRange uniformRandom key limit mode =>
      rcases findRange_cases cache uniformRandom key limit mode with heq | ⟨e, he, heq⟩
      · rw [step, heq]
        exact NoOlder.of_eq fun _ => rfl
      · rw [step, heq]
        exact NoOlder.of_eq (touch_dataAt he h)
  | clear => exact absurd rfl hcall

theorem run_noOlder {cache : Cache} (h : WellFormed cache.state.ranges) {calls : List Call}
    (hcalls : ∀ call ∈ calls, call ≠ .clear) :
    NoOlder cache.state.ranges (run cache calls).state.ranges := by
  induction calls generalizing cache with
  | nil => exact NoOlder.of_eq fun _ => rfl
  | cons call calls ih =>
      exact (step_noOlder h (hcalls call List.mem_cons_self)).trans
        (ih (step_wellFormed call h) fun c hc => hcalls c (List.mem_cons_of_mem _ hc))

/-! ## The refinement -/

/-- A stored range that has a key in common with the incoming range and is newer, or
is the same range at the same generation. -/
def Blocks (rangeIn : Range) (existing : CachedRange) : Prop :=
  (∃ key, Contains existing key ∧ InRange rangeIn key) ∧
    (rangeIn.generation < existing.generation ∨
      (existing.generation = rangeIn.generation ∧ existing.startKey = rangeIn.startKey ∧
        existing.limitKey = rangeIn.limitKey))

theorem rejected_iff_blocks {ranges : OrdMap Bytes CachedRange} (h : WellFormed ranges)
    {rangeIn : Range} (hproper : Proper rangeIn) :
    rejected ranges rangeIn = true ↔ ∃ e ∈ ranges, Blocks rangeIn e.2 := by
  rw [rejected_iff h]
  refine exists_congr fun e => and_congr_right fun he => ?_
  rw [meetsRange_iff h hproper he, Blocks, rejects, decide_eq_true_eq]
  refine and_congr_right fun _ => or_congr_right ?_
  exact and_congr eq_comm (and_congr eq_comm eq_comm)

/-- At whatever point of a run and of an update message a proper range comes in, it is
blocked and changes nothing, or it overwrites what point lookups find, on its own keys
only. Without a clear, what is found at a key never disappears nor gets older. -/
theorem run_new_pointwise (uniformRandom : ℕ → ℕ) (calls : List Call) :
    (∀ (before : List Range) (rangeIn : Range) (maybeUnreferenced : List UInt64),
      (rangeIn.startKey < rangeIn.limitKey ∨ rangeIn.limitKey = []) →
      let cache := (replaceRanges (run new calls) before []).1
      let after := (replaceRangeIfNewerLocked cache rangeIn maybeUnreferenced).1
      ((∃ e ∈ cache.state.ranges, Blocks rangeIn e.2) →
        after.state.ranges = cache.state.ranges) ∧
      ((¬ ∃ e ∈ cache.state.ranges, Blocks rangeIn e.2) → ∀ key,
        pointData uniformRandom after key = if InRange rangeIn key then
          some (rangeIn.groupUid, rangeIn.splitId, rangeIn.generation)
        else pointData uniformRandom cache key)) ∧
    (∀ later : List Call, (∀ call ∈ later, call ≠ .clear) → ∀ key data,
      pointData uniformRandom (run new calls) key = some data →
      ∃ data', pointData uniformRandom (run (run new calls) later) key = some data' ∧
        data.2.2 ≤ data'.2.2) := by
  have hrun := run_wellFormed new_wellFormed calls
  refine ⟨fun before rangeIn maybeUnreferenced hrange => ?_, fun later hlater key data hdata => ?_⟩
  · intro cache after
    have hproper : Proper rangeIn := hrange.symm
    have h : WellFormed cache.state.ranges := replaceRanges_wellFormed hrun before []
    rw [← rejected_iff_blocks h hproper]
    rcases replaceRangeIfNewerLocked_cases h rangeIn maybeUnreferenced with
      ⟨heq, hcond⟩ | ⟨-, hrejected, ho⟩
    · have hafter : after = cache := (Prod.ext_iff.mp heq).1
      have hrejected := hcond.resolve_left (not_not.mpr hproper)
      exact ⟨fun _ => by rw [hafter], fun hnot => absurd hrejected hnot⟩
    · refine ⟨fun htrue => absurd htrue (by simp [hrejected]), fun _ key => ?_⟩
      rw [pointData_eq, pointData_eq]
      exact Overwrites.dataAt_eq ho h key
  · rw [pointData_eq] at hdata ⊢
    exact run_noOlder hrun hlater key data hdata

def wholeRange : Range := ⟨[], [], 1, 10, [1]⟩

def innerRange : Range := ⟨[98], [100], 2, 20, [2]⟩

theorem run_new_pointwise_split :
    let cache := run new [.addRanges ⟨[wholeRange], []⟩]
    let after := (replaceRangeIfNewerLocked cache innerRange []).1
    pointData 0 after [97] = some (1, 10, [1]) ∧ pointData 0 after [99] = some (2, 20, [2]) ∧
      ∃ data, pointData 0 (run cache [.addRanges ⟨[innerRange], []⟩]) [101] = some data ∧
        [1] ≤ data.2.2 := by
  have h := run_new_pointwise 0 [.addRanges ⟨[wholeRange], []⟩]
  have hfree : ¬ ∃ e ∈ (run new [.addRanges ⟨[wholeRange], []⟩]).state.ranges,
      Blocks innerRange e.2 := by
    rintro ⟨e, he, -, hblocks⟩
    have hall : ∀ e ∈ (run new [.addRanges ⟨[wholeRange], []⟩]).state.ranges.entries,
        e.2.generation = [1] := by decide
    rcases hblocks with hlt | ⟨heq, -⟩
    · exact absurd (hall e he ▸ hlt) (by decide)
    · exact absurd (heq.symm.trans (hall e he)) (by decide)
  have hpoint := (h.1 [] innerRange [] (by decide)).2 hfree
  refine ⟨(hpoint [97]).trans (by decide), (hpoint [99]).trans (by decide), ?_⟩
  exact h.2 [.addRanges ⟨[innerRange], []⟩] (by simp) [101] (1, 10, [1]) (by decide)

end GoogleCloudRust.KeyRangeCache
