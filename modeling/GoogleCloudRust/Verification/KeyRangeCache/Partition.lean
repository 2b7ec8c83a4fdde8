import GoogleCloudRust.Verification.KeyRangeCache.Update

/-! # The cache stays a partition

Along every run of updates, lookups and clears, each range sits under its start key,
and the stored ranges are non-empty and pairwise disjoint. -/

namespace GoogleCloudRust.KeyRangeCache

open IntervalMap

/-! ## Runs -/

/-- A call on the cache; `findRange` comes with the numbers it will draw. -/
inductive Call
  | addRanges (cacheUpdate : CacheUpdate)
  | findRange (uniformRandom : ℕ → ℕ) (key limit : Bytes) (mode : RangeMode)
  | clear

def step (cache : Cache) : Call → Cache
  | .addRanges cacheUpdate => (addRanges cache cacheUpdate).2
  | .findRange uniformRandom key limit mode => (findRange cache uniformRandom key limit mode).2
  | .clear => clear cache

def run (cache : Cache) (calls : List Call) : Cache := calls.foldl step cache

/-- What every call preserves holds along every run. -/
theorem run_preserves {motive : Cache → Prop} (hstep : ∀ cache call, motive cache →
    motive (step cache call)) {cache : Cache} (h : motive cache) (calls : List Call) :
    motive (run cache calls) :=
  List.foldlRecOn calls step h fun cache hcache call _ => hstep cache call hcache

/-! ## Lookups -/

/-- The scan samples one of the ranges it passes. -/
private theorem mem_of_sampled {uniformRandom : ℕ → ℕ} {limit : Bytes} {minEntries : ℕ}
    {entries : List (Bytes × CachedRange)} {s : ScanState} {motive : Bytes × CachedRange → Prop}
    (hentries : ∀ e ∈ entries, motive e) (hs : ∀ e, s.sampled = some e → motive e)
    {e : Bytes × CachedRange}
    (he : (scan uniformRandom limit minEntries entries s).sampled = some e) : motive e := by
  induction entries generalizing s with
  | nil => exact hs e he
  | cons current rest ih =>
      have hnext : ∀ e, (scanStep uniformRandom s current).sampled = some e → motive e := by
        intro e he
        simp only [scanStep] at he
        split_ifs at he
        · exact Option.some.inj he ▸ hentries current List.mem_cons_self
        · exact hs e he
      rw [scan] at he
      dsimp only at he
      split_ifs at he
      · exact hs e he
      · exact hnext e he
      · exact ih (fun a ha => hentries a (List.mem_cons_of_mem _ ha)) hnext he

/-- A lookup misses and changes nothing, or it touches a stored range. -/
theorem findRange_cases (cache : Cache) (uniformRandom : ℕ → ℕ) (key limit : Bytes)
    (mode : RangeMode) :
    findRange cache uniformRandom key limit mode = (none, cache) ∨
      ∃ e ∈ cache.state.ranges, findRange cache uniformRandom key limit mode = touch cache e := by
  have hfirst : ∀ e, cache.state.ranges.lastLE key = some e → e ∈ cache.state.ranges :=
    fun e he => (OrdMap.lastLE_eq_some_iff.mp he).1
  have hpick : ∀ first, (∀ e, first = some e → e ∈ cache.state.ranges) →
      pickRandom cache uniformRandom key limit first = (none, cache) ∨
        ∃ e ∈ cache.state.ranges, pickRandom cache uniformRandom key limit first = touch cache e := by
    intro first hmem
    unfold pickRandom
    dsimp only
    split
    · rename_i sampled hsampled
      split_ifs
      · refine .inr ⟨sampled, mem_of_sampled (fun e he => (OrdMap.mem_range.mp he).1) ?_ hsampled,
          rfl⟩
        intro e he
        cases first with
        | none => cases he
        | some first =>
            dsimp only at he
            split_ifs at he
            exact hmem e he
      · exact .inl rfl
    · exact .inl rfl
  unfold findRange
  dsimp only
  cases hlast : cache.state.ranges.lastLE key with
  | none =>
      dsimp only
      split_ifs
      · exact .inl rfl
      · exact hpick none nofun
  | some first =>
      dsimp only
      split_ifs
      · exact .inr ⟨first, hfirst first hlast, rfl⟩
      · exact .inl rfl
      · exact .inr ⟨first, hfirst first hlast, rfl⟩
      · exact .inl rfl
      · exact hpick (some first) fun e he => Option.some.inj he ▸ hfirst first hlast

theorem touch_ranges (cache : Cache) (e : Bytes × CachedRange) :
    (touch cache e).2.state.ranges =
      cache.state.ranges.insert e.1 { e.2 with lastAccess := cache.accessCounter + 1 } := rfl

/-- After a touch every entry is an old one up to its access time. -/
theorem mem_touch {cache : Cache} {e e' : Bytes × CachedRange} (he : e ∈ cache.state.ranges)
    (he' : e' ∈ (touch cache e).2.state.ranges) :
    ∃ a ∈ cache.state.ranges, e'.1 = a.1 ∧ e'.2.startKey = a.2.startKey ∧
      e'.2.limitKey = a.2.limitKey := by
  rw [touch_ranges, OrdMap.mem_insert] at he'
  rcases he' with rfl | ⟨he', -⟩
  · exact ⟨e, he, rfl, rfl, rfl⟩
  · exact ⟨e', he', rfl, rfl, rfl⟩

theorem touch_wellFormed {cache : Cache} {e : Bytes × CachedRange} (he : e ∈ cache.state.ranges)
    (h : WellFormed cache.state.ranges) : WellFormed (touch cache e).2.state.ranges := by
  refine ⟨fun e' he' => ?_, fun e' he' => ?_, fun e' he' e'' he'' hlt => ?_⟩
  · obtain ⟨a, ha, hkey, hstart, -⟩ := mem_touch he he'
    rw [hstart, hkey, h.startKey_eq a ha]
  · obtain ⟨a, ha, hkey, -, hlimit⟩ := mem_touch he he'
    rw [rangeLimit, hkey, hlimit]
    exact h.partition.nonempty a ha
  · obtain ⟨a, ha, hkey, -, hlimit⟩ := mem_touch he he'
    obtain ⟨b, hb, hkey', -⟩ := mem_touch he he''
    rw [rangeLimit, hlimit, hkey']
    exact h.partition.disjoint a ha b hb (by rw [← hkey, ← hkey']; exact hlt)

/-! ## Updates -/

@[simp] theorem removeUnreferenced_ranges (state : CacheState) (maybeUnreferenced : List UInt64) :
    (removeUnreferenced state maybeUnreferenced).2.ranges = state.ranges := by
  refine List.foldlRecOn (motive := fun acc : Bool × CacheState => acc.2.ranges = state.ranges)
    maybeUnreferenced _ rfl fun acc hacc groupUid _ => ?_
  rw [← hacc]
  dsimp only [CacheState.removeIfUnreferenced]
  split
  · rfl
  · split_ifs <;> rfl

@[simp] theorem updateGroups_ranges (state : CacheState) (groups : List Group) :
    (updateGroups state groups).2.ranges = state.ranges := by
  refine List.foldlRecOn (motive := fun acc : Bool × CacheState => acc.2.ranges = state.ranges)
    groups _ rfl fun acc hacc groupIn _ => ?_
  rw [← hacc]
  dsimp only [updateGroup]
  split
  · rfl
  · split_ifs <;> rfl

/-- The ranges after an update message are those after its range updates. -/
theorem addRanges_ranges (cache : Cache) (cacheUpdate : CacheUpdate) :
    (addRanges cache cacheUpdate).2.state.ranges =
      (replaceRanges cache cacheUpdate.range []).1.state.ranges := by
  unfold addRanges
  split_ifs with hempty
  · have hnil : cacheUpdate.range = [] := by simp_all
    rw [hnil]
    rfl
  · dsimp only
    rw [updateGroups_ranges, removeUnreferenced_ranges]

theorem replaceRanges_wellFormed {cache : Cache} (h : WellFormed cache.state.ranges)
    (ranges : List Range) (maybeUnreferenced : List UInt64) :
    WellFormed (replaceRanges cache ranges maybeUnreferenced).1.state.ranges :=
  List.foldlRecOn (motive := fun acc : Cache × List UInt64 => WellFormed acc.1.state.ranges)
    ranges _ h fun _ hacc rangeIn _ => replaceRangeIfNewerLocked_wellFormed hacc rangeIn _

/-! ## The invariant -/

theorem new_wellFormed : WellFormed new.state.ranges :=
  ⟨fun _ he => absurd he OrdMap.not_mem_empty, isPartition_empty⟩

theorem step_wellFormed {cache : Cache} (call : Call) (h : WellFormed cache.state.ranges) :
    WellFormed (step cache call).state.ranges := by
  cases call with
  | addRanges cacheUpdate =>
      rw [step, addRanges_ranges]
      exact replaceRanges_wellFormed h cacheUpdate.range []
  | findRange uniformRandom key limit mode =>
      rcases findRange_cases cache uniformRandom key limit mode with heq | ⟨e, he, heq⟩
      · rw [step, heq]
        exact h
      · rw [step, heq]
        exact touch_wellFormed he h
  | clear => exact new_wellFormed

theorem run_wellFormed {cache : Cache} (h : WellFormed cache.state.ranges) (calls : List Call) :
    WellFormed (run cache calls).state.ranges :=
  run_preserves (motive := fun cache => WellFormed cache.state.ranges)
    (fun _ call => step_wellFormed call) h calls

/-- The key lies in the range. -/
def Contains (range : CachedRange) (key : Bytes) : Prop :=
  range.startKey ≤ key ∧ (range.limitKey = [] ∨ key < range.limitKey)

theorem contains_iff_covers {ranges : OrdMap Bytes CachedRange} (h : WellFormed ranges)
    {e : Bytes × CachedRange} (he : e ∈ ranges) {key : Bytes} :
    Contains e.2 key ↔ Covers rangeLimit e key := by
  rw [Contains, Covers, h.startKey_eq e he, rangeLimit, lt_limit_iff]

/-- In every reachable state the stored ranges are a partition under their start keys. -/
theorem run_new_partition (calls : List Call) :
    let ranges := (run new calls).state.ranges
    (∀ e ∈ ranges, e.2.startKey = e.1 ∧
      (e.2.limitKey = [] ∨ e.2.startKey < e.2.limitKey)) ∧
    (∀ e ∈ ranges, ∀ e' ∈ ranges, e ≠ e' → ∀ key, ¬ (Contains e.2 key ∧ Contains e'.2 key)) := by
  have h := run_wellFormed new_wellFormed calls
  refine ⟨fun e he => ⟨h.startKey_eq e he, ?_⟩, fun e he e' he' hne key ⟨hc, hc'⟩ => hne ?_⟩
  · rw [h.startKey_eq e he]
    exact lt_limit_iff.mp (h.partition.nonempty e he)
  · exact h.partition.covers_unique he he' ((contains_iff_covers h he).mp hc)
      ((contains_iff_covers h he').mp hc')

end GoogleCloudRust.KeyRangeCache
