import GoogleCloudRust.Library.IntervalMap
import GoogleCloudRust.Model.KeyRangeCache

/-! # One range update

A range update either leaves the stored ranges alone or overwrites the interval of
the incoming range. -/

namespace GoogleCloudRust.KeyRangeCache

open IntervalMap

/-! ## Ranges as intervals -/

/-- An empty limit key is unbounded. -/
def limit (key : Bytes) : WithTop Bytes := if key = [] then ⊤ else (key : WithTop Bytes)

def rangeLimit (range : CachedRange) : WithTop Bytes := limit range.limitKey

theorem lt_limit_iff {key limitKey : Bytes} :
    (key : WithTop Bytes) < limit limitKey ↔ limitKey = [] ∨ key < limitKey := by
  unfold limit
  split_ifs with h <;> simp [h]

theorem limit_of_ne_nil {key : Bytes} (h : key ≠ []) : limit key = key := if_neg h

theorem limit_lt_limit_iff {key key' : Bytes} :
    limit key < limit key' ↔ key ≠ [] ∧ (key' = [] ∨ key < key') := by
  by_cases h : key = []
  · simp [limit, h]
  · rw [limit_of_ne_nil h, lt_limit_iff]
    simp [h]

/-- The data a range attaches to its keys. -/
def rangeData (range : CachedRange) : UInt64 × UInt64 × Bytes :=
  (range.groupUid, range.splitId, range.generation)

/-- Every range sits under its start key, and the ranges form a partition. -/
structure WellFormed (ranges : OrdMap Bytes CachedRange) : Prop where
  startKey_eq : ∀ e ∈ ranges, e.2.startKey = e.1
  partition : IsPartition rangeLimit ranges

/-- The interval of the incoming range is not empty. -/
def Proper (rangeIn : Range) : Prop :=
  rangeIn.limitKey = [] ∨ rangeIn.startKey < rangeIn.limitKey

theorem Proper.start_lt {rangeIn : Range} (h : Proper rangeIn) :
    (rangeIn.startKey : WithTop Bytes) < limit rangeIn.limitKey := lt_limit_iff.mpr h

/-- The stored range and the incoming one have a key in common. -/
abbrev MeetsRange (rangeIn : Range) : Bytes × CachedRange → Prop :=
  Meets rangeLimit rangeIn.startKey (limit rangeIn.limitKey)

/-! ## The overlapping ranges -/

section Overlapping

variable {ranges : OrdMap Bytes CachedRange} {rangeIn : Range} {e : Bytes × CachedRange}

theorem overlaps_iff :
    overlaps rangeIn e.2 = true ↔ (rangeIn.startKey : WithTop Bytes) < rangeLimit e.2 := by
  rw [rangeLimit, lt_limit_iff, overlaps, decide_eq_true_eq]

theorem limitBound_isAbove {key : Bytes} :
    (limitBound rangeIn).isAbove key = true ↔ (key : WithTop Bytes) < limit rangeIn.limitKey := by
  rw [lt_limit_iff, limitBound]
  split_ifs with h <;> simp [Bound.isAbove, h]

/-- The scan starts early enough to see every range that reaches into the incoming one. -/
theorem startKeyQuery_le (h : WellFormed ranges) (he : e ∈ ranges)
    (hreach : (rangeIn.startKey : WithTop Bytes) < rangeLimit e.2) :
    startKeyQuery ranges rangeIn ≤ e.1 := by
  unfold startKeyQuery
  rcases le_or_gt e.1 rangeIn.startKey with hle | hgt
  · have hlast := h.partition.lastLE_eq_of_covers he ⟨hle, hreach⟩
    rw [hlast]
    simp only [if_pos (lt_limit_iff.mp hreach), h.startKey_eq e he, le_refl]
  · cases hlast : ranges.lastLE rangeIn.startKey with
    | none => exact hgt.le
    | some first =>
        obtain ⟨hmem, hle, -⟩ := OrdMap.lastLE_eq_some_iff.mp hlast
        dsimp only
        split_ifs
        · rw [h.startKey_eq first hmem]
          exact hle.trans hgt.le
        · exact hgt.le

/-- The two bounds of the scan and its filter select exactly the ranges that meet the
incoming one. -/
theorem mem_overlapping (h : WellFormed ranges) :
    e ∈ overlapping ranges rangeIn ↔ e ∈ ranges ∧ MeetsRange rangeIn e := by
  rw [overlapping, List.mem_filter, OrdMap.mem_range, limitBound_isAbove, overlaps_iff]
  constructor
  · rintro ⟨⟨he, -, hbelow⟩, hreach⟩
    exact ⟨he, hbelow, hreach⟩
  · rintro ⟨he, hbelow, hreach⟩
    exact ⟨⟨he, by simpa [Bound.isBelow] using startKeyQuery_le h he hreach, hbelow⟩, hreach⟩

theorem overlapping_sorted : (overlapping ranges rangeIn).Pairwise fun a b => a.1 < b.1 :=
  (ranges.sorted.filter _).filter _

theorem overlapping_startKeys (h : WellFormed ranges) :
    (overlapping ranges rangeIn).map (fun existing => existing.2.startKey) =
      (overlapping ranges rangeIn).map Prod.fst :=
  List.map_congr_left fun e he => h.startKey_eq e ((mem_overlapping h).mp he).1

end Overlapping

/-! ## Cutting and inserting -/

@[simp] theorem incrementGroupReferences_ranges (state : CacheState) (groupUid : UInt64) :
    (state.incrementGroupReferences groupUid).ranges = state.ranges := rfl

@[simp] theorem decrementGroupReferences_ranges (state : CacheState) (groupUid : UInt64) :
    (state.decrementGroupReferences groupUid).2.ranges = state.ranges := by
  unfold CacheState.decrementGroupReferences
  split <;> rfl

@[simp] theorem insertRange_ranges (state : CacheState) (startKey : Bytes) (range : CachedRange) :
    (state.insertRange startKey range).ranges = state.ranges.insert startKey range := rfl

@[simp] theorem decrementAll_ranges (replaced : List (Bytes × CachedRange)) (state : CacheState)
    (maybeUnreferenced : List UInt64) :
    (decrementAll replaced state maybeUnreferenced).1.ranges = state.ranges := by
  induction replaced generalizing state maybeUnreferenced with
  | nil => rfl
  | cons existing rest ih => simp [decrementAll, ih]

section Accepted

variable {ranges : OrdMap Bytes CachedRange} {rangeIn : Range} {e : Bytes × CachedRange}
  {first last : Bytes × CachedRange} (h : WellFormed ranges) (hproper : Proper rangeIn)

/-- What is left after the overlapping ranges are removed. -/
def kept (ranges : OrdMap Bytes CachedRange) (rangeIn : Range) : OrdMap Bytes CachedRange :=
  ranges.eraseAll ((overlapping ranges rangeIn).map fun existing => existing.2.startKey)

include h

theorem mem_kept : e ∈ kept ranges rangeIn ↔ e ∈ ranges ∧ ¬ MeetsRange rangeIn e := by
  rw [kept, overlapping_startKeys h, OrdMap.mem_eraseAll]
  refine and_congr_right fun he => not_congr ?_
  constructor
  · intro hkey
    obtain ⟨a, ha, hkey⟩ := List.mem_map.mp hkey
    obtain ⟨ha, hmeets⟩ := (mem_overlapping h).mp ha
    exact OrdMap.eq_of_key_eq ha he hkey ▸ hmeets
  · intro hmeets
    exact List.mem_map.mpr ⟨e, (mem_overlapping h).mpr ⟨he, hmeets⟩, rfl⟩

/-- Only the first overlapping range starts before the incoming one. -/
theorem eq_first (hfirst : (overlapping ranges rangeIn).head? = some first)
    (he : e ∈ overlapping ranges rangeIn) (hlt : e.1 < rangeIn.startKey) : first = e := by
  obtain ⟨hmem, hmeets⟩ := (mem_overlapping h).mp (List.mem_of_head? hfirst)
  exact h.partition.eq_of_meets_of_lt_start hmem ((mem_overlapping h).mp he).1 hmeets hlt
    (OrdMap.head_le overlapping_sorted hfirst he)

/-- Only the last overlapping range reaches beyond the incoming one. -/
theorem eq_last (hlast : (overlapping ranges rangeIn).getLast? = some last)
    (he : e ∈ overlapping ranges rangeIn) (hlt : limit rangeIn.limitKey < rangeLimit e.2) :
    e = last := by
  obtain ⟨hmem, hmeets⟩ := (mem_overlapping h).mp (List.mem_of_getLast? hlast)
  exact h.partition.eq_of_meets_of_limit_lt ((mem_overlapping h).mp he).1 hmem hmeets hlt
    (OrdMap.le_getLast overlapping_sorted hlast he)

theorem head_fresh (hfirst : (overlapping ranges rangeIn).head? = some first) :
    ∀ e ∈ kept ranges rangeIn, e.1 ≠ first.1 := by
  obtain ⟨hmem, hmeets⟩ := (mem_overlapping h).mp (List.mem_of_head? hfirst)
  intro e he hkey
  obtain ⟨he, hnot⟩ := (mem_kept h).mp he
  exact hnot (OrdMap.eq_of_key_eq he hmem hkey ▸ hmeets)

theorem mem_insertHead {state : CacheState} (hstate : state.ranges = kept ranges rangeIn)
    (hfirst : (overlapping ranges rangeIn).head? = some first) :
    e ∈ (insertHead rangeIn first.2 state).ranges ↔ e ∈ kept ranges rangeIn ∨
      ∃ a ∈ ranges, MeetsRange rangeIn a ∧ a.1 < rangeIn.startKey ∧
        e = (a.1, headOf rangeIn a.2) := by
  obtain ⟨hmem, hmeets⟩ := (mem_overlapping h).mp (List.mem_of_head? hfirst)
  have hkey := h.startKey_eq first hmem
  have hunique : ∀ a ∈ ranges, MeetsRange rangeIn a → a.1 < rangeIn.startKey → first = a :=
    fun a ha hma hlt => eq_first h hfirst ((mem_overlapping h).mpr ⟨ha, hma⟩) hlt
  unfold insertHead
  split_ifs with hlt
  · rw [insertRange_ranges, incrementGroupReferences_ranges, OrdMap.mem_insert, hstate, hkey]
    constructor
    · rintro (rfl | ⟨he, -⟩)
      · exact .inr ⟨first, hmem, hmeets, hkey ▸ hlt, rfl⟩
      · exact .inl he
    · rintro (he | ⟨a, ha, hma, hlt', rfl⟩)
      · exact .inr ⟨he, head_fresh h hfirst e he⟩
      · exact .inl (hunique a ha hma hlt' ▸ rfl)
  · rw [hstate]
    refine ⟨.inl, ?_⟩
    rintro (he | ⟨a, ha, hma, hlt', rfl⟩)
    · exact he
    · exact absurd (hkey ▸ hunique a ha hma hlt' ▸ hlt') hlt

/-- Whatever stands before the incoming range or was kept is not stored under its
limit key, if the last overlapping range reaches beyond that key. -/
theorem tail_fresh {state : CacheState}
    (hstate : ∀ e ∈ state.ranges, e ∈ kept ranges rangeIn ∨ e.1 < rangeIn.startKey)
    (hlast : (overlapping ranges rangeIn).getLast? = some last) (hproper : Proper rangeIn)
    (hlt : limit rangeIn.limitKey < rangeLimit last.2) :
    ∀ e ∈ state.ranges, e.1 ≠ rangeIn.limitKey := by
  obtain ⟨hmem, hmeets⟩ := (mem_overlapping h).mp (List.mem_of_getLast? hlast)
  have hlim := limit_of_ne_nil (limit_lt_limit_iff.mp hlt).1
  intro e he hkey
  rcases hstate e he with hkept | hbefore
  · obtain ⟨hkept, -⟩ := (mem_kept h).mp hkept
    have hafter : last.1 < e.1 := by
      rw [hkey, ← WithTop.coe_lt_coe, ← hlim]
      exact hmeets.1
    have hend := h.partition.disjoint last hmem e hkept hafter
    rw [hkey, ← hlim] at hend
    exact absurd hlt (not_lt.mpr hend)
  · have hstart := hproper.start_lt
    rw [hlim, WithTop.coe_lt_coe] at hstart
    exact absurd (hbefore.trans hstart) (hkey ▸ lt_irrefl _)

theorem mem_insertTail {state : CacheState}
    (hstate : ∀ e ∈ state.ranges, e ∈ kept ranges rangeIn ∨ e.1 < rangeIn.startKey)
    (hlast : (overlapping ranges rangeIn).getLast? = some last) (hproper : Proper rangeIn) :
    e ∈ (insertTail rangeIn last.2 state).ranges ↔ e ∈ state.ranges ∨
      ∃ a ∈ ranges, MeetsRange rangeIn a ∧ limit rangeIn.limitKey < rangeLimit a.2 ∧
        (e.1 : WithTop Bytes) = limit rangeIn.limitKey ∧ e.2 = tailOf rangeIn a.2 := by
  obtain ⟨hmem, hmeets⟩ := (mem_overlapping h).mp (List.mem_of_getLast? hlast)
  have hunique : ∀ a ∈ ranges, MeetsRange rangeIn a → limit rangeIn.limitKey < rangeLimit a.2 →
      a = last :=
    fun a ha hma hlt => eq_last h hlast ((mem_overlapping h).mpr ⟨ha, hma⟩) hlt
  have hcond : (rangeIn.limitKey ≠ [] ∧
      (last.2.limitKey = [] ∨ rangeIn.limitKey < last.2.limitKey)) ↔
      limit rangeIn.limitKey < rangeLimit last.2 := limit_lt_limit_iff.symm
  unfold insertTail
  by_cases hlt : limit rangeIn.limitKey < rangeLimit last.2
  · have hlim := limit_of_ne_nil (hcond.mpr hlt).1
    rw [if_pos (hcond.mpr hlt), insertRange_ranges, incrementGroupReferences_ranges,
      OrdMap.mem_insert]
    constructor
    · rintro (rfl | ⟨he, -⟩)
      · exact .inr ⟨last, hmem, hmeets, hlt, hlim.symm, rfl⟩
      · exact .inl he
    · rintro (he | ⟨a, ha, hma, hlt', hkey, hvalue⟩)
      · exact .inr ⟨he, tail_fresh h hstate hlast hproper hlt e he⟩
      · rw [hlim, WithTop.coe_inj] at hkey
        exact .inl (Prod.ext hkey (hunique a ha hma hlt' ▸ hvalue))
  · rw [if_neg (mt hcond.mp hlt)]
    refine ⟨.inl, ?_⟩
    rintro (he | ⟨a, ha, hma, hlt', -⟩)
    · exact he
    · exact absurd (hunique a ha hma hlt' ▸ hlt') hlt

/-- No other range is stored under the start key of the incoming one. -/
theorem new_fresh {state : CacheState}
    (hstate : ∀ e ∈ state.ranges, e ∈ kept ranges rangeIn ∨ e.1 < rangeIn.startKey ∨
      (e.1 : WithTop Bytes) = limit rangeIn.limitKey) (hproper : Proper rangeIn) :
    ∀ e ∈ state.ranges, e.1 ≠ rangeIn.startKey := by
  have hstart := hproper.start_lt
  intro e he hkey
  rcases hstate e he with hkept | hbefore | hafter
  · obtain ⟨hkept, hnot⟩ := (mem_kept h).mp hkept
    have hnonempty := h.partition.nonempty e hkept
    rw [hkey] at hnonempty
    exact hnot ⟨hkey ▸ hstart, hnonempty⟩
  · exact absurd hbefore (hkey ▸ lt_irrefl _)
  · rw [← hafter, hkey] at hstart
    exact absurd hstart (lt_irrefl _)

omit h in
theorem mem_insertNew {state : CacheState} (now : UInt64)
    (hfresh : ∀ e ∈ state.ranges, e.1 ≠ rangeIn.startKey) :
    e ∈ (insertNew rangeIn now state).ranges ↔
      e = (rangeIn.startKey, newRange rangeIn now) ∨ e ∈ state.ranges := by
  rw [insertNew, insertRange_ranges, incrementGroupReferences_ranges, OrdMap.mem_insert]
  exact or_congr_right (and_iff_left_of_imp (hfresh e))

end Accepted

/-! ## The shape of an update -/

/-- An existing range makes the incoming one stale or redundant. -/
def rejected (ranges : OrdMap Bytes CachedRange) (rangeIn : Range) : Bool :=
  (overlapping ranges rangeIn).any fun existing => rejects rangeIn existing.2

/-- The state with the interval of the incoming range cut out. -/
def cutState (rangeIn : Range) (state : CacheState) : CacheState :=
  let replaced := overlapping state.ranges rangeIn
  let state := { state with ranges := kept state.ranges rangeIn }
  let state := match replaced.head? with
    | some first => insertHead rangeIn first.2 state
    | none => state
  match replaced.getLast? with
  | some last => insertTail rangeIn last.2 state
  | none => state

/-- The state after an accepted update, with the groups it may have released. -/
def acceptedState (rangeIn : Range) (now : UInt64) (state : CacheState)
    (maybeUnreferenced : List UInt64) : CacheState × List UInt64 :=
  decrementAll (overlapping state.ranges rangeIn) (insertNew rangeIn now (cutState rangeIn state))
    maybeUnreferenced

instance (rangeIn : Range) : Decidable (Proper rangeIn) := by
  unfold Proper
  infer_instance

/-- The path without overlap is the general one with nothing to cut. -/
theorem replaceRangeIfNewerLocked_eq (cache : Cache) (rangeIn : Range)
    (maybeUnreferenced : List UInt64) :
    replaceRangeIfNewerLocked cache rangeIn maybeUnreferenced =
      if ¬ Proper rangeIn ∨ rejected cache.state.ranges rangeIn then (cache, maybeUnreferenced)
      else
        let now := cache.accessCounter + 1
        let accepted := acceptedState rangeIn now cache.state maybeUnreferenced
        ({ cache with accessCounter := now, state := accepted.1 }, accepted.2) := by
  have hproper : (rangeIn.limitKey ≠ [] ∧ rangeIn.limitKey ≤ rangeIn.startKey) ↔
      ¬ Proper rangeIn := by
    rw [Proper, not_or, not_lt]
  unfold replaceRangeIfNewerLocked
  simp only [hproper]
  by_cases hp : Proper rangeIn
  · by_cases hr : rejected cache.state.ranges rangeIn = true
    · rw [if_neg (not_not.mpr hp), if_pos (Or.inr hr : ¬ Proper rangeIn ∨ _)]
      exact if_pos hr
    · rw [if_neg (not_not.mpr hp), if_neg (not_or.mpr ⟨not_not.mpr hp, hr⟩)]
      refine (if_neg hr).trans ?_
      unfold acceptedState cutState
      dsimp only
      cases hov : overlapping cache.state.ranges rangeIn with
      | nil =>
          have hkept : kept cache.state.ranges rangeIn = cache.state.ranges := by
            rw [kept, hov]
            rfl
          simp only [List.head?_nil, List.getLast?_nil, hkept, accessTimeNow, decrementAll]
      | cons first rest =>
          obtain ⟨last, hlast⟩ : ∃ last, (first :: rest).getLast? = some last :=
            ⟨_, List.getLast?_cons⟩
          simp only [List.head?_cons, hlast, kept, hov, accessTimeNow]
  · rw [if_pos hp, if_pos (.inl hp)]

/-! ## What an update does to the stored ranges -/

/-- The stored ranges after an accepted update. -/
abbrev Overwrites (ranges ranges' : OrdMap Bytes CachedRange) (rangeIn : Range) (now : UInt64) :
    Prop :=
  IsOverwrite rangeLimit rangeData ranges ranges' rangeIn.startKey (limit rangeIn.limitKey)
    (newRange rangeIn now) (headOf rangeIn) (tailOf rangeIn)

section Spec

variable {ranges ranges' : OrdMap Bytes CachedRange} {rangeIn : Range} {now : UInt64}

/-- A set of entries described as in the library is an overwrite. -/
private theorem overwrites_of_mem_iff (hproper : Proper rangeIn)
    (hmem : ∀ e, e ∈ ranges' ↔ e = (rangeIn.startKey, newRange rangeIn now) ∨
      (e ∈ ranges ∧ ¬ MeetsRange rangeIn e) ∨
      (∃ a ∈ ranges, MeetsRange rangeIn a ∧ a.1 < rangeIn.startKey ∧
        e = (a.1, headOf rangeIn a.2)) ∨
      (∃ a ∈ ranges, MeetsRange rangeIn a ∧ limit rangeIn.limitKey < rangeLimit a.2 ∧
        (e.1 : WithTop Bytes) = limit rangeIn.limitKey ∧ e.2 = tailOf rangeIn a.2)) :
    Overwrites ranges ranges' rangeIn now where
  start_lt := hproper.start_lt
  lim_value := rfl
  lim_cutHead _ _ hlt := limit_of_ne_nil fun hnil : rangeIn.startKey = [] =>
    absurd (hnil ▸ hlt) (List.not_lt_nil _)
  lim_cutTail _ := rfl
  data_cutHead _ := rfl
  data_cutTail _ := rfl
  mem_iff := hmem

theorem Overwrites.wellFormed (ho : Overwrites ranges ranges' rangeIn now)
    (h : WellFormed ranges) : WellFormed ranges' := by
  refine ⟨fun e he => ?_, ho.isPartition h.partition⟩
  rcases (ho.mem_iff e).mp he with rfl | ⟨he, -⟩ | ⟨a, ha, -, -, rfl⟩ |
    ⟨a, -, -, hlt, hkey, hvalue⟩
  · rfl
  · exact h.startKey_eq e he
  · exact h.startKey_eq a ha
  · have hne : rangeIn.limitKey ≠ [] := by
      rintro hnil
      simp [limit, hnil] at hkey
    rw [limit_of_ne_nil hne, WithTop.coe_inj] at hkey
    rw [hvalue, hkey]
    rfl

private theorem mem_cutState {state : CacheState} (h : WellFormed state.ranges)
    (hproper : Proper rangeIn) {e : Bytes × CachedRange} :
    e ∈ (cutState rangeIn state).ranges ↔ (e ∈ state.ranges ∧ ¬ MeetsRange rangeIn e) ∨
      (∃ a ∈ state.ranges, MeetsRange rangeIn a ∧ a.1 < rangeIn.startKey ∧
        e = (a.1, headOf rangeIn a.2)) ∨
      (∃ a ∈ state.ranges, MeetsRange rangeIn a ∧ limit rangeIn.limitKey < rangeLimit a.2 ∧
        (e.1 : WithTop Bytes) = limit rangeIn.limitKey ∧ e.2 = tailOf rangeIn a.2) := by
  unfold cutState
  dsimp only
  cases hov : overlapping state.ranges rangeIn with
  | nil =>
      have hnone : ∀ a ∈ state.ranges, ¬ MeetsRange rangeIn a := fun a ha hmeets => by
        have ha' := (mem_overlapping h).mpr ⟨ha, hmeets⟩
        simp [hov] at ha'
      simp only [List.head?_nil, List.getLast?_nil]
      rw [mem_kept h]
      refine ⟨.inl, ?_⟩
      rintro (he | ⟨a, ha, hmeets, -⟩ | ⟨a, ha, hmeets, -⟩)
      · exact he
      · exact absurd hmeets (hnone a ha)
      · exact absurd hmeets (hnone a ha)
  | cons first rest =>
      obtain ⟨last, hlast⟩ : ∃ last, (first :: rest).getLast? = some last :=
        ⟨_, List.getLast?_cons⟩
      have hfirst : (overlapping state.ranges rangeIn).head? = some first := by
        rw [hov]
        rfl
      have hhead : ∀ e, e ∈ (insertHead rangeIn first.2
          { state with ranges := kept state.ranges rangeIn }).ranges ↔ _ :=
        fun e => mem_insertHead h rfl hfirst
      simp only [List.head?_cons, hlast]
      rw [mem_insertTail h (fun e he => ?_) (hov ▸ hlast) hproper, hhead, mem_kept h, or_assoc]
      rcases (hhead e).mp he with he | ⟨a, -, -, hlt, rfl⟩
      · exact .inl he
      · exact .inr hlt

theorem cutState_fresh {state : CacheState} (h : WellFormed state.ranges)
    (hproper : Proper rangeIn) :
    ∀ e ∈ (cutState rangeIn state).ranges, e.1 ≠ rangeIn.startKey := by
  refine new_fresh h (fun e he => ?_) hproper
  rcases (mem_cutState h hproper).mp he with he | ⟨a, -, -, hlt, rfl⟩ | ⟨a, -, -, -, hkey, -⟩
  · exact .inl ((mem_kept h).mpr he)
  · exact .inr (.inl hlt)
  · exact .inr (.inr hkey)

theorem acceptedState_overwrites {state : CacheState} (h : WellFormed state.ranges)
    (hproper : Proper rangeIn) (maybeUnreferenced : List UInt64) :
    Overwrites state.ranges (acceptedState rangeIn now state maybeUnreferenced).1.ranges rangeIn
      now := by
  refine overwrites_of_mem_iff hproper fun e => ?_
  rw [acceptedState, decrementAll_ranges, mem_insertNew now (cutState_fresh h hproper),
    mem_cutState h hproper]

theorem rejected_iff (h : WellFormed ranges) :
    rejected ranges rangeIn = true ↔
      ∃ e ∈ ranges, MeetsRange rangeIn e ∧ rejects rangeIn e.2 = true := by
  simp only [rejected, List.any_eq_true, mem_overlapping h, and_assoc]

/-- An update leaves the cache alone or overwrites the interval of the incoming range. -/
theorem replaceRangeIfNewerLocked_cases {cache : Cache} (h : WellFormed cache.state.ranges)
    (rangeIn : Range) (maybeUnreferenced : List UInt64) :
    (replaceRangeIfNewerLocked cache rangeIn maybeUnreferenced = (cache, maybeUnreferenced) ∧
      (¬ Proper rangeIn ∨ rejected cache.state.ranges rangeIn = true)) ∨
    (Proper rangeIn ∧ rejected cache.state.ranges rangeIn = false ∧
      Overwrites cache.state.ranges
        (replaceRangeIfNewerLocked cache rangeIn maybeUnreferenced).1.state.ranges rangeIn
        (cache.accessCounter + 1)) := by
  rw [replaceRangeIfNewerLocked_eq]
  split_ifs with hcond
  · exact .inl ⟨rfl, hcond⟩
  · obtain ⟨hproper, hrejected⟩ := not_or.mp hcond
    have hproper := not_not.mp hproper
    exact .inr ⟨hproper, by simpa using hrejected, acceptedState_overwrites h hproper _⟩

theorem replaceRangeIfNewerLocked_wellFormed {cache : Cache} (h : WellFormed cache.state.ranges)
    (rangeIn : Range) (maybeUnreferenced : List UInt64) :
    WellFormed (replaceRangeIfNewerLocked cache rangeIn maybeUnreferenced).1.state.ranges := by
  rcases replaceRangeIfNewerLocked_cases h rangeIn maybeUnreferenced with ⟨heq, -⟩ | ⟨-, -, ho⟩
  · rw [heq]
    exact h
  · exact Overwrites.wellFormed ho h

end Spec

end GoogleCloudRust.KeyRangeCache
