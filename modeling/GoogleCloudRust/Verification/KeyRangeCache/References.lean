import GoogleCloudRust.Verification.KeyRangeCache.Contributions
import GoogleCloudRust.Verification.KeyRangeCache.Partition

/-! # Group references are exact

Within one update message the counts run ahead of the stored ranges by the
decrements that are still to come, and entries that reach zero wait in a list. Between
calls every group entry counts exactly the ranges that name it. An update that reports no change
leaves every group as it is, and no update takes a group that stays referenced back to an earlier
generation. -/

namespace GoogleCloudRust.KeyRangeCache

/-- The reference count of a group; a group without entry has none. -/
def refs (groups : HashMap UInt64 GroupEntry) (groupUid : UInt64) : ℕ :=
  ((groups.lookup groupUid).map GroupEntry.references).getD 0

/-- The number of stored ranges that name a group. -/
def named (ranges : OrdMap Bytes CachedRange) (groupUid : UInt64) : ℕ :=
  ranges.count fun range => range.groupUid = groupUid

/-- The counts exceed the stored ranges by `pending`. -/
def Balanced (state : CacheState) (pending : UInt64 → ℕ) : Prop :=
  ∀ groupUid, refs state.groups groupUid = named state.ranges groupUid + pending groupUid

/-- Entries that have reached zero are listed. -/
def ZeroListed (state : CacheState) (maybeUnreferenced : List UInt64) : Prop :=
  ∀ groupUid ∈ state.groups, refs state.groups groupUid = 0 → groupUid ∈ maybeUnreferenced

/-! ## Single counter operations -/

theorem refs_of_lookup {groups : HashMap UInt64 GroupEntry} {groupUid : UInt64}
    {entry : GroupEntry} (h : groups.lookup groupUid = some entry) :
    refs groups groupUid = entry.references := by
  simp [refs, h]

theorem refs_insert (groups : HashMap UInt64 GroupEntry) (groupUid other : UInt64)
    (entry : GroupEntry) :
    refs (groups.insert groupUid entry) other =
      if other = groupUid then entry.references else refs groups other := by
  unfold refs
  split_ifs with h
  · subst h
    simp
  · rw [Finmap.lookup_insert_of_ne _ h]

theorem refs_increment (state : CacheState) (groupUid other : UInt64) :
    refs (state.incrementGroupReferences groupUid).groups other =
      refs state.groups other + if groupUid = other then 1 else 0 := by
  rw [CacheState.incrementGroupReferences, refs_insert]
  by_cases h : groupUid = other
  · subst h
    rw [if_pos rfl, if_pos rfl, refs]
    cases state.groups.lookup groupUid <;> rfl
  · rw [if_neg (Ne.symm h), if_neg h, Nat.add_zero]

theorem refs_decrement (state : CacheState) (groupUid other : UInt64) :
    refs (state.decrementGroupReferences groupUid).2.groups other =
      refs state.groups other - if groupUid = other then 1 else 0 := by
  unfold CacheState.decrementGroupReferences
  cases hlookup : state.groups.lookup groupUid with
  | none =>
      have hzero : refs state.groups groupUid = 0 := by simp [refs, hlookup]
      by_cases h : groupUid = other
      · subst h
        simp [hzero]
      · simp [h]
  | some entry =>
      dsimp only
      rw [refs_insert]
      by_cases h : groupUid = other
      · subst h
        rw [if_pos rfl, if_pos rfl, refs_of_lookup hlookup]
      · rw [if_neg (Ne.symm h), if_neg h, Nat.sub_zero]

theorem zeroListed_increment {state : CacheState} {maybeUnreferenced : List UInt64}
    (h : ZeroListed state maybeUnreferenced) (groupUid : UInt64) :
    ZeroListed (state.incrementGroupReferences groupUid) maybeUnreferenced := by
  intro other hmem hzero
  rw [refs_increment] at hzero
  have hne : groupUid ≠ other := by
    rintro rfl
    simp at hzero
  rw [if_neg hne, Nat.add_zero] at hzero
  exact h other ((Finmap.mem_insert.mp hmem).resolve_left hne.symm) hzero

/-- A decrement that reaches zero puts the group on the list. -/
theorem zeroListed_decrement {state : CacheState} {maybeUnreferenced : List UInt64}
    (h : ZeroListed state maybeUnreferenced) (groupUid : UInt64) :
    ZeroListed (state.decrementGroupReferences groupUid).2
      (if (state.decrementGroupReferences groupUid).1 then maybeUnreferenced ++ [groupUid]
        else maybeUnreferenced) := by
  intro other hmem hzero
  rw [refs_decrement] at hzero
  unfold CacheState.decrementGroupReferences at hmem ⊢
  cases hlookup : state.groups.lookup groupUid with
  | none =>
      rw [hlookup] at hmem
      have hne : groupUid ≠ other := by
        rintro rfl
        exact Finmap.lookup_eq_none.mp hlookup hmem
      rw [if_neg hne, Nat.sub_zero] at hzero
      exact h other hmem hzero
  | some entry =>
      rw [hlookup] at hmem
      by_cases hne : groupUid = other
      · subst hne
        rw [if_pos rfl, refs_of_lookup hlookup] at hzero
        simp [hzero]
      · rw [if_neg hne, Nat.sub_zero] at hzero
        have hold := h other ((Finmap.mem_insert.mp hmem).resolve_left (Ne.symm hne)) hzero
        dsimp only
        split_ifs
        · exact List.mem_append_left _ hold
        · exact hold

/-! ## Paired increments and insertions -/

/-- Inserting a range under a fresh key together with its reference. -/
theorem balanced_insert {state : CacheState} {pending : UInt64 → ℕ} (h : Balanced state pending)
    {key : Bytes} (hfresh : ∀ e ∈ state.ranges, e.1 ≠ key) (range : CachedRange) :
    Balanced ((state.incrementGroupReferences range.groupUid).insertRange key range) pending := by
  intro groupUid
  have hnamed : named (state.ranges.insert key range) groupUid =
      named state.ranges groupUid + if range.groupUid = groupUid then 1 else 0 := by
    rw [named, OrdMap.count_insert hfresh, named]
    simp only [decide_eq_true_eq]
  have hrefs := refs_increment state range.groupUid groupUid
  have hbefore := h groupUid
  change refs (state.incrementGroupReferences range.groupUid).groups groupUid =
    named (state.ranges.insert key range) groupUid + pending groupUid
  omega

/-- The references of the ranges that an update replaces. -/
def replacedRefs (replaced : List (Bytes × CachedRange)) (groupUid : UInt64) : ℕ :=
  replaced.countP fun e => e.2.groupUid = groupUid

/-- Removing the replaced ranges leaves their references pending. -/
theorem balanced_kept {state : CacheState} (h : WellFormed state.ranges)
    (hbal : Balanced state fun _ => 0) (rangeIn : Range) :
    Balanced { state with ranges := kept state.ranges rangeIn }
      (replacedRefs (overlapping state.ranges rangeIn)) := by
  intro groupUid
  have hmem : ∀ e ∈ overlapping state.ranges rangeIn, e ∈ state.ranges :=
    fun e he => ((mem_overlapping h).mp he).1
  have hcount := OrdMap.count_eraseAll (p := fun range : CachedRange => range.groupUid = groupUid)
    hmem overlapping_sorted
  rw [← overlapping_startKeys h] at hcount
  exact (hbal groupUid).trans hcount.symm

section Accepted

variable {state : CacheState} {rangeIn : Range} (h : WellFormed state.ranges)
  (hproper : Proper rangeIn)

include h hproper

theorem balanced_cutState (hbal : Balanced state fun _ => 0) :
    Balanced (cutState rangeIn state) (replacedRefs (overlapping state.ranges rangeIn)) := by
  have hkept := balanced_kept h hbal rangeIn
  unfold cutState
  dsimp only
  cases hov : overlapping state.ranges rangeIn with
  | nil =>
      rw [hov] at hkept
      exact hkept
  | cons first rest =>
      obtain ⟨last, hlast⟩ : ∃ last, (first :: rest).getLast? = some last :=
        ⟨_, List.getLast?_cons⟩
      have hfirst : (overlapping state.ranges rangeIn).head? = some first := by
        rw [hov]
        rfl
      simp only [List.head?_cons, hlast]
      rw [← hov] at hlast ⊢
      have hstart := h.startKey_eq first ((mem_overlapping h).mp (List.mem_of_head? hfirst)).1
      have hhead : Balanced
          (insertHead rangeIn first.2 { state with ranges := kept state.ranges rangeIn })
          (replacedRefs (overlapping state.ranges rangeIn)) := by
        unfold insertHead
        split_ifs
        · exact balanced_insert hkept (hstart ▸ head_fresh h hfirst) (headOf rangeIn first.2)
        · exact hkept
      have hbefore : ∀ e ∈ (insertHead rangeIn first.2
          { state with ranges := kept state.ranges rangeIn }).ranges,
          e ∈ kept state.ranges rangeIn ∨ e.1 < rangeIn.startKey := by
        intro e he
        rcases (mem_insertHead h rfl hfirst).mp he with he | ⟨a, -, -, hlt, rfl⟩
        · exact .inl he
        · exact .inr hlt
      unfold insertTail
      split_ifs with hcond
      · exact balanced_insert hhead
          (tail_fresh h hbefore hlast hproper (limit_lt_limit_iff.mpr hcond)) (tailOf rangeIn last.2)
      · exact hhead

end Accepted

/-- Increments leave no further entry at zero. -/
theorem zeroListed_cutState {state : CacheState} {maybeUnreferenced : List UInt64}
    (hzero : ZeroListed state maybeUnreferenced) (rangeIn : Range) :
    ZeroListed (cutState rangeIn state) maybeUnreferenced := by
  have hhead : ∀ (state : CacheState) (first : CachedRange), ZeroListed state maybeUnreferenced →
      ZeroListed (insertHead rangeIn first state) maybeUnreferenced := by
    intro state first hzero
    unfold insertHead
    split_ifs
    · exact zeroListed_increment hzero first.groupUid
    · exact hzero
  have htail : ∀ (state : CacheState) (last : CachedRange), ZeroListed state maybeUnreferenced →
      ZeroListed (insertTail rangeIn last state) maybeUnreferenced := by
    intro state last hzero
    unfold insertTail
    split_ifs
    · exact zeroListed_increment hzero last.groupUid
    · exact hzero
  unfold cutState
  dsimp only
  split
  · apply htail
    split
    · exact hhead _ _ hzero
    · exact hzero
  · split
    · exact hhead _ _ hzero
    · exact hzero

/-! ## Deferred decrements -/

theorem refs_decrementAll (replaced : List (Bytes × CachedRange)) (state : CacheState)
    (maybeUnreferenced : List UInt64) (groupUid : UInt64) :
    refs (decrementAll replaced state maybeUnreferenced).1.groups groupUid =
      refs state.groups groupUid - replacedRefs replaced groupUid := by
  induction replaced generalizing state maybeUnreferenced with
  | nil => rfl
  | cons existing rest ih =>
      rw [decrementAll, ih, refs_decrement, replacedRefs, replacedRefs, List.countP_cons]
      simp only [decide_eq_true_eq]
      omega

theorem zeroListed_decrementAll (replaced : List (Bytes × CachedRange)) {state : CacheState}
    {maybeUnreferenced : List UInt64} (hzero : ZeroListed state maybeUnreferenced) :
    ZeroListed (decrementAll replaced state maybeUnreferenced).1
      (decrementAll replaced state maybeUnreferenced).2 := by
  induction replaced generalizing state maybeUnreferenced with
  | nil => exact hzero
  | cons existing rest ih => exact ih (zeroListed_decrement hzero existing.2.groupUid)

/-! ## Updates -/

/-- The invariant between the range updates of one message. -/
structure Counting (state : CacheState) (maybeUnreferenced : List UInt64) : Prop where
  wellFormed : WellFormed state.ranges
  balanced : Balanced state fun _ => 0
  zeroListed : ZeroListed state maybeUnreferenced

theorem counting_replaceRangeIfNewerLocked {cache : Cache} {maybeUnreferenced : List UInt64}
    (h : Counting cache.state maybeUnreferenced) (rangeIn : Range) :
    Counting (replaceRangeIfNewerLocked cache rangeIn maybeUnreferenced).1.state
      (replaceRangeIfNewerLocked cache rangeIn maybeUnreferenced).2 := by
  refine ⟨replaceRangeIfNewerLocked_wellFormed h.wellFormed rangeIn _, ?_, ?_⟩
  · rw [replaceRangeIfNewerLocked_eq]
    split_ifs with hcond
    · exact h.balanced
    · have hproper := not_not.mp (not_or.mp hcond).1
      have hcut := balanced_cutState h.wellFormed hproper h.balanced
      have hnew := balanced_insert hcut (cutState_fresh h.wellFormed hproper)
        (newRange rangeIn (cache.accessCounter + 1))
      intro groupUid
      dsimp only [acceptedState]
      rw [refs_decrementAll, decrementAll_ranges]
      have hsum := hnew groupUid
      change refs (insertNew rangeIn (cache.accessCounter + 1)
        (cutState rangeIn cache.state)).groups groupUid = _ at hsum
      rw [hsum, Nat.add_sub_cancel]
      rfl
  · rw [replaceRangeIfNewerLocked_eq]
    split_ifs with hcond
    · exact h.zeroListed
    · refine zeroListed_decrementAll _ ?_
      exact zeroListed_increment (zeroListed_cutState h.zeroListed rangeIn) rangeIn.groupUid

theorem counting_replaceRanges {cache : Cache} {maybeUnreferenced : List UInt64}
    (h : Counting cache.state maybeUnreferenced) (ranges : List Range) :
    Counting (replaceRanges cache ranges maybeUnreferenced).1.state
      (replaceRanges cache ranges maybeUnreferenced).2 :=
  List.foldlRecOn (motive := fun acc : Cache × List UInt64 => Counting acc.1.state acc.2) ranges _ h
    fun _ hacc rangeIn _ => counting_replaceRangeIfNewerLocked hacc rangeIn

/-! ## Removal of listed groups -/

theorem removeIfUnreferenced_spec (state : CacheState) (groupUid : UInt64) (other : UInt64) :
    refs (state.removeIfUnreferenced groupUid).2.groups other = refs state.groups other ∧
      (other ∈ (state.removeIfUnreferenced groupUid).2.groups ↔
        other ∈ state.groups ∧ ¬ (other = groupUid ∧ refs state.groups other = 0)) := by
  unfold CacheState.removeIfUnreferenced
  cases hlookup : state.groups.lookup groupUid with
  | none =>
      refine ⟨rfl, (and_iff_left_of_imp fun hmem => ?_).symm⟩
      rintro ⟨rfl, -⟩
      exact Finmap.lookup_eq_none.mp hlookup hmem
  | some entry =>
      dsimp only
      have hrefs := refs_of_lookup hlookup
      split_ifs with hzero
      · by_cases hne : other = groupUid
        · subst hne
          refine ⟨?_, ?_⟩
          · rw [hrefs, hzero, refs, Finmap.lookup_erase]
            rfl
          · simp [Finmap.mem_erase, hrefs, hzero]
        · refine ⟨?_, ?_⟩
          · rw [refs, Finmap.lookup_erase_ne hne, ← refs]
          · simp [Finmap.mem_erase, hne]
      · refine ⟨rfl, (and_iff_left_of_imp fun _ => ?_).symm⟩
        rintro ⟨rfl, h⟩
        exact hzero (hrefs ▸ h)

theorem removeUnreferenced_spec (state : CacheState) (maybeUnreferenced : List UInt64)
    (other : UInt64) :
    refs (removeUnreferenced state maybeUnreferenced).2.groups other = refs state.groups other ∧
      (other ∈ (removeUnreferenced state maybeUnreferenced).2.groups ↔
        other ∈ state.groups ∧ ¬ (other ∈ maybeUnreferenced ∧ refs state.groups other = 0)) := by
  unfold removeUnreferenced
  generalize false = removed
  induction maybeUnreferenced generalizing state removed with
  | nil => simp
  | cons groupUid rest ih =>
      obtain ⟨hrefs, hmem⟩ := removeIfUnreferenced_spec state groupUid other
      obtain ⟨hrefs', hmem'⟩ := ih (state.removeIfUnreferenced groupUid).2
        (removed || (state.removeIfUnreferenced groupUid).1)
      rw [List.foldl_cons]
      refine ⟨hrefs'.trans hrefs, hmem'.trans ?_⟩
      rw [hmem, hrefs, List.mem_cons]
      grind

/-! ## Group payloads -/

theorem updateGroup_spec (state : CacheState) (groupIn : Group) (other : UInt64) :
    refs (updateGroup state groupIn).2.groups other = refs state.groups other ∧
      (other ∈ (updateGroup state groupIn).2.groups ↔ other ∈ state.groups) := by
  unfold updateGroup
  cases hlookup : state.groups.lookup groupIn.groupUid with
  | none => exact ⟨rfl, Iff.rfl⟩
  | some entry =>
      dsimp only
      split_ifs
      · refine ⟨?_, ?_⟩
        · rw [refs_insert]
          split_ifs with heq
          · rw [heq, refs_of_lookup hlookup]
          · rfl
        · rw [Finmap.mem_insert]
          refine or_iff_right_of_imp ?_
          rintro rfl
          exact Finmap.mem_of_lookup_eq_some hlookup
      · exact ⟨rfl, Iff.rfl⟩

theorem updateGroups_spec (state : CacheState) (groups : List Group) (other : UInt64) :
    refs (updateGroups state groups).2.groups other = refs state.groups other ∧
      (other ∈ (updateGroups state groups).2.groups ↔ other ∈ state.groups) := by
  refine List.foldlRecOn (motive := fun acc : Bool × CacheState =>
    refs acc.2.groups other = refs state.groups other ∧
      (other ∈ acc.2.groups ↔ other ∈ state.groups)) groups _ ⟨rfl, Iff.rfl⟩
    fun acc hacc groupIn _ => ?_
  obtain ⟨hrefs, hmem⟩ := updateGroup_spec acc.2 groupIn other
  exact ⟨hrefs.trans hacc.1, hmem.trans hacc.2⟩

/-! ## The invariant between calls -/

/-- Counts agree with the stored ranges, and no entry is at zero. -/
structure Exact (state : CacheState) : Prop where
  wellFormed : WellFormed state.ranges
  balanced : Balanced state fun _ => 0
  positive : ∀ groupUid ∈ state.groups, refs state.groups groupUid ≠ 0

theorem exact_new : Exact new.state where
  wellFormed := new_wellFormed
  balanced _ := rfl
  positive _ hmem := absurd hmem Finmap.notMem_empty

theorem exact_addRanges {cache : Cache} (h : Exact cache.state) (cacheUpdate : CacheUpdate) :
    Exact (addRanges cache cacheUpdate).2.state := by
  have hwell : WellFormed (addRanges cache cacheUpdate).2.state.ranges :=
    step_wellFormed (.addRanges cacheUpdate) h.wellFormed
  unfold addRanges at hwell ⊢
  split_ifs at hwell ⊢
  · exact h
  · have hzero : ZeroListed cache.state [] :=
      fun groupUid hmem hrefs => absurd hrefs (h.positive groupUid hmem)
    have hcount := counting_replaceRanges ⟨h.wellFormed, h.balanced, hzero⟩ cacheUpdate.range
    refine ⟨hwell, fun groupUid => ?_, fun groupUid hmem hrefs => ?_⟩ <;> dsimp only at *
    · rw [(updateGroups_spec _ _ _).1, (removeUnreferenced_spec _ _ _).1, updateGroups_ranges,
        removeUnreferenced_ranges]
      exact hcount.balanced groupUid
    · rw [(updateGroups_spec _ _ _).1, (removeUnreferenced_spec _ _ _).1] at hrefs
      rw [(updateGroups_spec _ _ _).2, (removeUnreferenced_spec _ _ _).2] at hmem
      exact hmem.2 ⟨hcount.zeroListed groupUid hmem.1 hrefs, hrefs⟩

theorem exact_touch {cache : Cache} (h : Exact cache.state) {e : Bytes × CachedRange}
    (he : e ∈ cache.state.ranges) : Exact (touch cache e).2.state := by
  refine ⟨touch_wellFormed he h.wellFormed, fun groupUid => ?_, h.positive⟩
  have hnamed : named (touch cache e).2.state.ranges groupUid =
      named cache.state.ranges groupUid := by
    rw [touch_ranges]
    exact OrdMap.count_insert_of_mem he rfl
  rw [hnamed]
  exact h.balanced groupUid

theorem exact_step {cache : Cache} (call : Call) (h : Exact cache.state) :
    Exact (step cache call).state := by
  cases call with
  | addRanges cacheUpdate => exact exact_addRanges h cacheUpdate
  | findRange uniformRandom key limit mode =>
      rcases findRange_cases cache uniformRandom key limit mode with heq | ⟨e, he, heq⟩
      · rw [step, heq]
        exact h
      · rw [step, heq]
        exact exact_touch h he
  | clear => exact exact_new

theorem exact_run (calls : List Call) : Exact (run new calls).state :=
  run_preserves (motive := fun cache => Exact cache.state) (fun _ call => exact_step call)
    exact_new calls

/-- A group has an entry exactly when a stored range names it. -/
theorem Exact.mem_groups_iff {state : CacheState} (h : Exact state) {groupUid : UInt64} :
    groupUid ∈ state.groups ↔ ∃ e ∈ state.ranges, e.2.groupUid = groupUid := by
  have hcount : refs state.groups groupUid = named state.ranges groupUid := h.balanced groupUid
  have hpos : (∃ e ∈ state.ranges, e.2.groupUid = groupUid) ↔
      0 < refs state.groups groupUid := by
    rw [hcount, named, OrdMap.count_pos_iff]
    simp only [decide_eq_true_eq]
  rw [hpos]
  refine ⟨fun hmem => Nat.pos_of_ne_zero (h.positive groupUid hmem), fun hlt => ?_⟩
  by_contra hmem
  rw [refs, Finmap.lookup_eq_none.mpr hmem] at hlt
  exact absurd hlt (lt_irrefl 0)

/-- In every reachable state a group has an entry exactly when a stored range names it,
and the entry counts those ranges. -/
theorem run_new_references (calls : List Call) (groupUid : UInt64) :
    let state := (run new calls).state
    (groupUid ∈ state.groups ↔ ∃ e ∈ state.ranges, e.2.groupUid = groupUid) ∧
      ∀ entry, state.groups.lookup groupUid = some entry →
        entry.references = state.ranges.entries.countP fun e => e.2.groupUid = groupUid := by
  intro state
  have h : Exact state := exact_run calls
  have hcount : refs state.groups groupUid = named state.ranges groupUid := h.balanced groupUid
  refine ⟨h.mem_groups_iff, fun entry hlookup => ?_⟩
  rw [← refs_of_lookup hlookup, hcount]
  rfl

/-! ## Removing groups -/

theorem lookup_of_removeIfUnreferenced {state : CacheState} {groupUid other : UInt64}
    {entry : GroupEntry}
    (h : (state.removeIfUnreferenced groupUid).2.groups.lookup other = some entry) :
    state.groups.lookup other = some entry := by
  unfold CacheState.removeIfUnreferenced at h
  split at h
  · exact h
  · split_ifs at h
    · rw [HashMap.lookup_erase_eq] at h
      split_ifs at h
      exact h
    · exact h

/-- What is not removed stays as it was. -/
theorem lookup_of_removeUnreferenced {state : CacheState} {maybeUnreferenced : List UInt64}
    {other : UInt64} {entry : GroupEntry}
    (h : (removeUnreferenced state maybeUnreferenced).2.groups.lookup other = some entry) :
    state.groups.lookup other = some entry := by
  revert h
  refine List.foldlRecOn (motive := fun acc : Bool × CacheState =>
    acc.2.groups.lookup other = some entry → state.groups.lookup other = some entry)
    maybeUnreferenced _ id fun acc hacc groupUid _ h => ?_
  exact hacc (lookup_of_removeIfUnreferenced h)

/-! ## Replacing groups -/

/-- A group is replaced by one of the same or a later generation. -/
def Advances (before after : Option CachedGroup) : Prop :=
  ∀ group, before = some group → ∃ group', after = some group' ∧
    group.generation ≤ group'.generation

theorem Advances.refl (group : Option CachedGroup) : Advances group group :=
  fun found hfound => ⟨found, hfound, le_rfl⟩

theorem Advances.trans {first second third : Option CachedGroup} (h : Advances first second)
    (h' : Advances second third) : Advances first third := by
  intro group hgroup
  obtain ⟨middle, hmiddle, hle⟩ := h group hgroup
  obtain ⟨last, hlast, hle'⟩ := h' middle hmiddle
  exact ⟨last, hlast, hle.trans hle'⟩

theorem generation_le_of_shouldUpdateFrom {group : CachedGroup} {proto : Group}
    (h : group.shouldUpdateFrom proto = true) : group.generation ≤ proto.generation := by
  simp only [CachedGroup.shouldUpdateFrom, Bool.or_eq_true, Bool.and_eq_true,
    decide_eq_true_eq] at h
  rcases h with hlt | ⟨heq, -⟩
  · exact hlt.le
  · exact heq.ge

theorem updateGroup_advances (state : CacheState) (groupIn : Group) (other : UInt64) :
    Advances (payload state other) (payload (updateGroup state groupIn).2 other) := by
  unfold updateGroup
  cases hlookup : state.groups.lookup groupIn.groupUid with
  | none => exact Advances.refl _
  | some entry =>
      dsimp only
      split_ifs with hupdate
      · rw [payload, payload, HashMap.lookup_insert_eq]
        by_cases heq : other = groupIn.groupUid
        · rw [if_pos heq, heq, hlookup]
          intro group hgroup
          refine ⟨.fromProto groupIn, rfl, ?_⟩
          rw [show entry.group = some group from hgroup] at hupdate
          exact generation_le_of_shouldUpdateFrom hupdate
        · rw [if_neg heq]
          exact Advances.refl _
      · exact Advances.refl _

theorem updateGroups_advances (state : CacheState) (groups : List Group) (other : UInt64) :
    Advances (payload state other) (payload (updateGroups state groups).2 other) := by
  refine List.foldlRecOn (motive := fun acc : Bool × CacheState =>
    Advances (payload state other) (payload acc.2 other)) groups _ (Advances.refl _)
    fun acc hacc groupIn _ => ?_
  exact hacc.trans (updateGroup_advances acc.2 groupIn other)

/-- A group that still has an entry after an update has advanced. -/
theorem addRanges_advances {cache : Cache} {cacheUpdate : CacheUpdate} {groupUid : UInt64}
    (h : groupUid ∈ (addRanges cache cacheUpdate).2.state.groups) :
    Advances (getGroup cache groupUid) (getGroup (addRanges cache cacheUpdate).2 groupUid) := by
  rw [getGroup_eq_payload, getGroup_eq_payload]
  unfold addRanges at h ⊢
  split_ifs at h ⊢
  · exact Advances.refl _
  · have hranges := payload_replaceRanges cache cacheUpdate.range [] groupUid
    dsimp only at h ⊢
    generalize replaceRanges cache cacheUpdate.range [] = replaced at h hranges ⊢
    rw [← hranges]
    have hkept := (updateGroups_spec _ cacheUpdate.group groupUid).2.mp h
    obtain ⟨entry, hentry⟩ := Option.isSome_iff_exists.mp (Finmap.lookup_isSome.mpr hkept)
    have hremoved : payload (removeUnreferenced replaced.1.state replaced.2).2 groupUid =
        payload replaced.1.state groupUid := by
      rw [payload, payload, hentry, lookup_of_removeUnreferenced hentry]
    rw [← hremoved]
    exact updateGroups_advances _ cacheUpdate.group groupUid

/-- In every reachable state, an update that returns `false` changes no group and so no active
address, and a group that stays referenced never goes back to an earlier generation. -/
theorem addRanges_reports_changes (calls : List Call) (cacheUpdate : CacheUpdate) :
    let cache := run new calls
    let result := addRanges cache cacheUpdate
    (result.1 = false → (∀ groupUid, getGroup result.2 groupUid = getGroup cache groupUid) ∧
      activeAddresses result.2 = activeAddresses cache) ∧
    ∀ groupUid group, getGroup cache groupUid = some group →
      (∃ e ∈ result.2.state.ranges, e.2.groupUid = groupUid) →
      ∃ group', getGroup result.2 groupUid = some group' ∧
        group.generation ≤ group'.generation := by
  intro cache result
  constructor
  · intro hfalse
    refine ⟨fun groupUid => ?_, activeAddresses_of_addRanges_eq_false hfalse⟩
    rcases addRanges_payload cache cacheUpdate groupUid with heq | ⟨htrue, -⟩
    · exact heq
    · rw [show (addRanges cache cacheUpdate).1 = false from hfalse] at htrue
      cases htrue
  · intro groupUid group hgroup hreferenced
    have hexact : Exact result.2.state := exact_addRanges (exact_run calls) cacheUpdate
    exact addRanges_advances (hexact.mem_groups_iff.mpr hreferenced) group hgroup

/-- A range that is replaced by one of the same group, with a later generation of the group. -/
theorem addRanges_reports_changes_later_generation :
    let tablet : Tablet := ⟨1, "server", "", .readWrite, [], 0, false⟩
    let group (generation : Bytes) : Group := ⟨7, [tablet], 0, generation⟩
    let update (generation : Bytes) : CacheUpdate :=
      ⟨[⟨[1], [2], 7, 0, generation⟩], [group generation]⟩
    let cache := run new [.addRanges (update [1])]
    getGroup cache 7 = some (.fromProto (group [1])) ∧
      ∃ group', getGroup (addRanges cache (update [2])).2 7 = some group' ∧
        (CachedGroup.fromProto (group [1])).generation ≤ group'.generation := by
  intro tablet group update cache
  have hgroup : getGroup cache 7 = some (.fromProto (group [1])) := by decide +kernel
  refine ⟨hgroup, (addRanges_reports_changes [.addRanges (update [1])] (update [2])).2 7 _ hgroup ?_⟩
  exact ⟨_, List.mem_cons_self, rfl⟩

end GoogleCloudRust.KeyRangeCache
