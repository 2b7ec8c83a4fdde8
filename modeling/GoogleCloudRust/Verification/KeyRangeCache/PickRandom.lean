import GoogleCloudRust.Verification.KeyRangeCache.Partition
import Mathlib.Data.List.Count
import Mathlib.Data.List.Perm.Subperm

/-! # Lookups that span several ranges

A lookup in the mode `PickRandom` returns a range that intersects the requested keys, and as long as
few ranges do, it returns one exactly when the stored ranges leave no gap. -/

namespace GoogleCloudRust.KeyRangeCache

open IntervalMap

/-- The range has a key in `[key, limit)`. -/
def intersects (key limit : Bytes) (range : CachedRange) : Bool :=
  range.startKey < limit ∧ (range.limitKey = [] ∨ key < range.limitKey)

/-- A range that is not empty. -/
def IsProper (range : CachedRange) : Prop :=
  range.limitKey = [] ∨ range.startKey < range.limitKey

theorem intersects_iff {key limit : Bytes} {range : CachedRange} (hlt : key < limit)
    (hproper : IsProper range) :
    intersects key limit range = true ↔ ∃ k, key ≤ k ∧ k < limit ∧ Contains range k := by
  simp only [intersects, decide_eq_true_eq]
  constructor
  · rintro ⟨hstart, hend⟩
    rcases le_total key range.startKey with hle | hle
    · exact ⟨range.startKey, hle, hstart, le_rfl, hproper⟩
    · exact ⟨key, le_rfl, hlt, hle, hend⟩
  · rintro ⟨k, hkey, hlimit, hstart, hend⟩
    exact ⟨lt_of_le_of_lt hstart hlimit, hend.imp_right fun h => lt_of_le_of_lt hkey h⟩

/-! ## The scan -/

variable {uniformRandom : ℕ → ℕ} {limit : Bytes} {minEntries : ℕ}
  {entries : List (Bytes × CachedRange)} {s : ScanState}

/-- The entries are proper, disjoint and in order, from `last` on. -/
structure Follows (last : Bytes) (entries : List (Bytes × CachedRange)) : Prop where
  start_ge : ∀ e ∈ entries, last ≤ e.2.startKey
  proper : ∀ e ∈ entries, IsProper e.2
  disjoint : entries.Pairwise fun a b => a.2.limitKey ≠ [] ∧ a.2.limitKey ≤ b.2.startKey

theorem Follows.tail {last : Bytes} {current : Bytes × CachedRange}
    (h : Follows last (current :: entries)) : Follows current.2.limitKey entries where
  start_ge e he := ((List.pairwise_cons.mp h.disjoint).1 e he).2
  proper e he := h.proper e (List.mem_cons_of_mem _ he)
  disjoint := (List.pairwise_cons.mp h.disjoint).2

/-- What the lookup takes for a gap after the scan. -/
def ScanState.gapped (s : ScanState) (limit : Bytes) : Bool :=
  s.foundGap || (s.lastLimit ≠ [] && s.lastLimit < limit)

theorem scan_total_le (uniformRandom : ℕ → ℕ) (limit : Bytes) (minEntries : ℕ)
    (entries : List (Bytes × CachedRange)) (s : ScanState) :
    (scan uniformRandom limit minEntries entries s).total ≤
      s.total + entries.countP fun e => e.2.startKey < limit := by
  induction entries generalizing s with
  | nil => exact Nat.le_add_right _ _
  | cons current rest ih =>
    rw [scan, List.countP_cons]
    split
    case isTrue => exact Nat.le_add_right _ _
    case isFalse hbefore =>
      have hcounted : (if decide (current.2.startKey < limit) = true then 1 else 0) = 1 := by
        simp [not_le.mp hbefore]
      dsimp only
      rw [hcounted]
      split
      · simp only [scanStep]
        omega
      · have hrest := ih (scanStep uniformRandom s current)
        simp only [scanStep] at hrest ⊢
        omega

theorem scan_sampled_isSome (entries : List (Bytes × CachedRange)) (h : s.sampled.isSome = true) :
    (scan uniformRandom limit minEntries entries s).sampled.isSome = true := by
  induction entries generalizing s with
  | nil => exact h
  | cons current rest ih =>
    have hnext : (scanStep uniformRandom s current).sampled.isSome = true := by
      simp only [scanStep]
      split
      · rfl
      · exact h
    rw [scan]
    dsimp only
    split_ifs
    · exact h
    · exact hnext
    · exact ih hnext

/-- The scan samples only what starts before the limit. -/
theorem scan_sampled {motive : Bytes × CachedRange → Prop} {e : Bytes × CachedRange}
    (hentries : ∀ e ∈ entries, e.2.startKey < limit → motive e)
    (hs : ∀ e, s.sampled = some e → motive e)
    (he : (scan uniformRandom limit minEntries entries s).sampled = some e) : motive e := by
  induction entries generalizing s with
  | nil => exact hs e he
  | cons current rest ih =>
    rw [scan] at he
    dsimp only at he
    split_ifs at he with hlimit hstop
    · exact hs e he
    all_goals
      have hnext : ∀ e, (scanStep uniformRandom s current).sampled = some e → motive e := by
        intro e he
        simp only [scanStep] at he
        split_ifs at he
        · rw [← Option.some.inj he]
          exact hentries current List.mem_cons_self (not_le.mp hlimit)
        · exact hs e he
    · exact hnext e he
    · exact ih (fun e he => hentries e (List.mem_cons_of_mem _ he)) hnext he

/-- A gap that was found stays found. -/
theorem scan_foundGap (entries : List (Bytes × CachedRange)) (h : s.foundGap = true) :
    (scan uniformRandom limit minEntries entries s).foundGap = true := by
  induction entries generalizing s with
  | nil => exact h
  | cons current rest ih =>
    have hnext : (scanStep uniformRandom s current).foundGap = true := by simp [scanStep, h]
    rw [scan]
    dsimp only
    split_ifs
    · exact h
    · exact hnext
    · exact ih hnext

/-- The keys from `last` up to the limit lie in the entries. -/
def Covered (entries : List (Bytes × CachedRange)) (last limit : Bytes) : Prop :=
  ∀ k, last ≤ k → k < limit → ∃ e ∈ entries, Contains e.2 k

/-- The first entry has to start at `last`, and the others have to go on behind it. -/
theorem covered_cons_iff {last : Bytes} {current : Bytes × CachedRange}
    (h : Follows last (current :: entries)) (hlt : last < limit) :
    Covered (current :: entries) last limit ↔
      last = current.2.startKey ∧
        (current.2.limitKey = [] ∨ Covered entries current.2.limitKey limit) := by
  constructor
  · intro hcovered
    have hstart : last = current.2.startKey := by
      obtain ⟨e, he, hle, -⟩ := hcovered last le_rfl hlt
      rcases List.mem_cons.mp he with rfl | he
      · exact le_antisymm (h.start_ge _ List.mem_cons_self) hle
      · -- A later entry starts behind the limit of the first.
        have hnext := (List.pairwise_cons.mp h.disjoint).1 e he
        have hproper := (h.proper current List.mem_cons_self).resolve_left hnext.1
        have hfirst := h.start_ge current List.mem_cons_self
        exact absurd (hproper.trans_le (hnext.2.trans hle)) (not_lt.mpr hfirst)
    refine ⟨hstart, or_iff_not_imp_left.mpr fun hbounded k hle hk => ?_⟩
    have hproper := (h.proper current List.mem_cons_self).resolve_left hbounded
    obtain ⟨e, he, hcontains⟩ := hcovered k (hstart.trans_le (hproper.le.trans hle)) hk
    rcases List.mem_cons.mp he with rfl | he
    · exact absurd (hcontains.2.resolve_left hbounded) (not_lt.mpr hle)
    · exact ⟨e, he, hcontains⟩
  · rintro ⟨rfl, hrest⟩ k hle hk
    rcases hrest with hunbounded | hrest
    · exact ⟨current, List.mem_cons_self, hle, .inl hunbounded⟩
    · rcases lt_or_ge k current.2.limitKey with hin | hout
      · exact ⟨current, List.mem_cons_self, hle, .inr hin⟩
      · obtain ⟨e, he, hcontains⟩ := hrest k hout hk
        exact ⟨e, List.mem_cons_of_mem _ he, hcontains⟩

theorem not_covered {last : Bytes} (hlt : last < limit)
    (hafter : ∀ e ∈ entries, limit ≤ e.2.startKey) : ¬Covered entries last limit := by
  intro hcovered
  obtain ⟨e, he, hcontains⟩ := hcovered last le_rfl hlt
  exact absurd (hcontains.1.trans_lt hlt) (not_lt.mpr (hafter e he))

/-- The scan finds a gap exactly when there is one, if it is not cut short. -/
theorem scan_gapped_iff (hfollows : Follows s.lastLimit entries) (hlast : s.lastLimit ≠ [])
    (hlt : s.lastLimit < limit)
    (hcount : s.total + (entries.countP fun e => e.2.startKey < limit) < minEntries) :
    (scan uniformRandom limit minEntries entries s).gapped limit = false ↔
      s.foundGap = false ∧ Covered entries s.lastLimit limit := by
  induction entries generalizing s with
  | nil =>
    have hgapped : s.gapped limit = true := by simp [ScanState.gapped, hlast, hlt]
    simp only [scan, hgapped, Bool.true_eq_false, false_iff]
    exact fun h => not_covered hlt (by simp) h.2
  | cons current rest ih =>
    rw [scan]
    split
    case isTrue hafter =>
      have hgapped : s.gapped limit = true := by simp [ScanState.gapped, hlast, hlt]
      rw [hgapped]
      simp only [Bool.true_eq_false, false_iff]
      refine fun h => not_covered hlt (fun e he => ?_) h.2
      rcases List.mem_cons.mp he with rfl | he
      · exact hafter
      · have hnext := (List.pairwise_cons.mp hfollows.disjoint).1 e he
        have hproper := (hfollows.proper current List.mem_cons_self).resolve_left hnext.1
        exact hafter.trans (hproper.le.trans hnext.2)
    case isFalse hbefore =>
      have hcounted : s.total + 1 + (rest.countP fun e => e.2.startKey < limit) < minEntries := by
        rw [List.countP_cons, if_pos (by simpa using hbefore)] at hcount
        omega
      have hgap : (scanStep uniformRandom s current).foundGap = false ↔
          s.foundGap = false ∧ s.lastLimit = current.2.startKey := by simp [scanStep]
      have hmore : ¬minEntries ≤ s.total + 1 := by omega
      rw [covered_cons_iff hfollows hlt, ← and_assoc, ← hgap]
      dsimp only
      split
      case isTrue hstop =>
        have hend : current.2.limitKey = [] ∨ limit ≤ current.2.limitKey := by
          simpa [scanStep, hmore] using hstop
        have hcovered : current.2.limitKey = [] ∨ Covered rest current.2.limitKey limit :=
          hend.imp_right fun hle k hk hk' => absurd (hle.trans hk) (not_le.mpr hk')
        have hreached : ¬(current.2.limitKey ≠ [] ∧ current.2.limitKey < limit) := by
          rintro ⟨hbounded, hshort⟩
          exact absurd hshort (not_lt.mpr (hend.resolve_left hbounded))
        have hlimit : (scanStep uniformRandom s current).lastLimit = current.2.limitKey := rfl
        simp only [ScanState.gapped, hlimit, Bool.or_eq_false_iff, hcovered, and_true]
        rw [and_iff_left]
        simpa using hreached
      case isFalse hgo =>
        have hopen : current.2.limitKey ≠ [] ∧ current.2.limitKey < limit := by
          simpa [scanStep, hmore] using hgo
        have hrest := ih (s := scanStep uniformRandom s current) hfollows.tail hopen.1 hopen.2
          hcounted
        rw [hrest]
        simp [scanStep, hopen.1]

/-! ## The lookup -/

theorem WellFormed.proper {ranges : OrdMap Bytes CachedRange} (h : WellFormed ranges)
    {e : Bytes × CachedRange} (he : e ∈ ranges) : IsProper e.2 := by
  rw [IsProper, h.startKey_eq e he]
  exact lt_limit_iff.mp (h.partition.nonempty e he)

theorem WellFormed.limitKey_le {ranges : OrdMap Bytes CachedRange} (h : WellFormed ranges)
    {e e' : Bytes × CachedRange} (he : e ∈ ranges) (he' : e' ∈ ranges) (hlt : e.1 < e'.1) :
    e.2.limitKey ≠ [] ∧ e.2.limitKey ≤ e'.2.startKey := by
  have hle := h.partition.disjoint e he e' he' hlt
  rw [rangeLimit, KeyRangeCache.limit] at hle
  split_ifs at hle with hunbounded
  · simp at hle
  · rw [h.startKey_eq e' he']
    exact ⟨hunbounded, WithTop.coe_le_coe.mp hle⟩

variable {cache : Cache} {key : Bytes} {first : Bytes × CachedRange}

/-- The entries behind a stored range follow it. -/
theorem follows_range (h : WellFormed cache.state.ranges) (hfirst : first ∈ cache.state.ranges) :
    Follows first.2.limitKey (cache.state.ranges.range (.excluded first.2.startKey) .unbounded) := by
  have hmem : ∀ e ∈ cache.state.ranges.range (.excluded first.2.startKey) .unbounded,
      e ∈ cache.state.ranges ∧ first.1 < e.1 := by
    intro e he
    obtain ⟨he, hbelow, -⟩ := OrdMap.mem_range.mp he
    rw [h.startKey_eq first hfirst] at hbelow
    exact ⟨he, by simpa [Bound.isBelow] using hbelow⟩
  refine ⟨fun e he => ?_, fun e he => h.proper (hmem e he).1, ?_⟩
  · exact (h.limitKey_le hfirst (hmem e he).1 (hmem e he).2).2
  · have hsorted := cache.state.ranges.sorted.filter fun e =>
      (Bound.excluded first.2.startKey).isBelow e.1 && Bound.unbounded.isAbove e.1
    refine hsorted.imp_of_mem fun {a b} ha hb hlt => ?_
    exact h.limitKey_le (hmem a ha).1 (hmem b hb).1 hlt

/-- What lies behind the last range that starts at or before a key starts behind the key. -/
theorem lt_of_mem_range (hlast : cache.state.ranges.lastLE key = some first)
    (h : WellFormed cache.state.ranges) {e : Bytes × CachedRange}
    (he : e ∈ cache.state.ranges.range (.excluded first.2.startKey) .unbounded) :
    e ∈ cache.state.ranges ∧ first.1 < e.1 ∧ key < e.2.startKey := by
  obtain ⟨hfirst, -, hmax⟩ := OrdMap.lastLE_eq_some_iff.mp hlast
  obtain ⟨he, hbelow, -⟩ := OrdMap.mem_range.mp he
  rw [h.startKey_eq first hfirst] at hbelow
  have hlt : first.1 < e.1 := by simpa [Bound.isBelow] using hbelow
  refine ⟨he, hlt, ?_⟩
  rw [h.startKey_eq e he]
  by_contra hle
  exact absurd (hmax e he (not_lt.mp hle)) (not_le.mpr hlt)

/-- The scanned ranges and the first one all intersect the requested keys. -/
theorem count_scanned_le (hlast : cache.state.ranges.lastLE key = some first)
    (h : WellFormed cache.state.ranges) (hfirst : intersects key limit first.2 = true) :
    1 + (cache.state.ranges.range (.excluded first.2.startKey) .unbounded).countP
        (fun e => e.2.startKey < limit) ≤
      cache.state.ranges.entries.countP fun e => intersects key limit e.2 := by
  set scanned := cache.state.ranges.range (.excluded first.2.startKey) .unbounded with hscanned
  have hmem : ∀ e ∈ scanned, e ∈ cache.state.ranges ∧ first.1 < e.1 ∧ key < e.2.startKey :=
    fun e he => lt_of_mem_range hlast h he
  have hnodup : (first :: scanned).Nodup := by
    refine List.nodup_cons.mpr ⟨fun hself => lt_irrefl _ (hmem first hself).2.1, ?_⟩
    have hsorted : scanned.Pairwise fun a b => a.1 < b.1 := cache.state.ranges.sorted.filter _
    exact hsorted.imp fun hlt heq => by rw [heq] at hlt; exact lt_irrefl _ hlt
  have hsubset : first :: scanned ⊆ cache.state.ranges.entries := by
    intro e he
    rcases List.mem_cons.mp he with rfl | he
    · exact (OrdMap.lastLE_eq_some_iff.mp hlast).1
    · exact (hmem e he).1
  have hsame : scanned.countP (fun e => e.2.startKey < limit) ≤
      scanned.countP fun e => intersects key limit e.2 := by
    refine List.countP_mono_left fun e he hstart => ?_
    have hproper := h.proper (hmem e he).1
    simp only [intersects, decide_eq_true_eq] at hstart ⊢
    exact ⟨hstart, hproper.imp_right fun hlt => (hmem e he).2.2.trans hlt⟩
  calc 1 + scanned.countP (fun e => e.2.startKey < limit)
      ≤ (first :: scanned).countP fun e => intersects key limit e.2 := by
        rw [List.countP_cons, if_pos hfirst]
        omega
    _ ≤ cache.state.ranges.entries.countP fun e => intersects key limit e.2 :=
        (List.subperm_of_subset hnodup hsubset).countP_le _

/-- Behind a range that contains the key, only the ranges behind it matter. -/
theorem covered_entries_iff (hlast : cache.state.ranges.lastLE key = some first)
    (h : WellFormed cache.state.ranges) (hcontains : Contains first.2 key)
    (hbounded : first.2.limitKey ≠ []) :
    Covered cache.state.ranges.entries key limit ↔
      Covered (cache.state.ranges.range (.excluded first.2.startKey) .unbounded)
        first.2.limitKey limit := by
  obtain ⟨hfirst, -, -⟩ := OrdMap.lastLE_eq_some_iff.mp hlast
  have hkey : key < first.2.limitKey := hcontains.2.resolve_left hbounded
  constructor
  · intro hcovered k hle hk
    obtain ⟨e, he, hek⟩ := hcovered k (hkey.le.trans hle) hk
    refine ⟨e, OrdMap.mem_range.mpr ⟨he, ?_, rfl⟩, hek⟩
    have hlt : first.1 < e.1 := by
      rcases lt_trichotomy first.1 e.1 with hlt | heq | hgt
      · exact hlt
      · obtain rfl := OrdMap.eq_of_key_eq hfirst he heq
        exact absurd (hek.2.resolve_left hbounded) (not_lt.mpr hle)
      · -- A range before the first one ends where that one starts.
        have hends := h.limitKey_le he hfirst hgt
        have hproper := (h.proper hfirst).resolve_left hbounded
        have hend := hek.2.resolve_left hends.1
        exact absurd (hend.trans_le (hends.2.trans hproper.le)) (not_lt.mpr hle)
    rw [h.startKey_eq first hfirst]
    simpa [Bound.isBelow] using hlt
  · intro hcovered k hle hk
    rcases lt_or_ge k first.2.limitKey with hin | hout
    · exact ⟨first, hfirst, hcontains.1.trans hle, .inr hin⟩
    · obtain ⟨e, he, hek⟩ := hcovered k hout hk
      exact ⟨e, (OrdMap.mem_range.mp he).1, hek⟩

/-- No range contains the key. -/
theorem not_covered_of_gap (h : WellFormed cache.state.ranges) (hlt : key < limit)
    (hgap : ∀ first, cache.state.ranges.lastLE key = some first → inRange key first.2 = false) :
    ¬Covered cache.state.ranges.entries key limit := by
  intro hcovered
  obtain ⟨e, he, hcontains⟩ := hcovered key le_rfl hlt
  have hlast := h.partition.lastLE_eq_of_covers he ((contains_iff_covers h he).mp hcontains)
  have hnot := hgap e hlast
  simp only [inRange, decide_eq_false_iff_not] at hnot
  exact hnot hcontains.2

/-- The state and the bound with which the scan starts. -/
def startScan (key : Bytes) : Option (Bytes × CachedRange) → ScanState × Bound Bytes
  | some first =>
      if inRange key first.2 then
        (⟨1, false, some first, first.2.limitKey⟩, .excluded first.2.startKey)
      else (⟨0, true, none, key⟩, .excluded first.2.startKey)
  | none => (⟨0, true, none, key⟩, .included key)

/-- The ranges that the scan may visit. -/
def scanned (cache : Cache) (key : Bytes) (firstRange : Option (Bytes × CachedRange)) :
    List (Bytes × CachedRange) :=
  cache.state.ranges.range (startScan key firstRange).2 .unbounded

def scanResult (cache : Cache) (uniformRandom : ℕ → ℕ) (key limit : Bytes)
    (firstRange : Option (Bytes × CachedRange)) : ScanState :=
  scan uniformRandom limit cache.minCacheEntriesForRandomPick (scanned cache key firstRange)
    (startScan key firstRange).1

theorem pickRandom_eq (cache : Cache) (uniformRandom : ℕ → ℕ) (key limit : Bytes)
    (firstRange : Option (Bytes × CachedRange)) :
    pickRandom cache uniformRandom key limit firstRange =
      match (scanResult cache uniformRandom key limit firstRange).sampled with
      | some sampled =>
          if !(scanResult cache uniformRandom key limit firstRange).gapped limit ||
              cache.minCacheEntriesForRandomPick ≤
                (scanResult cache uniformRandom key limit firstRange).total then
            touch cache sampled
          else (none, cache)
      | none => (none, cache) := by
  cases firstRange <;> rfl

/-- With few ranges a lookup that scans returns a range exactly when it has found no gap. -/
theorem pickRandom_isSome_iff {firstRange : Option (Bytes × CachedRange)}
    (hfew : (scanResult cache uniformRandom key limit firstRange).total <
      cache.minCacheEntriesForRandomPick)
    (hsampled : (scanResult cache uniformRandom key limit firstRange).gapped limit = false →
      (scanResult cache uniformRandom key limit firstRange).sampled.isSome = true) :
    (pickRandom cache uniformRandom key limit firstRange).1.isSome = true ↔
      (scanResult cache uniformRandom key limit firstRange).gapped limit = false := by
  rw [pickRandom_eq]
  generalize scanResult cache uniformRandom key limit firstRange = s at hfew hsampled ⊢
  cases hgap : s.gapped limit with
  | true =>
    cases hs : s.sampled with
    | none => simp
    | some e => simp [Nat.not_le.mpr hfew]
  | false =>
    obtain ⟨e, he⟩ := Option.isSome_iff_exists.mp (hsampled hgap)
    rw [he]
    simp [touch]

/-- The scan visits only ranges that intersect the requested keys. -/
theorem mem_scanned {firstRange : Option (Bytes × CachedRange)}
    (hlast : cache.state.ranges.lastLE key = firstRange) (h : WellFormed cache.state.ranges)
    {e : Bytes × CachedRange} (he : e ∈ scanned cache key firstRange)
    (hstart : e.2.startKey < limit) :
    e ∈ cache.state.ranges ∧ intersects key limit e.2 = true := by
  have hkey : e ∈ cache.state.ranges ∧ key ≤ e.2.startKey := by
    cases firstRange with
    | none =>
      obtain ⟨he, hbelow, -⟩ := OrdMap.mem_range.mp he
      refine ⟨he, ?_⟩
      rw [h.startKey_eq e he]
      simpa [startScan, Bound.isBelow] using hbelow
    | some first =>
      have hbound : (startScan key (some first)).2 = .excluded first.2.startKey := by
        unfold startScan
        dsimp only
        split <;> rfl
      rw [scanned, hbound] at he
      obtain ⟨hmem, -, hlt⟩ := lt_of_mem_range hlast h he
      exact ⟨hmem, hlt.le⟩
  refine ⟨hkey.1, ?_⟩
  simp only [intersects, decide_eq_true_eq]
  exact ⟨hstart, (h.proper hkey.1).imp_right fun hlt => hkey.2.trans_lt hlt⟩

theorem scanResult_gap (uniformRandom : ℕ → ℕ) {firstRange : Option (Bytes × CachedRange)}
    (hlast : cache.state.ranges.lastLE key = firstRange) (h : WellFormed cache.state.ranges)
    (hgap : ∀ first, firstRange = some first → inRange key first.2 = false)
    (hfew : (cache.state.ranges.entries.countP fun e => intersects key limit e.2) <
      cache.minCacheEntriesForRandomPick) :
    (scanResult cache uniformRandom key limit firstRange).gapped limit = true ∧
      (scanResult cache uniformRandom key limit firstRange).total <
        cache.minCacheEntriesForRandomPick := by
  have hstart : (startScan key firstRange).1 = ⟨0, true, none, key⟩ := by
    cases firstRange with
    | none => rfl
    | some first => simp [startScan, hgap first rfl]
  constructor
  · have hfound : (scanResult cache uniformRandom key limit firstRange).foundGap = true :=
      scan_foundGap _ (by rw [hstart])
    simp [ScanState.gapped, hfound]
  · have htotal : (scanResult cache uniformRandom key limit firstRange).total ≤
        (startScan key firstRange).1.total +
          (scanned cache key firstRange).countP fun e => e.2.startKey < limit :=
      scan_total_le _ _ _ _ _
    rw [hstart] at htotal
    dsimp only at htotal
    have hcount : ((scanned cache key firstRange).countP fun e => e.2.startKey < limit) ≤
        cache.state.ranges.entries.countP fun e => intersects key limit e.2 := by
      have hscanned : ((scanned cache key firstRange).countP fun e => e.2.startKey < limit) ≤
          (scanned cache key firstRange).countP fun e => intersects key limit e.2 :=
        List.countP_mono_left fun e he hlt =>
          (mem_scanned hlast h he (by simpa using hlt)).2
      exact hscanned.trans (List.Sublist.countP_le (List.filter_sublist))
    omega

/-- A scan behind a range that contains the key. -/
theorem scanResult_contiguous (uniformRandom : ℕ → ℕ)
    (hlast : cache.state.ranges.lastLE key = some first)
    (h : WellFormed cache.state.ranges) (hlt : key < limit)
    (hcontains : inRange key first.2 = true)
    (hends : first.2.limitKey ≠ [] ∧ first.2.limitKey < limit)
    (hfew : (cache.state.ranges.entries.countP fun e => intersects key limit e.2) <
      cache.minCacheEntriesForRandomPick) :
    ((scanResult cache uniformRandom key limit (some first)).gapped limit = false ↔
      Covered cache.state.ranges.entries key limit) ∧
    (scanResult cache uniformRandom key limit (some first)).sampled.isSome = true ∧
    (scanResult cache uniformRandom key limit (some first)).total <
      cache.minCacheEntriesForRandomPick := by
  obtain ⟨hmem, hle, -⟩ := OrdMap.lastLE_eq_some_iff.mp hlast
  have hstart : startScan key (some first) =
      (⟨1, false, some first, first.2.limitKey⟩, .excluded first.2.startKey) := by
    simp [startScan, hcontains]
  have hfirst : Contains first.2 key := by
    refine ⟨by rw [h.startKey_eq first hmem]; exact hle, ?_⟩
    simpa [inRange] using hcontains
  have hintersects : intersects key limit first.2 = true := by
    rw [intersects_iff hlt (h.proper hmem)]
    exact ⟨key, le_rfl, hlt, hfirst⟩
  have hcount := count_scanned_le hlast h hintersects
  unfold scanResult scanned
  rw [hstart]
  refine ⟨?_, scan_sampled_isSome _ rfl, ?_⟩
  · rw [scan_gapped_iff (follows_range h hmem) hends.1 hends.2 (by dsimp only; omega),
      covered_entries_iff hlast h hfirst hends.1]
    simp
  · have htotal := scan_total_le uniformRandom limit cache.minCacheEntriesForRandomPick
      (cache.state.ranges.range (.excluded first.2.startKey) .unbounded)
      ⟨1, false, some first, first.2.limitKey⟩
    dsimp only at htotal ⊢
    omega

/-! ## Every reachable state -/

/-- What is returned is a stored range, with its access time. -/
def IsStored (cache : Cache) (motive : CachedRange → Prop) (range : CachedRange) : Prop :=
  ∃ e ∈ cache.state.ranges, range = { e.2 with lastAccess := range.lastAccess } ∧ motive e.2

theorem isStored_touch {motive : CachedRange → Prop} {e : Bytes × CachedRange} {range : CachedRange}
    (he : e ∈ cache.state.ranges) (hmotive : motive e.2)
    (h : (touch cache e).1 = some range) : IsStored cache motive range := by
  obtain rfl := Option.some.inj h
  exact ⟨e, he, rfl, hmotive⟩

theorem findRange_some_intersects (h : WellFormed cache.state.ranges) (hlt : key < limit)
    {range : CachedRange}
    (hfound : (findRange cache uniformRandom key limit .pickRandom).1 = some range) :
    IsStored cache (fun stored => intersects key limit stored = true) range := by
  have hcontains : ∀ first, cache.state.ranges.lastLE key = some first →
      inRange key first.2 = true → first ∈ cache.state.ranges ∧
        intersects key limit first.2 = true := by
    intro first hlast hin
    obtain ⟨hmem, hle, -⟩ := OrdMap.lastLE_eq_some_iff.mp hlast
    refine ⟨hmem, (intersects_iff hlt (h.proper hmem)).mpr ⟨key, le_rfl, hlt, ?_, ?_⟩⟩
    · rw [h.startKey_eq first hmem]
      exact hle
    · simpa [inRange] using hin
  have hpick : ∀ firstRange, cache.state.ranges.lastLE key = firstRange →
      (pickRandom cache uniformRandom key limit firstRange).1 = some range →
      IsStored cache (fun stored => intersects key limit stored = true) range := by
    intro firstRange hlast hpicked
    rw [pickRandom_eq] at hpicked
    split at hpicked
    case h_2 => cases hpicked
    case h_1 sampled hsampled =>
      split at hpicked
      case isFalse => cases hpicked
      case isTrue =>
        have hmem : sampled ∈ cache.state.ranges ∧ intersects key limit sampled.2 = true := by
          refine scan_sampled (motive := fun e => e ∈ cache.state.ranges ∧
            intersects key limit e.2 = true) (fun e he hstart => mem_scanned hlast h he hstart) ?_
            hsampled
          intro e he
          cases firstRange with
          | none => cases he
          | some first =>
            unfold startScan at he
            dsimp only at he
            split at he
            case isTrue hin => exact Option.some.inj he ▸ hcontains first hlast hin
            case isFalse => cases he
        exact isStored_touch hmem.1 hmem.2 hpicked
  unfold findRange at hfound
  dsimp only at hfound
  split at hfound
  case h_1 first hlast =>
    split_ifs at hfound with hempty hin hin
    · exact isStored_touch (hcontains first hlast hin).1 (hcontains first hlast hin).2 hfound
    · exact isStored_touch (hcontains first hlast hin.1).1 (hcontains first hlast hin.1).2 hfound
    · exact hpick _ rfl hfound
  case h_2 hlast =>
    split at hfound
    case isTrue => cases hfound
    case isFalse => exact hpick _ rfl hfound

theorem findRange_isSome_iff (h : WellFormed cache.state.ranges) (hlt : key < limit)
    (hfew : (cache.state.ranges.entries.countP fun e => intersects key limit e.2) <
      cache.minCacheEntriesForRandomPick) :
    (findRange cache uniformRandom key limit .pickRandom).1.isSome = true ↔
      Covered cache.state.ranges.entries key limit := by
  have hlimit : limit ≠ [] := by
    rintro rfl
    exact absurd hlt (List.not_lt_nil key)
  have hmissing : ∀ firstRange, cache.state.ranges.lastLE key = firstRange →
      (∀ first, firstRange = some first → inRange key first.2 = false) →
      ((pickRandom cache uniformRandom key limit firstRange).1.isSome = true ↔
        Covered cache.state.ranges.entries key limit) := by
    intro firstRange hlast hgap
    obtain ⟨hgapped, htotal⟩ := scanResult_gap uniformRandom hlast h hgap hfew
    rw [pickRandom_isSome_iff htotal (by simp [hgapped]), hgapped]
    simp only [Bool.true_eq_false, false_iff]
    exact not_covered_of_gap h hlt fun first hfirst => hgap first (hlast.symm.trans hfirst)
  unfold findRange
  dsimp only
  cases hlast : cache.state.ranges.lastLE key with
  | none =>
    simp only [hlimit, reduceCtorEq, or_self, ↓reduceIte]
    exact hmissing none hlast fun first hfirst => (nomatch hfirst)
  | some first =>
    simp only [hlimit, reduceCtorEq, ↓reduceIte]
    split
    case isTrue hcovers =>
      refine iff_of_true rfl fun k hle hk => ⟨first, (OrdMap.lastLE_eq_some_iff.mp hlast).1, ?_, ?_⟩
      · obtain ⟨hmem, hstart, -⟩ := OrdMap.lastLE_eq_some_iff.mp hlast
        rw [h.startKey_eq first hmem]
        exact hstart.trans hle
      · exact hcovers.2.imp_right fun hend => hk.trans_le hend
    case isFalse hnot =>
      cases hin : inRange key first.2 with
      | false =>
        refine hmissing _ hlast fun found hfound => ?_
        rw [← Option.some.inj hfound]
        exact hin
      | true =>
        have hends : first.2.limitKey ≠ [] ∧ first.2.limitKey < limit := by
          simpa [hin] using hnot
        obtain ⟨hgapped, hsampled, htotal⟩ :=
          scanResult_contiguous uniformRandom hlast h hlt hin hends hfew
        rw [pickRandom_isSome_iff htotal (fun _ => hsampled), hgapped]

/-- In every reachable state a lookup that may pick at random returns only a stored range with a key
in `[key, limit)`; and when fewer ranges than the threshold have one, it returns a range exactly
when the stored ranges cover every key of `[key, limit)`. -/
theorem findRange_pickRandom (calls : List Call) (minEntries : ℕ) (uniformRandom : ℕ → ℕ)
    (key limit : Bytes) (hlt : key < limit) :
    let cache := { run new calls with minCacheEntriesForRandomPick := minEntries }
    let found := (findRange cache uniformRandom key limit .pickRandom).1
    (∀ e ∈ cache.state.ranges, intersects key limit e.2 = true ↔
      ∃ k, key ≤ k ∧ k < limit ∧ Contains e.2 k) ∧
    (∀ range, found = some range →
      IsStored cache (fun stored => intersects key limit stored = true) range) ∧
    ((cache.state.ranges.entries.countP fun e => intersects key limit e.2) < minEntries →
      (found.isSome = true ↔
        ∀ k, key ≤ k → k < limit → ∃ e ∈ cache.state.ranges, Contains e.2 k)) := by
  intro cache found
  have h : WellFormed cache.state.ranges := run_wellFormed new_wellFormed calls
  refine ⟨fun e he => intersects_iff hlt (h.proper he), ?_, ?_⟩
  · exact fun range hfound => findRange_some_intersects h hlt hfound
  · exact fun hfew => findRange_isSome_iff h hlt hfew

/-- Two adjacent ranges cover a request that spans both. -/
theorem findRange_pickRandom_adjacent :
    let update : CacheUpdate := ⟨[⟨[1], [2], 7, 0, [1]⟩, ⟨[2], [3], 8, 0, [1]⟩], []⟩
    let cache := { run new [.addRanges update] with minCacheEntriesForRandomPick := 3 }
    (cache.state.ranges.entries.countP fun e => intersects [1] [3] e.2) < 3 ∧
      ((findRange cache (fun _ => 0) [1] [3] .pickRandom).1.isSome = true ↔
        ∀ k, [1] ≤ k → k < [3] → ∃ e ∈ cache.state.ranges, Contains e.2 k) := by
  intro update cache
  have hfew : (cache.state.ranges.entries.countP fun e => intersects [1] [3] e.2) < 3 := by
    decide +kernel
  exact ⟨hfew, (findRange_pickRandom [.addRanges update] 3 (fun _ => 0) [1] [3] (by decide)).2.2
    hfew⟩

end GoogleCloudRust.KeyRangeCache
