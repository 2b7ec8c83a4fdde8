import GoogleCloudRust.Library.LinkedSlots
import GoogleCloudRust.Model.LocationRouter
import GoogleCloudRust.Verification.KeyRangeCache.Eligible

/-! # Replicas of directed reads

One pass over the tablets leaves the nearest ones that can be used in the slots, as many as fit. The
selected tablet is one of the nearest that can be used, and a warmed one if these are not more than
the slots hold. -/

namespace GoogleCloudRust.LocationRouter

open KeyRangeCache KeyRangeCache.CachedGroup

variable {snapshot : Snapshot} {replicas : Replicas}

/-! ## Routable tablets -/

/-- The tablet has a healthy connection. -/
def Snapshot.isWarmed (snapshot : Snapshot) (tablet : Tablet) : Bool :=
  (snapshot.getIfPresent tablet.serverAddress).any ServerConnection.isHealthy

/-- A connection is looked up for routable tablets only, and found for the warmed ones. -/
theorem resolveCandidateConnection_spec (snapshot : Snapshot) (tablet : Tablet) :
    (snapshot.resolveCandidateConnection tablet).isSome = snapshot.isTabletRoutable tablet ∧
      ∀ connection, snapshot.resolveCandidateConnection tablet = some connection →
        connection.isSome = snapshot.isWarmed tablet := by
  rw [Snapshot.resolveCandidateConnection, Snapshot.isTabletRoutable, Snapshot.isWarmed]
  split_ifs with hblocked
  · exact ⟨rfl, fun _ h => by cases h⟩
  · cases hpresent : snapshot.getIfPresent tablet.serverAddress with
    | none => exact ⟨rfl, fun _ h => by cases h; rfl⟩
    | some connection =>
        rcases connection with ⟨state, activeRequests⟩
        cases state with
        | ready => exact ⟨rfl, fun _ h => by cases h; rfl⟩
        | transientFailure => exact ⟨rfl, fun _ h => by cases h⟩
        | unhealthy => exact ⟨rfl, fun _ h => by cases h; rfl⟩

/-- What a selection says of a tablet. A selection without a location or a type leaves it open. -/
structure Describes (selection : ReplicaSelection) (tablet : Tablet) : Prop where
  location : selection.location = "" ∨ selection.location = tablet.location
  readWrite : selection.type = .readWrite → tablet.role = .readWrite ∨ tablet.role = .unspecified
  readOnly : selection.type = .readOnly → tablet.role = .readOnly

theorem matchesReplicaSelection_iff {tablet : Tablet} {selection : ReplicaSelection} :
    matchesReplicaSelection tablet selection = true ↔ Describes selection tablet := by
  have hlocation : (!selection.location.isEmpty && selection.location ≠ tablet.location) = true ↔
      ¬(selection.location = "" ∨ selection.location = tablet.location) := by
    simp
  rw [matchesReplicaSelection]
  split_ifs with hother
  · constructor
    · rintro ⟨⟩
    · exact fun h => absurd h.location (hlocation.mp hother)
  · have hsame := not_not.mp (mt hlocation.mpr hother)
    cases htype : selection.type with
    | readWrite =>
        simp only [Bool.or_eq_true, decide_eq_true_eq]
        exact ⟨fun h => ⟨hsame, fun _ => h, by simp [htype]⟩, fun h => h.readWrite htype⟩
    | readOnly =>
        simp only [decide_eq_true_eq]
        exact ⟨fun h => ⟨hsame, by simp [htype], fun _ => h⟩, fun h => h.readOnly htype⟩
    | unspecified => exact ⟨fun _ => ⟨hsame, by simp [htype], by simp [htype]⟩, fun _ => rfl⟩
    | unknownValue u => exact ⟨fun _ => ⟨hsame, by simp [htype], by simp [htype]⟩, fun _ => rfl⟩

theorem matchesReplicas_includeReplicas {tablet : Tablet} {selections : List ReplicaSelection} :
    matchesReplicas tablet (.includeReplicas selections) = true ↔
      ∃ selection ∈ selections, Describes selection tablet := by
  simp only [matchesReplicas, List.any_eq_true, matchesReplicaSelection_iff]

theorem matchesReplicas_excludeReplicas {tablet : Tablet} {selections : List ReplicaSelection} :
    matchesReplicas tablet (.excludeReplicas selections) = true ↔
      ∀ selection ∈ selections, ¬ Describes selection tablet := by
  simp only [matchesReplicas, Bool.not_eq_true', List.any_eq_false, matchesReplicaSelection_iff]

/-- The tablet matches the directive and is neither skipped nor unroutable. -/
def isCandidate (snapshot : Snapshot) (replicas : Replicas) (tablet : Tablet) : Bool :=
  !tablet.skip && matchesReplicas tablet replicas && snapshot.isTabletRoutable tablet

def candidateOf (snapshot : Snapshot) (entry : Tablet × ℕ) : Candidate :=
  (entry.2, (snapshot.resolveCandidateConnection entry.1).join)

theorem candidateOf_isWarmed {entry : Tablet × ℕ} (h : snapshot.isTabletRoutable entry.1 = true) :
    (candidateOf snapshot entry).isWarmed = snapshot.isWarmed entry.1 := by
  obtain ⟨hsome, hwarmed⟩ := resolveCandidateConnection_spec snapshot entry.1
  obtain ⟨connection, hconnection⟩ := Option.isSome_iff_exists.mp (hsome.trans h)
  rw [Candidate.isWarmed, candidateOf, hconnection]
  exact hwarmed connection hconnection

/-! ## Slots -/

/-- The candidates are in the first slots, and are counted. -/
structure Stored (s : Collection) (candidates : List Candidate) : Prop where
  routable : s.routable = filled maxRoutableCandidates candidates
  count : s.routableCount = candidates.length
  warmed : s.warmedCount = candidates.countP Candidate.isWarmed
  fits : candidates.length ≤ maxRoutableCandidates

theorem stored_empty : Stored ⟨.empty, 0, 0⟩ [] := ⟨rfl, rfl, rfl, Nat.zero_le _⟩

variable {s : Collection} {candidates : List Candidate}

theorem Stored.push (h : Stored s candidates) (hroom : candidates.length < maxRoutableCandidates)
    (candidate : Candidate) :
    ∃ next, s.push candidate = .ok next ∧ Stored next (candidates ++ [candidate]) := by
  have hwrite : s.routable.write s.routableCount (some candidate) =
      .ok (filled maxRoutableCandidates (candidates ++ [candidate])) := by
    rw [Slots.write, h.routable, h.count, length_filled h.fits, if_pos hroom, set_filled hroom]
  refine ⟨_, by rw [Collection.push, hwrite]; rfl, rfl, ?_, ?_, ?_⟩
  · rw [h.count, List.length_append, List.length_singleton]
  · rw [h.warmed, List.countP_append, List.countP_singleton]
    split_ifs <;> rfl
  · rwa [List.length_append]

/-- The slots in use are emptied. -/
theorem Stored.clear (h : Stored s candidates) :
    s.routable.clear s.routableCount = .ok Slots.empty := by
  have hlength : s.routableCount ≤ s.routable.length := by
    rw [h.count, h.routable, length_filled h.fits]
    exact h.fits
  have hall : List.replicate s.routableCount none ++ s.routable.drop s.routableCount =
      Slots.empty := by
    rw [h.routable, h.count, drop_filled, List.replicate_append_replicate,
      Nat.add_sub_cancel' h.fits]
    rfl
  rw [Slots.clear, Slots.upTo, if_pos hlength]
  change Except.ok _ = _
  rw [List.length_take_of_le hlength, hall]

variable {α : Type} {l : List α} {f : α → Candidate}

/-- A candidate that does not fit is left out. -/
theorem Stored.offer (h : Stored s ((l.take maxRoutableCandidates).map f)) (a : α) :
    ∃ next, s.offer (f a) = .ok next ∧
      Stored next (((l ++ [a]).take maxRoutableCandidates).map f) := by
  have hlength : s.routable.length = maxRoutableCandidates := by
    rw [h.routable, length_filled h.fits]
  have hcount : s.routableCount = min maxRoutableCandidates l.length := by
    rw [h.count, List.length_map, List.length_take]
  rw [take_concat, Collection.offer]
  by_cases hroom : l.length < maxRoutableCandidates
  · rw [List.take_of_length_le hroom.le] at h
    rw [if_pos hroom, if_pos (by omega), List.map_append]
    exact h.push (by rwa [List.length_map]) (f a)
  · rw [if_neg hroom, if_neg (by omega)]
    exact ⟨s, rfl, h⟩

/-! ## The loop -/

/-- The slots after these tablets, which match and are routable. -/
structure Gathered (snapshot : Snapshot) (s : Collection × UInt32) (entries : List (Tablet × ℕ)) :
    Prop where
  stored : Stored s.1
    (((minimizers distanceOf entries).take maxRoutableCandidates).map (candidateOf snapshot))
  minimum : RunningMinimum distanceOf (2 ^ 32 - 1) entries s.2.toNat

variable {entries : List (Tablet × ℕ)} {minimumDistance : UInt32} {tablet : Tablet} {index : ℕ}

theorem Gathered.farther (h : Gathered snapshot (s, minimumDistance) entries)
    (hgt : minimumDistance < tablet.distance) :
    Gathered snapshot (s, minimumDistance) (entries ++ [(tablet, index)]) := by
  have hfarther : minimumDistance.toNat < distanceOf (tablet, index) :=
    UInt32.lt_iff_toNat_lt.mp hgt
  have hfar := distanceOf_le (tablet, index)
  refine ⟨?_, h.minimum.append_of_gt hfar hfarther⟩
  rw [h.minimum.minimizers_of_gt hfar hfarther]
  exact h.stored

/-- The new tablet is offered to slots without farther ones. -/
theorem Gathered.insert (h : Gathered snapshot (s, minimumDistance) entries)
    (hle : ¬minimumDistance < tablet.distance) {connection : Option ServerConnection}
    (hconnection : snapshot.resolveCandidateConnection tablet = some connection) :
    ∃ next, (do
        let (collection, minimumDistance) ← s.enterTier tablet.distance minimumDistance
        let collection ← collection.offer (index, connection)
        return (collection, minimumDistance) : Except Panic (Collection × UInt32)) = .ok next ∧
      Gathered snapshot next (entries ++ [(tablet, index)]) := by
  have hcandidate : (index, connection) = candidateOf snapshot (tablet, index) := by
    rw [candidateOf, hconnection]
    rfl
  rw [hcandidate]
  by_cases hlt : tablet.distance < minimumDistance
  · have hnearer : distanceOf (tablet, index) < minimumDistance.toNat :=
      UInt32.lt_iff_toNat_lt.mp hlt
    obtain ⟨next, hnext, hstored⟩ := @Stored.offer ⟨.empty, 0, 0⟩ _ []
      (candidateOf snapshot) stored_empty (tablet, index)
    rw [Collection.enterTier, if_pos hlt, h.stored.clear]
    refine ⟨(next, tablet.distance), ?_, ?_, h.minimum.append_of_lt hnearer⟩
    · exact congrArg (· >>= fun collection => pure (collection, tablet.distance)) hnext
    · rw [h.minimum.minimizers_of_lt hnearer]
      exact hstored
  · have hequal : distanceOf (tablet, index) = minimumDistance.toNat :=
      congrArg UInt32.toNat (UInt32.le_antisymm (UInt32.not_lt.mp hle) (UInt32.not_lt.mp hlt))
    obtain ⟨next, hnext, hstored⟩ := h.stored.offer (tablet, index)
    rw [Collection.enterTier, if_neg hlt]
    refine ⟨(next, minimumDistance), ?_, ?_, h.minimum.append_of_eq hequal⟩
    · exact congrArg (· >>= fun collection => pure (collection, minimumDistance)) hnext
    · rw [h.minimum.minimizers_of_eq hequal]
      exact hstored

theorem Gathered.step (h : Gathered snapshot (s, minimumDistance) entries) (tablet : Tablet)
    (index : ℕ) :
    ∃ next, collectDirectedReadCandidate snapshot replicas (s, minimumDistance) (tablet, index) =
        .ok next ∧
      Gathered snapshot next
        (entries ++
          [(tablet, index)].filter fun entry => isCandidate snapshot replicas entry.1) := by
  obtain ⟨hsome, -⟩ := resolveCandidateConnection_spec snapshot tablet
  have hcandidate : isCandidate snapshot replicas tablet =
      (!(tablet.skip || !matchesReplicas tablet replicas) &&
        (snapshot.resolveCandidateConnection tablet).isSome) := by
    rw [isCandidate, hsome, Bool.not_or, Bool.not_not]
  rw [collectDirectedReadCandidate, List.filter_singleton, hcandidate]
  cases hexcluded : tablet.skip || !matchesReplicas tablet replicas with
  | true =>
      refine ⟨(s, minimumDistance), rfl, ?_⟩
      simpa using h
  | false =>
      cases hconnection : snapshot.resolveCandidateConnection tablet with
      | none =>
          refine ⟨(s, minimumDistance), rfl, ?_⟩
          simpa using h
      | some connection =>
          by_cases hgt : minimumDistance < tablet.distance
          · exact ⟨(s, minimumDistance), if_pos hgt, h.farther hgt⟩
          · obtain ⟨next, hnext, hgathered⟩ := h.insert hgt hconnection
            exact ⟨next, (if_neg hgt).trans hnext, hgathered⟩

theorem Gathered.foldlM {s : Collection × UInt32} (h : Gathered snapshot s entries)
    (rest : List (Tablet × ℕ)) :
    ∃ next, rest.foldlM (collectDirectedReadCandidate snapshot replicas) s = .ok next ∧
      Gathered snapshot next
        (entries ++ rest.filter fun entry => isCandidate snapshot replicas entry.1) := by
  induction rest generalizing s entries with
  | nil => exact ⟨s, rfl, by simpa using h⟩
  | cons entry rest ih =>
      obtain ⟨middle, hmiddle, hgathered⟩ := h.step entry.1 entry.2
      obtain ⟨next, hnext, hlast⟩ := ih hgathered
      refine ⟨next, ?_, ?_⟩
      · rw [List.foldlM_cons, hmiddle]
        exact hnext
      · rw [List.append_assoc, ← List.filter_append] at hlast
        exact hlast

/-- The tablets that can be used, with their positions. -/
def candidateEntries (snapshot : Snapshot) (replicas : Replicas) (tablets : List Tablet) :
    List (Tablet × ℕ) :=
  tablets.zipIdx.filter fun entry => isCandidate snapshot replicas entry.1

theorem collectDirectedReadCandidates_stored (snapshot : Snapshot) (group : CachedGroup)
    (replicas : Replicas) :
    ∃ s, collectDirectedReadCandidates snapshot group replicas .empty = .ok s ∧
      Stored s (((minimizers distanceOf
        (candidateEntries snapshot replicas group.tablets)).take maxRoutableCandidates).map
          (candidateOf snapshot)) := by
  have hinitial : Gathered snapshot (⟨.empty, 0, 0⟩, 0xFFFFFFFF) [] :=
    ⟨stored_empty, RunningMinimum.nil _ _⟩
  obtain ⟨next, hnext, hgathered⟩ := @Gathered.foldlM _ replicas _ _ hinitial group.tablets.zipIdx
  exact ⟨next.1, by rw [collectDirectedReadCandidates, hnext]; rfl, hgathered.stored⟩

/-! ## Warmed candidates -/

/-- The warmed candidates, if there are any. -/
def preferred (candidates : List Candidate) : List Candidate :=
  if candidates.any Candidate.isWarmed then candidates.filter Candidate.isWarmed else candidates

theorem preferred_sublist (candidates : List Candidate) :
    (preferred candidates).Sublist candidates := by
  rw [preferred]
  split_ifs
  · exact List.filter_sublist
  · exact List.Sublist.refl candidates

theorem preferred_ne_nil (h : candidates ≠ []) : preferred candidates ≠ [] := by
  rw [preferred]
  split_ifs with hany
  · obtain ⟨candidate, hmem, hwarmed⟩ := List.any_eq_true.mp hany
    exact List.ne_nil_of_mem (List.mem_filter.mpr ⟨hmem, hwarmed⟩)
  · exact h

/-- A candidate that is not warmed is among them only if none is. -/
theorem not_isWarmed_of_mem_preferred {candidate other : Candidate}
    (h : candidate ∈ preferred candidates) (hcold : candidate.isWarmed = false)
    (hother : other ∈ candidates) : other.isWarmed = false := by
  rw [preferred] at h
  split_ifs at h with hany
  · rw [List.mem_filter, hcold] at h
    cases h.2
  · rw [Bool.eq_false_iff]
    intro hwarmed
    exact hany (List.any_eq_true.mpr ⟨other, hother, hwarmed⟩)

theorem foldlM_keepWarmed (kept : List Candidate)
    (hfits : kept.length + candidates.length ≤ maxRoutableCandidates) :
    (candidates.map some).foldlM keepWarmed (filled maxRoutableCandidates kept, kept.length) =
      .ok (filled maxRoutableCandidates (kept ++ candidates.filter Candidate.isWarmed),
        (kept ++ candidates.filter Candidate.isWarmed).length) := by
  induction candidates generalizing kept with
  | nil =>
      rw [List.filter_nil, List.append_nil]
      rfl
  | cons candidate candidates ih =>
      rw [List.length_cons] at hfits
      rw [List.map_cons, List.foldlM_cons]
      rcases candidate with ⟨index, _ | connection⟩
      · rw [List.filter_cons_of_neg (by simp [Candidate.isWarmed])]
        exact ih kept (by omega)
      · rw [List.filter_cons_of_pos (by rfl), keepWarmed, Slots.write,
          length_filled (by omega), if_pos (by omega), set_filled (by omega)]
        have hnext := ih (kept ++ [(index, some connection)]) (by
          rw [List.length_append, List.length_singleton]
          omega)
        rw [List.length_append, List.append_assoc] at hnext
        exact hnext

/-- The slots are those of the preferred candidates. -/
theorem Stored.preferWarmed (h : Stored s candidates) :
    preferWarmed s = .ok (filled maxRoutableCandidates (preferred candidates),
      (preferred candidates).length) := by
  rw [LocationRouter.preferWarmed, h.warmed, h.count, preferred]
  split_ifs with hmixed hany hany
  · have hfold := @foldlM_keepWarmed candidates [] (by simpa using h.fits)
    have hlength : candidates.length ≤ s.routable.length := by
      rw [h.routable, length_filled h.fits]
      exact h.fits
    rw [Slots.upTo, if_pos hlength, h.routable, take_filled]
    exact hfold
  · -- Some candidate is counted as warmed.
    obtain ⟨candidate, hmem, hwarmed⟩ := List.countP_pos_iff.mp hmixed.1
    exact absurd (List.any_eq_true.mpr ⟨candidate, hmem, hwarmed⟩) hany
  · -- All of them are warmed.
    obtain ⟨candidate, hmem, hwarmed⟩ := List.any_eq_true.mp hany
    have hpos := List.countP_pos_iff.mpr ⟨candidate, hmem, hwarmed⟩
    have hle := @List.countP_le_length _ Candidate.isWarmed candidates
    have hall : candidates.filter Candidate.isWarmed = candidates := by
      rw [List.filter_eq_self, ← List.countP_eq_length]
      omega
    rw [hall, h.routable]
  · rw [h.routable]

/-! ## Sampling -/

theorem sampleTwoDistinct_lt {totalCandidates : ℕ} (h : 2 ≤ totalCandidates) (draws : Draws) :
    ∃ first second, sampleTwoDistinct totalCandidates draws = .ok (first, second) ∧
      first < totalCandidates ∧ second < totalCandidates ∧ first ≠ second := by
  have hfirst := Nat.mod_lt draws.first (show 0 < totalCandidates by omega)
  have hsecond := Nat.mod_lt draws.second (show 0 < totalCandidates - 1 by omega)
  refine ⟨_, _, if_neg (by omega), hfirst, ?_, ?_⟩
  · split_ifs <;> omega
  · split_ifs <;> omega

variable {group : CachedGroup}

/-- One of the two slots is chosen. -/
theorem compareSlots_mem (groupUid : UInt64) {first second : ℕ} (hfirst : first < candidates.length)
    (hsecond : second < candidates.length)
    (hgroup : ∀ candidate ∈ candidates, ∃ tablet, group.tablets[candidate.1]? = some tablet) :
    ∃ candidate ∈ candidates, compareSlots snapshot group (filled maxRoutableCandidates candidates)
      groupUid first second = some candidate.1 := by
  have hslot : ∀ slot (h : slot < candidates.length),
      (filled maxRoutableCandidates candidates)[slot]?.join = some candidates[slot] := by
    intro slot h
    rw [getElem?_filled h, List.getElem?_eq_getElem h]
  obtain ⟨firstTablet, hfirstTablet⟩ := hgroup _ (List.getElem_mem hfirst)
  obtain ⟨secondTablet, hsecondTablet⟩ := hgroup _ (List.getElem_mem hsecond)
  rw [compareSlots, hslot first hfirst, hslot second hsecond]
  simp only [Option.bind_eq_bind, Option.bind_some, hfirstTablet, hsecondTablet]
  split_ifs
  · exact ⟨_, List.getElem_mem hfirst, by rw [hslot first hfirst]; rfl⟩
  · exact ⟨_, List.getElem_mem hsecond, by rw [hslot second hsecond]; rfl⟩

/-- A preferred one of the candidates is selected, if there are any. -/
theorem Stored.selectCandidate (h : Stored s candidates) (groupUid : UInt64) (draws : Draws)
    (hgroup : ∀ candidate ∈ candidates, ∃ tablet, group.tablets[candidate.1]? = some tablet) :
    ∃ selected, selectCandidate snapshot group groupUid draws s = .ok selected ∧
      (selected = none ↔ candidates = []) ∧
      ∀ index, selected = some index → ∃ candidate ∈ preferred candidates, candidate.1 = index := by
  have hpreferred : ∀ candidate ∈ preferred candidates,
      ∃ tablet, group.tablets[candidate.1]? = some tablet :=
    fun candidate hmem => hgroup candidate ((preferred_sublist candidates).subset hmem)
  rw [LocationRouter.selectCandidate, h.count]
  by_cases hnil : candidates = []
  · refine ⟨none, ?_, iff_of_true rfl hnil, fun _ h => by cases h⟩
    rw [hnil]
    rfl
  · have hpos := List.length_pos_of_ne_nil (preferred_ne_nil hnil)
    rw [if_neg (List.length_pos_of_ne_nil hnil).ne', h.preferWarmed]
    change ∃ selected, (if (preferred candidates).length = 1 then _ else _) = _ ∧ _
    split_ifs with hone
    · obtain ⟨candidate, hsingle⟩ := List.length_eq_one_iff.mp hone
      refine ⟨some candidate.1, ?_, iff_of_false (Option.some_ne_none _) hnil, ?_⟩
      · rw [hsingle]
        rfl
      · intro index hindex
        rw [hsingle]
        exact ⟨candidate, List.mem_singleton_self candidate, Option.some.inj hindex⟩
    · obtain ⟨first, second, hsample, hfirst, hsecond, -⟩ :=
        @sampleTwoDistinct_lt (preferred candidates).length (by omega) draws
      obtain ⟨candidate, hmem, hcompare⟩ :=
        @compareSlots_mem snapshot _ _ groupUid _ _ hfirst hsecond hpreferred
      refine ⟨some candidate.1, ?_, iff_of_false (Option.some_ne_none _) hnil, ?_⟩
      · rw [selectP2cWinner, hsample]
        exact congrArg Except.ok hcompare
      · intro index hindex
        exact ⟨candidate, hmem, Option.some.inj hindex⟩

/-! ## The selected tablet -/

/-- The nearest tablets that can be used, as many as the slots hold. -/
def nearestEntries (snapshot : Snapshot) (replicas : Replicas) (tablets : List Tablet) :
    List (Tablet × ℕ) :=
  (minimizers distanceOf (candidateEntries snapshot replicas tablets)).take maxRoutableCandidates

theorem getElem?_of_mem_nearestEntries {tablets : List Tablet} {entry : Tablet × ℕ}
    (h : entry ∈ nearestEntries snapshot replicas tablets) :
    tablets[entry.2]? = some entry.1 ∧ isCandidate snapshot replicas entry.1 = true := by
  have hmem := (mem_minimizers.mp (List.mem_of_mem_take h)).1
  rw [candidateEntries, List.mem_filter, List.mem_zipIdx_iff_getElem?] at hmem
  exact hmem

theorem candidateEntries_eq_nil {tablets : List Tablet} :
    candidateEntries snapshot replicas tablets = [] ↔
      ∀ tablet ∈ tablets, isCandidate snapshot replicas tablet = false := by
  rw [candidateEntries, List.filter_eq_nil_iff]
  constructor
  · intro h tablet htablet
    obtain ⟨index, hindex⟩ := List.mem_iff_getElem?.mp htablet
    exact Bool.eq_false_iff.mpr (h (tablet, index) (List.mem_zipIdx_iff_getElem?.mpr hindex))
  · intro h entry hentry
    exact Bool.eq_false_iff.mp
      (h entry.1 (List.mem_of_getElem? (List.mem_zipIdx_iff_getElem?.mp hentry)))

theorem nearestEntries_eq_nil {tablets : List Tablet} :
    nearestEntries snapshot replicas tablets = [] ↔
      ∀ tablet ∈ tablets, isCandidate snapshot replicas tablet = false := by
  rw [nearestEntries, List.take_eq_nil_iff, minimizers_eq_nil, candidateEntries_eq_nil]
  exact or_iff_right (by decide)

/-- One of the nearest tablets is selected, if there are any. -/
theorem selectHealthyTablet_mem (snapshot : Snapshot) (range : CachedRange) (group : CachedGroup)
    (preferLeader : Bool) (replicas : Replicas) (draws : Draws) :
    ∃ selected, selectHealthyTablet snapshot range group preferLeader (some ⟨some replicas⟩) draws =
        .ok selected ∧
      (selected = none ↔ nearestEntries snapshot replicas group.tablets = []) ∧
      ∀ index, selected = some index → ∃ entry ∈ nearestEntries snapshot replicas group.tablets,
        entry.2 = index ∧ candidateOf snapshot entry ∈
          preferred ((nearestEntries snapshot replicas group.tablets).map (candidateOf snapshot)) := by
  obtain ⟨s, hcollect, hstored⟩ := collectDirectedReadCandidates_stored snapshot group replicas
  rw [← nearestEntries] at hstored
  have hgroup : ∀ candidate ∈
      (nearestEntries snapshot replicas group.tablets).map (candidateOf snapshot),
      ∃ tablet, group.tablets[candidate.1]? = some tablet := by
    intro candidate hmem
    obtain ⟨entry, hentry, rfl⟩ := List.mem_map.mp hmem
    exact ⟨entry.1, (getElem?_of_mem_nearestEntries hentry).1⟩
  obtain ⟨selected, hselect, hnone, hsome⟩ :=
    hstored.selectCandidate range.groupUid draws hgroup
  refine ⟨selected, ?_, hnone.trans List.map_eq_nil_iff, ?_⟩
  · -- Directed reads do not look at the leader.
    have hfollower : selectHealthyFollower snapshot group range.groupUid (some ⟨some replicas⟩)
        draws = .ok selected := by
      rw [selectHealthyFollower]
      change (collectDirectedReadCandidates snapshot group replicas .empty >>= _) = _
      rw [hcollect]
      exact hselect
    cases preferLeader <;> exact hfollower
  · intro index hindex
    obtain ⟨candidate, hpreferred, rfl⟩ := hsome index hindex
    obtain ⟨entry, hentry, rfl⟩ :=
      List.mem_map.mp ((preferred_sublist _).subset hpreferred)
    exact ⟨entry, hentry, rfl, hpreferred⟩

/-- As many tablets are nearest as can be used and are as far as one of them. -/
theorem length_minimizers {tablets : List Tablet} {entry : Tablet × ℕ}
    (h : entry ∈ minimizers distanceOf (candidateEntries snapshot replicas tablets)) :
    (minimizers distanceOf (candidateEntries snapshot replicas tablets)).length =
      (tablets.filter fun other =>
        isCandidate snapshot replicas other && other.distance = entry.1.distance).length := by
  have hsame : ∀ other : Tablet × ℕ, (distanceOf other = distanceOf entry) =
      (other.1.distance = entry.1.distance) := fun other => propext UInt32.toNat_inj
  rw [minimizers_eq_filter h, candidateEntries, List.filter_filter, ← List.countP_eq_length_filter,
    ← List.countP_eq_length_filter]
  conv => rhs; rw [← @List.zipIdx_map_fst _ 0 tablets, List.countP_map]
  refine List.countP_congr fun other _ => ?_
  simp only [hsame, Function.comp_apply, Bool.and_comm]

/-- With a replica directive, a nearest one of the tablets is selected that match it, are not
skipped and are routable, and none only if there are none. If the nearest ones are no more than
eight, a tablet without a healthy connection is selected only if none of them has one. -/
theorem selectHealthyTablet_directed (snapshot : Snapshot) (range : CachedRange)
    (group : CachedGroup) (preferLeader : Bool) (replicas : Replicas) (draws : Draws) :
    ∃ selected, selectHealthyTablet snapshot range group preferLeader (some ⟨some replicas⟩) draws =
        .ok selected ∧
      (selected = none ↔
        ∀ tablet ∈ group.tablets, isCandidate snapshot replicas tablet = false) ∧
      ∀ index, selected = some index → ∃ tablet, group.tablets[index]? = some tablet ∧
        isCandidate snapshot replicas tablet = true ∧
        (∀ other ∈ group.tablets, isCandidate snapshot replicas other = true →
          tablet.distance ≤ other.distance) ∧
        ((group.tablets.filter fun other => isCandidate snapshot replicas other &&
            other.distance = tablet.distance).length ≤ 8 →
          snapshot.isWarmed tablet = false →
          ∀ other ∈ group.tablets, isCandidate snapshot replicas other = true →
            other.distance = tablet.distance → snapshot.isWarmed other = false) := by
  obtain ⟨selected, hselect, hnone, hsome⟩ :=
    selectHealthyTablet_mem snapshot range group preferLeader replicas draws
  refine ⟨selected, hselect, hnone.trans nearestEntries_eq_nil, ?_⟩
  intro index hindex
  obtain ⟨entry, hentry, rfl, hpreferred⟩ := hsome index hindex
  obtain ⟨hget, hcandidate⟩ := getElem?_of_mem_nearestEntries hentry
  have hnearest := List.mem_of_mem_take hentry
  have hall : ∀ other position, group.tablets[position]? = some other →
      isCandidate snapshot replicas other = true →
      (other, position) ∈ candidateEntries snapshot replicas group.tablets := by
    intro other position hposition hother
    exact List.mem_filter.mpr ⟨List.mem_zipIdx_iff_getElem?.mpr hposition, hother⟩
  refine ⟨entry.1, hget, hcandidate, ?_, ?_⟩
  · intro other hmem hother
    obtain ⟨position, hposition⟩ := List.mem_iff_getElem?.mp hmem
    exact UInt32.le_iff_toNat_le.mpr
      ((mem_minimizers.mp hnearest).2 (other, position) (hall other position hposition hother))
  · intro hfew hcold other hmem hother hdistance
    obtain ⟨position, hposition⟩ := List.mem_iff_getElem?.mp hmem
    -- All of the nearest tablets are in the slots.
    have hslots : nearestEntries snapshot replicas group.tablets =
        minimizers distanceOf (candidateEntries snapshot replicas group.tablets) :=
      List.take_of_length_le ((length_minimizers hnearest).trans_le hfew)
    have hentryOther : (other, position) ∈ nearestEntries snapshot replicas group.tablets := by
      rw [hslots, mem_minimizers]
      refine ⟨hall other position hposition hother, ?_⟩
      intro third hthird
      have hequal : distanceOf (other, position) = distanceOf entry :=
        congrArg UInt32.toNat hdistance
      rw [hequal]
      exact (mem_minimizers.mp hnearest).2 third hthird
    have hroutable : ∀ tablet, isCandidate snapshot replicas tablet = true →
        snapshot.isTabletRoutable tablet = true :=
      fun tablet h => (Bool.and_eq_true_iff.mp h).2
    rw [← candidateOf_isWarmed (hroutable entry.1 hcandidate)] at hcold
    have hcoldOther := not_isWarmed_of_mem_preferred hpreferred hcold
      (List.mem_map_of_mem hentryOther)
    rwa [candidateOf_isWarmed (hroutable other hother)] at hcoldOther

end GoogleCloudRust.LocationRouter
