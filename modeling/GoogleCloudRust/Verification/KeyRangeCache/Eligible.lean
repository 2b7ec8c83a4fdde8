import GoogleCloudRust.Library.Minimizers
import GoogleCloudRust.Model.KeyRangeCache

/-! # Eligible replicas

The loop over the tablets collects the nearest routable ones, whatever the order in which local and
remote tablets come. -/

namespace GoogleCloudRust.KeyRangeCache.CachedGroup

theorem isRoutable_iff {tablet : Tablet} :
    isRoutable tablet = true ↔ tablet.skip = false ∧ tablet.serverAddress ≠ "" := by
  rw [isRoutable, Bool.and_eq_true, Bool.not_eq_true', decide_eq_true_eq]

/-- The position is that of a routable tablet, and no routable tablet is nearer. -/
def IsNearest (tablets : List Tablet) (index : ℕ) : Prop :=
  ∃ tablet, tablets[index]? = some tablet ∧ isRoutable tablet = true ∧
    ∀ other ∈ tablets, isRoutable other = true → tablet.distance ≤ other.distance

/-- Distance of a tablet with its position. -/
def distanceOf (entry : Tablet × ℕ) : ℕ := entry.1.distance.toNat

/-- What the loop holds after it has seen these routable tablets. -/
structure Collected (s : EligibleState) (entries : List (Tablet × ℕ)) : Prop where
  candidates : s.candidates = (minimizers distanceOf entries).map Prod.snd
  minimum : RunningMinimum distanceOf (2 ^ 32 - 1) entries s.minimumDistance.toNat
  localTier : s.localTierActive = true ↔
    ∃ entry ∈ entries, isLocalDistance entry.1.distance = true

variable {s : EligibleState} {entries : List (Tablet × ℕ)} {tablet : Tablet} {index : ℕ}

theorem isLocalDistance_iff {distance : UInt32} :
    isLocalDistance distance = true ↔ distance.toNat ≤ 5 := by
  simp [isLocalDistance, maxLocalReplicaDistance, UInt32.le_iff_toNat_le]

theorem distanceOf_le (entry : Tablet × ℕ) : distanceOf entry ≤ 2 ^ 32 - 1 := by
  have hlt := entry.1.distance.toNat_lt
  rw [distanceOf]
  omega

/-- A tablet of the tier in use is compared with the running minimum. -/
theorem Collected.collect (h : Collected s entries)
    (htier : isLocalDistance tablet.distance = true → s.localTierActive = true) :
    Collected (collectMinimumDistanceIndex s index tablet.distance)
      (entries ++ [(tablet, index)]) := by
  have hlocal : s.localTierActive = true ↔ ∃ entry ∈ entries ++ [(tablet, index)],
      isLocalDistance entry.1.distance = true := by
    rw [h.localTier]
    constructor
    · rintro ⟨entry, hentry, hdistance⟩
      exact ⟨entry, List.mem_append_left _ hentry, hdistance⟩
    · rintro ⟨entry, hentry, hdistance⟩
      rcases List.mem_append.mp hentry with hentry | hentry
      · exact ⟨entry, hentry, hdistance⟩
      · cases List.mem_singleton.mp hentry
        exact h.localTier.mp (htier hdistance)
  by_cases hlt : tablet.distance < s.minimumDistance
  · have hnearer : distanceOf (tablet, index) < s.minimumDistance.toNat :=
      UInt32.lt_iff_toNat_lt.mp hlt
    rw [collectMinimumDistanceIndex, if_pos hlt]
    exact ⟨by rw [h.minimum.minimizers_of_lt hnearer]; rfl, h.minimum.append_of_lt hnearer, hlocal⟩
  · by_cases heq : tablet.distance = s.minimumDistance
    · have hequal : distanceOf (tablet, index) = s.minimumDistance.toNat :=
        congrArg UInt32.toNat heq
      rw [collectMinimumDistanceIndex, if_neg hlt, if_pos heq]
      refine ⟨?_, h.minimum.append_of_eq hequal, hlocal⟩
      rw [h.minimum.minimizers_of_eq hequal, List.map_append, h.candidates]
      rfl
    · have hfarther : s.minimumDistance.toNat < distanceOf (tablet, index) := by
        have hle := UInt32.le_iff_toNat_le.mp (UInt32.not_lt.mp hlt)
        exact lt_of_le_of_ne hle fun hsame => heq (UInt32.toNat_inj.mp hsame.symm)
      have hfar := distanceOf_le (tablet, index)
      rw [collectMinimumDistanceIndex, if_neg hlt, if_neg heq]
      refine ⟨?_, h.minimum.append_of_gt hfar hfarther, hlocal⟩
      rw [h.minimum.minimizers_of_gt hfar hfarther, h.candidates]

/-- The first local tablet is nearer than all that came before it. -/
theorem Collected.switch (h : Collected s entries) (hinactive : s.localTierActive = false)
    (hdistance : isLocalDistance tablet.distance = true) :
    Collected (collectMinimumDistanceIndex
        { localTierActive := true, minimumDistance := 0xFFFFFFFF, candidates := [] } index
        tablet.distance)
      (entries ++ [(tablet, index)]) := by
  have hclose : tablet.distance.toNat ≤ 5 := isLocalDistance_iff.mp hdistance
  have hlt : tablet.distance < 0xFFFFFFFF := by
    rw [UInt32.lt_iff_toNat_lt]
    simp only [UInt32.reduceToNat]
    omega
  have hremote : ∀ entry ∈ entries, distanceOf (tablet, index) < distanceOf entry := by
    intro entry hentry
    have hfar : ¬entry.1.distance.toNat ≤ 5 := by
      intro hle
      have hactive := h.localTier.mpr ⟨entry, hentry, isLocalDistance_iff.mpr hle⟩
      rw [hinactive] at hactive
      cases hactive
    simp only [distanceOf]
    omega
  rw [collectMinimumDistanceIndex, if_pos hlt]
  refine ⟨by rw [minimizers_append_nearer hremote]; rfl, ⟨by simp, ?_⟩, ?_⟩
  · intro entry hentry
    rw [minimizers_append_nearer hremote] at hentry
    rw [List.mem_singleton.mp hentry]
    rfl
  · exact iff_of_true rfl ⟨(tablet, index), by simp, hdistance⟩

/-- A remote tablet is farther than a local one. -/
theorem Collected.skip (h : Collected s entries) (hactive : s.localTierActive = true)
    (hdistance : isLocalDistance tablet.distance = false) :
    Collected s (entries ++ [(tablet, index)]) := by
  obtain ⟨entry, hentry, hclose⟩ := h.localTier.mp hactive
  have hfarther : s.minimumDistance.toNat < distanceOf (tablet, index) := by
    have hle := h.minimum.le hentry
    have hfar : ¬tablet.distance.toNat ≤ 5 := fun hle => by
      rw [isLocalDistance_iff.mpr hle] at hdistance
      cases hdistance
    rw [isLocalDistance_iff] at hclose
    simp only [distanceOf] at hle ⊢
    omega
  have hfar := distanceOf_le (tablet, index)
  refine ⟨?_, h.minimum.append_of_gt hfar hfarther, ?_⟩
  · rw [h.minimum.minimizers_of_gt hfar hfarther, h.candidates]
  · exact iff_of_true hactive ⟨entry, List.mem_append_left _ hentry, hclose⟩

theorem Collected.step (h : Collected s entries) (tablet : Tablet) (index : ℕ) :
    Collected (eligibleStep s index tablet)
      (entries ++ [(tablet, index)].filter fun entry => isRoutable entry.1) := by
  by_cases hroutable : isRoutable tablet = true
  · rw [List.filter_cons_of_pos (by simpa using hroutable), List.filter_nil]
    cases hdistance : isLocalDistance tablet.distance with
    | true =>
      cases hactive : s.localTierActive with
      | true =>
        have hstep : eligibleStep s index tablet =
            collectMinimumDistanceIndex s index tablet.distance := by
          simp [eligibleStep, hroutable, hdistance, hactive]
        rw [hstep]
        exact h.collect fun _ => hactive
      | false =>
        have hstep : eligibleStep s index tablet = collectMinimumDistanceIndex
            { localTierActive := true, minimumDistance := 0xFFFFFFFF, candidates := [] } index
            tablet.distance := by
          simp [eligibleStep, hroutable, hdistance, hactive]
        rw [hstep]
        exact h.switch hactive hdistance
    | false =>
      cases hactive : s.localTierActive with
      | true =>
        have hstep : eligibleStep s index tablet = s := by
          simp [eligibleStep, hroutable, hdistance, hactive]
        rw [hstep]
        exact h.skip hactive hdistance
      | false =>
        have hstep : eligibleStep s index tablet =
            collectMinimumDistanceIndex s index tablet.distance := by
          simp [eligibleStep, hroutable, hdistance, hactive]
        rw [hstep]
        refine h.collect fun hlocal => ?_
        rw [hdistance] at hlocal
        cases hlocal
  · rw [List.filter_cons_of_neg (by simpa using hroutable), List.filter_nil, List.append_nil]
    have hstep : eligibleStep s index tablet = s := by simp [eligibleStep, hroutable]
    rw [hstep]
    exact h

/-- The routable tablets with their positions. -/
def routableEntries (tablets : List Tablet) : List (Tablet × ℕ) :=
  tablets.zipIdx.filter fun entry => isRoutable entry.1

theorem collected_foldl (h : Collected s entries) (rest : List (Tablet × ℕ)) :
    Collected (rest.foldl (fun s tablet => eligibleStep s tablet.2 tablet.1) s)
      (entries ++ rest.filter fun entry => isRoutable entry.1) := by
  induction rest generalizing s entries with
  | nil => simpa using h
  | cons entry rest ih =>
    have hrest := ih (h.step entry.1 entry.2)
    rw [List.append_assoc, ← List.filter_append] at hrest
    exact hrest

theorem computeEligibleReplicaIndices_eq (tablets : List Tablet) :
    computeEligibleReplicaIndices tablets =
      (minimizers distanceOf (routableEntries tablets)).map Prod.snd := by
  have hinitial : Collected {} [] :=
    ⟨rfl, RunningMinimum.nil _ _, iff_of_false Bool.false_ne_true (by simp)⟩
  exact (collected_foldl hinitial tablets.zipIdx).candidates

theorem mem_routableEntries {tablets : List Tablet} {entry : Tablet × ℕ} :
    entry ∈ routableEntries tablets ↔
      tablets[entry.2]? = some entry.1 ∧ isRoutable entry.1 = true := by
  rw [routableEntries, List.mem_filter, List.mem_zipIdx_iff_getElem?]

theorem mem_computeEligibleReplicaIndices {tablets : List Tablet} {index : ℕ} :
    index ∈ computeEligibleReplicaIndices tablets ↔ IsNearest tablets index := by
  rw [computeEligibleReplicaIndices_eq, List.mem_map]
  constructor
  · rintro ⟨⟨tablet, index⟩, hentry, rfl⟩
    obtain ⟨hmem, hall⟩ := mem_minimizers.mp hentry
    obtain ⟨hget, hroutable⟩ := mem_routableEntries.mp hmem
    refine ⟨tablet, hget, hroutable, fun other hother hotherRoutable => ?_⟩
    obtain ⟨position, hposition⟩ := List.mem_iff_getElem?.mp hother
    exact UInt32.le_iff_toNat_le.mpr
      (hall (other, position) (mem_routableEntries.mpr ⟨hposition, hotherRoutable⟩))
  · rintro ⟨tablet, hget, hroutable, hall⟩
    refine ⟨(tablet, index), mem_minimizers.mpr ⟨mem_routableEntries.mpr ⟨hget, hroutable⟩, ?_⟩,
      rfl⟩
    intro other hother
    obtain ⟨hotherGet, hotherRoutable⟩ := mem_routableEntries.mp hother
    exact UInt32.le_iff_toNat_le.mp
      (hall other.1 (List.mem_of_getElem? hotherGet) hotherRoutable)

theorem pairwise_computeEligibleReplicaIndices (tablets : List Tablet) :
    (computeEligibleReplicaIndices tablets).Pairwise (· < ·) := by
  have hpositions : (tablets.zipIdx.map Prod.snd).Pairwise (· < ·) := by
    rw [List.zipIdx_map_snd]
    exact List.pairwise_lt_range'
  have hsublist : (minimizers distanceOf (routableEntries tablets)).Sublist tablets.zipIdx :=
    minimizers_sublist.trans List.filter_sublist
  rw [computeEligibleReplicaIndices_eq]
  exact hpositions.sublist (hsublist.map Prod.snd)

/-- The eligible replicas are the nearest routable tablets, in order, and none are eligible only if
none are routable. -/
theorem computeEligibleReplicaIndices_nearest (tablets : List Tablet) :
    (computeEligibleReplicaIndices tablets).Pairwise (· < ·) ∧
      (∀ index, index ∈ computeEligibleReplicaIndices tablets ↔ IsNearest tablets index) ∧
      (computeEligibleReplicaIndices tablets = [] ↔
        ∀ tablet ∈ tablets, isRoutable tablet = false) := by
  refine ⟨pairwise_computeEligibleReplicaIndices tablets,
    fun index => mem_computeEligibleReplicaIndices, ?_⟩
  rw [computeEligibleReplicaIndices_eq, List.map_eq_nil_iff, minimizers_eq_nil]
  constructor
  · intro hnil tablet htablet
    obtain ⟨index, hindex⟩ := List.mem_iff_getElem?.mp htablet
    rw [Bool.eq_false_iff]
    intro hroutable
    have hmem : (tablet, index) ∈ routableEntries tablets :=
      mem_routableEntries.mpr ⟨hindex, hroutable⟩
    rw [hnil] at hmem
    exact List.not_mem_nil hmem
  · intro hnone
    rw [List.eq_nil_iff_forall_not_mem]
    intro entry hentry
    obtain ⟨hget, hroutable⟩ := mem_routableEntries.mp hentry
    rw [hnone entry.1 (List.mem_of_getElem? hget)] at hroutable
    cases hroutable

end GoogleCloudRust.KeyRangeCache.CachedGroup
