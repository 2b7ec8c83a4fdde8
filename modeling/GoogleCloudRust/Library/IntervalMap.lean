import Mathlib.Order.MinMax
import Mathlib.Order.WithBot
import GoogleCloudRust.Library.OrdMap

/-! # Interval maps

An ordered map whose entries are read as half-open intervals: an entry starts at its
key and ends before the limit of its value. Non-empty, pairwise disjoint intervals
denote a partial function on keys, and overwriting one interval overwrites that
function on that interval. -/

namespace GoogleCloudRust.IntervalMap

variable {κ ν δ : Type*} [LinearOrder κ] (lim : ν → WithTop κ)

/-- The interval of the entry contains the key. -/
def Covers (e : κ × ν) (key : κ) : Prop := e.1 ≤ key ∧ (key : WithTop κ) < lim e.2

/-- The interval of the entry meets `[start, limit)`. -/
def Meets (start : κ) (limit : WithTop κ) (e : κ × ν) : Prop :=
  (e.1 : WithTop κ) < limit ∧ (start : WithTop κ) < lim e.2

structure IsPartition (m : OrdMap κ ν) : Prop where
  nonempty : ∀ e ∈ m, (e.1 : WithTop κ) < lim e.2
  disjoint : ∀ e ∈ m, ∀ e' ∈ m, e.1 < e'.1 → lim e.2 ≤ e'.1

variable {lim} {m m' : OrdMap κ ν} {e e' : κ × ν} {key : κ}

theorem isPartition_empty : IsPartition lim (OrdMap.empty : OrdMap κ ν) :=
  ⟨fun _ he => absurd he OrdMap.not_mem_empty, fun _ he => absurd he OrdMap.not_mem_empty⟩

namespace IsPartition

variable (hm : IsPartition lim m)

include hm

/-- A key lies in at most one interval. -/
theorem covers_unique (he : e ∈ m) (he' : e' ∈ m) (hc : Covers lim e key)
    (hc' : Covers lim e' key) : e = e' := by
  have hle : ∀ a ∈ m, ∀ b ∈ m, Covers lim a key → Covers lim b key → ¬ a.1 < b.1 := by
    intro a ha b hb hca hcb hlt
    have hend := hm.disjoint a ha b hb hlt
    exact absurd (lt_of_lt_of_le hca.2 hend) (not_lt.mpr (WithTop.coe_le_coe.mpr hcb.1))
  exact OrdMap.eq_of_key_eq he he' (le_antisymm (not_lt.mp (hle e' he' e he hc' hc))
    (not_lt.mp (hle e he e' he' hc hc')))

/-- The interval that contains a key is the last one that starts at or before it. -/
theorem lastLE_eq_of_covers (he : e ∈ m) (hc : Covers lim e key) : m.lastLE key = some e := by
  refine OrdMap.lastLE_eq_some_iff.mpr ⟨he, hc.1, fun a ha hle => ?_⟩
  by_contra hlt
  have hend := hm.disjoint e he a ha (not_le.mp hlt)
  exact absurd (lt_of_lt_of_le hc.2 hend) (not_lt.mpr (WithTop.coe_le_coe.mpr hle))

/-- Intervals that meet a further one are ordered by their limits as by their keys:
only the first can start before it. -/
theorem eq_of_meets_of_lt_start {start : κ} {limit : WithTop κ} (he : e ∈ m) (he' : e' ∈ m)
    (hmeets : Meets lim start limit e) (hlt : e'.1 < start) (hle : e.1 ≤ e'.1) : e = e' := by
  by_contra hne
  have hkey : e.1 < e'.1 := lt_of_le_of_ne hle fun h => hne (OrdMap.eq_of_key_eq he he' h)
  have hend := hm.disjoint e he e' he' hkey
  exact absurd (hmeets.2.trans_le hend) (not_lt.mpr (WithTop.coe_le_coe.mpr hlt.le))

/-- Only the last can reach beyond it. -/
theorem eq_of_meets_of_limit_lt {start : κ} {limit : WithTop κ} (he : e ∈ m) (he' : e' ∈ m)
    (hmeets : Meets lim start limit e') (hlt : limit < lim e.2) (hle : e.1 ≤ e'.1) : e = e' := by
  by_contra hne
  have hkey : e.1 < e'.1 := lt_of_le_of_ne hle fun h => hne (OrdMap.eq_of_key_eq he he' h)
  have hend := hm.disjoint e he e' he' hkey
  exact absurd (hlt.trans_le hend) (not_lt.mpr hmeets.1.le)

end IsPartition

/-! ## The denoted function -/

/-- The value whose interval contains the key. -/
noncomputable def valueAt (lim : ν → WithTop κ) (m : OrdMap κ ν) (key : κ) : Option ν :=
  open Classical in
  (m.lastLE key).bind fun e => if (key : WithTop κ) < lim e.2 then some e.2 else none

theorem valueAt_eq_some_iff (hm : IsPartition lim m) {value : ν} :
    valueAt lim m key = some value ↔ ∃ e ∈ m, Covers lim e key ∧ e.2 = value := by
  unfold valueAt
  constructor
  · intro h
    obtain ⟨e, hlast, hvalue⟩ := Option.bind_eq_some_iff.mp h
    obtain ⟨he, hle, -⟩ := OrdMap.lastLE_eq_some_iff.mp hlast
    split_ifs at hvalue with hlt
    exact ⟨e, he, ⟨hle, hlt⟩, Option.some.inj hvalue⟩
  · rintro ⟨e, he, hc, rfl⟩
    rw [hm.lastLE_eq_of_covers he hc, Option.bind_some, if_pos hc.2]

/-! ## Overwriting an interval -/

/-- `m'` is `m` with `value` written over `[start, limit)`: what `m` has there is cut
away, and what sticks out on either side keeps its data. -/
structure IsOverwrite (lim : ν → WithTop κ) (data : ν → δ) (m m' : OrdMap κ ν) (start : κ)
    (limit : WithTop κ) (value : ν) (cutHead cutTail : ν → ν) : Prop where
  start_lt : (start : WithTop κ) < limit
  lim_value : lim value = limit
  lim_cutHead : ∀ a ∈ m, a.1 < start → lim (cutHead a.2) = start
  lim_cutTail : ∀ v, lim (cutTail v) = lim v
  data_cutHead : ∀ v, data (cutHead v) = data v
  data_cutTail : ∀ v, data (cutTail v) = data v
  mem_iff : ∀ e, e ∈ m' ↔ e = (start, value) ∨ (e ∈ m ∧ ¬ Meets lim start limit e) ∨
    (∃ a ∈ m, Meets lim start limit a ∧ a.1 < start ∧ e = (a.1, cutHead a.2)) ∨
    (∃ a ∈ m, Meets lim start limit a ∧ limit < lim a.2 ∧ (e.1 : WithTop κ) = limit ∧
      e.2 = cutTail a.2)

/-- How an interval of the result comes from an old one: it is what the old one has
before `start`, or what it has from `limit` on. -/
def IsRest (lim : ν → WithTop κ) (start : κ) (limit : WithTop κ) (a e : κ × ν) : Prop :=
  (e.1 = a.1 ∧ lim e.2 ≤ lim a.2 ∧ lim e.2 ≤ start) ∨
    ((e.1 : WithTop κ) = max (a.1 : WithTop κ) limit ∧ lim e.2 = lim a.2)

theorem IsRest.covers {start : κ} {limit : WithTop κ} {a : κ × ν}
    (h : IsRest lim start limit a e) (hc : Covers lim e key) : Covers lim a key := by
  rcases h with ⟨hkey, hle, -⟩ | ⟨hkey, hlim⟩
  · exact ⟨hkey ▸ hc.1, hc.2.trans_le hle⟩
  · refine ⟨WithTop.coe_le_coe.mp ?_, hlim ▸ hc.2⟩
    exact (le_max_left _ _).trans (hkey ▸ WithTop.coe_le_coe.mpr hc.1)

namespace IsOverwrite

variable {data : ν → δ} {start : κ} {limit : WithTop κ} {value : ν} {cutHead cutTail : ν → ν}
  (h : IsOverwrite lim data m m' start limit value cutHead cutTail)

include h

theorem origin (he : e ∈ m') :
    e = (start, value) ∨ ∃ a ∈ m, IsRest lim start limit a e ∧ data e.2 = data a.2 := by
  rcases (h.mem_iff e).mp he with rfl | ⟨he, hmeets⟩ | ⟨a, ha, hmeets, hlt, rfl⟩ |
    ⟨a, ha, hmeets, -, hkey, hvalue⟩
  · exact .inl rfl
  · refine .inr ⟨e, he, ?_, rfl⟩
    rcases not_and_or.mp hmeets with hafter | hbefore
    · exact .inr ⟨(max_eq_left (not_lt.mp hafter)).symm, rfl⟩
    · exact .inl ⟨rfl, le_rfl, not_lt.mp hbefore⟩
  · refine .inr ⟨a, ha, .inl ⟨rfl, ?_, ?_⟩, h.data_cutHead a.2⟩
    · exact (h.lim_cutHead a ha hlt).trans_le hmeets.2.le
    · exact (h.lim_cutHead a ha hlt).le
  · refine .inr ⟨a, ha, .inr ⟨?_, ?_⟩, ?_⟩
    · rw [hkey, max_eq_right hmeets.1.le]
    · rw [hvalue, h.lim_cutTail]
    · rw [hvalue, h.data_cutTail]

theorem nonempty (hm : IsPartition lim m) (he : e ∈ m') : (e.1 : WithTop κ) < lim e.2 := by
  rcases (h.mem_iff e).mp he with rfl | ⟨he, -⟩ | ⟨a, ha, -, hlt, rfl⟩ |
    ⟨a, -, -, hlt, hkey, hvalue⟩
  · exact h.start_lt.trans_eq h.lim_value.symm
  · exact hm.nonempty e he
  · exact (WithTop.coe_lt_coe.mpr hlt).trans_eq (h.lim_cutHead a ha hlt).symm
  · rw [hkey, hvalue, h.lim_cutTail]
    exact hlt

/-- Overwriting keeps the intervals non-empty and disjoint. -/
theorem isPartition (hm : IsPartition lim m) : IsPartition lim m' := by
  refine ⟨fun e he => h.nonempty hm he, fun e he e' he' hlt => ?_⟩
  have hne := h.nonempty hm he
  have hne' := h.nonempty hm he'
  have hlt' : (e.1 : WithTop κ) < e'.1 := WithTop.coe_lt_coe.mpr hlt
  have hwritten := h.lim_value
  have hstart := h.start_lt
  rcases h.origin he with rfl | ⟨a, ha, hrest, -⟩ <;>
    rcases h.origin he' with rfl | ⟨a', ha', hrest', -⟩
  · exact absurd hlt (lt_irrefl _)
  · -- The written interval ends at `limit`, where the right rests begin.
    rcases hrest' with ⟨-, -, hle⟩ | ⟨hkey, -⟩
    · exact absurd ((hlt'.trans hne').trans_le hle) (lt_irrefl _)
    · rw [hwritten, hkey]
      exact le_max_right _ _
  · rcases hrest with ⟨-, -, hle⟩ | ⟨hkey, -⟩
    · exact hle
    · have hle : limit ≤ e.1 := hkey ▸ le_max_right _ _
      exact absurd ((hle.trans_lt hlt').trans hstart) (lt_irrefl _)
  · rcases hrest with ⟨hkey, hle, hbefore⟩ | ⟨hkey, hlim⟩ <;>
      rcases hrest' with ⟨hkey', hle', hbefore'⟩ | ⟨hkey', hlim'⟩
    · have hend := hm.disjoint a ha a' ha' (by rw [← hkey, ← hkey']; exact hlt)
      exact hle.trans (hend.trans_eq (by rw [hkey']))
    · exact hbefore.trans (hstart.le.trans (hkey' ▸ le_max_right _ _))
    · have hle : limit ≤ e.1 := hkey ▸ le_max_right _ _
      exact absurd ((((hle.trans_lt hlt').trans hne').trans_le hbefore').trans hstart)
        (lt_irrefl _)
    · have hkeys : a.1 < a'.1 := by
        by_contra hge
        have hmax : max (a'.1 : WithTop κ) limit ≤ max (a.1 : WithTop κ) limit :=
          max_le_max (WithTop.coe_le_coe.mpr (not_lt.mp hge)) le_rfl
        rw [← hkey, ← hkey'] at hmax
        exact absurd hlt' (not_lt.mpr hmax)
      rw [hlim, hkey']
      exact (hm.disjoint a ha a' ha' hkeys).trans (le_max_left _ _)

/-- Overwriting an interval overwrites the denoted function on it and nowhere else. -/
theorem valueAt_eq (hm : IsPartition lim m) (key : κ)
    [Decidable (start ≤ key ∧ (key : WithTop κ) < limit)] :
    (valueAt lim m' key).map data =
      if start ≤ key ∧ (key : WithTop κ) < limit then some (data value)
      else (valueAt lim m key).map data := by
  have hm' := h.isPartition hm
  have hwritten : (start, value) ∈ m' := (h.mem_iff _).mpr (.inl rfl)
  split_ifs with hin
  · have hat : valueAt lim m' key = some value :=
      (valueAt_eq_some_iff hm').mpr ⟨_, hwritten, ⟨hin.1, h.lim_value ▸ hin.2⟩, rfl⟩
    rw [hat, Option.map_some]
  · ext d
    simp only [Option.map_eq_some_iff, valueAt_eq_some_iff hm, valueAt_eq_some_iff hm']
    constructor
    · rintro ⟨_, ⟨e, he, hc, rfl⟩, rfl⟩
      rcases h.origin he with rfl | ⟨a, ha, hrest, hdata⟩
      · exact absurd ⟨hc.1, h.lim_value ▸ hc.2⟩ hin
      · exact ⟨a.2, ⟨a, ha, hrest.covers hc, rfl⟩, hdata.symm⟩
    · rintro ⟨_, ⟨a, ha, hc, rfl⟩, rfl⟩
      by_cases hmeets : Meets lim start limit a
      · by_cases hkey : start ≤ key
        · have hle : limit ≤ key := not_lt.mp fun hlt => hin ⟨hkey, hlt⟩
          obtain ⟨l, rfl⟩ := WithTop.ne_top_iff_exists.mp
            (ne_top_of_le_ne_top WithTop.coe_ne_top hle)
          refine ⟨cutTail a.2, ⟨(l, cutTail a.2), ?_, ?_, rfl⟩, h.data_cutTail a.2⟩
          · exact (h.mem_iff _).mpr (.inr (.inr (.inr
              ⟨a, ha, hmeets, hle.trans_lt hc.2, rfl, rfl⟩)))
          · exact ⟨WithTop.coe_le_coe.mp hle, (h.lim_cutTail a.2).symm ▸ hc.2⟩
        · have hlt : a.1 < start := hc.1.trans_lt (not_le.mp hkey)
          refine ⟨cutHead a.2, ⟨(a.1, cutHead a.2), ?_, ⟨hc.1, ?_⟩, rfl⟩,
            h.data_cutHead a.2⟩
          · exact (h.mem_iff _).mpr (.inr (.inr (.inl ⟨a, ha, hmeets, hlt, rfl⟩)))
          · exact (WithTop.coe_lt_coe.mpr (not_le.mp hkey)).trans_eq (h.lim_cutHead a ha hlt).symm
      · exact ⟨a.2, ⟨a, (h.mem_iff a).mpr (.inr (.inl ⟨ha, hmeets⟩)), hc, rfl⟩, rfl⟩

end IsOverwrite

end GoogleCloudRust.IntervalMap
