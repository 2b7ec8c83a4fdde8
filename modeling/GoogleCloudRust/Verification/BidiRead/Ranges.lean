import GoogleCloudRust.Library.Signed
import GoogleCloudRust.Model.BidiRead

/-! # The responses that a read accepts

A response fits a read when it starts where the read is and is not longer than what remains. -/

namespace GoogleCloudRust.Bidi

open Signed

namespace RemainingRange

/-- Where the next response has to start. -/
def position : RemainingRange → Option UInt64
  | .requested (.offset o) | .requested (.segment o _) => some o
  | .requested (.tail _) => none
  | .normalized s => some s.offset.toUInt64

/-- How much remains, where this is known. -/
def limit : RemainingRange → Option Int64
  | .requested (.segment _ l) =>
      if l = 0 then none else some (min l Int64.maxValue.toUInt64).toInt64
  | .requested _ => none
  | .normalized s => s.length

structure Fits (state : RemainingRange) (range : ProtoRange) : Prop where
  offset : 0 ≤ range.readOffset
  length : 0 ≤ range.readLength
  position : ∀ p ∈ state.position, range.readOffset.toUInt64 = p
  limit : ∀ l ∈ state.limit, range.readLength ≠ 0 → range.readLength ≤ l

/-- What remains after a response that fits. -/
def rest (state : RemainingRange) (range : ProtoRange) : NormalizedRange where
  offset := range.readOffset + range.readLength
  length := state.limit.map fun l => l - range.readLength

end RemainingRange

/-! ## Updates -/

theorem NormalizedRange.fromProto_eq {range : ProtoRange} (hoffset : 0 ≤ range.readOffset)
    (hlength : 0 ≤ range.readLength) :
    fromProto range = .ok
      { offset := range.readOffset
        length := if range.readLength = 0 then none else some range.readLength } := by
  rw [fromProto, new, if_neg (Int64.not_lt.mpr hoffset)]
  split
  · rfl
  · simp [withLength, Int64.not_lt.mpr hlength, bind, Except.bind]

theorem NormalizedRange.fromProto_ok {range : ProtoRange} {update : NormalizedRange}
    (h : fromProto range = .ok update) : 0 ≤ range.readOffset ∧ 0 ≤ range.readLength := by
  rw [fromProto, new] at h
  split at h
  case isTrue hzero =>
    split at h
    · cases h
    case isFalse hoffset => exact ⟨Int64.not_lt.mp hoffset, by rw [hzero]; decide⟩
  case isFalse =>
    split at h
    · cases h
    case isFalse hoffset =>
      refine ⟨Int64.not_lt.mp hoffset, ?_⟩
      simp only [bind, Except.bind, withLength] at h
      split at h
      · cases h
      case isFalse hlength => exact Int64.not_lt.mp hlength

theorem NormalizedRange.updateLength_eq {length : Option Int64} {got : Int64}
    (h : ∀ l ∈ length, got ≠ 0 → got ≤ l) :
    updateLength length (if got = 0 then none else some got) =
      .ok (length.map fun l => l - got) := by
  cases length with
  | none => rfl
  | some l =>
      split
      case isTrue hzero => simp [updateLength, hzero]
      case isFalse hzero => simp [updateLength, h l rfl hzero]

theorem NormalizedRange.updateLength_ok {length result : Option Int64} {got : Int64}
    (h : updateLength length (if got = 0 then none else some got) = .ok result) :
    ∀ l ∈ length, got ≠ 0 → got ≤ l := by
  rintro l rfl hzero
  rw [if_neg hzero, updateLength] at h
  by_contra hgt
  rw [if_neg hgt] at h
  cases h

theorem NormalizedRange.update_eq {segment : NormalizedRange} {range : ProtoRange}
    (h : (RemainingRange.normalized segment).Fits range) :
    segment.update range = .ok ((RemainingRange.normalized segment).rest range) := by
  have hoffset : range.readOffset = segment.offset :=
    Int64.toBitVec_inj.mp (UInt64.toBitVec_inj.mpr (h.position _ rfl))
  have hlength : ∀ l ∈ segment.length, range.readLength ≠ 0 → range.readLength ≤ l := h.limit
  rw [update, fromProto_eq h.offset h.length]
  simp only [bind, Except.bind, hoffset, ne_eq, not_true_eq_false, if_false,
    updateLength_eq hlength]
  rw [RemainingRange.rest, hoffset]
  split
  case isTrue hzero => simp [hzero, RemainingRange.limit]
  case isFalse => rfl

theorem NormalizedRange.fits_of_update {segment updated : NormalizedRange} {range : ProtoRange}
    (h : segment.update range = .ok updated) : (RemainingRange.normalized segment).Fits range := by
  cases hproto : fromProto range with
  | error e =>
      rw [update, hproto] at h
      cases h
  | ok got =>
      obtain ⟨hoffset, hlength⟩ := fromProto_ok hproto
      rw [update, fromProto_eq hoffset hlength] at h
      simp only [bind, Except.bind] at h
      split at h
      · cases h
      case isFalse heq =>
        split at h
        · cases h
        case h_2 length hupdate =>
          refine ⟨hoffset, hlength, ?_, updateLength_ok hupdate⟩
          intro p hp
          cases hp
          rw [not_not.mp heq]

namespace RemainingRange

variable {state : RemainingRange} {range : ProtoRange} {updated : NormalizedRange}

/-! The first response decides where a requested range is. -/

theorem toInt_limit {l : UInt64} :
    (min l Int64.maxValue.toUInt64).toInt64.toInt = min (l.toNat : ℤ) (2 ^ 63 - 1) := by
  have hmax : Int64.maxValue.toUInt64.toNat = 2 ^ 63 - 1 := rfl
  have hmin : min l Int64.maxValue.toUInt64 =
      if l ≤ Int64.maxValue.toUInt64 then l else Int64.maxValue.toUInt64 := rfl
  rw [hmin]
  split
  case isTrue hle =>
    rw [UInt64.le_iff_toNat_le, hmax] at hle
    rw [toInt_toInt64 (by omega)]
    omega
  case isFalse hgt =>
    rw [UInt64.le_iff_toNat_le, hmax] at hgt
    rw [toInt_toInt64 (by omega), hmax]
    omega

/-- The check of the first response against a limit. -/
theorem not_long_iff {length : Int64} {l : UInt64} (hlength : 0 ≤ length) :
    ¬ length.toUInt64 > l ↔
      (length ≠ 0 → length ≤ (min l Int64.maxValue.toUInt64).toInt64) := by
  have hlt := Int64.toInt_lt length
  rw [Int64.le_iff_toInt_le, Int64.toInt_zero] at hlength
  have hunsigned := toNat_toUInt64 hlength
  rw [gt_iff_lt, UInt64.lt_iff_toNat_lt, Int64.le_iff_toInt_le, toInt_limit, ne_eq,
    ← Int64.toInt_inj, Int64.toInt_zero]
  omega

theorem normalize_eq {r : RequestedRange} (h : (requested r).Fits range) :
    normalize r range = .ok { offset := range.readOffset, length := (requested r).limit } := by
  have hnew : NormalizedRange.new range.readOffset =
      .ok { offset := range.readOffset, length := none } := by
    rw [NormalizedRange.new, if_neg (Int64.not_lt.mpr h.offset)]
  cases r with
  | offset o =>
      have hoffset : range.readOffset.toUInt64 = o := h.position o rfl
      simp [normalize, hoffset, hnew, limit]
  | tail count => simp [normalize, hnew, limit]
  | segment o l =>
      have hoffset : range.readOffset.toUInt64 = o := h.position o rfl
      by_cases hzero : l = 0
      · simp [normalize, hoffset, hnew, hzero, limit]
      · have hlong : ¬ (range.readLength.toUInt64 > l ∧ l ≠ 0) := by
          rintro ⟨hgt, -⟩
          have hlimit := h.limit (min l Int64.maxValue.toUInt64).toInt64 (by simp [limit, hzero])
          exact (not_long_iff h.length).mpr hlimit hgt
        have hpos : ¬ (min l Int64.maxValue.toUInt64).toInt64 < 0 := by
          rw [Int64.lt_iff_toInt_lt, toInt_limit, Int64.toInt_zero]
          omega
        rw [normalize, if_neg hlong, if_neg (not_not.mpr hoffset), if_neg hzero, hnew, limit,
          if_neg hzero]
        simp only [bind, Except.bind, NormalizedRange.withLength, if_neg hpos]

theorem update_eq (h : state.Fits range) : state.update range = .ok (state.rest range) := by
  cases state with
  | normalized segment => exact NormalizedRange.update_eq h
  | requested r =>
      have hsegment : (normalized ⟨range.readOffset, (requested r).limit⟩).Fits range :=
        ⟨h.offset, h.length, by simp [position], h.limit⟩
      rw [update, normalize_eq h]
      exact NormalizedRange.update_eq hsegment

theorem position_of_normalize {r : RequestedRange} (h : normalize r range = .ok updated) :
    ∀ p ∈ (requested r).position, range.readOffset.toUInt64 = p := by
  intro p hp
  cases r with
  | tail count => cases hp
  | offset o =>
      cases hp
      rw [normalize] at h
      split at h
      · cases h
      case isFalse heq => exact not_not.mp heq
  | segment o l =>
      cases hp
      rw [normalize] at h
      split at h
      · cases h
      · split at h
        · cases h
        case isFalse heq => exact not_not.mp heq

theorem limit_of_normalize {r : RequestedRange} (hlength : 0 ≤ range.readLength)
    (h : normalize r range = .ok updated) :
    ∀ l ∈ (requested r).limit, range.readLength ≠ 0 → range.readLength ≤ l := by
  intro l hl
  cases r with
  | tail count => cases hl
  | offset o => cases hl
  | segment o limit =>
      rw [RemainingRange.limit] at hl
      split at hl
      · cases hl
      case isFalse hzero =>
        cases hl
        rw [normalize] at h
        split at h
        · cases h
        case isFalse hlong =>
          exact (not_long_iff hlength).mp fun hgt => hlong ⟨hgt, hzero⟩

/-- A read accepts only responses that fit. -/
theorem fits_of_update (h : state.update range = .ok updated) : state.Fits range := by
  cases state with
  | normalized segment => exact NormalizedRange.fits_of_update h
  | requested r =>
      rw [update] at h
      cases hnormalize : normalize r range with
      | error e =>
          rw [hnormalize] at h
          cases h
      | ok segment =>
          rw [hnormalize] at h
          have hfits := NormalizedRange.fits_of_update h
          exact ⟨hfits.offset, hfits.length, position_of_normalize hnormalize,
            limit_of_normalize hfits.length hnormalize⟩

end RemainingRange

/-! ## Data -/

namespace ActiveRead

variable {crc32c : Bytes → UInt32} {active : ActiveRead} {data : Option ChecksummedData}
  {range : ProtoRange} {rangeEnd : Bool}

/-- The data of a response: a checksum is the one of the content, and the last response comes
without data only if nothing remains. -/
def DataFits (crc32c : Bytes → UInt32) (state : RemainingRange) (range : ProtoRange)
    (rangeEnd : Bool) : Option ChecksummedData → Prop
  | none => rangeEnd = true → ∀ l ∈ (state.rest range).length, l ≤ 0
  | some data => ∀ want ∈ data.crc32c, want = crc32c data.content

/-- The handler for a response that is accepted. -/
def handler (active : ActiveRead) : Option ChecksummedData → Handler
  | none => .noData
  | some data => .send active.sender data.content

theorem handleData_eq (h : active.state.Fits range)
    (hdata : DataFits crc32c active.state range rangeEnd data) :
    active.handleData crc32c data range rangeEnd =
      ({ active with state := .normalized (active.state.rest range) },
        .ok (active.handler data)) := by
  rw [handleData, RemainingRange.update_eq h]
  cases data with
  | none =>
      cases rangeEnd with
      | false => rfl
      | true =>
          simp only [NormalizedRange.handleEmpty]
          cases hlength : (active.state.rest range).length with
          | none => rfl
          | some l => simp [Int64.not_lt.mpr (hdata rfl l hlength), Except.map, handler]
  | some data =>
      obtain ⟨content, _ | want⟩ := data
      · rfl
      · simp [show want = crc32c content from hdata want rfl, handler]

theorem handleData_fits {handled : Handler}
    (h : (active.handleData crc32c data range rangeEnd).2 = .ok handled) :
    active.state.Fits range ∧ DataFits crc32c active.state range rangeEnd data := by
  rw [handleData] at h
  split at h
  · cases h
  case h_2 updated hupdate =>
    have hfits := RemainingRange.fits_of_update hupdate
    refine ⟨hfits, ?_⟩
    rw [RemainingRange.update_eq hfits] at hupdate
    cases hupdate
    cases data with
    | none =>
        rintro rfl l hl
        simp only [NormalizedRange.handleEmpty, Option.mem_def.mp hl] at h
        by_contra hgt
        rw [if_pos (Int64.not_le.mp hgt)] at h
        cases h
    | some data =>
        obtain ⟨content, checksum⟩ := data
        rintro want rfl
        by_contra hne
        simp only [if_pos hne] at h
        cases h

/-- The sender never changes. -/
theorem handleData_sender (active : ActiveRead) :
    (active.handleData crc32c data range rangeEnd).1.sender = active.sender := by
  rw [handleData]
  split <;> rfl

end ActiveRead

end GoogleCloudRust.Bidi
