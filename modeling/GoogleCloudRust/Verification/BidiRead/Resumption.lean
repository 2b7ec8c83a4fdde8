import GoogleCloudRust.Verification.BidiRead.Service

/-! # Resumed reads

After every response the state of a read tells which bytes of its range are missing, and a
reconnection asks for these, unless none is missing: the length zero stands for no limit. -/

namespace GoogleCloudRust.Bidi

open Signed

/-! ## Slices of an object -/

theorem drop_slice (content : Bytes) (start count : ℕ) (limit : Option ℕ) :
    (slice content start limit).drop count =
      slice content (start + count) (limit.map fun n => n - count) := by
  cases limit with
  | none => simp [slice, List.drop_drop]
  | some n => simp [slice, List.drop_take, List.drop_drop]

namespace Object

variable (object : Object) (range : RequestedRange)

theorem length_requested_le :
    (object.requested range).length ≤ object.content.length - range.start object := by
  rw [requested]
  cases range.count with
  | none => simp [slice]
  | some n => simp [slice]

theorem length_requested_le_count {n : ℕ} (h : range.count = some n) :
    (object.requested range).length ≤ n := by
  simp [requested, h, slice]

end Object

/-! ## Requests -/

theorem ProtoRange.start_of_nonneg (object : Object) {range : ProtoRange} {n : ℕ}
    (h : range.readOffset.toInt = n) : range.start object = n := by
  have hnonneg : ¬ range.readOffset < 0 := by
    rw [Int64.lt_iff_toInt_lt, Int64.toInt_zero]
    omega
  rw [start, if_neg hnonneg, h]
  rfl

theorem ProtoRange.count_of_nonneg {range : ProtoRange} {n : ℕ}
    (h : range.readLength.toInt = n) : range.count = if n = 0 then none else some n := by
  have hzero : range.readLength = 0 ↔ n = 0 := by
    rw [← Int64.toInt_inj, h, Int64.toInt_zero]
    omega
  simp only [count, hzero, h, Int.toNat_natCast]

namespace RequestedRange

variable {range : RequestedRange} (object : Object) (id : ℤ)

theorem start_asProto (h : range.Representable) :
    (range.asProto id).start object = range.start object := by
  cases range with
  | offset o => exact ProtoRange.start_of_nonneg object (toInt_toInt64 h)
  | segment o limit => exact ProtoRange.start_of_nonneg object (toInt_toInt64 h.1)
  | tail n =>
      have htoInt : n.toInt64.toInt = n.toNat := toInt_toInt64 h
      have hneg : (-n.toInt64).toInt = -n.toNat := by
        rw [toInt_neg (by omega), htoInt]
      by_cases hzero : n = 0
      · rw [start, if_pos hzero]
        refine ProtoRange.start_of_nonneg object (hneg.trans ?_)
        rw [hzero]
        rfl
      · have hpos : n.toNat ≠ 0 := fun hnat => hzero (UInt64.toNat_inj.mp hnat)
        have hlt : -n.toInt64 < 0 := by
          rw [Int64.lt_iff_toInt_lt, hneg, Int64.toInt_zero]
          omega
        simp only [asProto, ProtoRange.start, start, if_pos hlt, if_neg hzero, hneg]
        omega

theorem count_asProto (h : range.Representable) : (range.asProto id).count = range.count := by
  cases range with
  | offset o => rfl
  | tail n => rfl
  | segment o limit =>
      have hlimit : ((segment o limit).asProto id).readLength.toInt = limit.toNat :=
        toInt_toInt64 h.2
      rw [ProtoRange.count_of_nonneg hlimit, count]
      simp only [← UInt64.toNat_inj, UInt64.toNat_zero]

end RequestedRange

/-! ## The state of a read -/

/-- The state of a read when some bytes of its range were delivered. -/
def RemainingRange.Holds (object : Object) (range : RequestedRange) (delivered : Bytes) :
    RemainingRange → Prop
  | .requested r => r = range ∧ delivered = []
  | .normalized s => s.offset.toInt = range.start object + delivered.length ∧
      s.length.map Int64.toInt = range.count.map fun n : ℕ => (n : ℤ) - delivered.length

/-- The read and the service agree on what is missing. -/
structure Tracks (object : Object) (range : RequestedRange) (delivered : Bytes)
    (state : RemainingRange) (answer : Answer) : Prop where
  representable : range.Representable
  rest : delivered ++ answer.rest = object.requested range
  position : answer.position = range.start object + delivered.length
  holds : state.Holds object range delivered

namespace Tracks

variable {object : Object} {range : RequestedRange} {delivered : Bytes} {state : RemainingRange}
  {answer : Answer} {crc32c : Bytes → UInt32} {proto : ProtoRange} {response : ObjectRangeData}

theorem position_add_le (h : Tracks object range delivered state answer) :
    answer.rest = [] ∨ answer.position + answer.rest.length ≤ object.content.length := by
  have hlength := congrArg List.length h.rest
  have hle := object.length_requested_le range
  rw [List.length_append] at hlength
  by_cases hrest : answer.rest = []
  · exact .inl hrest
  · have hpos := List.length_pos_iff.mpr hrest
    rw [h.position]
    omega

theorem rest_le_count (h : Tracks object range delivered state answer) {n : ℕ}
    (hcount : range.count = some n) : delivered.length + answer.rest.length ≤ n := by
  have hlength := congrArg List.length h.rest
  have hle := object.length_requested_le_count range hcount
  rw [List.length_append] at hlength
  omega

/-- What remains of a bounded range, as the read has it. -/
theorem limit_eq (h : Tracks object range delivered state answer) :
    state.limit.map Int64.toInt =
      range.count.map fun n : ℕ => (n : ℤ) - delivered.length := by
  cases state with
  | normalized s => exact h.holds.2
  | requested r =>
      obtain ⟨rfl, rfl⟩ := h.holds
      cases r with
      | offset o => rfl
      | tail count => rfl
      | segment o limit =>
          have hlt := h.representable.2
          rw [RemainingRange.limit, RequestedRange.count]
          split
          · rfl
          · simp only [Option.map_some, RemainingRange.toInt_limit, List.length_nil,
              Option.some.injEq]
            omega

theorem toInt_limit (h : Tracks object range delivered state answer) {l : Int64}
    (hlimit : state.limit = some l) :
    ∃ n, range.count = some n ∧ l.toInt = (n : ℤ) - delivered.length := by
  have heq := h.limit_eq
  rw [hlimit, Option.map_some] at heq
  obtain ⟨n, hcount, htoInt⟩ := Option.map_eq_some_iff.mp heq.symm
  exact ⟨n, hcount, htoInt.symm⟩

theorem toUInt64_position (h : Tracks object range delivered state answer)
    (hsends : answer.Sends crc32c proto response) {p : UInt64} (hp : state.position = some p) :
    proto.readOffset.toUInt64 = p := by
  have hoffset := hsends.offset
  rw [h.position] at hoffset
  cases state with
  | requested r =>
      obtain ⟨rfl, rfl⟩ := h.holds
      have hunsigned := toNat_toUInt64 (a := proto.readOffset) (by omega)
      rw [hoffset, List.length_nil, Nat.add_zero, Int.natCast_inj] at hunsigned
      cases r with
      | tail count => cases hp
      | offset o | segment o limit =>
          cases hp
          exact UInt64.toNat_inj.mp hunsigned
  | normalized s =>
      cases hp
      rw [Int64.toInt_inj.mp (hoffset.trans (by rw [h.holds.1]; push_cast; rfl))]

theorem fits (h : Tracks object range delivered state answer)
    (hsends : answer.Sends crc32c proto response) : state.Fits proto := by
  have hoffset : 0 ≤ proto.readOffset.toInt := by
    rw [hsends.offset]
    omega
  refine ⟨?_, ?_, fun p hp => ?_, fun l hl _ => ?_⟩
  · rw [Int64.le_iff_toInt_le, Int64.toInt_zero]
    exact hoffset
  · rw [Int64.le_iff_toInt_le, Int64.toInt_zero, hsends.length]
    omega
  · exact h.toUInt64_position hsends hp
  · obtain ⟨n, hcount, hlimit⟩ := h.toInt_limit hl
    have hle := h.rest_le_count hcount
    have hcontent := hsends.content.length_le
    rw [Int64.le_iff_toInt_le, hsends.length, hlimit]
    omega

/-- The next bytes are delivered. -/
theorem advance (h : Tracks object range delivered state answer)
    (hsends : answer.Sends crc32c proto response) :
    Tracks object range (delivered ++ response.content) (.normalized (state.rest proto))
      { position := answer.position + response.content.length
        rest := answer.rest.drop response.content.length } := by
  obtain ⟨rest, hrest⟩ := hsends.content
  have hoffset := hsends.offset
  have hlength := hsends.length
  refine ⟨h.representable, ?_, ?_, ?_, ?_⟩
  · rw [← hrest, List.drop_left, List.append_assoc, hrest, h.rest]
  · rw [List.length_append, h.position, Nat.add_assoc]
  · have hsum : proto.readOffset.toInt + proto.readLength.toInt < 2 ^ 63 := by
      rcases h.position_add_le with hnil | hle
      · rw [hnil] at hrest
        have hlt := Int64.toInt_lt proto.readOffset
        rw [hlength, (List.append_eq_nil_iff.mp hrest).1]
        simpa using hlt
      · have hsize := object.size_lt
        have hcontent := hsends.content.length_le
        omega
    simp only [RemainingRange.rest]
    rw [toInt_add (by omega) hsum, hoffset, hlength, h.position, List.length_append]
    push_cast
    omega
  · simp only [RemainingRange.rest]
    cases hlimit : state.limit with
    | none =>
        have heq := h.limit_eq
        rw [hlimit, Option.map_none] at heq
        rw [Option.map_eq_none_iff.mp heq.symm]
        rfl
    | some l =>
        obtain ⟨n, hcount, htoInt⟩ := h.toInt_limit hlimit
        have hle := h.rest_le_count hcount
        have hcontent := hsends.content.length_le
        have hsub : (l - proto.readLength).toInt = l.toInt - proto.readLength.toInt :=
          toInt_sub (by omega) (by have := Int64.toInt_lt l; omega)
        simp only [Option.map_some, hcount, hsub, htoInt, hlength, List.length_append,
          Option.some.injEq]
        omega

theorem start_asProto (h : Tracks object range delivered state answer) (id : ℤ) :
    (state.asProto id).start object = range.start object + delivered.length := by
  cases state with
  | requested r =>
      obtain ⟨rfl, rfl⟩ := h.holds
      exact RequestedRange.start_asProto object id h.representable
  | normalized s => exact ProtoRange.start_of_nonneg object (by exact_mod_cast h.holds.1)

/-- A length of zero is sent when nothing remains, as when there is no limit. -/
theorem count_asProto (h : Tracks object range delivered state answer) (id : ℤ) :
    (state.asProto id).count =
      if range.count = some delivered.length then none
      else range.count.map fun n => n - delivered.length := by
  cases state with
  | requested r =>
      obtain ⟨rfl, rfl⟩ := h.holds
      have hne : r.count ≠ some 0 := by
        cases r with
        | offset o => simp [RequestedRange.count]
        | tail n => simp [RequestedRange.count]
        | segment o limit =>
            rw [RequestedRange.count]
            split
            · simp
            case isFalse hzero => simpa [← UInt64.toNat_inj] using hzero
      simp [RemainingRange.asProto, RequestedRange.count_asProto id h.representable, hne]
  | normalized s =>
      have hlength := h.holds.2
      cases hcount : range.count with
      | none =>
          rw [hcount, Option.map_none, Option.map_eq_none_iff] at hlength
          simp [RemainingRange.asProto, NormalizedRange.asProto, hlength, ProtoRange.count]
      | some n =>
          have hle := h.rest_le_count hcount
          rw [hcount, Option.map_some] at hlength
          obtain ⟨l, hl, htoInt⟩ := Option.map_eq_some_iff.mp hlength
          have hread : ((RemainingRange.normalized s).asProto id).readLength.toInt =
              ((n - delivered.length : ℕ) : ℤ) := by
            simp only [RemainingRange.asProto, NormalizedRange.asProto, hl, Option.getD_some]
            omega
          rw [ProtoRange.count_of_nonneg hread]
          by_cases heq : n = delivered.length
          · simp [heq]
          · rw [if_neg (by omega), if_neg (by simpa using heq), Option.map_some]

/-- A reconnection asks for the missing bytes, unless the limit is reached before the end of the
object. -/
theorem denoted_asProto_iff (h : Tracks object range delivered state answer) (id : ℤ) :
    object.denoted (state.asProto id) = (object.requested range).drop delivered.length ↔
      ¬ (range.count = some delivered.length ∧
        range.start object + delivered.length < object.content.length) := by
  rw [Object.denoted, h.start_asProto, h.count_asProto, Object.requested, drop_slice]
  by_cases hcount : range.count = some delivered.length
  · simp [hcount, slice]
  · simp [hcount]

/-- The service begins again with the missing bytes. -/
theorem resume (h : Tracks object range delivered state answer) (id : ℤ)
    (hlimit : ¬ (range.count = some delivered.length ∧
      range.start object + delivered.length < object.content.length)) :
    Tracks object range delivered state (object.answer (state.asProto id)) := by
  refine ⟨h.representable, ?_, h.start_asProto id, h.holds⟩
  rw [Object.answer, (h.denoted_asProto_iff id).mpr hlimit, ← h.rest, List.drop_left]

end Tracks

end GoogleCloudRust.Bidi
