import GoogleCloudRust.Verification.BidiRead.Service

/-! # Where the messages of a read end

A read that is sent the bytes of an answer ends in the same way whatever messages carry them, if
the bytes are not more than it asks for and a message without data ends them when they are
fewer. -/

namespace GoogleCloudRust.Bidi

open Signed

/-! ## Messages for one read -/

/-- The bytes that a handler delivers. -/
def Handler.bytes : Handler → Bytes
  | .noData => []
  | .send _ data => data

/-- The messages for one read, up to the first error: the bytes it delivers, and how it ends. -/
def ActiveRead.handleMessages (crc32c : Bytes → UInt32) (active : ActiveRead) :
    List ObjectRangeData → Bytes × Except ReadError Unit
  | [] => ([], .ok ())
  | message :: messages =>
      match message.readRange with
      | none => ([], .error (.invalidBidiStreamingReadResponse "missing range"))
      | some range =>
          match active.handleData crc32c message.checksummedData range message.rangeEnd with
          | (_, .error e) => ([], .error e)
          | (active, .ok handler) =>
              let (delivered, result) := active.handleMessages crc32c messages
              (handler.bytes ++ delivered, result)

/-- The messages carry the bytes of an answer, and the last of them is the end. -/
inductive Answer.Encodes (crc32c : Bytes → UInt32) : Answer → List ObjectRangeData → Prop
  | last {answer range message} (hrange : message.readRange = some range)
      (hsends : answer.Sends crc32c range message) (hend : message.rangeEnd = true) :
      Encodes crc32c answer [message]
  | next {answer range message messages} (hrange : message.readRange = some range)
      (hsends : answer.Sends crc32c range message) (hend : message.rangeEnd = false)
      (hrest : Encodes crc32c
        { position := answer.position + message.content.length
          rest := answer.rest.drop message.content.length } messages) :
      Encodes crc32c answer (message :: messages)

/-- The end comes in a message of its own. -/
def EndsWithoutData (messages : List ObjectRangeData) : Prop :=
  ∀ last ∈ messages.getLast?, last.checksummedData = none

variable {crc32c : Bytes → UInt32} {answer : Answer} {message : ObjectRangeData}
  {messages : List ObjectRangeData} {range : ProtoRange} {state : RemainingRange}
  {active : ActiveRead} {l : Int64}

theorem EndsWithoutData.tail (h : EndsWithoutData (message :: messages)) :
    EndsWithoutData messages := by
  intro last hlast
  apply h
  rw [Option.mem_def] at hlast
  simp [List.getLast?_cons, hlast]

theorem Answer.Encodes.position_lt (h : answer.Encodes crc32c messages) :
    (answer.position : ℤ) < 2 ^ 63 := by
  cases h with
  | last _ hsends _ =>
      rw [← hsends.offset]
      exact Int64.toInt_lt _
  | next _ hsends _ _ =>
      rw [← hsends.offset]
      exact Int64.toInt_lt _

/-! ## One message -/

namespace RemainingRange

/-- The read is where the answer is, and what remains of it is not negative. -/
structure Reads (state : RemainingRange) (answer : Answer) : Prop where
  position : ∀ p ∈ state.position, p.toNat = answer.position
  limit : ∀ l ∈ state.limit, 0 ≤ l.toInt

theorem reads_requested {r : RequestedRange}
    (hposition : ∀ p ∈ (requested r).position, p.toNat = answer.position) :
    (requested r).Reads answer := by
  refine ⟨hposition, ?_⟩
  intro l hl
  cases r with
  | offset o => cases hl
  | tail count => cases hl
  | segment o limit =>
      rw [RemainingRange.limit] at hl
      split_ifs at hl with hzero
      · cases hl
      · obtain rfl := Option.some.inj hl
        rw [toInt_limit]
        omega

theorem Reads.toUInt64_position (h : state.Reads answer)
    (hsends : answer.Sends crc32c range message) :
    ∀ p ∈ state.position, range.readOffset.toUInt64 = p := by
  intro p hp
  have hoffset := hsends.offset
  have hunsigned := toNat_toUInt64 (a := range.readOffset) (by omega)
  have hp := h.position p hp
  exact UInt64.toNat_inj.mp (by omega)

/-- The message is not longer than what remains. -/
theorem Reads.fits (h : state.Reads answer) (hsends : answer.Sends crc32c range message)
    (hwithin : ∀ l ∈ state.limit, message.content.length ≤ l.toInt) : state.Fits range := by
  have hoffset := hsends.offset
  have hlength := hsends.length
  refine ⟨?_, ?_, h.toUInt64_position hsends, ?_⟩
  · rw [Int64.le_iff_toInt_le, Int64.toInt_zero]
    omega
  · rw [Int64.le_iff_toInt_le, Int64.toInt_zero]
    omega
  · intro l hl _
    rw [Int64.le_iff_toInt_le, hlength]
    exact hwithin l hl

theorem toInt_sub_readLength (hsends : answer.Sends crc32c range message)
    (hwithin : message.content.length ≤ l.toInt) :
    (l - range.readLength).toInt = l.toInt - message.content.length := by
  have hlt := Int64.toInt_lt l
  have hlength := hsends.length
  rw [Signed.toInt_sub (by omega) (by omega), hlength]

theorem reads_rest (hsends : answer.Sends crc32c range message)
    (hwithin : ∀ l ∈ state.limit, message.content.length ≤ l.toInt)
    (hposition : ((answer.position + message.content.length : ℕ) : ℤ) < 2 ^ 63) :
    (normalized (state.rest range)).Reads
      { position := answer.position + message.content.length
        rest := answer.rest.drop message.content.length } := by
  have hoffset := hsends.offset
  have hlength := hsends.length
  refine ⟨?_, ?_⟩
  · intro p hp
    cases hp
    have hsum : (range.readOffset + range.readLength).toInt =
        range.readOffset.toInt + range.readLength.toInt :=
      toInt_add (by omega) (by omega)
    have hunsigned := toNat_toUInt64 (a := range.readOffset + range.readLength) (by omega)
    rw [RemainingRange.rest]
    dsimp only
    omega
  · intro l hl
    obtain ⟨old, hold, rfl⟩ := Option.map_eq_some_iff.mp hl
    have hle := hwithin old hold
    rw [toInt_sub_readLength hsends hle]
    omega

/-- The message is longer than what remains. -/
theorem Reads.update_long (h : state.Reads answer) (hsends : answer.Sends crc32c range message)
    (hl : state.limit = some l) (hlong : l.toInt < message.content.length) :
    state.update range = .error (.longRead range.readLength.toUInt64 l.toUInt64) := by
  have hoffset : 0 ≤ range.readOffset := by
    rw [Int64.le_iff_toInt_le, Int64.toInt_zero, hsends.offset]
    omega
  have hlength := hsends.length
  have hlimit := h.limit l hl
  have hposition := h.toUInt64_position hsends
  cases state with
  | requested r =>
      cases r with
      | offset o => cases hl
      | tail count => cases hl
      | segment o limit =>
          rw [RemainingRange.limit] at hl
          split_ifs at hl with hzero
          cases hl
          rw [toInt_limit] at hlong
          have hlt := Int64.toInt_lt range.readLength
          have hunsigned := toNat_toUInt64 (a := range.readLength) (by omega)
          have hclamped : (min limit Int64.maxValue.toUInt64).toInt64.toUInt64 = limit := by
            have hmin := toNat_toUInt64 (a := (min limit Int64.maxValue.toUInt64).toInt64)
              (by rw [toInt_limit]; omega)
            rw [toInt_limit] at hmin
            exact UInt64.toNat_inj.mp (by omega)
          have hgt : range.readLength.toUInt64 > limit ∧ limit ≠ 0 := by
            refine ⟨?_, hzero⟩
            rw [gt_iff_lt, UInt64.lt_iff_toNat_lt]
            omega
          rw [hclamped, update, normalize, if_pos hgt]
          rfl
  | normalized segment =>
      have hsegment : range.readOffset = segment.offset :=
        Int64.toBitVec_inj.mp (UInt64.toBitVec_inj.mpr (hposition _ rfl))
      have hzero : range.readLength ≠ 0 := by
        rintro hzero
        rw [hzero, Int64.toInt_zero] at hlength
        omega
      have hpos : 0 ≤ range.readLength := by
        rw [Int64.le_iff_toInt_le, Int64.toInt_zero, hlength]
        omega
      have hgt : ¬ range.readLength ≤ l := by
        rw [Int64.le_iff_toInt_le, hlength]
        omega
      have hsome : segment.length = some l := hl
      rw [update, NormalizedRange.update, NormalizedRange.fromProto_eq hoffset hpos]
      simp only [bind, Except.bind, hsegment, ne_eq, not_true_eq_false, if_false, hsome,
        if_neg hzero, NormalizedRange.updateLength, if_neg hgt]

end RemainingRange

/-! ## All messages -/

open RemainingRange

/-- How much is missing after a number of bytes, where this is known. -/
def missing (limit : Option Int64) (length : ℕ) : Option ℤ := limit.map fun l => l.toInt - length

/-- How a read ends when the end comes without data. -/
def shortEnd (missing : Option ℤ) : Except ReadError Unit :=
  match missing with
  | none => .ok ()
  | some n => if 0 < n then .error (.shortRead (UInt64.ofNat n.toNat)) else .ok ()

theorem shortEnd_eq_ok {missing : Option ℤ} : shortEnd missing = .ok () ↔ ∀ n ∈ missing, n ≤ 0 := by
  cases missing with
  | none => simp [shortEnd]
  | some n =>
      by_cases hn : 0 < n
      · simp [shortEnd, hn]
      · simp [shortEnd, hn, Int.not_lt.mp hn]

theorem missing_rest (hsends : answer.Sends crc32c range message)
    (hwithin : ∀ l ∈ state.limit, message.content.length ≤ l.toInt) (length : ℕ) :
    missing (normalized (state.rest range)).limit length =
      missing state.limit (message.content.length + length) := by
  have hlimit : (normalized (state.rest range)).limit =
      state.limit.map fun l => l - range.readLength := rfl
  rw [hlimit, missing, missing, Option.map_map]
  apply Option.map_congr
  intro l hl
  have hsub := toInt_sub_readLength hsends (hwithin l hl)
  simp only [Function.comp_apply, hsub]
  omega

/-- `handle_empty` at the end. -/
theorem handleEmpty_end {segment : NormalizedRange} (h : ∀ l ∈ segment.length, 0 ≤ l.toInt) :
    segment.handleEmpty true = shortEnd (missing segment.length 0) := by
  cases hlength : segment.length with
  | none => simp [NormalizedRange.handleEmpty, missing, shortEnd, hlength]
  | some l =>
      have hunsigned := toNat_toUInt64 (a := l) (h l hlength)
      have heq : l.toUInt64 = UInt64.ofNat l.toInt.toNat := by
        rw [← hunsigned, Int.toNat_natCast, UInt64.ofNat_toNat]
      simp [NormalizedRange.handleEmpty, missing, shortEnd, hlength, Int64.lt_iff_toInt_lt, heq]

theorem handleMessages_cons (hrange : message.readRange = some range) {handler : Handler}
    {updated : ActiveRead}
    (hdata : active.handleData crc32c message.checksummedData range message.rangeEnd =
      (updated, .ok handler)) :
    active.handleMessages crc32c (message :: messages) =
      (handler.bytes ++ (updated.handleMessages crc32c messages).1,
        (updated.handleMessages crc32c messages).2) := by
  rw [ActiveRead.handleMessages, hrange]
  dsimp only
  rw [hdata]

theorem bytes_handler : (active.handler message.checksummedData).bytes = message.content := by
  unfold ObjectRangeData.content ActiveRead.handler
  cases message.checksummedData with
  | none => rfl
  | some data => rfl

/-- The data of a message is accepted, if nothing is missing at an end without data. -/
theorem dataFits_of_sends (hsends : answer.Sends crc32c range message)
    (hwithin : ∀ l ∈ state.limit, message.content.length ≤ l.toInt)
    (hend : message.rangeEnd = true →
      shortEnd (missing state.limit message.content.length) = .ok ()) :
    ActiveRead.DataFits crc32c state range message.rangeEnd message.checksummedData := by
  have hchecksum := hsends.checksum
  cases hdata : message.checksummedData with
  | some data => exact hchecksum data hdata
  | none =>
      intro hlast l hl
      have hmissing := missing_rest hsends hwithin 0
      have hle := shortEnd_eq_ok.mp (hend hlast)
      rw [← Nat.add_zero message.content.length, ← hmissing] at hle
      have hl := hle _ (Option.mem_map_of_mem (fun l : Int64 => l.toInt - (0 : ℕ)) hl)
      rw [Int64.le_iff_toInt_le, Int64.toInt_zero]
      simpa using hl

/-- The last message. -/
theorem handleMessages_last (h : active.state.Reads answer)
    (hrange : message.readRange = some range) (hsends : answer.Sends crc32c range message)
    (hlast : message.rangeEnd = true)
    (hwithin : ∀ l ∈ active.state.limit, message.content.length ≤ l.toInt)
    (hend : shortEnd (missing active.state.limit message.content.length) = .ok () ∨
      message.checksummedData = none) :
    active.handleMessages crc32c [message] =
      (message.content, shortEnd (missing active.state.limit message.content.length)) := by
  have hfits := h.fits hsends hwithin
  have hmissing := missing_rest hsends hwithin 0
  rw [Nat.add_zero] at hmissing
  by_cases hshort : shortEnd (missing active.state.limit message.content.length) = .ok ()
  · have hdata := dataFits_of_sends hsends hwithin fun _ => hshort
    rw [handleMessages_cons hrange (ActiveRead.handleData_eq hfits hdata), bytes_handler, hshort]
    simp [ActiveRead.handleMessages]
  · have hnone := hend.resolve_left hshort
    have hcontent : message.content = [] := by rw [ObjectRangeData.content, hnone]
    have hrest : ∀ l ∈ (active.state.rest range).length, 0 ≤ l.toInt := by
      intro l hl
      obtain ⟨old, hold, rfl⟩ := Option.map_eq_some_iff.mp hl
      have hle := hwithin old hold
      rw [toInt_sub_readLength hsends hle]
      omega
    have hempty := handleEmpty_end hrest
    rw [show (active.state.rest range).length = (normalized (active.state.rest range)).limit
      from rfl, hmissing] at hempty
    obtain ⟨e, he⟩ : ∃ e, shortEnd (missing active.state.limit message.content.length) =
        .error e := by
      cases hresult : shortEnd (missing active.state.limit message.content.length) with
      | error e => exact ⟨e, rfl⟩
      | ok _ => exact absurd hresult hshort
    rw [he] at hempty
    rw [ActiveRead.handleMessages, hrange, he, hcontent]
    simp only [ActiveRead.handleData, update_eq hfits, hnone, hlast, hempty, Except.map]

/-- The read after a message that is not longer than what remains. -/
def ActiveRead.advance (active : ActiveRead) (range : ProtoRange) : ActiveRead :=
  { active with state := .normalized (active.state.rest range) }

/-- A message that is not the last, and not longer than what remains. -/
theorem handleMessages_next (h : active.state.Reads answer)
    (hrange : message.readRange = some range) (hsends : answer.Sends crc32c range message)
    (hnot : message.rangeEnd = false)
    (hwithin : ∀ l ∈ active.state.limit, message.content.length ≤ l.toInt) :
    active.handleMessages crc32c (message :: messages) =
      (message.content ++ ((active.advance range).handleMessages crc32c messages).1,
        ((active.advance range).handleMessages crc32c messages).2) := by
  have hdata := dataFits_of_sends hsends hwithin fun hlast => by
    rw [hnot] at hlast
    cases hlast
  rw [handleMessages_cons hrange (ActiveRead.handleData_eq (h.fits hsends hwithin) hdata),
    bytes_handler]
  rfl

theorem length_rest (hsends : answer.Sends crc32c range message) :
    message.content ++ answer.rest.drop message.content.length = answer.rest ∧
      message.content.length + (answer.rest.drop message.content.length).length =
        answer.rest.length := by
  obtain ⟨rest, hsplit⟩ := hsends.content
  rw [← hsplit, List.drop_left, List.length_append]
  exact ⟨rfl, rfl⟩

/-- The messages carry no more than remains. -/
theorem handleMessages_within (h : active.state.Reads answer)
    (hencodes : answer.Encodes crc32c messages)
    (hwithin : ∀ l ∈ active.state.limit, answer.rest.length ≤ l.toInt)
    (hend : shortEnd (missing active.state.limit answer.rest.length) = .ok () ∨
      EndsWithoutData messages) :
    active.handleMessages crc32c messages =
      (answer.rest, shortEnd (missing active.state.limit answer.rest.length)) := by
  induction hencodes generalizing active with
  | @last answer range message hrange hsends hlast =>
      rw [← hsends.last hlast] at hwithin hend ⊢
      refine handleMessages_last h hrange hsends hlast hwithin (hend.imp_right ?_)
      intro hempty
      exact hempty message rfl
  | @next answer range message messages hrange hsends hnot hrest ih =>
      obtain ⟨hsplit, hlength⟩ := length_rest hsends
      have hfirst : ∀ l ∈ active.state.limit, message.content.length ≤ l.toInt := by
        intro l hl
        have hle := hwithin l hl
        omega
      have hreads := reads_rest hsends hfirst (by exact_mod_cast hrest.position_lt)
      have hremains : ∀ l ∈ (active.advance range).state.limit,
          (answer.rest.drop message.content.length).length ≤ l.toInt := by
        intro l hl
        obtain ⟨old, hold, rfl⟩ := Option.map_eq_some_iff.mp hl
        have hle := hwithin old hold
        rw [toInt_sub_readLength hsends (hfirst old hold)]
        omega
      have hmissing := missing_rest hsends hfirst (answer.rest.drop message.content.length).length
      rw [hlength] at hmissing
      rw [← hmissing] at hend ⊢
      rw [handleMessages_next h hrange hsends hnot hfirst,
        @ih (active.advance range) hreads hremains (hend.imp_right EndsWithoutData.tail), hsplit]
      rfl

/-- What happens to a read that is sent more than remains of it. -/
structure Overruns (state : RemainingRange) (answer : Answer)
    (outcome : Bytes × Except ReadError Unit) : Prop where
  result : ∃ got expected, outcome.2 = .error (.longRead got expected)
  delivered : outcome.1 <+: answer.rest
  limit : ∀ l ∈ state.limit, outcome.1.length ≤ l.toInt

theorem handleMessages_long (h : active.state.Reads answer)
    (hrange : message.readRange = some range) (hsends : answer.Sends crc32c range message)
    (hlong : ∃ l ∈ active.state.limit, l.toInt < message.content.length) :
    Overruns active.state answer (active.handleMessages crc32c (message :: messages)) := by
  obtain ⟨l, hl, hlong⟩ := hlong
  have houtcome : active.handleMessages crc32c (message :: messages) =
      ([], .error (.longRead range.readLength.toUInt64 l.toUInt64)) := by
    rw [ActiveRead.handleMessages, hrange]
    simp only [ActiveRead.handleData, h.update_long hsends hl hlong]
  rw [houtcome]
  refine ⟨⟨_, _, rfl⟩, List.nil_prefix, ?_⟩
  intro l hl
  have hlimit := h.limit l hl
  simpa using hlimit

/-- The messages carry more than remains. -/
theorem handleMessages_over (h : active.state.Reads answer)
    (hencodes : answer.Encodes crc32c messages)
    (hover : ∃ l ∈ active.state.limit, l.toInt < answer.rest.length) :
    Overruns active.state answer (active.handleMessages crc32c messages) := by
  induction hencodes generalizing active with
  | @last answer range message hrange hsends hlast =>
      rw [← hsends.last hlast] at hover
      exact handleMessages_long h hrange hsends hover
  | @next answer range message messages hrange hsends hnot hrest ih =>
      by_cases hlong : ∃ l ∈ active.state.limit, l.toInt < message.content.length
      · exact handleMessages_long h hrange hsends hlong
      · have hfirst : ∀ l ∈ active.state.limit, message.content.length ≤ l.toInt := by
          intro l hl
          by_contra hgt
          exact hlong ⟨l, hl, Int.not_le.mp hgt⟩
        obtain ⟨hsplit, hlength⟩ := length_rest hsends
        have hreads := reads_rest hsends hfirst (by exact_mod_cast hrest.position_lt)
        rw [handleMessages_next h hrange hsends hnot hfirst]
        obtain ⟨l, hl, hlt⟩ := hover
        have hafter : l - range.readLength ∈ (active.advance range).state.limit :=
          Option.mem_map_of_mem (fun l => l - range.readLength) hl
        have hsub := toInt_sub_readLength hsends (hfirst l hl)
        obtain ⟨hresult, hdelivered, hlimit⟩ := @ih (active.advance range) hreads
          ⟨_, hafter, by rw [hsub]; dsimp only; omega⟩
        refine ⟨hresult, ?_, ?_⟩
        · rw [← hsplit]
          exact (List.prefix_append_right_inj _).mpr hdelivered
        · intro other hother
          obtain rfl := Option.mem_unique hl hother
          have hle := hlimit _ hafter
          rw [hsub] at hle
          rw [List.length_append]
          push_cast
          omega

/-- Two sequences of messages for one range that carry the same bytes. The bytes are no more than
the range has: they are delivered, and both end in the same way. They are more: both fail. -/
theorem handleMessages_boundaries (crc32c : Bytes → UInt32) (requestedRange : RequestedRange)
    (sender : ℕ) (answer : Answer)
    (hposition : ∀ p ∈ (requested requestedRange).position, p.toNat = answer.position)
    (first second : List ObjectRangeData) (hfirst : answer.Encodes crc32c first)
    (hsecond : answer.Encodes crc32c second) :
    ((∀ l ∈ (requested requestedRange).limit, answer.rest.length ≤ l.toInt) →
      ((∃ l ∈ (requested requestedRange).limit, answer.rest.length < l.toInt) →
        EndsWithoutData first ∧ EndsWithoutData second) →
      (ActiveRead.new sender requestedRange).handleMessages crc32c first =
          (answer.rest, shortEnd (missing (requested requestedRange).limit answer.rest.length)) ∧
        (ActiveRead.new sender requestedRange).handleMessages crc32c second =
          (ActiveRead.new sender requestedRange).handleMessages crc32c first) ∧
    ((∃ l ∈ (requested requestedRange).limit, l.toInt < answer.rest.length) →
      Overruns (requested requestedRange) answer
          ((ActiveRead.new sender requestedRange).handleMessages crc32c first) ∧
        Overruns (requested requestedRange) answer
          ((ActiveRead.new sender requestedRange).handleMessages crc32c second)) := by
  have hreads : (ActiveRead.new sender requestedRange).state.Reads answer :=
    reads_requested hposition
  refine ⟨?_, ?_⟩
  · intro hwithin hshort
    have hend : shortEnd (missing (requested requestedRange).limit answer.rest.length) = .ok () ∨
        EndsWithoutData first ∧ EndsWithoutData second := by
      by_cases hless : ∃ l ∈ (requested requestedRange).limit, answer.rest.length < l.toInt
      · exact .inr (hshort hless)
      · refine .inl (shortEnd_eq_ok.mpr ?_)
        intro n hn
        obtain ⟨l, hl, rfl⟩ := Option.map_eq_some_iff.mp hn
        by_contra hpos
        exact hless ⟨l, hl, by omega⟩
    have hone := handleMessages_within hreads hfirst hwithin (hend.imp_right And.left)
    have htwo := handleMessages_within hreads hsecond hwithin (hend.imp_right And.right)
    exact ⟨hone, htwo.trans hone.symm⟩
  · intro hover
    exact ⟨handleMessages_over hreads hfirst hover, handleMessages_over hreads hsecond hover⟩

/-- A message of a service that sends no checksums. -/
def plainMessage (offset : Int64) (content : Option Bytes) (rangeEnd : Bool) : ObjectRangeData where
  checksummedData := content.map fun content => { content }
  readRange := some
    { readId := 0, readOffset := offset, readLength := Int64.ofNat (content.getD []).length }
  rangeEnd

theorem handleMessages_boundaries_two :
    ((ActiveRead.new 0 (.segment 1 4)).handleMessages (fun _ => 0)
        [plainMessage 1 (some [7, 8]) false, plainMessage 3 none true] =
      ([7, 8], shortEnd (missing (some 4) 2))) ∧
    ((ActiveRead.new 0 (.segment 1 4)).handleMessages (fun _ => 0)
        [plainMessage 1 (some [7]) false, plainMessage 2 (some [8]) false,
          plainMessage 3 none true] =
      (ActiveRead.new 0 (.segment 1 4)).handleMessages (fun _ => 0)
        [plainMessage 1 (some [7, 8]) false, plainMessage 3 none true]) := by
  have hone : Answer.Encodes (fun _ => 0) ⟨1, [7, 8]⟩
      [plainMessage 1 (some [7, 8]) false, plainMessage 3 none true] :=
    .next rfl (by decide) rfl (.last rfl (by decide) rfl)
  have htwo : Answer.Encodes (fun _ => 0) ⟨1, [7, 8]⟩
      [plainMessage 1 (some [7]) false, plainMessage 2 (some [8]) false,
        plainMessage 3 none true] :=
    .next rfl (by decide) rfl (.next rfl (by decide) rfl (.last rfl (by decide) rfl))
  have hend : ∀ last : ObjectRangeData, last ∈ some (plainMessage 3 none true) →
      last.checksummedData = none := by
    intro last hlast
    cases hlast
    rfl
  have hposition : ∀ p ∈ (requested (.segment 1 4)).position, p.toNat = 1 := by
    intro p hp
    cases hp
    rfl
  have hwithin : ∀ l ∈ (requested (.segment 1 4)).limit, (2 : ℤ) ≤ l.toInt := by
    intro l hl
    rw [show (requested (.segment 1 4)).limit = some 4 from rfl] at hl
    cases hl
    decide
  exact (handleMessages_boundaries (fun _ => 0) (.segment 1 4) 0 ⟨1, [7, 8]⟩ hposition _ _ hone
    htwo).1 hwithin fun _ => ⟨hend, hend⟩

/-- With the end on the data the missing bytes are not noticed; and how much is delivered of too
many bytes depends on where the messages end. -/
theorem boundaries_matter :
    (∃ first second, Answer.Encodes (fun _ => 0) ⟨1, [7, 8]⟩ first ∧
      Answer.Encodes (fun _ => 0) ⟨1, [7, 8]⟩ second ∧
      (ActiveRead.new 0 (.segment 1 4)).handleMessages (fun _ => 0) first = ([7, 8], .ok ()) ∧
      (ActiveRead.new 0 (.segment 1 4)).handleMessages (fun _ => 0) second =
        ([7, 8], .error (.shortRead 2))) ∧
    ∃ first second, Answer.Encodes (fun _ => 0) ⟨1, [7, 8]⟩ first ∧
      Answer.Encodes (fun _ => 0) ⟨1, [7, 8]⟩ second ∧
      (ActiveRead.new 0 (.segment 1 1)).handleMessages (fun _ => 0) first =
        ([7], .error (.longRead 1 0)) ∧
      (ActiveRead.new 0 (.segment 1 1)).handleMessages (fun _ => 0) second =
        ([], .error (.longRead 2 1)) := by
  have hwhole : Answer.Encodes (fun _ => 0) ⟨1, [7, 8]⟩ [plainMessage 1 (some [7, 8]) true] :=
    .last rfl (by decide) rfl
  have happart : Answer.Encodes (fun _ => 0) ⟨1, [7, 8]⟩
      [plainMessage 1 (some [7, 8]) false, plainMessage 3 none true] :=
    .next rfl (by decide) rfl (.last rfl (by decide) rfl)
  have hsplit : Answer.Encodes (fun _ => 0) ⟨1, [7, 8]⟩
      [plainMessage 1 (some [7]) false, plainMessage 2 (some [8]) true] :=
    .next rfl (by decide) rfl (.last rfl (by decide) rfl)
  exact ⟨⟨_, _, hwhole, happart, rfl, rfl⟩, _, _, hsplit, hwhole, rfl, rfl⟩

end GoogleCloudRust.Bidi
