import GoogleCloudRust.Library.Interleaving
import GoogleCloudRust.Verification.PerformUpload.Transfer

/-! # The bytes that the progress of an upload holds

What was persisted, what is in the buffer, what is in the remainder and what the source has still
to yield are the content, until a persisted size cuts a chunk off its middle or the source fails
behind some bytes. -/

namespace GoogleCloudRust.PerformUpload

open Storage Interleaving InProgressUpload

variable {digests : Digests} {content : Bytes} {progress : InProgressUpload}
  {payload : ChecksummedSource}

/-- The content is what was persisted, the buffer, the remainder and the unread part, in this
order. -/
structure Conserves (content : Bytes) (progress : InProgressUpload) (payload : ChecksummedSource) :
    Prop where
  offset_le : progress.offset ≤ content.length
  bytes : content = content.take progress.offset ++
    (progress.buffer.flatten ++ (progress.remainder.flatten ++ payload.source.bytes))

theorem conserves_iff : Conserves content progress payload ↔
    progress.offset ≤ content.length ∧ content.drop progress.offset =
      progress.buffer.flatten ++ (progress.remainder.flatten ++ payload.source.bytes) := by
  constructor
  · intro h
    refine ⟨h.offset_le, ?_⟩
    have hbytes := (List.take_append_drop progress.offset content).trans h.bytes
    exact List.append_cancel_left hbytes
  · intro h
    refine ⟨h.1, ?_⟩
    rw [← h.2, List.take_append_drop]

theorem conserves_length (h : Conserves content progress payload) :
    content.length = progress.offset + (progress.buffer.flatten.length +
      (progress.remainder.flatten.length + payload.source.bytes.length)) := by
  obtain ⟨hle, hbytes⟩ := conserves_iff.mp h
  have hlength := congrArg List.length hbytes
  simp only [List.length_drop, List.length_append] at hlength
  omega

/-! ## A persisted size -/

/-- An accepted size keeps the bytes, if it cuts the buffer cleanly and only then. -/
theorem conserves_handlePartial_iff (h : Conserves content progress payload)
    (hsize : progress.bufferSize = progress.buffer.flatten.length) {persistedSize : ℕ}
    {progress' : InProgressUpload} (hok : progress.handlePartial persistedSize = .ok progress') :
    Conserves content progress' payload ↔
      cutsCleanly (persistedSize - progress.offset) progress.buffer = true := by
  obtain ⟨hle, hbytes⟩ := conserves_iff.mp h
  unfold handlePartial at hok
  split at hok
  case isTrue => cases hok
  case isFalse hge =>
    split at hok
    case isFalse => cases hok
    case isTrue hupper =>
      cases hok
      have hskip : persistedSize - progress.offset ≤ progress.buffer.flatten.length := by
        rw [← hsize]
        omega
      have hdrop : content.drop persistedSize =
          progress.buffer.flatten.drop (persistedSize - progress.offset) ++
            (progress.remainder.flatten ++ payload.source.bytes) := by
        rw [← List.drop_append_of_le_length hskip, ← hbytes, List.drop_drop]
        congr 1
        omega
      have hlength := conserves_length h
      rw [← flatten_unpersisted_iff, conserves_iff, hdrop]
      dsimp only
      rw [List.flatten_append, List.flatten_nil, List.nil_append, List.append_assoc,
        List.append_left_inj]
      constructor
      · intro hkept
        exact hkept.2.symm
      · intro hkept
        exact ⟨by omega, hkept.symm⟩

/-! ## Runs of calls -/

inductive Call
  | nextBuffer
  | handlePartial (persistedSize : ℕ)
  | handleError
deriving DecidableEq, Repr

/-- The progress and its source; `isFilled` after a buffer was filled, until a size is accepted. -/
structure Filling where
  progress : InProgressUpload
  payload : ChecksummedSource
  isFilled : Bool := false

namespace Filling

/-- An upload at its start, of a source that yields some chunks. -/
def start (checksum : Checksum ℕ) (targetSize : ℕ) (hint : Option ℕ) (chunks : List Bytes) :
    Filling where
  progress := .new targetSize hint
  payload := { checksum, source := chunks.map .ok }

def handle (digests : Digests) (filling : Filling) : Call → Filling
  | .nextBuffer =>
      let (progress, payload, _) := filling.progress.nextBuffer digests filling.payload
      { progress, payload, isFilled := true }
  | .handlePartial persistedSize =>
      match filling.progress.handlePartial persistedSize with
      | .ok progress => { filling with progress, isFilled := false }
      | .error _ => filling
  | .handleError => { filling with progress := filling.progress.handleError }

def run (digests : Digests) (filling : Filling) (calls : List Call) : Filling :=
  calls.foldl (handle digests) filling

/-- The upload loop accepts a size between two buffers. -/
def InOrder (filling : Filling) (call : Call) : Prop :=
  call = .nextBuffer → filling.isFilled = false

/-- An accepted size falls between two chunks of the buffer, or in the middle of one. -/
def CutsCleanly (filling : Filling) : Call → Prop
  | .handlePartial persistedSize =>
      filling.progress.offset ≤ persistedSize →
        persistedSize ≤ filling.progress.offset + filling.progress.bufferSize →
          cutsCleanly (persistedSize - filling.progress.offset) filling.progress.buffer = true
  | _ => True

instance (filling : Filling) (call : Call) : Decidable (filling.InOrder call) :=
  inferInstanceAs (Decidable (_ → _))

instance CutsCleanly.decidable (filling : Filling) : ∀ call, Decidable (filling.CutsCleanly call)
  | .handlePartial _ => inferInstanceAs (Decidable (_ → _ → _))
  | .nextBuffer | .handleError => inferInstanceAs (Decidable True)

/-- The bytes are where they belong, a buffer is short only at the end of the source, and a size
that is not accepted changes nothing. -/
structure Conserved (content : Bytes) (digests : Digests) (filling : Filling) : Prop where
  conserves : Conserves content filling.progress filling.payload
  filled : filling.isFilled = true →
    filling.progress.bufferSize = filling.progress.buffer.flatten.length ∧
      filling.progress.bufferSize ≤ filling.progress.targetSize ∧
      (filling.progress.bufferSize < filling.progress.targetSize →
        filling.progress.sourceEnded = true ∧ filling.payload.source.bytes = [])
  rejected : ∀ persistedSize, persistedSize < filling.progress.offset ∨
    filling.progress.offset + filling.progress.bufferSize < persistedSize →
      (∃ error, filling.progress.handlePartial persistedSize = .error error) ∧
        filling.handle digests (.handlePartial persistedSize) = filling

/-- What the calls preserve. -/
structure Sound (content : Bytes) (filling : Filling) : Prop where
  conserves : Conserves content filling.progress filling.payload
  size : filling.progress.bufferSize = filling.progress.buffer.flatten.length
  empty : filling.isFilled = false → filling.progress.buffer.flatten = []
  target : 0 < filling.progress.targetSize
  intact : filling.payload.source.Intact
  short : filling.isFilled = true →
    filling.progress.bufferSize = filling.progress.targetSize ∨
      filling.progress.bufferSize < filling.progress.targetSize ∧
        filling.progress.sourceEnded = true ∧ filling.progress.remainder.flatten = [] ∧
        filling.payload.source.bytes = []
  ended : filling.progress.sourceEnded = true → filling.payload.source.bytes = [] ∧
    filling.progress.buffer.flatten.length + filling.progress.remainder.flatten.length <
      filling.progress.targetSize

variable {filling : Filling}

theorem sound_start (checksum : Checksum ℕ) (targetSize : ℕ) (hint : Option ℕ)
    (chunks : List Bytes) :
    (start checksum targetSize hint chunks).Sound chunks.flatten where
  conserves := conserves_iff.mpr ⟨Nat.zero_le _, (Stream.bytes_ok chunks).symm⟩
  size := rfl
  empty := fun _ => rfl
  target := Nat.lt_of_lt_of_le (by decide) (le_max_right _ resumableUploadQuantum)
  intact := Stream.intact_ok chunks
  short := fun h => (nomatch h)
  ended := fun h => (nomatch h)

theorem Sound.nextBuffer (h : filling.Sound content) (hempty : filling.isFilled = false) :
    (filling.handle digests .nextBuffer).Sound content := by
  obtain ⟨progress', payload', hnext, hfilled⟩ := nextBuffer_filled digests h.target h.intact
  obtain ⟨hle, hbytes⟩ := conserves_iff.mp h.conserves
  rw [h.empty hempty, List.nil_append] at hbytes
  simp only [handle, hnext]
  refine ⟨conserves_iff.mpr ⟨?_, ?_⟩, hfilled.size, ?_, ?_, hfilled.intact, ?_, ?_⟩
  · rw [hfilled.offset]
    exact hle
  · rw [hfilled.offset, hbytes, hfilled.bytes]
  · intro hnot
    cases hnot
  · rw [hfilled.targetSize]
    exact h.target
  · intro _
    rw [hfilled.targetSize]
    rcases hfilled.shape with ⟨hfull, -⟩ | ⟨hlt, hremainder, hsource, hended⟩
    · exact .inl hfull
    · refine .inr ⟨hlt, hended, ?_, hsource⟩
      rw [hremainder, List.flatten_nil]
  · intro hended
    rcases hfilled.shape with ⟨hfull, hsame⟩ | ⟨hshort, hremainder, hsource, -⟩
    · -- A source that had ended has not enough left for a full buffer.
      obtain ⟨hsource, hlt⟩ := h.ended (hsame ▸ hended)
      have hlength := congrArg List.length hfilled.bytes
      simp only [List.length_append, hsource, List.length_nil, ← hfilled.size] at hlength
      omega
    · refine ⟨hsource, ?_⟩
      rw [hremainder, ← hfilled.size, hfilled.targetSize]
      simpa using hshort

theorem handlePartial_of_accepted {persistedSize : ℕ} {progress' : InProgressUpload}
    (h : progress.handlePartial persistedSize = .ok progress') :
    progress.offset ≤ persistedSize ∧ persistedSize ≤ progress.offset + progress.bufferSize ∧
      progress'.offset = persistedSize ∧ progress'.buffer = [] ∧ progress'.bufferSize = 0 ∧
      progress'.targetSize = progress.targetSize ∧
      progress'.sourceEnded = progress.sourceEnded ∧ progress'.hint = progress.hint := by
  unfold InProgressUpload.handlePartial at h
  split at h
  case isTrue => cases h
  case isFalse hge =>
    split at h
    case isFalse => cases h
    case isTrue hupper =>
      cases h
      exact ⟨Nat.le_of_not_lt hge, hupper, rfl, rfl, rfl, rfl, rfl, rfl⟩

theorem Sound.handlePartial (h : filling.Sound content) {persistedSize : ℕ}
    (hcuts : filling.CutsCleanly (.handlePartial persistedSize)) :
    (filling.handle digests (.handlePartial persistedSize)).Sound content := by
  rw [handle]
  split
  case h_1 progress' hok =>
    obtain ⟨hge, hle, hoffset, hbuffer, hsize, htarget, hended, -⟩ := handlePartial_of_accepted hok
    have hconserves := (conserves_handlePartial_iff h.conserves h.size hok).mpr (hcuts hge hle)
    refine ⟨hconserves, ?_, ?_, ?_, h.intact, ?_, ?_⟩
    · rw [hsize, hbuffer]
      rfl
    · intro _
      rw [hbuffer]
      rfl
    · rw [htarget]
      exact h.target
    · intro hnot
      cases hnot
    · intro hended'
      obtain ⟨hsource, hlt⟩ := h.ended (hended ▸ hended')
      have hbefore := conserves_length h.conserves
      have hafter := conserves_length hconserves
      refine ⟨hsource, ?_⟩
      dsimp only at hafter ⊢
      rw [hbuffer, htarget]
      rw [hbuffer] at hafter
      simp only [List.flatten_nil, List.length_nil] at hafter ⊢
      omega
  case h_2 => exact h

theorem Sound.handle (h : filling.Sound content) {call : Call} (horder : filling.InOrder call)
    (hcuts : filling.CutsCleanly call) : (filling.handle digests call).Sound content := by
  cases call with
  | nextBuffer => exact h.nextBuffer (horder rfl)
  | handlePartial persistedSize => exact h.handlePartial hcuts
  | handleError =>
      exact ⟨⟨h.conserves.offset_le, h.conserves.bytes⟩, h.size, h.empty, h.target, h.intact, h.short,
        h.ended⟩

theorem Sound.conserved (h : filling.Sound content) (digests : Digests) :
    filling.Conserved content digests := by
  refine ⟨h.conserves, ?_, ?_⟩
  · intro hfilled
    rcases h.short hfilled with hfull | ⟨hlt, hended⟩
    · exact ⟨h.size, hfull.le, fun hlt => absurd hfull hlt.ne⟩
    · exact ⟨h.size, hlt.le, fun _ => ⟨hended.1, hended.2.2⟩⟩
  · intro persistedSize hout
    have herror : ∃ error, filling.progress.handlePartial persistedSize = .error error := by
      unfold InProgressUpload.handlePartial
      rcases hout with hrewind | hprogress
      · exact ⟨_, if_pos hrewind⟩
      · refine ⟨_, (if_neg ?_).trans (if_neg ?_)⟩
        · omega
        · omega
    obtain ⟨error, herror⟩ := herror
    refine ⟨⟨error, herror⟩, ?_⟩
    rw [Filling.handle, herror]

theorem bytes_conserved (digests : Digests) (checksum : Checksum ℕ) (targetSize : ℕ)
    (hint : Option ℕ) (chunks : List Bytes) (calls : List Call)
    (hcalls : Along (handle digests) (fun filling call =>
      filling.InOrder call ∧ filling.CutsCleanly call)
      (start checksum targetSize hint chunks) calls) :
    ((start checksum targetSize hint chunks).run digests calls).Conserved chunks.flatten
      digests := by
  have hsound : ((start checksum targetSize hint chunks).run digests calls).Sound chunks.flatten :=
    along_invariant (motive := fun filling => filling.Sound chunks.flatten)
      (fun _ _ hcall h => h.handle hcall.1 hcall.2)
      (sound_start checksum targetSize hint chunks) hcalls
  exact hsound.conserved digests

/-- A size in the middle of the only chunk. -/
theorem bytes_conserved_middle :
    ((start {} 0 none [[1, 2, 3, 4]]).run ⟨fun crc _ => crc, fun _ => rfl, fun _ _ _ => rfl,
        fun _ => []⟩ [.nextBuffer, .handlePartial 2, .handleError, .nextBuffer]).Conserved
      [1, 2, 3, 4] ⟨fun crc _ => crc, fun _ => rfl, fun _ _ _ => rfl, fun _ => []⟩ :=
  bytes_conserved ⟨fun crc _ => crc, fun _ => rfl, fun _ _ _ => rfl, fun _ => []⟩ {} 0 none
    [[1, 2, 3, 4]] [.nextBuffer, .handlePartial 2, .handleError, .nextBuffer] (by decide)

/-- Of a chunk of four bytes with three persisted the last three are kept. -/
theorem keeps_from_the_end : ¬ ∀ (digests : Digests) (checksum : Checksum ℕ) (targetSize : ℕ)
    (hint : Option ℕ) (chunks : List Bytes) (calls : List Call),
    Along (handle digests) InOrder (start checksum targetSize hint chunks) calls →
      ((start checksum targetSize hint chunks).run digests calls).Conserved chunks.flatten
        digests := by
  intro h
  have hconserved := (h ⟨fun crc _ => crc, fun _ => rfl, fun _ _ _ => rfl, fun _ => []⟩ {} 0 none
    [[1, 2, 3, 4]] [.nextBuffer, .handlePartial 3] (by decide)).conserves.bytes
  revert hconserved
  decide

end Filling

/-! ## A source that fails -/

/-- What the source yields before its first error. -/
def Stream.beforeError (stream : Stream) : Bytes := Stream.bytes (stream.takeWhile (·.isOk))

theorem fillFromSource_error {targetSize size : ℕ} {buffer : List Bytes} {stream : Stream}
    {payload payload' : ChecksummedSource} {e : String}
    (h : fillFromSource digests targetSize payload buffer size stream = (payload', .error e)) :
    stream.bytes = stream.beforeError ++ payload'.source.bytes := by
  induction stream generalizing payload buffer size with
  | nil => cases h
  | cons item stream ih =>
      cases item with
      | error text =>
          cases h
          rfl
      | ok b =>
          rw [fillFromSource] at h
          split at h
          case h_1 => cases h
          case h_2 =>
            have hrest := ih h
            have hbytes : Stream.bytes (.ok b :: stream) = b ++ Stream.bytes stream := rfl
            have hbefore : Stream.beforeError (.ok b :: stream) =
                b ++ Stream.beforeError stream := rfl
            rw [hbytes, hbefore, hrest, List.append_assoc]

theorem nextBuffer_error {progress' : InProgressUpload} {payload' : ChecksummedSource} {e : String}
    (h : progress.nextBuffer digests payload = (progress', payload', .error e)) :
    progress' = { progress with remainder := [] } ∧
      payload.source.bytes = payload.source.beforeError ++ payload'.source.bytes := by
  unfold InProgressUpload.nextBuffer at h
  split at h
  case h_1 => cases h
  case h_2 buffer size _ =>
    split at h
    case h_1 payload'' e' hsource =>
      cases h
      exact ⟨rfl, fillFromSource_error hsource⟩
    case h_2 => cases h
    case h_3 => cases h

/-- After an error the bytes are all there if none of them had been taken, and only then. -/
theorem kept_after_error_iff {progress' : InProgressUpload} {payload' : ChecksummedSource}
    {e : String} (h : Conserves content progress payload)
    (herror : progress.nextBuffer digests payload = (progress', payload', .error e)) :
    Conserves content progress' payload' ↔
      progress.remainder.flatten = [] ∧ payload.source.beforeError = [] := by
  obtain ⟨rfl, hsource⟩ := nextBuffer_error herror
  obtain ⟨hle, hbytes⟩ := conserves_iff.mp h
  rw [conserves_iff]
  dsimp only
  rw [hbytes, hsource, List.flatten_nil, List.nil_append, List.append_right_inj]
  constructor
  · intro hkept
    have hlength := congrArg List.length hkept.2
    simp only [List.length_append] at hlength
    exact ⟨List.eq_nil_of_length_eq_zero (by omega), List.eq_nil_of_length_eq_zero (by omega)⟩
  · rintro ⟨hremainder, hbefore⟩
    rw [hremainder, hbefore]
    exact ⟨hle, rfl⟩

/-- A buffer of one byte, before a source that fails at once and then yields a byte, and a
remainder of one byte before the same source: the byte of the remainder is lost. -/
theorem kept_after_error_or_lost :
    let buffered : InProgressUpload :=
      { InProgressUpload.new 0 none with offset := 1, buffer := [[2]], bufferSize := 1 }
    let left : InProgressUpload :=
      { InProgressUpload.new 0 none with offset := 1, remainder := [[2]] }
    let after : ChecksummedSource := { checksum := {}, source := [.ok [3]] }
    let stream : Stream := [.error "lost", .ok [3]]
    (Conserves [1, 2, 3] buffered after ↔
        buffered.remainder.flatten = [] ∧ stream.beforeError = []) ∧
      (Conserves [1, 2, 3] { left with remainder := [] } after ↔
        left.remainder.flatten = [] ∧ stream.beforeError = []) := by
  intro buffered left after stream
  let digests : Digests := ⟨fun crc _ => crc, fun _ => rfl, fun _ _ _ => rfl, fun _ => []⟩
  have hbuffered : Conserves [1, 2, 3] buffered { checksum := {}, source := stream } :=
    conserves_iff.mpr ⟨by decide, rfl⟩
  have hleft : Conserves [1, 2, 3] left { checksum := {}, source := stream } :=
    conserves_iff.mpr ⟨by decide, rfl⟩
  have hkept : buffered.nextBuffer digests { checksum := {}, source := stream } =
      (buffered, after, .error "lost") := rfl
  have hlost : left.nextBuffer digests { checksum := {}, source := stream } =
      ({ left with remainder := [] }, after, .error "lost") := rfl
  exact ⟨kept_after_error_iff hbuffered hkept, kept_after_error_iff hleft hlost⟩

/-- The bytes that were read before the error are in no field. -/
theorem lost_before_error : ¬ ∀ (digests : Digests) (content : Bytes)
    (progress progress' : InProgressUpload) (payload payload' : ChecksummedSource) (e : String),
    Conserves content progress payload →
      progress.nextBuffer digests payload = (progress', payload', .error e) →
        Conserves content progress' payload' := by
  intro h
  have hconserves := (h ⟨fun crc _ => crc, fun _ => rfl, fun _ _ _ => rfl, fun _ => []⟩ [1]
    (.new 0 none) _ { checksum := {}, source := [.ok [1], .error "lost"] } _ "lost"
    (conserves_iff.mpr ⟨Nat.zero_le _, rfl⟩) rfl).bytes
  revert hconserves
  decide

end GoogleCloudRust.PerformUpload
