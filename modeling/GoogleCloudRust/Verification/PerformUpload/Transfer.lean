import GoogleCloudRust.Library.Interleaving
import GoogleCloudRust.Verification.PerformUpload.Service

/-! # The bytes a buffered upload transfers

Between two requests the bytes from the offset on are in the buffer, in the remainder and in what
the source has still to yield, in this order. Nothing else is sent as long as the progress hears of
every request that carried bytes and lengths cut the buffer cleanly. -/

namespace GoogleCloudRust.PerformUpload

open Storage Interleaving InProgressUpload

variable {digests : Digests} {content : Bytes} {progress : InProgressUpload}
  {payload : ChecksummedSource}

/-! ## What is kept of a buffer -/

theorem unpersisted_zero (buffer : List Bytes) : unpersisted 0 buffer = buffer := by
  induction buffer with
  | nil => rfl
  | cons b buffer ih => simp [unpersisted, ih]

/-- Exactly the bytes that were not persisted are kept, if the cut is clean and only then. -/
theorem flatten_unpersisted_iff (skip : ℕ) (buffer : List Bytes) :
    (unpersisted skip buffer).flatten = buffer.flatten.drop skip ↔
      cutsCleanly skip buffer = true := by
  induction buffer generalizing skip with
  | nil => simp [unpersisted, cutsCleanly]
  | cons b buffer ih =>
    unfold unpersisted cutsCleanly
    rw [List.flatten_cons, List.drop_append]
    split
    case isTrue hzero => simp [hzero, unpersisted_zero]
    case isFalse hpos =>
      split
      case isTrue hle =>
        rw [List.drop_eq_nil_of_le hle, List.nil_append]
        exact ih (skip - b.length)
      case isFalse hgt =>
        have hrest : skip - b.length = 0 := by omega
        rw [hrest, List.drop_zero, unpersisted_zero, List.flatten_cons, List.append_left_inj,
          decide_eq_true_eq]
        constructor
        · intro h
          have hlength := congrArg List.length h
          rw [List.length_drop, List.length_drop] at hlength
          omega
        · intro h
          congr 1
          omega

/-! ## Where the bytes are -/

structure Aligned (content : Bytes) (progress : InProgressUpload) (payload : ChecksummedSource) :
    Prop where
  offset_le : progress.offset ≤ content.length
  rest : content.drop progress.offset =
    progress.buffer.flatten ++ (progress.remainder.flatten ++ payload.source.bytes)
  size : progress.bufferSize = progress.buffer.flatten.length
  ended : progress.sourceEnded = true → payload.source.bytes = [] ∧
    progress.buffer.flatten.length + progress.remainder.flatten.length < progress.targetSize
  hint : ∀ size ∈ progress.hint, size = content.length
  /-- One byte is never reported as persisted. -/
  offset_ne : progress.offset ≠ 1
  target : 0 < progress.targetSize
  intact : payload.source.Intact
  persisted : ∀ size ∈ progress.persistedSize, size = progress.offset

/-- The service holds what the client takes it to hold, or one byte that is taken for none. -/
def Known (offset length : ℕ) : Prop := length = offset ∨ offset = 0 ∧ length = 1

/-- The service may have persisted a part of the buffer. -/
def Between (progress : InProgressUpload) (length : ℕ) : Prop :=
  progress.offset ≤ length ∧ length ≤ progress.offset + progress.bufferSize ∨
    progress.offset = 0 ∧ length = 1

theorem Known.between {length : ℕ} (h : Known progress.offset length) :
    Between progress length := by
  rcases h with rfl | h
  · exact .inl ⟨Nat.le_refl _, Nat.le_add_right _ _⟩
  · exact .inr h

theorem Aligned.length_eq (h : Aligned content progress payload) :
    content.length = progress.offset + progress.bufferSize +
      (progress.remainder.flatten.length + payload.source.bytes.length) := by
  have hlength := congrArg List.length h.rest
  have hle := h.offset_le
  rw [List.length_drop, List.length_append, List.length_append, ← h.size] at hlength
  omega

/-- What an attempt awaits, and what the service holds then. -/
def Expects (upload : BufferedUpload) (length : ℕ) : Prop :=
  match upload.phase with
  | .querying _ =>
      upload.progress.persistedSize = none ∧ Between upload.progress length
  | .putting _ range _ body =>
      upload.progress.persistedSize = some upload.progress.offset ∧
        Known upload.progress.offset length ∧ range = upload.progress.rangeHeader ∧
        body = upload.progress.buffer.flatten ∧
        (upload.progress.bufferSize = upload.progress.targetSize ∨
          upload.progress.remainder = [] ∧ upload.payload.source.bytes = [])
  | _ =>
      upload.progress.persistedSize = none ∧ Between upload.progress length ∨
        upload.progress.persistedSize = some upload.progress.offset ∧
          upload.progress.buffer.flatten = [] ∧ Known upload.progress.offset length

/-- Where an upload is that is not finalized. -/
structure Placed (content : Bytes) (upload : BufferedUpload) (length : ℕ) : Prop where
  aligned : Aligned content upload.progress upload.payload
  expects : Expects upload length

/-! ## One iteration of the loop -/

theorem Filled.aligned {progress' : InProgressUpload} {payload' : ChecksummedSource}
    (hfilled : Filled progress payload progress' payload')
    (h : Aligned content progress payload) (hempty : progress.buffer.flatten = []) :
    Aligned content progress' payload' where
  offset_le := hfilled.offset ▸ h.offset_le
  rest := by rw [hfilled.offset, h.rest, hempty, List.nil_append, hfilled.bytes]
  size := hfilled.size
  ended := by
    intro hended
    rcases hfilled.shape with ⟨hfull, hsame⟩ | ⟨hshort, hremainder, hsource, -⟩
    · -- A source that had ended has not enough left for a full buffer.
      obtain ⟨hsource, hlt⟩ := h.ended (hsame ▸ hended)
      have hlength := congrArg List.length hfilled.bytes
      simp only [List.length_append, hsource, List.length_nil, ← hfilled.size] at hlength
      omega
    · refine ⟨hsource, ?_⟩
      rw [hremainder, ← hfilled.size, hfilled.targetSize]
      simpa using hshort
  hint := hfilled.hint ▸ h.hint
  offset_ne := hfilled.offset ▸ h.offset_ne
  target := hfilled.targetSize ▸ h.target
  intact := hfilled.intact
  persisted := by
    rw [hfilled.persistedSize, hfilled.offset]
    exact h.persisted

theorem placed_put {upload : BufferedUpload} {length : ℕ}
    (h : Aligned content upload.progress upload.payload)
    (hempty : upload.progress.buffer.flatten = [])
    (hpersisted : upload.progress.persistedSize = some upload.progress.offset)
    (hknown : Known upload.progress.offset length) (shouldSendChecksum : Bool) :
    Placed content (upload.put digests shouldSendChecksum) length := by
  obtain ⟨progress', payload', hnext, hfilled⟩ := nextBuffer_filled digests h.target h.intact
  rw [BufferedUpload.put, hnext]
  refine ⟨hfilled.aligned h hempty, ?_, ?_, rfl, rfl, ?_⟩
  · rw [hfilled.persistedSize, hfilled.offset]
    exact hpersisted
  · rw [hfilled.offset]
    exact hknown
  · rcases hfilled.shape with ⟨hfull, -⟩ | ⟨-, hremainder, hsource, -⟩
    · exact .inl (hfilled.targetSize ▸ hfull)
    · exact .inr ⟨hremainder, hsource⟩

theorem placed_located {upload : BufferedUpload} {length : ℕ}
    (h : Aligned content upload.progress upload.payload)
    (hexpects : upload.progress.persistedSize = none ∧ Between upload.progress length ∨
      upload.progress.persistedSize = some upload.progress.offset ∧
        upload.progress.buffer.flatten = [] ∧ Known upload.progress.offset length)
    (isResume : Bool) : Placed content (upload.located digests isResume) length := by
  rcases hexpects with ⟨hnone, hbetween⟩ | ⟨hsome, hempty, hknown⟩
  · have hquery : upload.progress.needsQuery = true := by simp [needsQuery, hnone]
    rw [BufferedUpload.located, if_pos hquery]
    exact ⟨h, hnone, hbetween⟩
  · have hquery : ¬upload.progress.needsQuery = true := by simp [needsQuery, hsome]
    rw [BufferedUpload.located, if_neg hquery]
    exact placed_put h hempty hsome hknown _

/-! ## A reported length -/

theorem handlePartial_reported {length : ℕ} (h : Aligned content progress payload)
    (hbetween : Between progress length)
    (hcuts : cutsCleanly (reportedSize length - progress.offset) progress.buffer = true) :
    ∃ progress', progress.handlePartial (reportedSize length) = .ok progress' ∧
      Aligned content progress' payload ∧ progress'.buffer.flatten = [] ∧
      progress'.persistedSize = some progress'.offset ∧ Known progress'.offset length := by
  have hne := h.offset_ne
  have hreported : progress.offset ≤ reportedSize length ∧
      reportedSize length ≤ progress.offset + progress.bufferSize ∧
      Known (reportedSize length) length ∧ reportedSize length ≠ 1 := by
    unfold reportedSize Known
    unfold Between at hbetween
    split <;> omega
  obtain ⟨hge, hupper, hknown, hne'⟩ := hreported
  have hlength := h.length_eq
  rw [handlePartial, if_neg (by omega), if_pos hupper]
  refine ⟨_, rfl, ⟨by dsimp only; omega, ?_, rfl, ?_, h.hint, hne', h.target, h.intact, ?_⟩, rfl,
    rfl, hknown⟩
  · have hkept := (flatten_unpersisted_iff _ _).mpr hcuts
    have hsize : reportedSize length - progress.offset ≤ progress.buffer.flatten.length := by
      rw [← h.size]
      omega
    have hdrop : content.drop (reportedSize length) =
        (content.drop progress.offset).drop (reportedSize length - progress.offset) := by
      rw [List.drop_drop]
      congr 1
      omega
    rw [hdrop, h.rest, List.drop_append_of_le_length hsize, ← hkept]
    simp
  · intro hended
    obtain ⟨hsource, hlt⟩ := h.ended hended
    have hkept := congrArg List.length ((flatten_unpersisted_iff _ _).mpr hcuts)
    rw [List.length_drop] at hkept
    refine ⟨hsource, ?_⟩
    simp only [List.flatten_append, List.length_append, hkept, List.flatten_nil, List.length_nil]
    omega
  · intro size hsize
    exact (Option.some.inj hsize).symm

/-! ## The service -/

/-- The declared first byte is the offset, and a declared size is that of the content. -/
theorem readContentRange_rangeHeader (h : Aligned content progress payload)
    (hbound : content.length < 2 ^ 64)
    (hshape : progress.bufferSize = progress.targetSize ∨
      progress.remainder = [] ∧ payload.source.bytes = []) :
    ∃ first total, readContentRange progress.rangeHeader = some (first, total) ∧
      (first = some progress.offset ∨ first = none ∧ progress.bufferSize = 0) ∧
      ∀ size ∈ total, size = content.length := by
  have hlength := h.length_eq
  have hsmall : progress.offset < 2 ^ 64 := Nat.lt_of_le_of_lt h.offset_le hbound
  -- All that is left is in the buffer, unless it is full and the source goes on.
  have hall : progress.bufferSize < progress.targetSize ∨ progress.sourceEnded = true →
      progress.offset + progress.bufferSize = content.length := by
    intro hcase
    rcases hshape with hfull | ⟨hremainder, hsource⟩
    · rcases hcase with hshort | hended
      · omega
      · have hended := h.ended hended
        rw [← h.size] at hended
        omega
    · rw [hremainder, hsource] at hlength
      simpa using hlength.symm
  have hread : ∀ first : Option (ℕ × ℕ), (∀ pair ∈ first, pair.1 = progress.offset) →
      ∀ total : Option ℕ, (∀ size ∈ total, size = content.length) →
        readContentRange (contentRange first total) = some (first.map (·.1), total) := by
    intro first hfirst total htotal
    refine readContentRange_contentRange (fun pair hpair => ?_) (fun size hsize => ?_)
    · rw [hfirst pair hpair]
      exact hsmall
    · rw [htotal size hsize]
      exact hbound
  have hhint := h.hint
  unfold rangeHeader
  split
  case h_1 len hsize _ hlen =>
    refine ⟨none, some len, hread none (by simp) (some len) ?_, .inr ⟨rfl, hsize⟩, ?_⟩
    · simpa using hhint len hlen
    · simpa using hhint len hlen
  case h_2 n o len hlen _ =>
    refine ⟨some progress.offset, some len, hread (some _) (by simp) (some len) ?_, .inl rfl, ?_⟩
    · simpa using hhint len hlen
    · simpa using hhint len hlen
  case h_3 hsize _ =>
    have hend : progress.offset = content.length := by
      rw [← hall (.inl (by rw [hsize]; exact h.target)), hsize, Nat.add_zero]
    refine ⟨none, some progress.offset, hread none (by simp) (some _) ?_, .inr ⟨rfl, hsize⟩, ?_⟩
    · simpa using hend
    · simpa using hend
  case h_4 =>
    split
    case isTrue hlast =>
      have hend := hall hlast
      refine ⟨some progress.offset, some (progress.offset + progress.bufferSize),
        hread (some _) (by simp) (some _) ?_, .inl rfl, ?_⟩
      · simpa using hend
      · simpa using hend
    case isFalse =>
      exact ⟨some progress.offset, none, hread (some _) (by simp) none (by simp), .inl rfl, by simp⟩

/-- What the service holds after an upload request. -/
theorem put_spec {server : Server} (h : Aligned content progress payload)
    (hbound : content.length < 2 ^ 64)
    (hshape : progress.bufferSize = progress.targetSize ∨
      progress.remainder = [] ∧ payload.source.bytes = [])
    (hfinalized : server.finalized = false) (hbytes : server.bytes <+: content)
    (hknown : Known progress.offset server.bytes.length) (outcome : Outcome) :
    let server' := server.put progress.rangeHeader progress.buffer.flatten outcome
    server'.bytes <+: content ∧ Between progress server'.bytes.length ∧
      (server'.finalized = true → server'.bytes = content) ∧
      (progress.buffer.flatten = [] → server'.bytes = server.bytes) := by
  obtain ⟨first, total, hread, hfirst, htotal⟩ := readContentRange_rangeHeader h hbound hshape
  have hcomplete : ∀ {bytes : Bytes}, bytes <+: content → total = some bytes.length →
      bytes = content := by
    intro bytes hpart hsize
    exact hpart.eq_of_length (htotal _ hsize)
  simp only [Server.put, hread, hfinalized, true_and, Bool.false_or]
  by_cases hfits : first = some server.bytes.length
  · -- The body continues what the service holds.
    have hoffset : server.bytes.length = progress.offset := by
      rcases hfirst with hsome | ⟨hnone, -⟩
      · exact (Option.some.inj (hsome.symm.trans hfits)).symm
      · rw [hnone] at hfits
        cases hfits
    have hgrown : server.bytes ++ progress.buffer.flatten.take outcome.persist <+: content := by
      have htaken : server.bytes = content.take progress.offset := by
        rw [← hoffset]
        exact List.prefix_iff_eq_take.mp hbytes
      rw [htaken]
      conv_rhs => rw [← List.take_append_drop progress.offset content, h.rest]
      rw [List.prefix_append_right_inj]
      exact (List.take_prefix _ _).trans (List.prefix_append _ _)
    have hlength : (progress.buffer.flatten.take outcome.persist).length ≤ progress.bufferSize := by
      rw [h.size, List.length_take]
      exact Nat.min_le_right _ _
    rw [if_pos hfits]
    refine ⟨hgrown, .inl ?_, ?_, ?_⟩
    · rw [List.length_append]
      omega
    · intro hdone
      simp only [Bool.and_eq_true, decide_eq_true_eq] at hdone
      exact hcomplete hgrown hdone.2
    · intro hempty
      rw [hempty, List.take_nil, List.append_nil]
  · rw [if_neg hfits]
    refine ⟨hbytes, hknown.between, ?_, fun _ => rfl⟩
    intro hdone
    simp only [Bool.and_eq_true, decide_eq_true_eq] at hdone
    exact hcomplete hbytes hdone.2

/-! ## Answers -/

theorem answered_failed {upload : BufferedUpload} {length : ℕ} (h : Placed content upload length)
    {sent : Bool} {range : List Char} {hash : Option UInt32} {body : Bytes}
    (hphase : upload.phase = .putting sent range hash body) (hempty : body = []) (text : String) :
    Placed content (upload.answered digests sent (.error text)) length := by
  have hexpects := h.expects
  rw [Expects, hphase] at hexpects
  obtain ⟨hpersisted, hknown, -, hbody, -⟩ := hexpects
  exact ⟨h.aligned, .inr ⟨hpersisted, hbody ▸ hempty, hknown⟩⟩

theorem answered_rejected {upload : BufferedUpload} {length : ℕ}
    (h : Aligned content upload.progress upload.payload) (hbetween : Between upload.progress length)
    (sent : Bool) (status : ℕ) :
    Placed content (upload.answered digests sent (.ok (.rejected status))) length := by
  refine ⟨?_, .inl ⟨rfl, hbetween⟩⟩
  exact ⟨h.offset_le, h.rest, h.size, h.ended, h.hint, h.offset_ne, h.target, h.intact,
    fun size hsize => (nomatch hsize)⟩

theorem answered_incomplete {upload : BufferedUpload} {server : Server}
    (h : Aligned content upload.progress upload.payload)
    (hbetween : Between upload.progress server.bytes.length) (hbound : server.bytes.length < 2 ^ 64)
    (hcuts : cutsCleanly (reportedSize server.bytes.length - upload.progress.offset)
      upload.progress.buffer = true) (sent : Bool) :
    Placed content (upload.answered digests sent (.ok (.resumeIncomplete server.range)))
      server.bytes.length := by
  obtain ⟨progress', hpartial, haligned, hempty, hpersisted, hknown⟩ :=
    handlePartial_reported h hbetween hcuts
  simp only [BufferedUpload.answered, handleResponse_range hbound, hpartial]
  exact placed_put haligned hempty hpersisted hknown sent

theorem queried_failed {upload : BufferedUpload} {length : ℕ} (h : Placed content upload length)
    {isResume : Bool} (hphase : upload.phase = .querying isResume) (e : Error) :
    Placed content (upload.returns (.error e)) length := by
  have hexpects := h.expects
  rw [Expects, hphase] at hexpects
  exact ⟨h.aligned, .inl hexpects⟩

theorem queried_incomplete {upload : BufferedUpload} {server : Server}
    (h : Aligned content upload.progress upload.payload)
    (hbetween : Between upload.progress server.bytes.length) (hbound : server.bytes.length < 2 ^ 64)
    (hcuts : cutsCleanly (reportedSize server.bytes.length - upload.progress.offset)
      upload.progress.buffer = true) (isResume : Bool) :
    Placed content (upload.queried digests isResume (.ok (.resumeIncomplete server.range)))
      server.bytes.length := by
  obtain ⟨progress', hpartial, haligned, hempty, hpersisted, hknown⟩ :=
    handlePartial_reported h hbetween hcuts
  simp only [BufferedUpload.queried, handleResponse_range hbound, hpartial]
  exact placed_put haligned hempty hpersisted hknown _

/-! ## Every run -/

structure Sound (content : Bytes) (world : World) : Prop where
  finalized : world.server.finalized = true → world.server.bytes = content
  placed : world.server.finalized = false → world.server.bytes <+: content ∧
    Placed content world.upload world.server.bytes.length
  succeeded : ∀ object, .ok object ∈ world.upload.returned → world.server.finalized = true

/-- An upload succeeds only with an object from the service. -/
theorem succeeded_handle {upload : BufferedUpload} {event : Event} {finalized : Prop}
    (h : ∀ object, .ok object ∈ upload.returned → finalized)
    (hevent : ∀ object, event = .responded (.ok (.object object)) → finalized) :
    ∀ object, .ok object ∈ (upload.handle digests event).returned → finalized := by
  intro object hmem
  rcases (BufferedUpload.evolves_handle digests upload event).returned _ hmem with hold | hnew
  · exact h object hold
  · generalize hresult : (Except.ok object : Except Error Object) = result at hnew
    cases hnew with
    | failed e => cases hresult
    | queried hphase hobject => exact hevent _ hobject
    | answered hphase hobject => exact hevent _ hobject

theorem Server.respond_object {server : Server} {reply : Reply} {object : Object}
    (h : server.respond reply = .ok (.object object)) : server.finalized = true := by
  cases reply with
  | object found =>
    simp only [Server.respond] at h
    split at h
    case isTrue hfinalized => exact hfinalized
    case isFalse => cases h
  | resumeIncomplete => cases h
  | rejected status => cases h
  | failed text => cases h

/-- A finalized upload stays as it is. -/
theorem Server.put_finalized {server : Server} (h : server.finalized = true) (range : List Char)
    (body : Bytes) (outcome : Outcome) : server.put range body outcome = server := by
  unfold Server.put
  split
  · rfl
  · obtain ⟨bytes, finalized⟩ := server
    obtain rfl : finalized = true := h
    simp

namespace World

variable {world : World}

theorem placed_attempt {upload : BufferedUpload} {length : ℕ} (h : Placed content upload length) :
    Placed content (upload.handle digests .attempt) length := by
  have hexpects := h.expects
  unfold BufferedUpload.handle
  split
  case h_1 hphase _ =>
    rw [Expects, hphase] at hexpects
    split
    · unfold BufferedUpload.attempt
      split
      · exact placed_located h.aligned hexpects true
      · exact ⟨h.aligned, hexpects⟩
    · exact h
  case h_2 heq => cases heq
  case h_3 heq => cases heq
  case h_4 heq => cases heq
  case h_5 => exact h

theorem placed_started {upload : BufferedUpload} {length : ℕ} (h : Placed content upload length)
    (location : Except Error String) :
    Placed content (upload.handle digests (.started location)) length := by
  have hexpects := h.expects
  unfold BufferedUpload.handle
  split
  case h_1 heq => cases heq
  case h_2 found hphase heq =>
    rw [Expects, hphase] at hexpects
    cases heq
    cases location with
    | error e => exact ⟨h.aligned, hexpects⟩
    | ok url =>
      let upload' := { upload with url := some url }
      have haligned : Aligned content upload'.progress upload'.payload := h.aligned
      exact placed_located haligned hexpects false
  case h_3 heq => cases heq
  case h_4 heq => cases heq
  case h_5 => exact h

/-- After an upload request, if the upload is not finalized. -/
theorem placed_answered {upload : BufferedUpload} {server server' : Server} {sent : Bool}
    {range : List Char} {hash : Option UInt32} {body : Bytes} {outcome : Outcome}
    (h : Placed content upload server.bytes.length) (hbound : content.length < 2 ^ 64)
    (hphase : upload.phase = .putting sent range hash body)
    (hfinalized : server.finalized = false) (hbytes : server.bytes <+: content)
    (hput : server' = server.put range body outcome) (hfinalized' : server'.finalized = false)
    (hbody : outcome.reply.isFailed = true → body = [])
    (hcuts : reportsCleanly upload server' outcome.reply = true) :
    server'.bytes <+: content ∧
      Placed content (upload.answered digests sent (server'.respond outcome.reply))
        server'.bytes.length := by
  have hexpects := h.expects
  rw [Expects, hphase] at hexpects
  obtain ⟨-, hknown, hrange, hbuffer, hshape⟩ := hexpects
  obtain ⟨hpart, hbetween, -, hsame⟩ :=
    put_spec h.aligned hbound hshape hfinalized hbytes hknown outcome
  rw [← hrange, ← hbuffer, ← hput] at hpart hbetween hsame
  have hsize : server'.bytes.length < 2 ^ 64 := Nat.lt_of_le_of_lt hpart.length_le hbound
  have hreports : ∀ range, server'.respond outcome.reply = .ok (.resumeIncomplete range) →
      range = server'.range →
      Placed content (upload.answered digests sent (server'.respond outcome.reply))
        server'.bytes.length := by
    intro range hrespond hrange
    rw [hrespond, hrange]
    exact answered_incomplete h.aligned hbetween hsize
      (by simpa [reportsCleanly, hrespond] using hcuts) sent
  refine ⟨hpart, ?_⟩
  cases hreply : outcome.reply with
  | resumeIncomplete =>
    rw [hreply] at hreports
    exact hreports _ rfl rfl
  | object object =>
    rw [hreply] at hreports
    exact hreports server'.range (by simp [Server.respond, hfinalized']) rfl
  | rejected status => exact answered_rejected h.aligned hbetween sent status
  | failed text =>
    have hempty := hbody (by rw [hreply]; rfl)
    rw [hsame hempty]
    exact answered_failed h hphase hempty text

theorem placed_queried {upload : BufferedUpload} {server : Server} {isResume : Bool} {reply : Reply}
    (h : Placed content upload server.bytes.length)
    (hbound : server.bytes.length < 2 ^ 64) (hphase : upload.phase = .querying isResume)
    (hfinalized : server.finalized = false) (hcuts : reportsCleanly upload server reply = true) :
    Placed content (upload.queried digests isResume (server.respond reply))
      server.bytes.length := by
  have hexpects := h.expects
  rw [Expects, hphase] at hexpects
  have hreports : server.respond reply = .ok (.resumeIncomplete server.range) →
      Placed content (upload.queried digests isResume (server.respond reply))
        server.bytes.length := by
    intro hrespond
    rw [hrespond]
    exact queried_incomplete h.aligned hexpects.2 hbound
      (by simpa [reportsCleanly, hrespond] using hcuts) isResume
  cases reply with
  | resumeIncomplete => exact hreports rfl
  | object object => exact hreports (by simp [Server.respond, hfinalized])
  | rejected status => exact queried_failed h hphase (.http status)
  | failed text => exact queried_failed h hphase (.io text)

theorem sound_handle {event : WorldEvent} (hbound : content.length < 2 ^ 64)
    (havoids : world.avoids event = true) (h : Sound content world) :
    Sound content (world.handle digests event) := by
  cases event with
  | attempt =>
    refine ⟨h.finalized, fun hfinalized => ?_, ?_⟩
    · obtain ⟨hbytes, hplaced⟩ := h.placed hfinalized
      exact ⟨hbytes, placed_attempt hplaced⟩
    · exact succeeded_handle h.succeeded fun object hobject => (nomatch hobject)
  | started location =>
    refine ⟨h.finalized, fun hfinalized => ?_, ?_⟩
    · obtain ⟨hbytes, hplaced⟩ := h.placed hfinalized
      exact ⟨hbytes, placed_started hplaced location⟩
    · exact succeeded_handle h.succeeded fun object hobject => (nomatch hobject)
  | served outcome =>
    cases hphase : world.upload.phase with
    | idle => simpa [handle, hphase] using h
    | starting => simpa [handle, hphase] using h
    | querying isResume =>
      simp only [avoids, hphase] at havoids
      simp only [handle, hphase]
      refine ⟨h.finalized, fun hfinalized => ?_, ?_⟩
      · obtain ⟨hbytes, hplaced⟩ := h.placed hfinalized
        have hsize := Nat.lt_of_le_of_lt hbytes.length_le hbound
        refine ⟨hbytes, ?_⟩
        simp only [BufferedUpload.handle, hphase]
        exact placed_queried hplaced hsize hphase hfinalized havoids
      · refine succeeded_handle h.succeeded fun object hobject => ?_
        exact Server.respond_object (Event.responded.inj hobject)
    | putting sent range hash body =>
      simp only [avoids, hphase, Bool.and_eq_true, Bool.or_eq_true, Bool.not_eq_true',
        decide_eq_true_eq] at havoids
      have hbody : outcome.reply.isFailed = true → body = [] := by
        intro hfailed
        simpa [hfailed] using havoids.1
      simp only [handle, hphase]
      cases hfinalized : world.server.finalized with
      | true =>
        rw [Server.put_finalized hfinalized]
        refine ⟨h.finalized, fun hnot => ?_, ?_⟩
        · rw [hfinalized] at hnot
          cases hnot
        · exact succeeded_handle h.succeeded fun _ _ => hfinalized
      | false =>
        obtain ⟨hbytes, hplaced⟩ := h.placed hfinalized
        refine ⟨?_, fun hfinalized' => ?_, ?_⟩
        · have hexpects := hplaced.expects
          rw [Expects, hphase] at hexpects
          obtain ⟨-, hknown, hrange, hbuffer, hshape⟩ := hexpects
          rw [hrange, hbuffer]
          exact (put_spec hplaced.aligned hbound hshape hfinalized hbytes hknown outcome).2.2.1
        · simp only [BufferedUpload.handle, hphase]
          exact placed_answered hplaced hbound hphase hfinalized hbytes rfl hfinalized' hbody
            havoids.2
        · refine succeeded_handle ?_ fun object hobject => ?_
          · intro object hmem
            have hdone := h.succeeded object hmem
            rw [hfinalized] at hdone
            cases hdone
          · exact Server.respond_object (Event.responded.inj hobject)

end World

theorem sound_startUpload (checksum : Checksum ℕ) (resource : Option ObjectChecksums)
    (bufferSize : ℕ) (source : Source) :
    Sound source.content (startUpload checksum resource bufferSize source) where
  finalized := fun h => (nomatch h)
  placed := by
    intro _
    refine ⟨List.nil_prefix, ⟨Nat.zero_le _, ?_, rfl, fun h => (nomatch h), source.hint_eq,
      Nat.zero_ne_one, ?_, Stream.intact_ok source.chunks, fun _ hsize =>
        (Option.some.inj hsize).symm⟩, .inr ⟨rfl, rfl, .inl rfl⟩⟩
    · exact (Stream.bytes_ok source.chunks).symm
    · exact Nat.lt_of_lt_of_le (by decide) (Nat.le_max_right _ resumableUploadQuantum)
  succeeded := fun _ hmem => (nomatch hmem)

/-- In every run in which no request that carries bytes fails at the transport level and lengths cut
the buffer cleanly, the service holds a prefix of the content, and all of it when an attempt
succeeds. -/
theorem transfers_exactly (digests : Digests) (checksum : Checksum ℕ)
    (resource : Option ObjectChecksums) (bufferSize : ℕ) (source : Source)
    (events : List WorldEvent)
    (havoids : Along (World.handle digests) (fun world event => world.avoids event = true)
      (startUpload checksum resource bufferSize source) events) :
    let world := (startUpload checksum resource bufferSize source).run digests events
    world.server.bytes <+: source.content ∧
      ∀ object, .ok object ∈ world.upload.returned → world.server.bytes = source.content := by
  intro world
  have hsound : Sound source.content world :=
    along_invariant (fun _ _ havoids h => World.sound_handle source.bound havoids h)
      (sound_startUpload checksum resource bufferSize source) havoids
  constructor
  · cases hfinalized : world.server.finalized with
    | true =>
      exact ⟨[], by simp [hsound.finalized hfinalized]⟩
    | false => exact (hsound.placed hfinalized).1
  · intro object hmem
    exact hsound.finalized (hsound.succeeded object hmem)

/-- The service persists the first of two chunks, and then the other. -/
theorem transfers_exactly_two_requests :
    let digests : Digests := ⟨fun crc _ => crc, fun _ => rfl, fun _ _ _ => rfl, fun _ => []⟩
    let source : Source := ⟨[[1, 2], [3, 4]], none, by simp, by decide⟩
    let world := (startUpload {} none 0 source).run digests
      [.attempt, .started (.ok "url"), .served ⟨2, false, .resumeIncomplete⟩,
        .served ⟨2, true, .object {}⟩]
    .ok {} ∈ world.upload.returned ∧ world.server.bytes = [1, 2, 3, 4] := by
  intro digests source world
  have hmem : .ok {} ∈ world.upload.returned := by decide +kernel
  refine ⟨hmem, (transfers_exactly digests {} none 0 source _ ?_).2 {} hmem⟩
  decide +kernel

/-- When three bytes of a chunk of four are persisted, the last three are sent again; and after a
request that failed at the transport level its bytes are not sent at all. -/
theorem repeats_or_loses_bytes :
    let digests : Digests := ⟨fun crc _ => crc, fun _ => rfl, fun _ _ _ => rfl, fun _ => []⟩
    let source : Source := ⟨[[1, 2, 3, 4]], none, by simp, by decide⟩
    let repeated := (startUpload {} none 0 source).run digests
      [.attempt, .started (.ok "url"), .served ⟨3, false, .resumeIncomplete⟩,
        .served ⟨3, true, .object {}⟩]
    let lost := (startUpload {} none 0 source).run digests
      [.attempt, .started (.ok "url"), .served ⟨0, false, .failed "reset"⟩, .attempt,
        .served ⟨0, true, .object {}⟩]
    (repeated.server.bytes = [1, 2, 3, 2, 3, 4] ∧ ¬repeated.server.bytes <+: source.content ∧
      .ok {} ∈ repeated.upload.returned) ∧
    lost.server.bytes = [] ∧ .ok {} ∈ lost.upload.returned := by
  decide +kernel

end GoogleCloudRust.PerformUpload
