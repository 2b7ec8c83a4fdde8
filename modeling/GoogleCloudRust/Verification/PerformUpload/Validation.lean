import GoogleCloudRust.Library.Crc32c
import GoogleCloudRust.Library.Interleaving
import GoogleCloudRust.Verification.Checksum.Source
import GoogleCloudRust.Verification.PerformUpload.Service

/-! # The checksums of an uploaded object

The service may answer every request in any way. An object that is returned as the answer to an
upload request has passed the comparison of its checksums; one that is first seen in the answer to a
status query has not. -/

namespace GoogleCloudRust.PerformUpload

open Storage Interleaving

variable {digests : Digests} {content : Bytes} {crc32c md5 : Bool}

/-! ## What the engine has consumed -/

/-- The engine has consumed a prefix of the content. -/
structure Hashes (digests : Digests) (content : Bytes) (crc32c md5 : Bool) (checksum : Checksum ℕ) :
    Prop where
  tracks : ∃ position, checksum.Tracks digests content position
  crc32c_isSome : checksum.crc32c.isSome = crc32c
  md5_isSome : checksum.md5Hash.isSome = md5

theorem Hashes.update {checksum : Checksum ℕ} {offset : ℕ} {b : Bytes}
    (h : Hashes digests content crc32c md5 checksum) (hb : b <+: content.drop offset) :
    Hashes digests content crc32c md5 (checksum.update digests offset b) := by
  obtain ⟨position, htracks⟩ := h.tracks
  refine ⟨⟨_, htracks.update hb⟩, ?_, ?_⟩
  · simpa [Checksum.update] using h.crc32c_isSome
  · simpa [Checksum.update] using h.md5_isSome

theorem hashes_fresh (digests : Digests) (content : Bytes) (crc32c md5 : Bool) :
    Hashes digests content crc32c md5 (.fresh crc32c md5) where
  tracks := ⟨0, Checksum.tracks_fresh digests content crc32c md5⟩
  crc32c_isSome := by cases crc32c <;> rfl
  md5_isSome := by cases md5 <;> rfl

/-- The source yields the content from its offset on. -/
structure Reads (digests : Digests) (content : Bytes) (crc32c md5 : Bool)
    (payload : ChecksummedSource) : Prop where
  rest : content.drop payload.offset = payload.source.bytes
  hashes : Hashes digests content crc32c md5 payload.checksum

theorem Reads.yielded {payload : ChecksummedSource} {b : Bytes} {source : Stream}
    (h : Reads digests content crc32c md5 payload) (hsource : payload.source = .ok b :: source) :
    Reads digests content crc32c md5 (payload.yielded digests b source) := by
  have hrest : content.drop payload.offset = b ++ Stream.bytes source := by
    rw [h.rest, hsource]
    rfl
  refine ⟨?_, h.hashes.update ⟨_, hrest.symm⟩⟩
  rw [ChecksummedSource.yielded, ← List.drop_drop, hrest, List.drop_left]

theorem Reads.next {payload : ChecksummedSource} (h : Reads digests content crc32c md5 payload) :
    Reads digests content crc32c md5 (payload.next digests).1 := by
  rw [ChecksummedSource.next]
  split
  case h_1 => exact h
  case h_2 b source hsource => exact h.yielded hsource
  case h_3 e source hsource =>
    refine ⟨?_, h.hashes⟩
    rw [h.rest, hsource]
    rfl

/-- The engine has consumed the whole content. -/
structure Consumed (content : Bytes) (checksum : Checksum ℕ) : Prop where
  crc32c : ∀ crc ∈ checksum.crc32c, crc.offset = content.length
  md5 : ∀ md5 ∈ checksum.md5Hash, md5.offset = content.length

theorem finalChecksum_of_consumed {payload : ChecksummedSource}
    (h : Hashes digests content crc32c md5 payload.checksum)
    (hconsumed : Consumed content payload.checksum) :
    payload.finalChecksum digests = digests.checksums crc32c md5 content := by
  obtain ⟨position, htracks⟩ := h.tracks
  rw [← h.crc32c_isSome, ← h.md5_isSome]
  refine Checksum.Tracks.finalize ⟨?_, ?_⟩
  · intro crc hcrc
    have hposition := hconsumed.crc32c crc hcrc
    rw [htracks.crc32c crc hcrc] at hposition ⊢
    rw [show position = content.length from hposition]
  · intro state hstate
    have hposition := hconsumed.md5 state hstate
    rw [htracks.md5 state hstate] at hposition ⊢
    rw [show position = content.length from hposition]

/-! ## Validation -/

theorem checkObject_eq_ok {expected received : ObjectChecksums} {object : Object}
    (h : checkObject expected object = .ok ()) (hreceived : object.checksums = some received) :
    Agree expected received := by
  rw [checkObject, hreceived] at h
  cases hvalid : validate expected (some received) with
  | ok value => exact (validate_eq_ok_iff expected received).mp hvalid
  | error mismatch =>
    rw [hvalid] at h
    cases h

theorem checks_eq_ok {first second : Except Error Unit} {object returned : Object}
    (h : (do first; second; return object : Except Error Object) = .ok returned) :
    first = .ok () ∧ second = .ok () ∧ returned = object := by
  cases first with
  | error e => cases h
  | ok value =>
    cases second with
    | error e => cases h
    | ok value =>
      cases h
      exact ⟨rfl, rfl, rfl⟩

theorem validateResponseObject_eq_ok {resource : Option ObjectChecksums}
    {payload : ChecksummedSource} {object returned : Object}
    (h : validateResponseObject digests resource payload object = .ok returned) :
    returned = object ∧ ∀ received, object.checksums = some received →
      (∀ pre ∈ resource, Agree pre received) ∧
        Agree (payload.finalChecksum digests) received := by
  have hchecks : (∀ pre ∈ resource, checkObject pre object = .ok ()) ∧
      checkObject (payload.finalChecksum digests) object = .ok () ∧ returned = object := by
    unfold validateResponseObject at h
    cases resource with
    | none =>
      have hskip : (do
          (Except.ok () : Except Error Unit)
          checkObject (payload.finalChecksum digests) object
          return object : Except Error Object) = .ok returned := h
      exact ⟨fun _ hpre => (nomatch hpre), (checks_eq_ok hskip).2⟩
    | some pre =>
      obtain ⟨hfirst, hrest⟩ := checks_eq_ok h
      exact ⟨fun _ hpre => Option.some.inj hpre ▸ hfirst, hrest⟩
  obtain ⟨hsupplied, hcomputed, hobject⟩ := hchecks
  refine ⟨hobject, fun received hreceived => ⟨?_, checkObject_eq_ok hcomputed hreceived⟩⟩
  intro pre hpre
  exact checkObject_eq_ok (hsupplied pre hpre) hreceived

/-- Every checksum that is expected and present is equal. -/
def Verified (digests : Digests) (crc32c md5 : Bool) (resource : Option ObjectChecksums)
    (content : Bytes) (object : Object) : Prop :=
  ∀ received, object.checksums = some received →
    (∀ pre ∈ resource, Agree pre received) ∧ Agree (digests.checksums crc32c md5 content) received

theorem verified_of_validate {resource : Option ObjectChecksums} {payload : ChecksummedSource}
    {object returned : Object}
    (h : validateResponseObject digests resource payload object = .ok returned)
    (hhashes : Hashes digests content crc32c md5 payload.checksum)
    (hconsumed : Consumed content payload.checksum) :
    Verified digests crc32c md5 resource content returned := by
  obtain ⟨rfl, hagree⟩ := validateResponseObject_eq_ok h
  intro received hreceived
  rw [← finalChecksum_of_consumed hhashes hconsumed]
  exact hagree received hreceived

/-! ## Buffered uploads -/

namespace BufferedUpload

/-- No status query reports the upload as finalized, and a request is answered with the object only
after the engine has consumed the whole content. -/
def Admits (content : Bytes) (upload : BufferedUpload) (event : Event) : Prop :=
  match upload.phase, event with
  | .querying _, .responded (.ok (.object _)) => False
  | .putting _ _ _ _, .responded (.ok (.object _)) => Consumed content upload.payload.checksum
  | _, _ => True

structure Checked (digests : Digests) (content : Bytes) (crc32c md5 : Bool)
    (resource : Option ObjectChecksums) (upload : BufferedUpload) : Prop where
  reads : Reads digests content crc32c md5 upload.payload
  resource_eq : upload.resource = resource
  verified : ∀ object, .ok object ∈ upload.returned →
    Verified digests crc32c md5 resource content object

theorem Checked.handle {resource : Option ObjectChecksums} {upload : BufferedUpload} {event : Event}
    (hadmits : upload.Admits content event)
    (h : Checked digests content crc32c md5 resource upload) :
    Checked digests content crc32c md5 resource (upload.handle digests event) := by
  have hevolves := evolves_handle digests upload event
  refine ⟨?_, hevolves.resource.trans h.resource_eq, ?_⟩
  · rcases hevolves.payload with hsame | ⟨progress, hread⟩
    · rw [hsame]
      exact h.reads
    · rw [hread]
      exact nextBuffer_rule (fun _ hreads => hreads.next) h.reads progress
  · intro object hmem
    rcases hevolves.returned _ hmem with hold | hnew
    · exact h.verified object hold
    · generalize hresult : (Except.ok object : Except Error Object) = result at hnew
      cases hnew with
      | failed e => cases hresult
      | queried hphase hevent =>
        rw [hevent] at hadmits
        simp [Admits, hphase] at hadmits
      | answered hphase hevent =>
        rw [hevent] at hadmits
        have hconsumed : Consumed content upload.payload.checksum := by
          simpa [Admits, hphase] using hadmits
        rw [h.resource_eq] at hresult
        exact verified_of_validate hresult.symm h.reads.hashes hconsumed

theorem checked_sendBufferedResumable (digests : Digests) (crc32c md5 : Bool)
    (resource : Option ObjectChecksums) (bufferSize : ℕ) (hint : Option ℕ) (source : Stream) :
    Checked digests source.bytes crc32c md5 resource
      (sendBufferedResumable (.fresh crc32c md5) resource bufferSize hint source) where
  reads := ⟨rfl, hashes_fresh digests source.bytes crc32c md5⟩
  resource_eq := rfl
  verified := fun _ hmem => (nomatch hmem)

end BufferedUpload

/-! ## Unbuffered uploads -/

theorem bytes_chunked (sizes : List ℕ) (data : Bytes) : (chunked sizes data).bytes = data := by
  induction sizes generalizing data with
  | nil =>
    unfold chunked
    split
    case isTrue h => rw [h]; rfl
    case isFalse => simp [Stream.bytes, Except.toOption]
  | cons size sizes ih =>
    have hcons : (chunked (size :: sizes) data).bytes =
        data.take size ++ (chunked sizes (data.drop size)).bytes := rfl
    rw [hcons, ih, List.take_append_drop]

namespace UnbufferedUpload

/-- As for a buffered upload. -/
def Admits (content : Bytes) (upload : UnbufferedUpload) (event : UnbufferedEvent) : Prop :=
  match upload.phase, event with
  | .querying, .responded (.ok (.object _)) => False
  | .putting _, .responded (.ok (.object _)) => Consumed content upload.payload.checksum
  | _, _ => True

structure Checked (digests : Digests) (content : Bytes) (crc32c md5 : Bool)
    (resource : Option ObjectChecksums) (upload : UnbufferedUpload) : Prop where
  content_eq : upload.content = content
  hashes : Hashes digests content crc32c md5 upload.payload.checksum
  /-- Outside a request the position of the source does not matter. -/
  rest : ∀ range, upload.phase = .putting range →
    content.drop upload.payload.offset = upload.payload.source.bytes
  resource_eq : upload.resource = resource
  verified : ∀ object, .ok object ∈ upload.returned →
    Verified digests crc32c md5 resource content object

variable {resource : Option ObjectChecksums} {upload : UnbufferedUpload}

theorem Checked.awaits (h : Checked digests content crc32c md5 resource upload)
    (url : Option String) {phase : UnbufferedPhase} (hphase : ∀ range, phase ≠ .putting range) :
    Checked digests content crc32c md5 resource { upload with url, phase } :=
  ⟨h.content_eq, h.hashes, fun range hrange => absurd hrange (hphase range), h.resource_eq,
    h.verified⟩

theorem Checked.returns (h : Checked digests content crc32c md5 resource upload)
    {result : Except Error Object}
    (hresult : ∀ object, result = .ok object →
      Verified digests crc32c md5 resource content object) :
    Checked digests content crc32c md5 resource (upload.returns result) := by
  refine ⟨h.content_eq, h.hashes, fun range hrange => (nomatch hrange), h.resource_eq, ?_⟩
  intro object hmem
  rcases List.mem_append.mp hmem with hmem | hmem
  · exact h.verified object hmem
  · exact hresult object (List.mem_singleton.mp hmem).symm

theorem Checked.fails (h : Checked digests content crc32c md5 resource upload) (e : Error) :
    Checked digests content crc32c md5 resource (upload.returns (.error e)) :=
  h.returns fun _ hok => (nomatch hok)

theorem Checked.sought (h : Checked digests content crc32c md5 resource upload) (offset : ℕ)
    (sizes : Except String (List ℕ)) :
    Checked digests content crc32c md5 resource (upload.sought offset sizes) := by
  cases sizes with
  | error e =>
    let lost := { upload with
      payload := { upload.payload with offset := 2 ^ 64 - 1 }, phase := .idle }
    have hlost : Checked digests content crc32c md5 resource lost :=
      ⟨h.content_eq, h.hashes, fun range hrange => (nomatch hrange), h.resource_eq, h.verified⟩
    exact hlost.fails (.source e)
  | ok sizes =>
    refine ⟨h.content_eq, h.hashes, fun range hrange => ?_, h.resource_eq, h.verified⟩
    show content.drop offset = (chunked sizes (upload.content.drop offset)).bytes
    rw [bytes_chunked, h.content_eq]

theorem Checked.handle {event : UnbufferedEvent} (hadmits : upload.Admits content event)
    (h : Checked digests content crc32c md5 resource upload) :
    Checked digests content crc32c md5 resource (upload.handle digests event) := by
  unfold UnbufferedUpload.handle
  split
  case h_1 =>
    split
    · unfold attempt
      split
      · exact h.awaits _ (by simp)
      · exact h.awaits _ (by simp)
    · exact h
  case h_2 location _ =>
    cases location with
    | error e => exact h.fails e
    | ok url => exact h.awaits _ (by simp)
  case h_3 response hphase =>
    unfold queried
    split
    · exact h.fails _
    · split
      case h_1 => exact h.fails _
      case h_2 object hobject =>
        obtain rfl := queryResumableUploadHandleResponse_eq_finalized hobject
        simp [Admits, hphase] at hadmits
      case h_3 offset _ => exact h.awaits _ (by simp)
  case h_4 offset sizes _ => exact h.sought offset sizes
  case h_5 range hphase =>
    have hreads : Reads digests content crc32c md5 upload.payload := ⟨h.rest range hphase, h.hashes⟩
    exact ⟨h.content_eq, hreads.next.hashes, fun _ _ => hreads.next.rest, h.resource_eq, h.verified⟩
  case h_6 range response hphase =>
    unfold answered
    split
    · exact h.fails _
    case h_2 response =>
      cases response with
      | object object =>
        have hconsumed : Consumed content upload.payload.checksum := by
          simpa [Admits, hphase] using hadmits
        refine h.returns fun returned hvalid => ?_
        rw [h.resource_eq] at hvalid
        exact verified_of_validate hvalid h.hashes hconsumed
      | resumeIncomplete range => exact h.fails _
      | malformed text => exact h.fails _
      | rejected status => exact h.fails _
  case h_7 => exact h

/-! ## Checksums that are computed first -/

/-- An engine that is where the source is has consumed everything at the end. -/
theorem drain_tracks {payload payload' : ChecksummedSource} {stream : Stream}
    (h : drain digests payload stream = .ok payload')
    (htracks : payload.checksum.Tracks digests content payload.offset)
    (hle : payload.offset ≤ content.length)
    (hrest : content.drop payload.offset = stream.bytes) :
    payload'.checksum.Tracks digests content content.length ∧
      payload'.checksum.crc32c.isSome = payload.checksum.crc32c.isSome ∧
      payload'.checksum.md5Hash.isSome = payload.checksum.md5Hash.isSome := by
  induction stream generalizing payload with
  | nil =>
    cases h
    have hend := List.drop_eq_nil_iff.mp hrest
    rw [Nat.le_antisymm hle hend] at htracks
    exact ⟨htracks, rfl, rfl⟩
  | cons item stream ih =>
    cases item with
    | error e => cases h
    | ok b =>
      replace hrest : content.drop payload.offset = b ++ Stream.bytes stream := hrest
      have hlength := congrArg List.length hrest
      rw [List.length_drop, List.length_append] at hlength
      have hupdate := htracks.update ⟨_, hrest.symm⟩
      rw [checkedUpdate_self] at hupdate
      obtain ⟨hall, hcrc, hmd5⟩ := ih h hupdate
        (by simp only [ChecksummedSource.yielded]; omega)
        (by rw [ChecksummedSource.yielded, ← List.drop_drop, hrest, List.drop_left])
      refine ⟨hall, hcrc.trans ?_, hmd5.trans ?_⟩
      · simp [ChecksummedSource.yielded, Checksum.update]
      · simp [ChecksummedSource.yielded, Checksum.update]

/-- An MD5 hash that is supplied although it is to be computed is that of the content, if the
checksums are computed first. -/
def Consistent (digests : Digests) (md5 checksumPrecomputation : Bool)
    (resource : Option ObjectChecksums) (content : Bytes) : Prop :=
  checksumPrecomputation = true → md5 = true → ∀ pre ∈ resource, pre.crc32c = none →
    pre.md5Hash ≠ [] → pre.md5Hash = digests.md5 content

/-- The checksums that an upload compares with: those of the engine, or those that were computed
first. -/
theorem sendUnbufferedResumable_cases {hint : Option ℕ} {checksumPrecomputation : Bool}
    {sizes : List ℕ} {first second : Except String (List ℕ)}
    (h : sendUnbufferedResumable digests (.fresh crc32c md5) resource hint content
      checksumPrecomputation sizes first second = .ok upload) :
    Checked digests content crc32c md5 resource upload ∨
      checksumPrecomputation = true ∧ (∀ pre ∈ resource, pre.crc32c = none) ∧
        Checked digests content false false
          (some ((resource.getD {}).update (digests.checksums crc32c md5 content))) upload := by
  unfold sendUnbufferedResumable precompute at h
  dsimp only at h
  split at h
  case isFalse =>
    cases h
    exact .inl ⟨rfl, hashes_fresh digests content crc32c md5, fun range hrange => (nomatch hrange),
      rfl, fun _ hmem => (nomatch hmem)⟩
  case isTrue hcompute =>
    right
    simp only [Bool.and_eq_true, Bool.not_eq_true', Option.isSome_eq_false_iff,
      Option.isNone_iff_eq_none] at hcompute
    refine ⟨hcompute.1, ?_, ?_⟩
    · intro pre hpre
      rw [Option.mem_def.mp hpre] at hcompute
      exact hcompute.2
    · cases first with
      | error e => cases h
      | ok first =>
        simp only [UnbufferedUpload.seek, ChecksummedSource.seek, Except.map, List.drop_zero] at h
        split at h
        case h_1 => cases h
        case h_2 payload hdrain =>
          cases second with
          | error e => cases h
          | ok second =>
            obtain ⟨htracks, hcrc, hmd5⟩ := drain_tracks hdrain
              (Checksum.tracks_fresh digests content crc32c md5) (Nat.zero_le _)
              (bytes_chunked first content).symm
            have hfresh := hashes_fresh digests content crc32c md5
            have hcomputed : payload.finalChecksum digests =
                digests.checksums crc32c md5 content := by
              rw [ChecksummedSource.finalChecksum, htracks.finalize, hcrc, hmd5,
                hfresh.crc32c_isSome, hfresh.md5_isSome]
            rw [hcomputed] at h
            cases h
            refine ⟨rfl, ⟨⟨0, ?_⟩, rfl, rfl⟩, fun range hrange => (nomatch hrange), rfl,
              fun _ hmem => (nomatch hmem)⟩
            exact Checksum.tracks_fresh digests content false false

/-- The comparison with what was supplied or else computed first covers both. -/
theorem verified_of_update {object : Object} {checksumPrecomputation : Bool}
    (hprecompute : checksumPrecomputation = true)
    (hconsistent : Consistent digests md5 checksumPrecomputation resource content)
    (hcrc : ∀ pre ∈ resource, pre.crc32c = none)
    (h : Verified digests false false
      (some ((resource.getD {}).update (digests.checksums crc32c md5 content))) content object) :
    Verified digests crc32c md5 resource content object := by
  intro received hreceived
  have hagree := (h received hreceived).1 _ rfl
  have hnone : (resource.getD {}).crc32c = none := by
    cases resource with
    | none => rfl
    | some pre => exact hcrc pre rfl
  refine ⟨fun pre hpre => ⟨?_, ?_⟩, ⟨?_, ?_⟩⟩
  · intro e r he
    rw [hcrc pre hpre] at he
    cases he
  · intro hpre' hr
    obtain rfl : resource = some pre := hpre
    have hmd5 := hagree.md5
    simp only [ObjectChecksums.update, Option.getD_some, hpre', ↓reduceIte] at hmd5
    exact hmd5 hpre' hr
  · intro e r he hr
    refine hagree.crc32c e r ?_ hr
    rw [ObjectChecksums.update, hnone, Option.none_or]
    exact he
  · intro he hr
    have hmd5 := hagree.md5
    by_cases hsupplied : (resource.getD {}).md5Hash = []
    · simp only [ObjectChecksums.update, hsupplied, ↓reduceIte] at hmd5
      exact hmd5 he hr
    · simp only [ObjectChecksums.update, hsupplied, ↓reduceIte] at hmd5
      have henabled : md5 = true := by
        cases md5 with
        | true => rfl
        | false => exact absurd rfl he
      have hsame : (resource.getD {}).md5Hash = digests.md5 content := by
        cases hresource : resource with
        | none =>
          rw [hresource] at hsupplied
          exact absurd rfl hsupplied
        | some pre =>
          rw [hresource] at hsupplied
          exact hconsistent hprecompute henabled pre hresource (hcrc pre hresource) hsupplied
      rw [← hmd5 hsupplied hr, hsame, Digests.checksums, henabled]
      rfl

end UnbufferedUpload

/-! ## Every run -/

/-- An upload that returns an object has verified its checksums, in every run in which no status
query reports a finalized upload and no request is answered with the object early. -/
theorem success_means_verified (digests : Digests) (crc32c md5 : Bool)
    (resource : Option ObjectChecksums) (content : Bytes) :
    (∀ (bufferSize : ℕ) (hint : Option ℕ) (source : Stream), source.bytes = content →
      let upload := sendBufferedResumable (.fresh crc32c md5) resource bufferSize hint source
      ∀ events, Along (BufferedUpload.handle digests) (BufferedUpload.Admits content) upload events →
        ∀ object, .ok object ∈ (upload.run digests events).returned →
          Verified digests crc32c md5 resource content object) ∧
    (∀ (hint : Option ℕ) (checksumPrecomputation : Bool) (sizes : List ℕ)
      (first second : Except String (List ℕ)) (upload : UnbufferedUpload),
      sendUnbufferedResumable digests (.fresh crc32c md5) resource hint content
        checksumPrecomputation sizes first second = .ok upload →
      UnbufferedUpload.Consistent digests md5 checksumPrecomputation resource content →
      ∀ events, Along (UnbufferedUpload.handle digests) (UnbufferedUpload.Admits content) upload
          events →
        ∀ object, .ok object ∈ (upload.run digests events).returned →
          Verified digests crc32c md5 resource content object) := by
  constructor
  · intro bufferSize hint source hsource upload events halong object hmem
    subst hsource
    have hstart : BufferedUpload.Checked digests source.bytes crc32c md5 resource upload :=
      BufferedUpload.checked_sendBufferedResumable digests crc32c md5 resource bufferSize hint source
    have hrun := along_invariant (fun _ _ hadmits h => h.handle hadmits) hstart halong
    exact hrun.verified object hmem
  · intro hint checksumPrecomputation sizes first second upload hsend hconsistent events halong
      object hmem
    rcases UnbufferedUpload.sendUnbufferedResumable_cases hsend with hstart | ⟨hpre, hcrc, hstart⟩
    · have hrun := along_invariant (fun _ _ hadmits h => h.handle hadmits) hstart halong
      exact hrun.verified object hmem
    · have hrun := along_invariant (fun _ _ hadmits h => h.handle hadmits) hstart halong
      exact UnbufferedUpload.verified_of_update hpre hconsistent hcrc (hrun.verified object hmem)

/-- Two uploads of two bytes whose last requests are answered with the object. -/
theorem success_means_verified_two_bytes :
    let digests : Digests := ⟨Crc32c.append, Crc32c.append_nil, Crc32c.append_append, fun _ => []⟩
    let object : Object := ⟨some { crc32c := some (Crc32c.append 0 [1, 2]) }⟩
    let upload := sendBufferedResumable (.fresh true false) none 0 none [.ok [1], .ok [2]]
    let events := [.attempt, .started (.ok "url"), .responded (.ok (.object object))]
    (.ok object ∈ (upload.run digests events).returned ∧
      Verified digests true false none [1, 2] object) ∧
    ∃ upload, sendUnbufferedResumable digests (.fresh true false) none none [1, 2] true []
        (.ok []) (.ok []) = .ok upload ∧
      (.ok object ∈ (upload.run digests [.attempt, .started (.ok "url"), .sought (.ok []), .pulled,
        .responded (.ok (.object object))]).returned ∧
      Verified digests true false none [1, 2] object) := by
  intro digests object upload events
  have hmain := success_means_verified digests true false none [1, 2]
  constructor
  · have hmem : .ok object ∈ (upload.run digests events).returned := by decide +kernel
    refine ⟨hmem, hmain.1 0 none [.ok [1], .ok [2]] rfl events ?_ object hmem⟩
    refine ⟨trivial, trivial, ⟨?_, ?_⟩, trivial⟩
    · intro crc hcrc
      obtain rfl := Option.some.inj hcrc
      rfl
    · intro state hstate
      cases hstate
  · refine ⟨_, rfl, ?_⟩
    refine ⟨by decide +kernel, hmain.2 none true [] (.ok []) (.ok []) _ rfl ?_
      [.attempt, .started (.ok "url"), .sought (.ok []), .pulled, .responded (.ok (.object object))]
      ?_ object (by decide +kernel)⟩
    · intro _ hmd5
      cases hmd5
    · refine ⟨trivial, trivial, trivial, trivial, ⟨?_, ?_⟩, trivial⟩
      · intro crc hcrc
        cases hcrc
      · intro state hstate
        cases hstate

/-- After an interrupted attempt the answer to a status query is returned as it is. -/
theorem finalized_object_not_verified :
    let digests : Digests := ⟨Crc32c.append, Crc32c.append_nil, Crc32c.append_append, fun _ => []⟩
    let object : Object := ⟨some { crc32c := some 0 }⟩
    let upload := sendBufferedResumable (.fresh true false) none 0 none [.ok [1, 2]]
    .ok object ∈ (upload.run digests [.attempt, .started (.ok "url"),
        .responded (.ok (.rejected 503)), .attempt, .responded (.ok (.object object))]).returned ∧
      (∃ upload, sendUnbufferedResumable digests (.fresh true false) none none [1, 2] true []
          (.ok []) (.ok []) = .ok upload ∧
        .ok object ∈ (upload.run digests [.attempt, .started (.ok "url"), .sought (.ok []), .pulled,
          .responded (.error "reset"), .attempt, .responded (.ok (.object object))]).returned) ∧
      ¬Verified digests true false none [1, 2] object := by
  intro digests object upload
  refine ⟨by decide +kernel, ⟨_, rfl, by decide +kernel⟩, ?_⟩
  intro hverified
  have hequal := (hverified _ rfl).2.crc32c _ _ rfl rfl
  exact absurd hequal (by decide +kernel)

end GoogleCloudRust.PerformUpload
