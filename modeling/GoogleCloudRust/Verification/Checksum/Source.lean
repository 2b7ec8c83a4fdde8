import GoogleCloudRust.Library.Crc32c
import GoogleCloudRust.Library.Interleaving
import GoogleCloudRust.Model.Checksum

/-! # Checksums of what was read

Validation passes exactly when the checksums present on both sides are equal, and an engine that
is fed the parts of some data has the checksums of a prefix of it. For a source that is read and
sought, it is the prefix that the reads extend: a read counts from where the prefix ends, if it
begins there or before. -/

namespace GoogleCloudRust

namespace Storage

/-! ## Validation -/

/-- The checksums that both sides have are equal. -/
structure Agree (expected received : ObjectChecksums) : Prop where
  crc32c : ∀ e r, expected.crc32c = some e → received.crc32c = some r → e = r
  md5 : expected.md5Hash ≠ [] → received.md5Hash ≠ [] → expected.md5Hash = received.md5Hash

theorem differentCrc32c_eq_none_iff (expected received : ObjectChecksums) :
    differentCrc32c expected received = none ↔
      ∀ e r, expected.crc32c = some e → received.crc32c = some r → e = r := by
  unfold differentCrc32c
  cases expected.crc32c <;> cases received.crc32c <;> simp

theorem differentMd5_eq_none_iff (expected received : ObjectChecksums) :
    differentMd5 expected received = none ↔ (expected.md5Hash ≠ [] → received.md5Hash ≠ [] →
      expected.md5Hash = received.md5Hash) := by
  unfold differentMd5
  split
  case isTrue h => simp only [true_iff]; tauto
  case isFalse h => simp only [reduceCtorEq, false_iff]; tauto

theorem validate_eq_ok_iff (expected received : ObjectChecksums) :
    validate expected (some received) = .ok () ↔ Agree expected received := by
  constructor
  · intro hok
    simp only [validate] at hok
    split at hok <;> try cases hok
    case h_1 hcrc hmd5 =>
      exact ⟨(differentCrc32c_eq_none_iff _ _).mp hcrc, (differentMd5_eq_none_iff _ _).mp hmd5⟩
  · intro hagree
    simp only [validate, (differentCrc32c_eq_none_iff _ _).mpr hagree.crc32c,
      (differentMd5_eq_none_iff _ _).mpr hagree.md5]

/-! ## Engines -/

variable {digests : Digests} {content : Bytes} {position : ℕ}

/-- The checksums of some data, of the kinds that are enabled. -/
def Digests.checksums (digests : Digests) (crc32c md5 : Bool) (data : Bytes) : ObjectChecksums where
  crc32c := if crc32c then some (digests.crc32c data) else none
  md5Hash := if md5 then digests.md5 data else []

/-- A new engine for the enabled kinds. -/
def Checksum.fresh (crc32c md5 : Bool) : Checksum ℕ where
  crc32c := if crc32c then some {} else none
  md5Hash := if md5 then some {} else none

/-- The engine has consumed the first `position` bytes of `content`. -/
structure Checksum.Tracks (digests : Digests) (content : Bytes) (position : ℕ)
    (checksum : Checksum ℕ) : Prop where
  crc32c : ∀ crc, checksum.crc32c = some crc →
    crc = ⟨digests.crc32c (content.take position), position⟩
  md5 : ∀ md5, checksum.md5Hash = some md5 → md5 = ⟨content.take position, position⟩

/-- The update of an engine that counts with numbers. -/
theorem checkedUpdate_eq (current offset : ℕ) (data : Bytes) :
    checkedUpdate current offset data =
      if offset ≤ current ∧ current < offset + data.length then
        (offset + data.length, data.drop (current - offset))
      else (current, []) := rfl

/-- An engine takes all of the data that begins where it is. -/
theorem checkedUpdate_self (position : ℕ) (data : Bytes) :
    (checkedUpdate position position data).1 = position + data.length := by
  rw [checkedUpdate_eq]
  split
  case isTrue => rfl
  case isFalse hempty =>
    dsimp only
    omega

namespace Checksum

variable {checksum : Checksum ℕ}

theorem tracks_fresh (digests : Digests) (content : Bytes) (crc32c md5 : Bool) :
    Tracks digests content 0 (fresh crc32c md5) where
  crc32c := by
    intro crc hcrc
    cases crc32c <;> cases hcrc
    rw [List.take_zero, Digests.crc32c, digests.append_nil]
    rfl
  md5 := by
    intro state hstate
    cases md5 <;> cases hstate
    rfl

/-- Where an engine is after it was given a part of the content. -/
theorem checkedUpdate_part {offset : ℕ} {data : Bytes} (hdata : data <+: content.drop offset) :
    content.take (checkedUpdate position offset data).1 =
      content.take position ++ (checkedUpdate position offset data).2 := by
  rw [checkedUpdate_eq]
  split
  case isFalse => simp
  case isTrue hin =>
    obtain ⟨rest, hrest⟩ := hdata
    have hdrop : data.drop (position - offset) ++ rest = content.drop position := by
      rw [← List.drop_append_of_le_length (by omega), hrest, List.drop_drop]
      congr 1
      omega
    have hlength : (offset + data.length) = position + (data.drop (position - offset)).length := by
      rw [List.length_drop]
      omega
    show content.take (offset + data.length) = _
    rw [hlength, List.take_add, ← hdrop, List.take_left']
    rfl

theorem Tracks.update (h : Tracks digests content position checksum) {offset : ℕ} {data : Bytes}
    (hdata : data <+: content.drop offset) :
    Tracks digests content (checkedUpdate position offset data).1
      (checksum.update digests offset data) where
  crc32c := by
    intro crc hcrc
    obtain ⟨crc', hcrc', rfl⟩ := Option.map_eq_some_iff.mp hcrc
    rw [h.crc32c crc' hcrc', Crc32c.update, Digests.crc32c, digests.append_append,
      checkedUpdate_part hdata, Digests.crc32c]
  md5 := by
    intro md5 hmd5
    obtain ⟨md5', hmd5', rfl⟩ := Option.map_eq_some_iff.mp hmd5
    rw [h.md5 md5' hmd5', Md5.update, checkedUpdate_part hdata]

/-- The checksums of an engine that has consumed everything. -/
theorem Tracks.finalize (h : Tracks digests content content.length checksum) :
    checksum.finalize digests =
      digests.checksums checksum.crc32c.isSome checksum.md5Hash.isSome content := by
  have hcrc : checksum.crc32c.map (·.checksum) =
      if checksum.crc32c.isSome then some (digests.crc32c content) else none := by
    cases hcase : checksum.crc32c with
    | none => rfl
    | some crc => simp [h.crc32c crc hcase]
  have hmd5 : (checksum.md5Hash.map fun md5 => digests.md5 md5.hasher).getD [] =
      if checksum.md5Hash.isSome then digests.md5 content else [] := by
    cases hcase : checksum.md5Hash with
    | none => rfl
    | some md5 => simp [h.md5 md5 hcase]
  rw [Checksum.finalize, hcrc, hmd5]
  rfl

theorem Tracks.take (h : Tracks digests content position checksum)
    (hle : position ≤ content.length) :
    checksum.finalize digests = digests.checksums checksum.crc32c.isSome checksum.md5Hash.isSome
      (content.take position) := by
  apply Tracks.finalize
  rw [List.length_take, Nat.min_eq_left hle]
  refine ⟨?_, ?_⟩
  · rw [List.take_take, Nat.min_self]
    exact h.crc32c
  · rw [List.take_take, Nat.min_self]
    exact h.md5

end Checksum

/-! ## Offsets of 64 bits -/

/-- The engine with offsets that are numbers. -/
def Checksum.unbounded (checksum : Checksum UInt64) : Checksum ℕ where
  crc32c := checksum.crc32c.map fun crc => ⟨crc.checksum, crc.offset.toNat⟩
  md5Hash := checksum.md5Hash.map fun md5 => ⟨md5.hasher, md5.offset.toNat⟩

theorem toNat_add_length {offset : UInt64} {data : Bytes}
    (h : offset.toNat + data.length < 2 ^ 64) :
    (offset + UInt64.ofNat data.length).toNat = offset.toNat + data.length := by
  rw [UInt64.toNat_add, UInt64.toNat_ofNat', Nat.add_mod_mod, Nat.mod_eq_of_lt h]

/-- The update of an engine that counts with words. -/
theorem checkedUpdate_word (current offset : UInt64) (data : Bytes) :
    checkedUpdate current offset data =
      if offset.toNat ≤ current.toNat ∧
          current.toNat < (offset + UInt64.ofNat data.length).toNat then
        (offset + UInt64.ofNat data.length, data.drop (current.toNat - offset.toNat))
      else (current, []) := rfl

/-- Without an overflow words count like numbers. -/
theorem checkedUpdate_toNat (current : UInt64) {offset : UInt64} {data : Bytes}
    (h : offset.toNat + data.length < 2 ^ 64) :
    checkedUpdate current.toNat offset.toNat data =
      ((checkedUpdate current offset data).1.toNat, (checkedUpdate current offset data).2) := by
  have hlast := toNat_add_length h
  rw [checkedUpdate_eq, checkedUpdate_word, hlast]
  split
  case isTrue => rw [hlast]
  case isFalse => rfl

theorem Checksum.unbounded_update (checksum : Checksum UInt64) {offset : UInt64} {data : Bytes}
    (h : offset.toNat + data.length < 2 ^ 64) :
    (checksum.update digests offset data).unbounded =
      checksum.unbounded.update digests offset.toNat data := by
  have hcrc : ∀ crc : Crc32c UInt64,
      (⟨(crc.update digests offset data).checksum, (crc.update digests offset data).offset.toNat⟩ :
          Crc32c ℕ) =
        Crc32c.update digests ⟨crc.checksum, crc.offset.toNat⟩ offset.toNat data := by
    intro crc
    simp only [Crc32c.update, checkedUpdate_toNat crc.offset h]
  have hmd5 : ∀ md5 : Md5 UInt64,
      (⟨(md5.update offset data).hasher, (md5.update offset data).offset.toNat⟩ : Md5 ℕ) =
        Md5.update ⟨md5.hasher, md5.offset.toNat⟩ offset.toNat data := by
    intro md5
    simp only [Md5.update, checkedUpdate_toNat md5.offset h]
  simp only [Checksum.unbounded, Checksum.update, Option.map_map]
  congr 1
  · exact Option.map_congr fun crc _ => hcrc crc
  · exact Option.map_congr fun md5 _ => hmd5 md5

end Storage

namespace Checksumming

open Storage

variable {digests : Digests}

/-! ## Reading a source -/

/-- What a source yields from its start to its end. -/
structure Content where
  bytes : Bytes
  isSized : bytes.length < 2 ^ 64

inductive Event
  /-- The source yields at most so many bytes. -/
  | next (length : ℕ)
  | finished
  | failed (text : String)
  | seek (offset : UInt64)
  /-- The source may be anywhere afterwards. -/
  | seekFailed (offset : UInt64) (text : String) (position : ℕ)

/-- A source at some position, and what was read of it from positions that were known: where each
read began and its length, and the end of the prefix that the reads extend. -/
structure Reading where
  payload : ChecksummedSource
  position : ℕ := 0
  known : Bool := true
  reads : List (ℕ × ℕ) := []
  covered : ℕ := 0

namespace Reading

def start (crc32c md5 : Bool) : Reading where
  payload := .new
    { crc32c := if crc32c then some {} else none, md5Hash := if md5 then some {} else none }

/-- The bytes that the source yields. -/
def yields (content : Content) (reading : Reading) (length : ℕ) : Bytes :=
  (content.bytes.drop reading.position).take length

/-- A read that begins in the prefix or at its end extends it. -/
def extend (covered position length : ℕ) : ℕ :=
  if position ≤ covered then max covered (position + length) else covered

def handle (digests : Digests) (content : Content) (reading : Reading) : Event → Reading
  | .next length =>
      let b := reading.yields content length
      { payload := reading.payload.next digests (some (.ok b))
        position := reading.position + b.length
        known := reading.known
        reads := if reading.known then reading.reads ++ [(reading.position, b.length)]
          else reading.reads
        covered := if reading.known then extend reading.covered reading.position b.length
          else reading.covered }
  | .finished => { reading with payload := reading.payload.next digests none }
  | .failed text => { reading with payload := reading.payload.next digests (some (.error text)) }
  | .seek offset =>
      { reading with
        payload := reading.payload.seek offset (.ok ())
        position := offset.toNat
        known := true }
  | .seekFailed offset text position =>
      { reading with
        payload := reading.payload.seek offset (.error text)
        position
        known := false }

def run (digests : Digests) (content : Content) (reading : Reading) (events : List Event) :
    Reading :=
  events.foldl (handle digests content) reading

/-- At an unknown position the code places a chunk over the end of the prefix. -/
def Lands (content : Content) (reading : Reading) : Event → Prop
  | .next length =>
      reading.known = false ∧ reading.payload.offset.toNat ≤ reading.covered ∧
        reading.covered < (reading.payload.offset +
          UInt64.ofNat (reading.yields content length).length).toNat
  | _ => False

instance Lands.decidable (content : Content) (reading : Reading) :
    ∀ event, Decidable (reading.Lands content event)
  | .next _ => inferInstanceAs (Decidable (_ ∧ _ ∧ _))
  | .finished | .failed _ | .seek _ | .seekFailed _ _ _ => inferInstanceAs (Decidable False)

/-- The engines are at the end of the prefix. -/
structure Sound (digests : Digests) (content : Content) (crc32c md5 : Bool) (reading : Reading) :
    Prop where
  tracks : reading.payload.checksum.unbounded.Tracks digests content.bytes reading.covered
  kinds : reading.payload.checksum.crc32c.isSome = crc32c ∧
    reading.payload.checksum.md5Hash.isSome = md5
  covered_le : reading.covered ≤ content.bytes.length
  position : reading.known = true → reading.payload.offset.toNat = reading.position

variable {content : Content} {crc32c md5 : Bool} {reading : Reading}

theorem sound_start (digests : Digests) (content : Content) (crc32c md5 : Bool) :
    (start crc32c md5).Sound digests content crc32c md5 where
  tracks := by
    have hfresh := Checksum.tracks_fresh digests content.bytes crc32c md5
    cases crc32c with
    | false => cases md5 with
      | false => exact hfresh
      | true => exact hfresh
    | true => cases md5 with
      | false => exact hfresh
      | true => exact hfresh
  kinds := by
    cases crc32c with
    | false => cases md5 with
      | false => exact ⟨rfl, rfl⟩
      | true => exact ⟨rfl, rfl⟩
    | true => cases md5 with
      | false => exact ⟨rfl, rfl⟩
      | true => exact ⟨rfl, rfl⟩
  covered_le := Nat.zero_le _
  position := fun _ => rfl

/-- What the source yields ends before the content does. -/
theorem yields_le (length : ℕ) (hne : reading.yields content length ≠ []) :
    reading.position + (reading.yields content length).length ≤ content.bytes.length := by
  unfold yields at hne ⊢
  have hpos := List.length_pos_iff.mpr hne
  simp only [List.length_take, List.length_drop] at hpos ⊢
  omega

theorem kinds_update (digests : Digests) (checksum : Checksum UInt64) (offset : UInt64)
    (data : Bytes) :
    (checksum.update digests offset data).crc32c.isSome = checksum.crc32c.isSome ∧
      (checksum.update digests offset data).md5Hash.isSome = checksum.md5Hash.isSome :=
  ⟨Option.isSome_map .., Option.isSome_map ..⟩

/-- An update without a byte for the engines leaves them. -/
theorem update_unchanged {checksum : Checksum UInt64} {offset : UInt64} {data : Bytes} {position : ℕ}
    (h : checksum.unbounded.Tracks digests content.bytes position)
    (hout : ¬ (offset.toNat ≤ position ∧
      position < (offset + UInt64.ofNat data.length).toNat)) :
    checksum.update digests offset data = checksum := by
  have hskip : ∀ current : UInt64, current.toNat = position →
      checkedUpdate current offset data = (current, []) := by
    intro current hcurrent
    rw [checkedUpdate_word]
    apply if_neg
    rw [hcurrent]
    exact hout
  have hcrc : checksum.crc32c.map (·.update digests offset data) = checksum.crc32c := by
    cases hcase : checksum.crc32c with
    | none => rfl
    | some crc =>
        have hoffset : crc.offset.toNat = position :=
          congrArg Crc32c.offset (h.crc32c _ (by simp [Checksum.unbounded, hcase]; rfl))
        simp only [Option.map_some, Crc32c.update, hskip crc.offset hoffset, digests.append_nil]
  have hmd5 : checksum.md5Hash.map (·.update offset data) = checksum.md5Hash := by
    cases hcase : checksum.md5Hash with
    | none => rfl
    | some md5 =>
        have hoffset : md5.offset.toNat = position :=
          congrArg Md5.offset (h.md5 _ (by simp [Checksum.unbounded, hcase]; rfl))
        simp only [Option.map_some, Md5.update, hskip md5.offset hoffset, List.append_nil]
  rw [Checksum.update, hcrc, hmd5]

theorem checkedUpdate_fst (covered position : ℕ) (data : Bytes) :
    (checkedUpdate covered position data).1 = extend covered position data.length := by
  rw [checkedUpdate_eq, extend]
  by_cases hle : position ≤ covered
  · by_cases hlt : covered < position + data.length
    · rw [if_pos ⟨hle, hlt⟩, if_pos hle, Nat.max_eq_right hlt.le]
    · rw [if_neg (fun h => hlt h.2), if_pos hle, Nat.max_eq_left (Nat.le_of_not_lt hlt)]
  · rw [if_neg (fun h => hle h.1), if_neg hle]

theorem Sound.next_known (h : reading.Sound digests content crc32c md5)
    (hknown : reading.known = true) (length : ℕ) :
    (reading.handle digests content (.next length)).Sound digests content crc32c md5 := by
  have hoffset := h.position hknown
  have hcontent := content.isSized
  have hfits : reading.payload.offset.toNat + (reading.yields content length).length < 2 ^ 64 := by
    by_cases hne : reading.yields content length = []
    · rw [hne]
      exact reading.payload.offset.toNat_lt
    · have hle := yields_le length hne
      omega
  have hpart : reading.yields content length <+: content.bytes.drop reading.position :=
    List.take_prefix _ _
  have htracks := h.tracks.update hpart
  rw [checkedUpdate_fst, ← hoffset, ← Checksum.unbounded_update _ hfits, hoffset] at htracks
  obtain ⟨hcrc, hmd5⟩ := kinds_update digests reading.payload.checksum reading.payload.offset
    (reading.yields content length)
  simp only [handle, hknown, if_true]
  refine ⟨htracks, ⟨hcrc.trans h.kinds.1, hmd5.trans h.kinds.2⟩, ?_, ?_⟩
  · have hcovered := h.covered_le
    simp only [extend]
    split
    case isTrue hin =>
      apply Nat.max_le.mpr ⟨hcovered, ?_⟩
      by_cases hne : reading.yields content length = []
      · rw [hne]
        exact hin.trans hcovered
      · exact yields_le length hne
    case isFalse => exact hcovered
  · intro _
    exact (toNat_add_length hfits).trans (by rw [hoffset])

theorem Sound.next_unknown (h : reading.Sound digests content crc32c md5)
    (hknown : reading.known = false) {length : ℕ}
    (hlands : ¬ reading.Lands content (.next length)) :
    (reading.handle digests content (.next length)).Sound digests content crc32c md5 := by
  have hsame : reading.payload.checksum.update digests reading.payload.offset
      (reading.yields content length) = reading.payload.checksum := by
    apply update_unchanged h.tracks
    intro hin
    exact hlands ⟨hknown, hin⟩
  simp only [handle, hknown, Bool.false_eq_true, if_false, ChecksummedSource.next, hsame]
  refine ⟨h.tracks, h.kinds, h.covered_le, ?_⟩
  intro hknown'
  cases hknown'

theorem Sound.handle (h : reading.Sound digests content crc32c md5) {event : Event}
    (hlands : ¬ reading.Lands content event) :
    (reading.handle digests content event).Sound digests content crc32c md5 := by
  cases event with
  | next length =>
      cases hknown : reading.known with
      | true => exact h.next_known hknown length
      | false => exact h.next_unknown hknown hlands
  | finished => exact ⟨h.tracks, h.kinds, h.covered_le, h.position⟩
  | failed text => exact ⟨h.tracks, h.kinds, h.covered_le, h.position⟩
  | seek offset => exact ⟨h.tracks, h.kinds, h.covered_le, fun _ => rfl⟩
  | seekFailed offset text position =>
      refine ⟨h.tracks, h.kinds, h.covered_le, ?_⟩
      intro hknown
      cases hknown

theorem Sound.finalChecksum (h : reading.Sound digests content crc32c md5) :
    reading.payload.finalChecksum digests =
      digests.checksums crc32c md5 (content.bytes.take reading.covered) := by
  have hfinal : reading.payload.finalChecksum digests =
      reading.payload.checksum.unbounded.finalize digests := by
    simp [ChecksummedSource.finalChecksum, Checksum.finalize,
      Checksum.unbounded, Function.comp_def]
  have hkinds : reading.payload.checksum.unbounded.crc32c.isSome = crc32c ∧
      reading.payload.checksum.unbounded.md5Hash.isSome = md5 := by
    simpa [Checksum.unbounded] using h.kinds
  rw [hfinal, h.tracks.take h.covered_le, hkinds.1, hkinds.2]

/-- The chunk that is read first after a failed seek ends before the engines. -/
theorem not_lands_of_sentinel
    (hoffset : reading.payload.offset = UInt64.ofNat (2 ^ 64 - 1)) (event : Event) :
    ¬ reading.Lands content event := by
  cases event with
  | next length =>
      rintro ⟨-, hle, hlt⟩
      have hsentinel : (UInt64.ofNat (2 ^ 64 - 1)).toNat = 2 ^ 64 - 1 := rfl
      have hlast := (reading.payload.offset +
        UInt64.ofNat (reading.yields content length).length).toNat_lt
      rw [hoffset, hsentinel] at hle
      omega
  | finished => exact id
  | failed text => exact id
  | seek offset => exact id
  | seekFailed offset text position => exact id

/-- The enabled checksums are those of the prefix that the reads extend, and a read at an unknown
position changes none of them. -/
theorem checksums_of_covered (digests : Digests) (content : Content) (crc32c md5 : Bool)
    (events : List Event)
    (hevents : Interleaving.Along (handle digests content)
      (fun reading event => ¬ reading.Lands content event) (start crc32c md5) events) :
    let reading := (start crc32c md5).run digests content events
    reading.payload.finalChecksum digests =
        digests.checksums crc32c md5 (content.bytes.take reading.covered) ∧
      (reading.known = false → ∀ length, ¬ reading.Lands content (.next length) →
        (reading.handle digests content (.next length)).payload.checksum =
          reading.payload.checksum) := by
  intro reading
  have hsound : reading.Sound digests content crc32c md5 :=
    Interleaving.along_invariant
      (motive := fun reading => reading.Sound digests content crc32c md5)
      (fun _ _ hlands h => h.handle hlands) (sound_start digests content crc32c md5) hevents
  refine ⟨hsound.finalChecksum, ?_⟩
  intro hknown length hlands
  apply update_unchanged hsound.tracks
  intro hin
  exact hlands ⟨hknown, hin⟩

/-- The real CRC32C. -/
def crc32cDigests : Digests where
  crc32cAppend := Crc32c.append
  append_nil := Crc32c.append_nil
  append_append := Crc32c.append_append
  md5 := fun _ => []

/-- A chunk that is read again after a failed seek, and the one behind it. -/
theorem checksums_of_covered_three :
    ((start true false).run crc32cDigests ⟨[1, 2, 3], by decide⟩
        [.next 2, .seekFailed 0 "" 0, .next 1, .seek 1, .next 2]).payload.finalChecksum
          crc32cDigests =
      crc32cDigests.checksums true false [1, 2, 3] :=
  (checksums_of_covered crc32cDigests ⟨[1, 2, 3], by decide⟩ true false
    [.next 2, .seekFailed 0 "" 0, .next 1, .seek 1, .next 2] (by decide)).1

/-- The first `k` bytes were read, and the one after them was not. -/
def IsCoveredPrefix (reads : List (ℕ × ℕ)) (k : ℕ) : Prop :=
  (∀ i < k, ∃ read ∈ reads, read.1 ≤ i ∧ i < read.1 + read.2) ∧
    ∀ read ∈ reads, ¬ (read.1 ≤ k ∧ k < read.1 + read.2)

/-- What was read beyond a gap is not counted when the gap is filled. -/
theorem gap_filled_later : ¬ ∀ (digests : Digests) (content : Content) (crc32c md5 : Bool)
    (events : List Event) (k : ℕ),
    IsCoveredPrefix ((start crc32c md5).run digests content events).reads k →
      ((start crc32c md5).run digests content events).payload.finalChecksum digests =
        digests.checksums crc32c md5 (content.bytes.take k) := by
  intro h
  have hreads : IsCoveredPrefix ((start true false).run crc32cDigests ⟨[1, 2], by decide⟩
      [.seek 1, .next 1, .seek 0, .next 1]).reads 2 := by
    unfold IsCoveredPrefix
    decide
  have hclaim := h crc32cDigests ⟨[1, 2], by decide⟩ true false
    [.seek 1, .next 1, .seek 0, .next 1] 2 hreads
  have hcrc := congrArg ObjectChecksums.crc32c hclaim
  revert hcrc
  decide +kernel

end Reading

end Checksumming

end GoogleCloudRust
