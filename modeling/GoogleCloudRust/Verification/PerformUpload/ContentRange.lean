import GoogleCloudRust.Verification.PerformUpload.Conservation

/-! # What the header of an upload request says

The header `Content-Range` describes the buffer that is sent, and the size of the object where it
is known. -/

namespace GoogleCloudRust.PerformUpload

open Storage Text Interleaving InProgressUpload

variable {digests : Digests} {content : Bytes}

/-! ## Reading the header -/

/-- The first and the last byte and the size that a `Content-Range` declares. -/
def parseContentRange (text : List Char) : Option (Option (ℕ × ℕ) × Option ℕ) :=
  (strip "bytes ".toList text).bind fun text =>
    (splitOnce '/' text).bind fun (range, size) =>
      let total := if size = ['*'] then some none else (parseU64 size).toOption.map some
      let bytes :=
        if range = ['*'] then some none
        else (splitOnce '-' range).bind fun (first, last) =>
          (parseU64 first).toOption.bind fun first =>
            (parseU64 last).toOption.map fun last => some (first, last)
      bytes.bind fun bytes => total.map fun total => (bytes, total)

theorem parse_sizeText {total : Option ℕ} (htotal : ∀ size ∈ total, size < 2 ^ 64) :
    (if sizeText total = ['*'] then some none
      else (parseU64 (sizeText total)).toOption.map some) = some total := by
  cases total with
  | none => rfl
  | some total =>
      rw [sizeText, if_neg (decimal_ne_star total), parseU64_decimal_toOption (htotal total rfl),
        Option.map_some]

theorem parse_contentRange {bytes : Option (ℕ × ℕ)} {total : Option ℕ}
    (hbytes : ∀ pair ∈ bytes, pair.1 < 2 ^ 64 ∧ pair.2 < 2 ^ 64)
    (htotal : ∀ size ∈ total, size < 2 ^ 64) :
    parseContentRange (contentRange bytes total) = some (bytes, total) := by
  unfold parseContentRange InProgressUpload.contentRange
  rw [List.append_assoc, strip_append, Option.bind_some]
  cases bytes with
  | none =>
      rw [rangeText, splitOnce_append (by decide), Option.bind_some]
      simp only [parse_sizeText htotal, ↓reduceIte, Option.bind_some, Option.map_some]
  | some pair =>
      obtain ⟨first, last⟩ := pair
      obtain ⟨hfirst, hlast⟩ := hbytes (first, last) rfl
      have hslash : '/' ∉ decimal first ++ '-' :: decimal last := by
        have hfirst : '/' ∉ decimal first := not_mem_decimal (by decide) first
        have hlast : '/' ∉ decimal last := not_mem_decimal (by decide) last
        simp [hfirst, hlast]
      have hdash : splitOnce '-' (decimal first ++ '-' :: decimal last) =
          some (decimal first, decimal last) :=
        splitOnce_append (not_mem_decimal (by decide) first) _
      have hstar : decimal first ++ '-' :: decimal last ≠ ['*'] := by
        intro h
        have hmem : '-' ∈ decimal first ++ '-' :: decimal last := by simp
        rw [h] at hmem
        simp at hmem
      rw [rangeText, splitOnce_append hslash, Option.bind_some]
      simp only [parse_sizeText htotal, hstar, ↓reduceIte, hdash, Option.bind_some,
        parseU64_decimal_toOption hfirst, parseU64_decimal_toOption hlast, Option.map_some]

/-! ## The subtractions -/

/-- The difference `o + n - 1`, unless it is below zero. -/
def lastByte (o n : ℕ) : Option ℕ := if 1 ≤ o + n then some (o + n - 1) else none

theorem lastByte_of_pos {o n : ℕ} (h : o ≠ 0 ∨ n ≠ 0) : lastByte o n = some (o + n - 1) := by
  apply if_pos
  omega

/-- The header where a subtraction below zero has no result. -/
def checkedRangeHeader (progress : InProgressUpload) : Option (List Char) :=
  match progress.bufferSize, progress.offset, progress.hint with
  | 0, 0, some len => some (contentRange none (some len))
  | n, o, some len => (lastByte o n).map fun last => contentRange (some (o, last)) (some len)
  | 0, o, none => some (contentRange none (some o))
  | n, o, none =>
      if n < progress.targetSize ∨ progress.sourceEnded then
        (lastByte o n).map fun last => contentRange (some (o, last)) (some (o + n))
      else (lastByte o n).map fun last => contentRange (some (o, last)) none

theorem checkedRangeHeader_eq (progress : InProgressUpload) :
    checkedRangeHeader progress = some progress.rangeHeader := by
  obtain ⟨targetSize, hint, offset, buffer, bufferSize⟩ := progress
  cases hint with
  | some len =>
      cases bufferSize with
      | zero =>
          cases offset with
          | zero => rfl
          | succ o =>
              simp only [checkedRangeHeader, rangeHeader, lastByte_of_pos (.inl (Nat.succ_ne_zero o)),
                Option.map_some]
      | succ n =>
          simp only [checkedRangeHeader, rangeHeader, lastByte_of_pos (.inr (Nat.succ_ne_zero n)),
            Option.map_some]
  | none =>
      cases bufferSize with
      | zero =>
          cases offset with
          | zero => rfl
          | succ o => rfl
      | succ n =>
          simp only [checkedRangeHeader, rangeHeader, lastByte_of_pos (.inr (Nat.succ_ne_zero n)),
            Option.map_some]
          split
          · rfl
          · rfl

/-! ## The header of a buffer -/

theorem rangeHeader_known {progress : InProgressUpload} {len : ℕ} (hhint : progress.hint = some len)
    (hsize : progress.bufferSize ≠ 0) :
    progress.rangeHeader = contentRange
      (some (progress.offset, progress.offset + progress.bufferSize - 1)) (some len) := by
  obtain ⟨targetSize, hint, offset, buffer, bufferSize⟩ := progress
  obtain ⟨n, rfl⟩ := Nat.exists_eq_succ_of_ne_zero hsize
  cases hhint
  rfl

theorem rangeHeader_empty {progress : InProgressUpload} (hhint : progress.hint = none)
    (hsize : progress.bufferSize = 0) :
    progress.rangeHeader = contentRange none (some progress.offset) := by
  obtain ⟨targetSize, hint, offset, buffer, bufferSize⟩ := progress
  cases hhint
  cases hsize
  cases offset with
  | zero => rfl
  | succ o => rfl

theorem rangeHeader_unknown {progress : InProgressUpload} (hhint : progress.hint = none)
    (hsize : progress.bufferSize ≠ 0) :
    progress.rangeHeader =
      contentRange (some (progress.offset, progress.offset + progress.bufferSize - 1))
        (if progress.bufferSize < progress.targetSize ∨ progress.sourceEnded = true then
          some (progress.offset + progress.bufferSize) else none) := by
  obtain ⟨targetSize, hint, offset, buffer, bufferSize⟩ := progress
  obtain ⟨n, rfl⟩ := Nat.exists_eq_succ_of_ne_zero hsize
  cases hhint
  simp only [rangeHeader]
  split
  · rfl
  · rfl

/-- The range is that of the buffer, and the total is the size of the object if it is known from the
hint or because the buffer ends where the source has ended. -/
def Describes (content : Bytes) (progress : InProgressUpload) : Prop :=
  ∃ total, parseContentRange progress.rangeHeader =
      some (if progress.bufferSize = 0 then none
        else some (progress.offset, progress.offset + progress.bufferSize - 1), total) ∧
    (total = some content.length ↔ progress.hint = some content.length ∨
      progress.offset + progress.bufferSize = content.length ∧ progress.sourceEnded = true) ∧
    (total = some content.length ∨ total = none)

namespace Filling

variable {filling : Filling}

theorem Sound.length_eq (h : filling.Sound content) :
    content.length = filling.progress.offset + (filling.progress.bufferSize +
      (filling.progress.remainder.flatten.length + filling.payload.source.bytes.length)) := by
  rw [h.size]
  exact conserves_length h.conserves

/-- A short buffer is the end of the content, and so is one that was filled when the source had
ended. -/
theorem Sound.last (h : filling.Sound content) (hfilled : filling.isFilled = true)
    (hcase : filling.progress.bufferSize < filling.progress.targetSize ∨
      filling.progress.sourceEnded = true) :
    filling.progress.offset + filling.progress.bufferSize = content.length ∧
      filling.progress.sourceEnded = true := by
  have hlength := h.length_eq
  rcases h.short hfilled with hfull | ⟨-, hended, hremainder, hsource⟩
  · rcases hcase with hlt | hended
    · exact absurd hfull hlt.ne
    · have hlt := (h.ended hended).2
      rw [← h.size] at hlt
      omega
  · rw [hremainder, hsource] at hlength
    exact ⟨hlength.symm, hended⟩

theorem Sound.isFilled (h : filling.Sound content) (hsize : filling.progress.bufferSize ≠ 0) :
    filling.isFilled = true := by
  by_contra hempty
  have hnil := h.empty (Bool.eq_false_iff.mpr hempty)
  rw [h.size, hnil] at hsize
  exact hsize rfl

/-- The range of a buffer. -/
def range (progress : InProgressUpload) : Option (ℕ × ℕ) :=
  if progress.bufferSize = 0 then none
  else some (progress.offset, progress.offset + progress.bufferSize - 1)

theorem Sound.parse (h : filling.Sound content) (hbound : content.length < 2 ^ 64)
    {total : Option ℕ} (htotal : ∀ size ∈ total, size = content.length) :
    parseContentRange (contentRange (range filling.progress) total) =
      some (range filling.progress, total) := by
  have hlength := h.length_eq
  apply parse_contentRange
  · intro pair hpair
    unfold range at hpair
    split at hpair
    · cases hpair
    · cases hpair
      dsimp only
      omega
  · intro size hsize
    rw [htotal size hsize]
    exact hbound

theorem Sound.describes_known (h : filling.Sound content) (hbound : content.length < 2 ^ 64)
    (hhint : filling.progress.hint = some content.length)
    (hcase : filling.progress.bufferSize ≠ 0 ∨ filling.progress.offset = 0) :
    Describes content filling.progress := by
  have hheader : filling.progress.rangeHeader =
      contentRange (range filling.progress) (some content.length) := by
    by_cases hsize : filling.progress.bufferSize = 0
    · have hoffset := hcase.resolve_left (fun hne => hne hsize)
      simp [rangeHeader, range, hsize, hoffset, hhint]
    · rw [rangeHeader_known hhint hsize, range, if_neg hsize]
  refine ⟨some content.length, ?_, ⟨fun _ => .inl hhint, fun _ => rfl⟩, .inl rfl⟩
  rw [hheader]
  apply h.parse hbound
  intro size hsize
  cases hsize
  rfl

theorem Sound.describes_unknown (h : filling.Sound content) (hbound : content.length < 2 ^ 64)
    (hhint : filling.progress.hint = none) (hfilled : filling.isFilled = true) :
    Describes content filling.progress := by
  have hsame : ∀ size ∈ some content.length, size = content.length := by
    intro size hsize
    cases hsize
    rfl
  by_cases hcase : filling.progress.bufferSize < filling.progress.targetSize ∨
      filling.progress.sourceEnded = true
  · have hlast := h.last hfilled hcase
    have hheader : filling.progress.rangeHeader =
        contentRange (range filling.progress) (some content.length) := by
      by_cases hsize : filling.progress.bufferSize = 0
      · rw [rangeHeader_empty hhint hsize, range, if_pos hsize, ← hlast.1, hsize, Nat.add_zero]
      · rw [rangeHeader_unknown hhint hsize, range, if_neg hsize, if_pos hcase, hlast.1]
    refine ⟨some content.length, ?_, ⟨fun _ => .inr hlast, fun _ => rfl⟩, .inl rfl⟩
    rw [hheader]
    exact h.parse hbound hsame
  · have hsize : filling.progress.bufferSize ≠ 0 := by
      intro hsize
      exact hcase (.inl (hsize ▸ h.target))
    have hheader : filling.progress.rangeHeader = contentRange (range filling.progress) none := by
      rw [rangeHeader_unknown hhint hsize, range, if_neg hsize, if_neg hcase]
    refine ⟨none, ?_, ⟨fun hsome => (nomatch hsome), ?_⟩, .inr rfl⟩
    · rw [hheader]
      apply h.parse hbound
      intro size hsome
      cases hsome
    · rintro (hknown | ⟨-, hended⟩)
      · cases hhint.symm.trans hknown
      · exact absurd (.inr hended) hcase

theorem hint_handle (h : filling.Sound content) (call : Call) :
    (filling.handle digests call).progress.hint = filling.progress.hint := by
  cases call with
  | nextBuffer =>
      obtain ⟨progress', payload', hnext, hfilled⟩ := nextBuffer_filled digests h.target h.intact
      simp only [handle, hnext]
      exact hfilled.hint
  | handlePartial persistedSize =>
      rw [handle]
      split
      case h_1 progress' hok =>
        obtain ⟨-, -, -, -, -, -, -, hhint⟩ := handlePartial_of_accepted hok
        exact hhint
      case h_2 => rfl
  | handleError => rfl

/-- After the calls of an upload loop whose accepted sizes cut the buffers cleanly. -/
theorem header_describes_buffer (digests : Digests) (checksum : Checksum ℕ) (targetSize : ℕ)
    (source : Source) (calls : List Call)
    (hcalls : Along (handle digests) (fun filling call =>
      filling.InOrder call ∧ filling.CutsCleanly call)
      (start checksum targetSize source.hint source.chunks) calls) :
    let filling := (start checksum targetSize source.hint source.chunks).run digests calls
    let progress := filling.progress
    checkedRangeHeader progress = some progress.rangeHeader ∧
      (0 < progress.bufferSize ∨ progress.hint ≠ none ∧ progress.offset = 0 ∨
        progress.hint = none ∧ filling.isFilled = true → Describes source.content progress) ∧
      (progress.bufferSize = 0 → progress.hint = none →
        parseContentRange progress.rangeHeader = some (none, some progress.offset)) := by
  intro filling progress
  obtain ⟨hsound, hhint⟩ : filling.Sound source.content ∧ progress.hint = source.hint :=
    along_invariant
      (motive := fun filling => filling.Sound source.content ∧
        filling.progress.hint = source.hint)
      (fun _ call hcall h => ⟨h.1.handle hcall.1 hcall.2, (hint_handle h.1 call).trans h.2⟩)
      ⟨sound_start checksum targetSize source.hint source.chunks, rfl⟩ hcalls
  have hlength := hsound.length_eq
  have hbound : source.content.length < 2 ^ 64 := source.bound
  refine ⟨checkedRangeHeader_eq progress, ?_, ?_⟩
  · intro hcase
    cases hsource : source.hint with
    | some len =>
        have hlen : len = source.content.length := source.hint_eq len hsource
        rw [hsource, hlen] at hhint
        apply hsound.describes_known hbound hhint
        rcases hcase with hpos | ⟨-, hoffset⟩ | ⟨hnone, -⟩
        · exact .inl (Nat.pos_iff_ne_zero.mp hpos)
        · exact .inr hoffset
        · cases hhint.symm.trans hnone
    | none =>
        rw [hsource] at hhint
        apply hsound.describes_unknown hbound hhint
        rcases hcase with hpos | ⟨hsome, -⟩ | ⟨-, hfilled⟩
        · exact hsound.isFilled (Nat.pos_iff_ne_zero.mp hpos)
        · exact absurd hhint hsome
        · exact hfilled
  · intro hsize hnone
    rw [rangeHeader_empty hnone hsize]
    apply parse_contentRange
    · intro pair hpair
      cases hpair
    · intro size hsome
      cases hsome
      show filling.progress.offset < 2 ^ 64
      omega

/-- An object of one chunk, after it was persisted. -/
theorem header_describes_buffer_one :
    parseContentRange ((start {} 0 none [[1, 2]]).run ⟨fun crc _ => crc, fun _ => rfl,
        fun _ _ _ => rfl, fun _ => []⟩
        [.nextBuffer, .handlePartial 2, .nextBuffer]).progress.rangeHeader =
      some (none, some 2) :=
  (header_describes_buffer ⟨fun crc _ => crc, fun _ => rfl, fun _ _ _ => rfl, fun _ => []⟩ {} 0
    ⟨[[1, 2]], none, by simp, by decide⟩ [.nextBuffer, .handlePartial 2, .nextBuffer]
    (by decide)).2.2 rfl rfl

/-- Before the first buffer the total of an object of unknown size is a number. -/
theorem total_before_buffer : ¬ ∀ (digests : Digests) (checksum : Checksum ℕ) (targetSize : ℕ)
    (source : Source) (calls : List Call), Describes source.content
      ((start checksum targetSize source.hint source.chunks).run digests calls).progress := by
  intro h
  obtain ⟨total, hparse, -, htotal⟩ := h ⟨fun crc _ => crc, fun _ => rfl, fun _ _ _ => rfl,
    fun _ => []⟩ {} 0 ⟨[[1]], none, by simp, by decide⟩ []
  have hheader : parseContentRange (InProgressUpload.new 0 none).rangeHeader =
      some (none, some 0) := by
    rw [rangeHeader_empty rfl rfl]
    exact parse_contentRange (fun pair hpair => (nomatch hpair)) (fun size hsize => by
      cases hsize; decide)
  have hzero : total = some 0 :=
    congrArg Prod.snd (Option.some.inj (hparse.symm.trans hheader))
  rw [hzero] at htotal
  revert htotal
  decide

end Filling

end GoogleCloudRust.PerformUpload
