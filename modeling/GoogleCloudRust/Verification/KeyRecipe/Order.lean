import GoogleCloudRust.Verification.KeyRecipe.Words

/-! # Routing keys are ordered like rows

The specification compares two rows column by column, by what the values denote.
Encoded keys compare the same way, for every recipe without a random part. -/

namespace GoogleCloudRust.KeyRecipe

open Fallible SsFormat

/-! ## Semantic order of rows -/

/-- Compare what two values denote, if both denote something. -/
def compareBy {α β ε : Type} (read : α → Except ε β) (cmp : β → β → Ordering) (v w : α) :
    Ordering :=
  match read v, read w with
  | .ok a, .ok b => cmp a b
  | _, _ => .eq

/-- What the text of a value denotes under a parser. -/
def denotedText {α : Type} (parse : String → Except String α) (value : Value) : Except String α :=
  match value.asStr with
  | some text => parse text
  | none => .error "not a text"

def denotedBool (value : Value) : Except String Bool :=
  match value.asBool with
  | some b => .ok b
  | none => .error "not a boolean"

/-- A number, or the text of one of the values JSON numbers do not have. -/
def denotedFloat (value : Value) : Except String F64 :=
  match value.asStr, value.asF64 with
  | some text, _ => parseFloat64String text
  | none, some number => .ok number
  | none, none => .error "not a number"

variable (P : TextParsers)

def compareSemantic (code : TypeCode) (v w : Value) : Ordering :=
  match code with
  | .bool => compareBy denotedBool (fun a b => compare a.toNat b.toNat) v w
  | .int64 | .enum => compareBy (denotedText parseI64) (fun a b => compare a.toInt b.toInt) v w
  | .date => compareBy (denotedText P.parseDate) (fun a b => compare a.toInt b.toInt) v w
  | .timestamp => compareBy (denotedText P.parseRfc3339)
      (fun a b => (compare a.1.toInt b.1.toInt).then (compare a.2.toNat b.2.toNat)) v w
  | .float64 => compareBy denotedFloat F64.totalCompare v w
  | .string => compareBy (denotedText fun text => .ok (strBytes text)) compare v w
  | .bytes => compareBy (denotedText P.decode) compare v w
  | .uuid => compareBy (denotedText parseUuidBytes) compare v w
  | _ => .eq

/-- The side on which `NULL` goes. A `NOT NULL` column has no such side. -/
def nullsLast (nullOrder : NullOrder) (decreasing : Bool) : Bool :=
  match nullOrder with
  | .nullsFirst | .unknownValue _ | .notNull => false
  | .nullsLast => true
  | .unspecified => decreasing

def nullOrdering (part : Part) : Ordering :=
  if nullsLast part.nullOrder (isDecreasing part) then .gt else .lt

def compareColumn (part : Part) (v w : Value) : Ordering :=
  match decide (v.kind = .null), decide (w.kind = .null) with
  | true, true => .eq
  | true, false => nullOrdering part
  | false, true => (nullOrdering part).swap
  | false, false =>
      match part.type with
      | some partType => directed (isDecreasing part) (compareSemantic P partType.code v w)
      | none => .eq

/-- The parts that take the next value of the row. -/
def isColumn (part : Part) : Bool :=
  part.tag = 0 && part.random ≠ some true && part.value.isNone

/-- Rows compare by the first column that differs. -/
def compareColumns : List Part → List Value → List Value → Ordering
  | part :: parts, v :: vs, w :: ws =>
      (compareColumn P part v w).then (compareColumns parts vs ws)
  | _, _, _ => .eq

/-! ## Words of a single column -/

/-- Reading first: success hands the value on, and the word is the continuation's. -/
private theorem read_eq_ok {α : Type} {result : Except String α} {f : α → BufferM Unit}
    (h : outcome (ofResult result >>= f) = .ok ()) :
    ∃ a, result = .ok a ∧ outcome (f a) = .ok () ∧ word (ofResult result >>= f) = word (f a) := by
  cases result with
  | ok a => exact ⟨a, rfl, h, rfl⟩
  | error e => cases h

/-- The word of an encoder that reads a value and appends its code. -/
structure EncodesAs {α ε : Type} (read : Value → Except ε α) (code : α → Bytes)
    (encode : Value → BufferM Unit) : Prop where
  word_eq : ∀ value, outcome (encode value) = .ok () →
    ∃ a, read value = .ok a ∧ word (encode value) = code a

/-- An ordered code of what is read orders the words. -/
theorem EncodesAs.words {α ε : Type} {read : Value → Except ε α} {code : α → Bytes}
    {encode : Value → BufferM Unit} {cmp : α → α → Ordering} {decreasing : Bool}
    (h : EncodesAs read code encode)
    (hcode : IsOrderedCode (fun a b => directed decreasing (cmp a b)) code) {v w : Value}
    (hv : outcome (encode v) = .ok ()) (hw : outcome (encode w) = .ok ()) :
    WordsCompare (directed decreasing (compareBy read cmp v w)) (word (encode v))
      (word (encode w)) := by
  obtain ⟨a, ha, hwa⟩ := h.word_eq v hv
  obtain ⟨b, hb, hwb⟩ := h.word_eq w hw
  rw [hwa, hwb, compareBy, ha, hb]
  exact hcode.words a b

private theorem okOr_eq_ok {α : Type} {option : Option α} {message : String} {a : α}
    (h : okOr option message = .ok a) : option = some a := by
  cases option with
  | some value => exact congrArg some (Except.ok.inj h)
  | none => cases h

private theorem denotedText_of {α : Type} {parse : String → Except String α} {value : Value}
    {text message : String} (h : okOr value.asStr message = .ok text) :
    denotedText parse value = parse text := by
  rw [denotedText, okOr_eq_ok h]

private theorem encodeBoolPart_encodesAs (decreasing : Bool) :
    EncodesAs denotedBool (boolCode decreasing) (encodeBoolPart · decreasing) := by
  refine ⟨fun value h => ?_⟩
  obtain ⟨b, hb, -, hword⟩ := read_eq_ok h
  refine ⟨b, ?_, hword⟩
  rw [denotedBool, okOr_eq_ok hb]

private theorem encodeInt64Part_encodesAs (decreasing : Bool) :
    EncodesAs (denotedText parseI64) (intCode decreasing) (encodeInt64Part · decreasing) := by
  refine ⟨fun value h => ?_⟩
  obtain ⟨text, htext, h, hword⟩ := read_eq_ok h
  obtain ⟨n, hn, -, hword'⟩ := read_eq_ok h
  refine ⟨n, ?_, hword.trans hword'⟩
  rw [denotedText_of htext]
  revert hn
  rw [parseInt64String]
  cases parseI64 text with
  | ok value => exact id
  | error e => nofun

private theorem encodeFloat64Part_encodesAs (decreasing : Bool) :
    EncodesAs denotedFloat (doubleCode decreasing) (encodeFloat64Part · decreasing) := by
  refine ⟨fun value h => ?_⟩
  simp only [encodeFloat64Part, denotedFloat] at h ⊢
  cases hs : value.asStr with
  | some text =>
      rw [hs] at h
      obtain ⟨x, hx, -, hword⟩ := read_eq_ok h
      exact ⟨x, hx, hword⟩
  | none =>
      rw [hs] at h
      obtain ⟨x, hx, -, hword⟩ := read_eq_ok h
      refine ⟨x, ?_, hword⟩
      rw [okOr_eq_ok hx]

private theorem encodeStringPart_encodesAs (decreasing : Bool) :
    EncodesAs (denotedText fun text => .ok (strBytes text)) (bytesCode decreasing)
      (encodeStringPart · decreasing) := by
  refine ⟨fun value h => ?_⟩
  obtain ⟨text, htext, -, hword⟩ := read_eq_ok h
  refine ⟨strBytes text, denotedText_of htext, hword.trans ?_⟩
  cases decreasing <;> rfl

private theorem decodeBytes_eq_ok {text : String} {bytes : Bytes}
    (h : decodeBytes P text = .ok bytes) : P.decode text = .ok bytes := by
  rw [decodeBytes] at h
  split at h
  · rename_i decoded hslice
    exact (P.decodeSlice_eq text 512 decoded hslice).trans h
  · split at h
    · rename_i hdecode
      exact hdecode.trans h
    · cases h

private theorem encodeBytesPart_encodesAs (decreasing : Bool) :
    EncodesAs (denotedText P.decode) (bytesCode decreasing)
      (encodeBytesPart P · decreasing) := by
  refine ⟨fun value h => ?_⟩
  obtain ⟨text, htext, h, hword⟩ := read_eq_ok h
  obtain ⟨bytes, hbytes, -, hword'⟩ := read_eq_ok h
  refine ⟨bytes, ?_, hword.trans hword'⟩
  rw [denotedText_of htext, decodeBytes_eq_ok P hbytes]

private theorem encodeUuidPart_encodesAs (decreasing : Bool) :
    EncodesAs (denotedText parseUuidBytes) (bytesCode decreasing)
      (encodeUuidPart · decreasing) := by
  refine ⟨fun value h => ?_⟩
  obtain ⟨text, htext, h, hword⟩ := read_eq_ok h
  obtain ⟨bytes, hbytes, -, hword'⟩ := read_eq_ok h
  refine ⟨bytes, ?_, hword.trans hword'⟩
  rw [denotedText_of htext, hbytes]

private theorem encodeDatePart_eq_ok {value : Value} {decreasing : Bool}
    (h : outcome (encodeDatePart P value decreasing) = .ok ()) :
    ∃ day, denotedText P.parseDate value = .ok day ∧
      -1930999 ≤ day.toInt ∧ day.toInt ≤ 5373484 ∧
      word (encodeDatePart P value decreasing) =
        intCode decreasing (day - unixEpochJulianDay).toInt64 := by
  obtain ⟨text, htext, h, hword⟩ := read_eq_ok h
  obtain ⟨days, hdays, -, hword'⟩ := read_eq_ok h
  rw [denotedText_of htext]
  revert hdays
  rw [parseDateDays]
  cases hparse : P.parseDate text with
  | error e => nofun
  | ok day =>
      intro hdays
      obtain ⟨hlo, hhi⟩ := P.julianDay_mem text day hparse
      refine ⟨day, rfl, hlo, hhi, hword.trans (hword'.trans ?_)⟩
      rw [← Except.ok.inj hdays]
      rfl

/-- In the range of the calendar the distance to the epoch does not overflow. -/
private theorem toInt_daysSinceEpoch (day : Int32) (hlo : -1930999 ≤ day.toInt)
    (hhi : day.toInt ≤ 5373484) :
    (day - unixEpochJulianDay).toInt64.toInt = day.toInt - 2440588 := by
  have hepoch : unixEpochJulianDay.toInt = 2440588 := rfl
  rw [Int32.toInt_toInt64, Int32.toInt_sub, hepoch, Int.bmod_eq_of_le] <;> omega

private theorem encodeDatePart_words {v w : Value} {decreasing : Bool}
    (hv : outcome (encodeDatePart P v decreasing) = .ok ())
    (hw : outcome (encodeDatePart P w decreasing) = .ok ()) :
    WordsCompare (directed decreasing (compareBy (denotedText P.parseDate)
        (fun a b => compare a.toInt b.toInt) v w))
      (word (encodeDatePart P v decreasing)) (word (encodeDatePart P w decreasing)) := by
  obtain ⟨a, ha, halo, hahi, hwa⟩ := encodeDatePart_eq_ok P hv
  obtain ⟨b, hb, hblo, hbhi, hwb⟩ := encodeDatePart_eq_ok P hw
  have hcmp : compare (a - unixEpochJulianDay).toInt64.toInt
      (b - unixEpochJulianDay).toInt64.toInt = compare a.toInt b.toInt := by
    rw [toInt_daysSinceEpoch a halo hahi, toInt_daysSinceEpoch b hblo hbhi]
    apply compare_eq_compare_of_lt_iff <;> omega
  rw [hwa, hwb, compareBy, ha, hb]
  simp only [← hcmp]
  exact (intCode_ordered decreasing).words _ _

private theorem encodeTimestampPart_eq_ok {value : Value} {decreasing : Bool}
    (h : outcome (encodeTimestampPart P value decreasing) = .ok ()) :
    ∃ t, denotedText P.parseRfc3339 value = .ok t ∧ t.2.toNat < 2 ^ 31 ∧
      word (encodeTimestampPart P value decreasing) =
        bytesCode decreasing (encodeTimestamp t.1 (Int32.ofNat t.2.toNat)) := by
  obtain ⟨text, htext, h, hword⟩ := read_eq_ok h
  obtain ⟨bytes, hbytes, -, hword'⟩ := read_eq_ok h
  rw [denotedText_of htext]
  revert hbytes
  rw [parseTimestampBytes]
  cases hparse : P.parseRfc3339 text with
  | error e => nofun
  | ok t =>
      intro hbytes
      have hnanos := P.nanosecond_lt text t.1 t.2 hparse
      refine ⟨t, rfl, by omega, hword.trans (hword'.trans ?_)⟩
      have hcast : t.2.toInt32 = Int32.ofNat t.2.toNat := by
        apply Int32.toBitVec_inj.mp
        apply BitVec.eq_of_toNat_eq
        change t.2.toNat = (BitVec.ofNat 32 t.2.toNat).toNat
        rw [BitVec.toNat_ofNat]
        omega
      rw [← Except.ok.inj hbytes, hcast]
      rfl

private theorem encodeTimestampPart_words {v w : Value} {decreasing : Bool}
    (hv : outcome (encodeTimestampPart P v decreasing) = .ok ())
    (hw : outcome (encodeTimestampPart P w decreasing) = .ok ()) :
    WordsCompare (directed decreasing (compareBy (denotedText P.parseRfc3339)
        (fun a b => (compare a.1.toInt b.1.toInt).then (compare a.2.toNat b.2.toNat)) v w))
      (word (encodeTimestampPart P v decreasing))
      (word (encodeTimestampPart P w decreasing)) := by
  obtain ⟨a, ha, hna, hwa⟩ := encodeTimestampPart_eq_ok P hv
  obtain ⟨b, hb, hnb, hwb⟩ := encodeTimestampPart_eq_ok P hw
  rw [hwa, hwb, compareBy, ha, hb]
  simp only [← compare_encodeTimestamp a.1 b.1 a.2.toNat b.2.toNat hna hnb]
  exact (bytesCode_ordered decreasing).words _ _

/-- Encoded values are ordered by what they denote, in the column's direction. -/
theorem encodeNotNull_words {code : TypeCode} {v w : Value} {decreasing : Bool}
    (hv : outcome (encodeNotNull P code v decreasing) = .ok ())
    (hw : outcome (encodeNotNull P code w decreasing) = .ok ()) :
    WordsCompare (directed decreasing (compareSemantic P code v w))
      (word (encodeNotNull P code v decreasing)) (word (encodeNotNull P code w decreasing)) := by
  cases code with
  | bool => exact (encodeBoolPart_encodesAs decreasing).words (boolCode_ordered decreasing) hv hw
  | int64 => exact (encodeInt64Part_encodesAs decreasing).words (intCode_ordered decreasing) hv hw
  | enum => exact (encodeInt64Part_encodesAs decreasing).words (intCode_ordered decreasing) hv hw
  | float64 =>
      exact (encodeFloat64Part_encodesAs decreasing).words (doubleCode_ordered decreasing) hv hw
  | string =>
      exact (encodeStringPart_encodesAs decreasing).words (bytesCode_ordered decreasing) hv hw
  | bytes =>
      exact (encodeBytesPart_encodesAs P decreasing).words (bytesCode_ordered decreasing) hv hw
  | uuid => exact (encodeUuidPart_encodesAs decreasing).words (bytesCode_ordered decreasing) hv hw
  | date => exact encodeDatePart_words P hv hw
  | timestamp => exact encodeTimestampPart_words P hv hw
  | _ => cases hv

/-! ## Nulls -/

def nullWord (last : Bool) : Bytes :=
  if last then appendNullOrderedLast [] else appendNullOrderedFirst []

def notNullMarker (last : Bool) : Bytes :=
  if last then appendNotNullMarkerNullOrderedLast [] else appendNotNullMarkerNullOrderedFirst []

private theorem encodeNullPart_eq_ok {nullOrder : NullOrder} {decreasing : Bool}
    (h : outcome (encodeNullPart nullOrder decreasing) = .ok ()) :
    nullOrder ≠ .notNull ∧
      word (encodeNullPart nullOrder decreasing) = nullWord (nullsLast nullOrder decreasing) := by
  cases nullOrder with
  | notNull => cases h
  | _ => exact ⟨nofun, rfl⟩

private theorem word_encodeNotNullMarker {nullOrder : NullOrder} (decreasing : Bool)
    (h : nullOrder ≠ .notNull) :
    word (encodeNotNullMarker nullOrder decreasing) =
      notNullMarker (nullsLast nullOrder decreasing) := by
  cases nullOrder with
  | notNull => exact absurd rfl h
  | _ => rfl

/-- The null word and the marker of other values differ in their first byte. -/
private theorem nullWord_words (last : Bool) (rest : Bytes) :
    WordsCompare (if last then .gt else .lt) (nullWord last) (notNullMarker last ++ rest) := by
  cases last with
  | false => exact WordsCompare.cons_of_ne (by decide) (by decide)
  | true => exact WordsCompare.cons_of_ne (by decide) (by decide)

/-- What a successful column encoding wrote. -/
private theorem encodePart_eq_ok {part : Part} {value : Value}
    (h : outcome (encodePart P part value) = .ok ()) :
    ∃ partType, part.type = some partType ∧
      if value.kind = .null then
        part.nullOrder ≠ .notNull ∧ word (encodePart P part value) =
          nullWord (nullsLast part.nullOrder (isDecreasing part))
      else
        outcome (encodeNotNull P partType.code value (isDecreasing part)) = .ok () ∧
          word (encodePart P part value) =
            word (encodeNotNullMarker part.nullOrder (isDecreasing part)) ++
              word (encodeNotNull P partType.code value (isDecreasing part)) := by
  rw [encodePart_eq] at h ⊢
  obtain ⟨code, hcode, h, hword⟩ := read_eq_ok h
  obtain ⟨partType, htype, rfl⟩ : ∃ partType, part.type = some partType ∧ partType.code = code := by
    rw [checkSupportedKeyType] at hcode
    split at hcode
    · cases hcode
    · rename_i partType htype
      refine ⟨partType, htype, ?_⟩
      split at hcode <;> first | exact Except.ok.inj hcode | cases hcode
  refine ⟨partType, htype, ?_⟩
  rw [hword]
  by_cases hnull : value.kind = .null
  · simp only [hnull, if_true] at h ⊢
    exact encodeNullPart_eq_ok h
  · simp only [hnull, if_false] at h ⊢
    obtain ⟨_, -, hvalue, hword⟩ := outcome_bind_eq_ok
      (fun _ => encodeNotNull_appends P _ _ _) h
    exact ⟨hvalue, hword⟩

/-- Encoded columns are ordered like their values. -/
theorem encodePart_words {part : Part} {v w : Value}
    (hv : outcome (encodePart P part v) = .ok ()) (hw : outcome (encodePart P part w) = .ok ()) :
    WordsCompare (compareColumn P part v w) (word (encodePart P part v))
      (word (encodePart P part w)) := by
  obtain ⟨partType, htype, hv⟩ := encodePart_eq_ok P hv
  obtain ⟨partType', htype', hw⟩ := encodePart_eq_ok P hw
  obtain rfl : partType = partType' := Option.some.inj (htype.symm.trans htype')
  rw [compareColumn, htype]
  by_cases hnv : v.kind = .null <;> by_cases hnw : w.kind = .null <;>
    simp only [hnv, hnw, if_true, if_false, decide_true, decide_false] at hv hw ⊢
  · rw [hv.2, hw.2]
    exact WordsCompare.refl _
  · rw [hv.2, hw.2, word_encodeNotNullMarker _ hv.1]
    exact nullWord_words _ _
  · rw [hv.2, hw.2, word_encodeNotNullMarker _ hw.1]
    exact (nullWord_words _ _).swap
  · rw [hv.2, hw.2]
    exact (WordsCompare.refl _).append (encodeNotNull_words P hv.1 hw.1)

/-! ## The recipe loop -/

/-- Without a random part the preamble draws no random number. -/
private theorem encodeRecipePartPreamble_random {part : Part} (h : part.random ≠ some true)
    (r r' : Int64) : encodeRecipePartPreamble P r part = encodeRecipePartPreamble P r' part := by
  unfold encodeRecipePartPreamble
  simp only [h, if_false]

/-- A preamble that succeeds handles the part itself or leaves a column to the row. -/
private theorem encodeRecipePartPreamble_eq_ok {part : Part} {r : Int64} {result : PreambleResult}
    (hrandom : part.random ≠ some true)
    (h : outcome (encodeRecipePartPreamble P r part) = .ok result) :
    (isColumn part = true ∧ result = .valuePart ∧ word (encodeRecipePartPreamble P r part) = []) ∨
      (isColumn part = false ∧ result = .handled) := by
  unfold encodeRecipePartPreamble at h ⊢
  by_cases htag : part.tag = 0
  · simp only [htag, hrandom, ne_eq, not_true, if_false] at h ⊢
    cases hvalue : part.value with
    | some constantVal =>
        right
        rw [hvalue] at h
        obtain ⟨_, _, h, -⟩ := outcome_bind_eq_ok
          (fun a => (encodeJsonPart_appends P part a).bind fun _ => Appends.pure _) h
        obtain ⟨_, _, h, -⟩ := outcome_bind_eq_ok (fun _ => Appends.pure _) h
        exact ⟨by simp [isColumn, hvalue], (Except.ok.inj h).symm⟩
    | none =>
        left
        rw [hvalue] at h
        exact ⟨by simp [isColumn, htag, hrandom, hvalue], (Except.ok.inj h).symm, rfl⟩
  · right
    simp only [htag, ne_eq, not_false_eq_true, if_true] at h
    simp only [outcome, exec_bind, exec_get, exec_ofResult] at h
    refine ⟨by simp [isColumn, htag], ?_⟩
    cases htagged : appendCompositeTag [] part.tag with
    | ok tagged =>
        rw [htagged] at h
        exact (Except.ok.inj h).symm
    | error e =>
        rw [htagged] at h
        cases h

/-- One round of the loop: a part writes a word of its own, or it encodes the next
value of the row. -/
private theorem encodeParts_cons_eq_ok {random : ℕ → Int64} {part : Part} {parts : List Part}
    {i : ℕ} {values : List Value} (hrandom : part.random ≠ some true)
    (h : outcome (encodeParts P random nextValue (part :: parts) i values) = .ok ()) :
    (isColumn part = false ∧
      outcome (encodeParts P random nextValue parts (i + 1) values) = .ok () ∧
      word (encodeParts P random nextValue (part :: parts) i values) =
        word (encodeRecipePartPreamble P 0 part) ++
          word (encodeParts P random nextValue parts (i + 1) values)) ∨
    (isColumn part = true ∧ ∃ value rest, values = value :: rest ∧
      outcome (encodePart P part value) = .ok () ∧
      outcome (encodeParts P random nextValue parts (i + 1) rest) = .ok () ∧
      word (encodeParts P random nextValue (part :: parts) i values) =
        word (encodePart P part value) ++
          word (encodeParts P random nextValue parts (i + 1) rest)) := by
  have happ := encodeParts_appends P random (nextValue (V := Value)) (encodePart_appends P) parts
    (i + 1)
  rw [encodeParts, encodeRecipePartPreamble_random P hrandom (random i) 0] at h ⊢
  obtain ⟨result, hpre, h, hword⟩ := outcome_bind_eq_ok (fun result => by
    cases result with
    | handled => exact happ values
    | valuePart =>
        exact (Appends.ofResult _).bind fun value =>
          (encodePart_appends P part value).bind fun _ => happ _) h
  rw [hword]
  rcases encodeRecipePartPreamble_eq_ok P hrandom hpre with ⟨hcol, rfl, hnil⟩ | ⟨hcol, rfl⟩
  · right
    refine ⟨hcol, ?_⟩
    cases values with
    | nil => cases h
    | cons value rest =>
        obtain ⟨_, hvalue, hrest, hword⟩ := outcome_bind_eq_ok (fun _ => happ rest) h
        refine ⟨value, rest, rfl, hvalue, hrest, ?_⟩
        rw [hnil, List.nil_append]
        exact hword
  · exact .inl ⟨hcol, h, rfl⟩

/-- The loop writes ordered words: constant parts write the same on both sides, and
each column is decided before the parts behind it are looked at. -/
theorem encodeParts_words {random random' : ℕ → Int64} {parts : List Part}
    (hrandom : ∀ part ∈ parts, part.random ≠ some true) {i : ℕ} {vs ws : List Value}
    (hv : outcome (encodeParts P random nextValue parts i vs) = .ok ())
    (hw : outcome (encodeParts P random' nextValue parts i ws) = .ok ()) :
    WordsCompare (compareColumns P (parts.filter isColumn) vs ws)
      (word (encodeParts P random nextValue parts i vs))
      (word (encodeParts P random' nextValue parts i ws)) := by
  induction parts generalizing i vs ws with
  | nil => exact WordsCompare.refl _
  | cons part parts ih =>
      have hpart : part.random ≠ some true := hrandom part List.mem_cons_self
      have hrest : ∀ p ∈ parts, p.random ≠ some true := fun p hp =>
        hrandom p (List.mem_cons_of_mem _ hp)
      rcases encodeParts_cons_eq_ok P hpart hv with
        ⟨hcol, hv, hwordv⟩ | ⟨hcol, v, vs, rfl, hencv, hv, hwordv⟩ <;>
      rcases encodeParts_cons_eq_ok P hpart hw with
        ⟨hcol', hw, hwordw⟩ | ⟨hcol', w, ws, rfl, hencw, hw, hwordw⟩
      · rw [hwordv, hwordw, List.filter_cons_of_neg (by simp [hcol])]
        exact (WordsCompare.refl _).append (ih hrest hv hw)
      · exact absurd hcol' (by simp [hcol])
      · exact absurd hcol (by simp [hcol'])
      · rw [hwordv, hwordw, List.filter_cons_of_pos hcol]
        exact (encodePart_words P hencv hencw).append (ih hrest hv hw)

/-- A successful encoding found a value for every column. -/
theorem length_columns_le {random : ℕ → Int64} {parts : List Part}
    (hrandom : ∀ part ∈ parts, part.random ≠ some true) {i : ℕ} {values : List Value}
    (h : outcome (encodeParts P random nextValue parts i values) = .ok ()) :
    (parts.filter isColumn).length ≤ values.length := by
  induction parts generalizing i values with
  | nil => exact Nat.zero_le _
  | cons part parts ih =>
      have hrest : ∀ p ∈ parts, p.random ≠ some true := fun p hp =>
        hrandom p (List.mem_cons_of_mem _ hp)
      rcases encodeParts_cons_eq_ok P (hrandom part List.mem_cons_self) h with
        ⟨hcol, h, -⟩ | ⟨hcol, v, rest, rfl, -, h, -⟩
      · rw [List.filter_cons_of_neg (by simp [hcol])]
        exact ih hrest h
      · rw [List.filter_cons_of_pos hcol]
        exact Nat.succ_le_succ (ih hrest h)

/-! ## The order of routing keys -/

/-- Rows compare equal exactly when all their columns do. -/
theorem compareColumns_eq_eq {parts : List Part} {vs ws : List Value} :
    compareColumns P parts vs ws = .eq ↔
      ∀ (i : ℕ) part v w, parts[i]? = some part → vs[i]? = some v → ws[i]? = some w →
        compareColumn P part v w = .eq := by
  induction parts generalizing vs ws with
  | nil => simp [compareColumns]
  | cons part parts ih =>
      cases vs with
      | nil => simp [compareColumns]
      | cons v vs =>
          cases ws with
          | nil => simp [compareColumns]
          | cons w ws =>
              rw [compareColumns, Ordering.then_eq_eq, ih]
              constructor
              · rintro ⟨hhead, htail⟩ i
                cases i with
                | zero => simpa using hhead
                | succ i => simpa using htail i
              · intro h
                exact ⟨h 0 part v w rfl rfl rfl, fun i => by simpa using h (i + 1)⟩

/-- Routing keys of two rows compare as the rows do, and coincide exactly when all
columns compare equal. Every column of the recipe has a value in both rows. -/
theorem encodeKeyFromRecipeInto_ordered (random random' : ℕ → Int64) (recipe : KeyRecipe)
    (hrandom : ∀ part ∈ recipe.part, part.random ≠ some true) (v w : List Value)
    (buffer outV outW : Bytes)
    (hv : exec (encodeKeyFromRecipeInto P random recipe v) buffer = (.ok (), outV))
    (hw : exec (encodeKeyFromRecipeInto P random' recipe w) buffer = (.ok (), outW)) :
    compare outV outW = compareColumns P (recipe.part.filter isColumn) v w ∧
      (outV = outW ↔ ∀ (i : ℕ) part a b, (recipe.part.filter isColumn)[i]? = some part →
        v[i]? = some a → w[i]? = some b → compareColumn P part a b = .eq) ∧
      (recipe.part.filter isColumn).length ≤ v.length ∧
      (recipe.part.filter isColumn).length ≤ w.length := by
  obtain ⟨hokv, rfl⟩ := encodeKeyFromPartsInternal_eq_ok P (encodePart_appends P) hv
  obtain ⟨hokw, rfl⟩ := encodeKeyFromPartsInternal_eq_ok P (encodePart_appends P) hw
  have hwords := (WordsCompare.refl buffer).append (encodeParts_words P hrandom hokv hokw)
  have hcmp := hwords.compare_eq
  refine ⟨hcmp, ?_, length_columns_le P hrandom hokv, length_columns_le P hrandom hokw⟩
  rw [← compareColumns_eq_eq, ← Std.compare_eq_iff_eq, hcmp]
  rfl

/-! ### A key of three columns -/

/-- Parsers that know two dates, two instants and one byte string. -/
def sampleParsers : TextParsers where
  parseDate text :=
    if text = "1970-01-01" then .ok 2440588
    else if text = "2024-02-29" then .ok 2460370
    else .error "the 'year' component could not be parsed"
  parseRfc3339 text :=
    if text = "1970-01-01T00:00:00Z" then .ok (0, 0)
    else if text = "1969-12-31T23:59:59.5Z" then .ok (-1, 500000000)
    else .error "the 'year' component could not be parsed"
  decode text := if text = "AP8=" then .ok [0, 255] else .error "Invalid padding"
  decodeSlice text size :=
    if text = "AP8=" ∧ 2 ≤ size then .ok [0, 255] else .error "Invalid padding"
  julianDay_mem text day h := by
    split_ifs at h <;> cases h <;> decide
  nanosecond_lt text seconds nanos h := by
    split_ifs at h <;> cases h <;> decide
  decodeSlice_eq text size bytes h := by
    split_ifs at h with hfits
    rw [if_pos hfits.1, h]

def columnPart (code : TypeCode) (order : Order) (nullOrder : NullOrder) : Part where
  tag := 0
  order := order
  nullOrder := nullOrder
  type := some (.mk code .unspecified "" none none)
  structIdentifiers := []
  valueType := none

def tagPart (tag : UInt32) : Part where
  tag := tag
  order := .unspecified
  nullOrder := .unspecified
  type := none
  structIdentifiers := []
  valueType := none

def sampleRecipe : KeyRecipe where
  part := [tagPart 50020, columnPart .int64 .descending .notNull,
    columnPart .timestamp .ascending .nullsFirst, columnPart .bytes .descending .unspecified]
  target := none

theorem encodeKeyFromRecipeInto_ordered_sample :
    compareColumns sampleParsers (sampleRecipe.part.filter isColumn)
        [.stringValue "300", .stringValue "1970-01-01T00:00:00Z", .unset]
        [.stringValue "300", .stringValue "1969-12-31T23:59:59.5Z", .stringValue "AP8="] = .gt ∧
      compare
        (exec (encodeKeyFromRecipeInto sampleParsers 0 sampleRecipe
          [.stringValue "300", .stringValue "1970-01-01T00:00:00Z", .unset]) []).2
        (exec (encodeKeyFromRecipeInto sampleParsers 0 sampleRecipe
          [.stringValue "300", .stringValue "1969-12-31T23:59:59.5Z", .stringValue "AP8="]) []).2 =
      .gt := by
  have h := (encodeKeyFromRecipeInto_ordered sampleParsers 0 0 sampleRecipe (by decide)
    [.stringValue "300", .stringValue "1970-01-01T00:00:00Z", .unset]
    [.stringValue "300", .stringValue "1969-12-31T23:59:59.5Z", .stringValue "AP8="] [] _ _
    rfl rfl).1
  exact ⟨by decide, h.trans (by decide)⟩

end GoogleCloudRust.KeyRecipe
