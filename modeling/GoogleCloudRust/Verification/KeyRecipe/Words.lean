import GoogleCloudRust.Model.KeyRecipe
import GoogleCloudRust.Verification.SsFormat.Order

/-! # Encoded words of a recipe

Every encoder of a key recipe only appends to its buffer, so that it is described
by its outcome and the word it writes. -/

namespace GoogleCloudRust.KeyRecipe

open Fallible SsFormat

variable (P : TextParsers)

/-! ## Append-only encoders -/

private theorem append_internal (out : Bytes) (value : Int64) (decreasing isDouble : Bool) :
    appendInt64Internal out value decreasing isDouble =
      out ++ appendInt64Internal [] value decreasing isDouble := by
  simp [appendInt64Internal]

private theorem append_sequence (out bytes : Bytes) (decreasing : Bool) :
    appendByteSequence out bytes decreasing = out ++ appendByteSequence [] bytes decreasing := by
  simp [appendByteSequence]

theorem appendInt64Ordered_appends (value : Int64) (decreasing : Bool) :
    Appends (appendInt64Ordered value decreasing) := by
  refine Appends.ofModify fun buffer => ?_
  cases decreasing <;> exact append_internal buffer value _ _

theorem appendBytesOrdered_appends (value : Bytes) (decreasing : Bool) :
    Appends (appendBytesOrdered value decreasing) := by
  refine Appends.ofModify fun buffer => ?_
  cases decreasing <;> exact append_sequence buffer value _

theorem appendStringOrdered_appends (value : String) (decreasing : Bool) :
    Appends (appendStringOrdered value decreasing) := by
  refine Appends.ofModify fun buffer => ?_
  cases decreasing <;> exact append_sequence buffer (strBytes value) _

theorem appendDoubleOrdered_appends (value : F64) (decreasing : Bool) :
    Appends (appendDoubleOrdered value decreasing) := by
  refine Appends.ofModify fun buffer => ?_
  cases decreasing <;> exact append_internal buffer (orderedDoubleBits value) _ _

theorem appendBoolOrdered_appends (value : Bool) (decreasing : Bool) :
    Appends (appendBoolOrdered value decreasing) :=
  Appends.ofModify fun buffer => by cases decreasing <;> rfl

theorem appendNullOrdered_appends (nullsLast : Bool) : Appends (appendNullOrdered nullsLast) :=
  Appends.ofModify fun buffer => by cases nullsLast <;> rfl

theorem appendNotNullMarkerOrdered_appends (nullsLast : Bool) :
    Appends (appendNotNullMarkerOrdered nullsLast) :=
  Appends.ofModify fun buffer => by cases nullsLast <;> rfl

theorem encodeNullPart_appends (nullOrder : NullOrder) (decreasing : Bool) :
    Appends (encodeNullPart nullOrder decreasing) := by
  cases nullOrder with
  | notNull => exact Appends.ofResult _
  | _ => exact appendNullOrdered_appends _

theorem encodeNotNullMarker_appends (nullOrder : NullOrder) (decreasing : Bool) :
    Appends (encodeNotNullMarker nullOrder decreasing) := by
  cases nullOrder with
  | notNull => exact Appends.pure _
  | _ => exact appendNotNullMarkerOrdered_appends _

/-- Reading a value first and then appending its code. -/
private theorem read_appends {α : Type} (result : Except String α) {f : α → BufferM Unit}
    (hf : ∀ a, Appends (f a)) : Appends (ofResult result >>= f) :=
  (Appends.ofResult result).bind hf

theorem encodeFloat64Part_appends (value : Value) (decreasing : Bool) :
    Appends (encodeFloat64Part value decreasing) := by
  unfold encodeFloat64Part
  split <;> exact read_appends _ fun number => appendDoubleOrdered_appends number decreasing

/-- The part of `encodePart` behind the not-null marker. -/
def encodeNotNull (code : TypeCode) (value : Value) (decreasing : Bool) : BufferM Unit :=
  match code with
  | .bool => encodeBoolPart value decreasing
  | .int64 | .enum => encodeInt64Part value decreasing
  | .float64 => encodeFloat64Part value decreasing
  | .string => encodeStringPart value decreasing
  | .bytes => encodeBytesPart P value decreasing
  | .date => encodeDatePart P value decreasing
  | .timestamp => encodeTimestampPart P value decreasing
  | .uuid => encodeUuidPart value decreasing
  | other => unsupportedTypeCode other

theorem encodeNotNull_appends (code : TypeCode) (value : Value) (decreasing : Bool) :
    Appends (encodeNotNull P code value decreasing) := by
  unfold encodeNotNull
  split
  · exact read_appends _ fun b => appendBoolOrdered_appends b _
  · exact read_appends _ fun s => read_appends _ fun n => appendInt64Ordered_appends n _
  · exact read_appends _ fun s => read_appends _ fun n => appendInt64Ordered_appends n _
  · exact encodeFloat64Part_appends value _
  · exact read_appends _ fun s => appendStringOrdered_appends s _
  · exact read_appends _ fun s => read_appends _ fun b => appendBytesOrdered_appends b _
  · exact read_appends _ fun s => read_appends _ fun n => appendInt64Ordered_appends n _
  · exact read_appends _ fun s => read_appends _ fun b => appendBytesOrdered_appends b _
  · exact read_appends _ fun s => read_appends _ fun b => appendBytesOrdered_appends b _
  · exact Appends.ofResult _

theorem encodePart_eq (part : Part) (value : Value) :
    encodePart P part value = ofResult (checkSupportedKeyType part) >>= fun code =>
      if value.kind = .null then encodeNullPart part.nullOrder (isDecreasing part)
      else encodeNotNullMarker part.nullOrder (isDecreasing part) >>= fun _ =>
        encodeNotNull P code value (isDecreasing part) :=
  rfl

theorem encodePart_appends (part : Part) (value : Value) : Appends (encodePart P part value) := by
  rw [encodePart_eq]
  refine read_appends _ fun typeCode => ?_
  split
  · exact encodeNullPart_appends _ _
  · exact (encodeNotNullMarker_appends _ _).bind fun _ => encodeNotNull_appends P _ _ _

private theorem encodeJsonInt64Part_appends (value : JsonValue) (decreasing : Bool) :
    Appends (encodeJsonInt64Part value decreasing) := by
  unfold encodeJsonInt64Part
  split <;> exact read_appends _ fun n => appendInt64Ordered_appends n decreasing

private theorem encodeJsonFloat64Part_appends (value : JsonValue) (decreasing : Bool) :
    Appends (encodeJsonFloat64Part value decreasing) := by
  unfold encodeJsonFloat64Part
  split <;> exact read_appends _ fun number => appendDoubleOrdered_appends number decreasing

theorem encodeJsonPart_appends (part : Part) (value : JsonValue) :
    Appends (encodeJsonPart P part value) := by
  refine read_appends _ fun typeCode => ?_
  dsimp only
  split
  · exact encodeNullPart_appends _ _
  · refine (encodeNotNullMarker_appends _ _).bind fun _ => ?_
    split
    · exact read_appends _ fun b => appendBoolOrdered_appends b _
    · exact encodeJsonInt64Part_appends value _
    · exact encodeJsonInt64Part_appends value _
    · exact encodeJsonFloat64Part_appends value _
    · exact read_appends _ fun s => appendStringOrdered_appends s _
    · exact read_appends _ fun s => read_appends _ fun b => appendBytesOrdered_appends b _
    · exact read_appends _ fun n => appendInt64Ordered_appends n _
    · exact read_appends _ fun b => appendBytesOrdered_appends b _
    · exact read_appends _ fun b => appendBytesOrdered_appends b _
    · exact Appends.ofResult _

private theorem appendCompositeTag_append (out : Bytes) (tag : UInt32) :
    appendCompositeTag out tag = (appendCompositeTag [] tag).map (out ++ ·) := by
  simp only [appendCompositeTag]
  split_ifs <;> simp [Except.map]

private theorem tag_appends (tag : UInt32) :
    Appends (do
      let buffer ← get
      let tagged ← ofResult (appendCompositeTag buffer tag)
      set tagged
      return PreambleResult.handled : BufferM PreambleResult) := by
  refine ⟨fun buffer => ?_⟩
  simp only [outcome, word, exec_bind, exec_get, exec_ofResult]
  rw [appendCompositeTag_append]
  cases appendCompositeTag [] tag with
  | ok tagged => rfl
  | error e => simp [Except.map]

theorem encodeRecipePartPreamble_appends (randomValue : Int64) (part : Part) :
    Appends (encodeRecipePartPreamble P randomValue part) := by
  unfold encodeRecipePartPreamble
  split
  · exact tag_appends part.tag
  · split
    · refine Appends.bind (read_appends _ fun typeCode => ?_) fun _ => Appends.pure _
      split
      · exact Appends.ofResult _
      · exact appendInt64Ordered_appends _ _
    · split
      · refine Appends.bind (Appends.ofResult _) fun resolvedValue => ?_
        exact (encodeJsonPart_appends P part resolvedValue).bind fun _ => Appends.pure _
      · exact Appends.pure _

variable {V : Type} [RecipeValue V] {σ : Type}

/-- The recipe loop only appends if the encoder of a single part does. -/
theorem encodeParts_appends (random : ℕ → Int64) (resolveValue : Part → σ → Except String V × σ)
    (hpart : ∀ part (value : V), Appends (RecipeValue.encodeInto P part value))
    (parts : List Part) (i : ℕ) (state : σ) :
    Appends (encodeParts P random resolveValue parts i state) := by
  induction parts generalizing i state with
  | nil => exact Appends.pure _
  | cons part parts ih =>
      refine (encodeRecipePartPreamble_appends P (random i) part).bind fun result => ?_
      cases result with
      | handled => exact ih (i + 1) state
      | valuePart =>
          refine read_appends _ fun value => ?_
          exact (hpart part value).bind fun _ => ih (i + 1) _

/-! ## Success of the whole encoding -/

/-- A successful encoding validates the recipe and appends the word of the loop. -/
theorem encodeKeyFromPartsInternal_eq_ok {random : ℕ → Int64}
    {resolveValue : Part → σ → Except String V × σ} {state : σ} {recipe : KeyRecipe}
    (hpart : ∀ part (value : V), Appends (RecipeValue.encodeInto P part value))
    {buffer out : Bytes}
    (h : exec (encodeKeyFromPartsInternal P random resolveValue state recipe) buffer =
      (.ok (), out)) :
    outcome (encodeParts P random resolveValue recipe.part 0 state) = .ok () ∧
      out = buffer ++ word (encodeParts P random resolveValue recipe.part 0 state) := by
  unfold encodeKeyFromPartsInternal at h
  obtain ⟨_, b, hvalid, h⟩ := exec_bind_eq_ok.mp h
  obtain ⟨initial, b', hget, h⟩ := exec_bind_eq_ok.mp h
  cases hget
  obtain rfl : buffer = b := (Prod.mk.inj hvalid).2
  rw [exec_tryCatch,
    (encodeParts_appends P random resolveValue hpart recipe.part 0 state).exec_eq] at h
  cases hout : outcome (encodeParts P random resolveValue recipe.part 0 state) with
  | ok u =>
      rw [hout] at h
      exact ⟨rfl, (Prod.mk.inj h).2.symm⟩
  | error e =>
      rw [hout] at h
      cases h

end GoogleCloudRust.KeyRecipe
