import GoogleCloudRust.Model.KeyExtractor
import GoogleCloudRust.Verification.KeyRecipe.Order
import GoogleCloudRust.Verification.KeyRecipe.Words

/-! # Keys of typed and protobuf values

A part writes its markers before its value is read, and earlier parts are written before later
ones. Whatever fails, the buffer is cut back to what it held. The typed encoders and the JSON
encoders are written separately: on values that have a faithful JSON form they fail together or
write the same bytes, and so do the key extractors built on them. -/

namespace GoogleCloudRust

open Fallible

/-! ## Keys are written whole or not at all -/

namespace KeyRecipe

variable (P : TextParsers) (random : ℕ → Int64)

theorem encodeKeyFromPartsInternal_atomic {V : Type} [RecipeValue V] {σ : Type}
    (hpart : ∀ part (value : V), Appends (RecipeValue.encodeInto P part value))
    (resolveValue : Part → σ → Except String V × σ) (state : σ) (recipe : KeyRecipe) :
    Atomic (fun _ => true) (encodeKeyFromPartsInternal P random resolveValue state recipe) :=
  Atomic.check fun _ =>
    Atomic.rollback (encodeParts_appends P random resolveValue hpart recipe.part 0 state)

variable (recipe : KeyRecipe)

theorem encodeKeyFromRecipeInto_atomic (values : List Value) :
    Atomic (fun _ => true) (encodeKeyFromRecipeInto P random recipe values) :=
  encodeKeyFromPartsInternal_atomic P random (encodePart_appends P) _ _ _

theorem encodeKeyFromJsonRecipeInto_atomic (values : List JsonValue) :
    Atomic (fun _ => true) (encodeKeyFromJsonRecipeInto P random recipe values) :=
  encodeKeyFromPartsInternal_atomic P random (encodeJsonPart_appends P) _ _ _

theorem encodeKeyFromJsonQueryParamsInto_atomic (params : List (String × JsonValue)) :
    Atomic (fun _ => true) (encodeKeyFromJsonQueryParamsInto P random recipe params) :=
  encodeKeyFromPartsInternal_atomic P random (encodeJsonPart_appends P) _ _ _

theorem encodeKeyFromColumnsAndValuesInto_atomic (columns : List String) (values : List Value) :
    Atomic (fun _ => true) (encodeKeyFromColumnsAndValuesInto P random recipe columns values) :=
  encodeKeyFromPartsInternal_atomic P random (encodePart_appends P) _ _ _

theorem encodeKeyFromJsonColumnsAndValuesInto_atomic (columns : List String)
    (values : List JsonValue) :
    Atomic (fun _ => true)
      (encodeKeyFromJsonColumnsAndValuesInto P random recipe columns values) :=
  encodeKeyFromPartsInternal_atomic P random (encodeJsonPart_appends P) _ _ _

end KeyRecipe

namespace KeyExtractor

open KeyRecipe

variable (P : TextParsers) (random : ℕ → Int64) (recipe : KeyRecipe)

/-! ## Key sets -/

theorem extractStartOfFirstRangeInto_atomic (ranges : List KeyRange) :
    Atomic id (extractStartOfFirstRangeInto P random recipe ranges) := by
  rw [extractStartOfFirstRangeInto.eq_def]
  cases ranges.head? with
  | none => exact Atomic.pure rfl
  | some firstRange =>
    obtain ⟨start, stop⟩ := firstRange
    cases start with
    | closed key | opened key =>
      dsimp only
      split
      · exact Atomic.pure rfl
      · exact (encodeKeyFromRecipeInto_atomic P random recipe _).report

theorem extractKeyFromKeySetInto_atomic (keySet : KeySet) :
    Atomic id (extractKeyFromKeySetInto P random recipe keySet) := by
  rw [extractKeyFromKeySetInto.eq_def]
  by_cases hall : keySet.all = true
  · rw [if_pos hall]
    exact Atomic.pure rfl
  · rw [if_neg hall]
    cases keySet.keys.head?.filter fun firstKey => !firstKey.values.isEmpty with
    | some firstKey => exact (encodeKeyFromRecipeInto_atomic P random recipe _).report
    | none => exact extractStartOfFirstRangeInto_atomic P random recipe _

/-! ## Protobuf mutations -/

theorem extractKeyFromProtoKeyListInto_atomic (keyList : Option (List JsonValue)) :
    Atomic id (extractKeyFromProtoKeyListInto P random recipe keyList) := by
  cases keyList with
  | none => exact Atomic.pure rfl
  | some keyList =>
    rw [extractKeyFromProtoKeyListInto.eq_def]
    by_cases hempty : keyList.isEmpty = true
    · simp only [hempty, if_true]
      exact Atomic.pure rfl
    · simp only [hempty, if_false, Bool.false_eq_true]
      exact (encodeKeyFromJsonRecipeInto_atomic P random recipe _).report

theorem extractStartOfFirstProtoRangeInto_atomic (ranges : List ProtoKeyRange) :
    Atomic id (extractStartOfFirstProtoRangeInto P random recipe ranges) := by
  rw [extractStartOfFirstProtoRangeInto.eq_def]
  cases ranges.head? with
  | none => exact Atomic.pure rfl
  | some firstRange =>
    exact (extractKeyFromProtoKeyListInto_atomic P random recipe _).orElse
      ((extractKeyFromProtoKeyListInto_atomic P random recipe _).orElse (Atomic.pure rfl))

theorem extractKeyFromProtoKeySetInto_atomic (keySet : ProtoKeySet) :
    Atomic id (extractKeyFromProtoKeySetInto P random recipe keySet) := by
  rw [extractKeyFromProtoKeySetInto.eq_def]
  by_cases hall : keySet.all = true
  · rw [if_pos hall]
    exact Atomic.pure rfl
  · rw [if_neg hall]
    exact (extractKeyFromProtoKeyListInto_atomic P random recipe _).orElse
      (extractStartOfFirstProtoRangeInto_atomic P random recipe _)

theorem extractKeyFromProtoWriteInto_atomic (write : ProtoWrite) :
    Atomic id (extractKeyFromProtoWriteInto P random recipe write) := by
  rw [extractKeyFromProtoWriteInto.eq_def]
  split
  · exact Atomic.pure rfl
  · cases write.values.head?.filter fun row => !row.isEmpty with
    | some firstRow =>
      exact (encodeKeyFromJsonColumnsAndValuesInto_atomic P random recipe _ _).report
    | none => exact Atomic.pure rfl

theorem extractKeyFromProtoMutationInto_atomic (mutation : ProtoMutation) :
    Atomic id (extractKeyFromProtoMutationInto P random recipe mutation) := by
  obtain ⟨operation⟩ := mutation
  cases operation with
  | none => exact Atomic.pure rfl
  | some operation =>
    cases operation with
    | insert write | update write | insertOrUpdate write | replace write =>
      exact extractKeyFromProtoWriteInto_atomic P random recipe write
    | delete delete =>
      obtain ⟨table, keySet⟩ := delete
      cases keySet with
      | none => exact Atomic.pure rfl
      | some keySet => exact extractKeyFromProtoKeySetInto_atomic P random recipe keySet
    | send item | ack item => exact extractKeyFromProtoKeyListInto_atomic P random recipe item.key

/-- A key is written whole, behind what the buffer held, or the buffer stays as it was. -/
theorem key_written_atomically :
    (∀ values, Atomic (fun _ => true) (encodeKeyFromRecipeInto P random recipe values)) ∧
      (∀ values, Atomic (fun _ => true) (encodeKeyFromJsonRecipeInto P random recipe values)) ∧
      (∀ params,
        Atomic (fun _ => true) (encodeKeyFromJsonQueryParamsInto P random recipe params)) ∧
      (∀ columns values, Atomic (fun _ => true)
        (encodeKeyFromColumnsAndValuesInto P random recipe columns values)) ∧
      (∀ columns values, Atomic (fun _ => true)
        (encodeKeyFromJsonColumnsAndValuesInto P random recipe columns values)) ∧
      (∀ keySet, Atomic id (extractKeyFromKeySetInto P random recipe keySet)) ∧
      ∀ mutation, Atomic id (extractKeyFromProtoMutationInto P random recipe mutation) :=
  ⟨encodeKeyFromRecipeInto_atomic P random recipe, encodeKeyFromJsonRecipeInto_atomic P random recipe,
    encodeKeyFromJsonQueryParamsInto_atomic P random recipe,
    encodeKeyFromColumnsAndValuesInto_atomic P random recipe,
    encodeKeyFromJsonColumnsAndValuesInto_atomic P random recipe,
    extractKeyFromKeySetInto_atomic P random recipe,
    extractKeyFromProtoMutationInto_atomic P random recipe⟩

end KeyExtractor

/-! ## Typed and protobuf routing agree -/

/-- Null, finite number, string, boolean, or a list of such values. -/
inductive Value.Plain : Value → Prop
  | unset : Plain .unset
  | nullValue (n : Int32) : Plain (.nullValue n)
  | numberValue (x : F64) (finite : x.isFinite = true) : Plain (.numberValue x)
  | stringValue (s : String) : Plain (.stringValue s)
  | boolValue (b : Bool) : Plain (.boolValue b)
  | listValue (values : List Value) (plain : ∀ v ∈ values, Plain v) : Plain (.listValue values)

namespace KeyRecipe

/-- A plain value and its JSON form. -/
def JsonForm (value : Value) (json : JsonValue) : Prop :=
  value.Plain ∧ json = value.intoSerdeValue

/-! ## Accessors -/

section Accessors

variable {value : Value} (h : value.Plain)

private theorem number_json {x : F64} (finite : x.isFinite = true) :
    (Value.numberValue x).intoSerdeValue = .number (.float x) := by
  simp [Value.intoSerdeValue, JsonNumber.fromF64, finite]

include h

theorem isNull_json : value.intoSerdeValue.isNull = decide (value.kind = .null) := by
  cases h with
  | numberValue x finite => rw [number_json finite]; rfl
  | _ => rfl

theorem asBool_json : value.intoSerdeValue.asBool = value.asBool := by
  cases h with
  | numberValue x finite => rw [number_json finite]; rfl
  | _ => rfl

theorem asStr_json : value.intoSerdeValue.asStr = value.asStr := by
  cases h with
  | numberValue x finite => rw [number_json finite]; rfl
  | _ => rfl

theorem asF64_json : value.intoSerdeValue.asF64 = value.asF64 := by
  cases h with
  | numberValue x finite => rw [number_json finite]; rfl
  | _ => rfl

/-- A number that came from a float is never read as an integer. -/
theorem asI64_json : value.intoSerdeValue.asI64 = none := by
  cases h with
  | numberValue x finite => rw [number_json finite]; rfl
  | _ => rfl

theorem asArray_json : value.intoSerdeValue.asArray = value.asList.map (·.map Value.intoSerdeValue) := by
  cases h with
  | numberValue x finite => rw [number_json finite]; rfl
  | listValue values plain =>
      simp [Value.intoSerdeValue, JsonValue.asArray, Value.asList, Value.intoSerdeValues_eq_map]
  | _ => rfl

end Accessors

/-! ## Single parts -/

/-- Reading the same value on both sides and continuing in the same way. -/
private theorem read_agrees {α β : Type} {result result' : Except String α} {f f' : α → BufferM β}
    (h : SameOutcome Eq result result') (hf : ∀ a, Agrees Eq (f a) (f' a)) :
    Agrees Eq (ofResult result >>= f) (ofResult result' >>= f') :=
  (Agrees.ofResult h).bind fun a _ ha => ha ▸ hf a

variable (P : TextParsers)

private theorem parsedString_same {α : Type} (option : Option String) (message : String)
    (parse : String → Except String α) (f : α → BufferM Unit) (json : JsonValue)
    (typeName : String) (hjson : json.asStr = option) :
    Agrees Eq (ofResult (okOr option message) >>= fun text => ofResult (parse text) >>= f)
      (ofResult (encodeJsonParsedString json typeName parse) >>= f) := by
  cases option with
  | none =>
      rw [encodeJsonParsedString, hjson]
      exact fun _ => ⟨trivial, rfl⟩
  | some text =>
      rw [encodeJsonParsedString, hjson]
      exact Agrees.refl _

section Parts

variable {value : Value} (h : value.Plain)

include h

theorem encodePart_agrees (part : Part) :
    Agrees Eq (encodePart P part value) (encodeJsonPart P part value.intoSerdeValue) := by
  refine read_agrees (SameOutcome.refl _) fun code => ?_
  dsimp only
  rw [isNull_json h]
  by_cases hnull : value.kind = .null
  · simp only [hnull, decide_true, if_true]
    exact Agrees.refl _
  · simp only [hnull, decide_false, if_false, Bool.false_eq_true]
    refine (Agrees.refl _).bind fun _ _ _ => ?_
    have hint : Agrees Eq (encodeInt64Part value (isDecreasing part))
        (encodeJsonInt64Part value.intoSerdeValue (isDecreasing part)) := by
      simp only [encodeInt64Part, encodeJsonInt64Part, asStr_json h, asI64_json h]
      cases value.asStr with
      | some text => exact Agrees.refl _
      | none => exact fun _ => ⟨trivial, rfl⟩
    have hfloat : Agrees Eq (encodeFloat64Part value (isDecreasing part))
        (encodeJsonFloat64Part value.intoSerdeValue (isDecreasing part)) := by
      simp only [encodeFloat64Part, encodeJsonFloat64Part, asStr_json h, asF64_json h]
      exact Agrees.refl _
    cases code with
    | bool =>
        simp only [encodeBoolPart, encodeJsonBoolPart, asBool_json h]
        exact Agrees.refl _
    | int64 => exact hint
    | enum => exact hint
    | float64 => exact hfloat
    | string =>
        simp only [encodeStringPart, encodeJsonStringPart, asStr_json h]
        exact Agrees.refl _
    | bytes =>
        simp only [encodeBytesPart, encodeJsonBytesPart, asStr_json h]
        exact Agrees.refl _
    | date => exact parsedString_same _ _ _ _ _ _ (asStr_json h)
    | timestamp => exact parsedString_same _ _ _ _ _ _ (asStr_json h)
    | uuid => exact parsedString_same _ _ _ _ _ _ (asStr_json h)
    | _ => exact Agrees.refl _

/-- Walking into a struct stays inside the JSON form. -/
theorem resolveStructField_agrees (identifiers : List Int32) :
    SameOutcome JsonForm (resolveStructField value identifiers)
      (resolveStructFieldJson value.intoSerdeValue identifiers) := by
  induction identifiers generalizing value with
  | nil => exact ⟨h, rfl⟩
  | cons structIndex rest ih =>
      rw [resolveStructField, resolveStructFieldJson, asArray_json h]
      split
      · trivial
      · cases h with
        | listValue values plain =>
            simp only [Value.asList, Option.map_some, List.getElem?_map]
            cases hget : values[structIndex.toInt.toNat]? with
            | none => trivial
            | some next => exact ih (plain next (List.mem_of_getElem? hget))
        | _ => trivial

end Parts

/-! ## The recipe loop -/

variable {σ σ' : Type} {S : σ → σ' → Prop} {resolveValue : Part → σ → Except String Value × σ}
  {resolveJson : Part → σ' → Except String JsonValue × σ'}

/-- Closures that resolve related values and stay in related states. -/
def ResolversAgree (S : σ → σ' → Prop) (resolveValue : Part → σ → Except String Value × σ)
    (resolveJson : Part → σ' → Except String JsonValue × σ') : Prop :=
  ∀ part s s', S s s' → SameOutcome JsonForm (resolveValue part s).1 (resolveJson part s').1 ∧
    S (resolveValue part s).2 (resolveJson part s').2

/-- Without a random part the preamble draws no random number. -/
private theorem preamble_agrees {part : Part} (h : part.random ≠ some true) (r r' : Int64) :
    Agrees Eq (encodeRecipePartPreamble P r part) (encodeRecipePartPreamble P r' part) := by
  apply Agrees.of_eq
  unfold encodeRecipePartPreamble
  simp only [h, if_false]

theorem encodeParts_agrees (hresolve : ResolversAgree S resolveValue resolveJson)
    (random random' : ℕ → Int64) {parts : List Part}
    (hrandom : ∀ part ∈ parts, part.random ≠ some true) (i : ℕ) {state : σ} {state' : σ'}
    (hstate : S state state') :
    Agrees Eq (encodeParts P random resolveValue parts i state)
      (encodeParts P random' resolveJson parts i state') := by
  induction parts generalizing i state state' with
  | nil => exact Agrees.refl _
  | cons part parts ih =>
      have hrest : ∀ p ∈ parts, p.random ≠ some true := fun p hp =>
        hrandom p (List.mem_cons_of_mem _ hp)
      rw [encodeParts, encodeParts]
      refine (preamble_agrees P (hrandom part List.mem_cons_self) _ _).bind ?_
      rintro result _ rfl
      cases result with
      | handled => exact ih hrest (i + 1) hstate
      | valuePart =>
          obtain ⟨hvalue, hnext⟩ := hresolve part state state' hstate
          refine (Agrees.ofResult hvalue).bind ?_
          rintro value _ ⟨hplain, rfl⟩
          exact (encodePart_agrees P hplain part).bind fun _ _ _ => ih hrest (i + 1) hnext

/-- The whole encoding agrees, with the rollback on failure. -/
theorem encodeKeyFromPartsInternal_agrees (hresolve : ResolversAgree S resolveValue resolveJson)
    (random random' : ℕ → Int64) {recipe : KeyRecipe}
    (hrandom : ∀ part ∈ recipe.part, part.random ≠ some true) {state : σ} {state' : σ'}
    (hstate : S state state') :
    Agrees Eq (encodeKeyFromPartsInternal P random resolveValue state recipe)
      (encodeKeyFromPartsInternal P random' resolveJson state' recipe) := by
  refine read_agrees (SameOutcome.refl _) fun _ => (Agrees.refl _).bind ?_
  rintro initial _ rfl
  refine (encodeParts_agrees P hresolve random random' hrandom 0 hstate).tryCatch fun _ _ => ?_
  exact (Agrees.refl _).bind fun _ _ _ _ => ⟨trivial, rfl⟩

private theorem nextValue_agrees :
    ResolversAgree (fun values jsons => (∀ v ∈ values, v.Plain) ∧
      jsons = values.map Value.intoSerdeValue) nextValue nextValue := by
  rintro part values _ ⟨hplain, rfl⟩
  cases values with
  | nil => exact ⟨trivial, hplain, rfl⟩
  | cons value values =>
      refine ⟨⟨hplain value List.mem_cons_self, rfl⟩, ?_, rfl⟩
      exact fun v hv => hplain v (List.mem_cons_of_mem _ hv)

theorem columnValue_agrees (columns : List String) {values : List Value}
    (hplain : ∀ v ∈ values, v.Plain) (part : Part) :
    SameOutcome JsonForm (columnValue columns values part)
      (columnValue columns (values.map Value.intoSerdeValue) part) := by
  refine (SameOutcome.refl _).bind ?_
  rintro identifier _ rfl
  refine (SameOutcome.refl _).bind ?_
  rintro columnIndex _ rfl
  have hcolumn : SameOutcome JsonForm
      (okOr values[columnIndex]?
        s!"Missing value at column index {columnIndex} for key column '{identifier}'")
      (okOr (values.map Value.intoSerdeValue)[columnIndex]?
        s!"Missing value at column index {columnIndex} for key column '{identifier}'") := by
    rw [List.getElem?_map]
    cases hget : values[columnIndex]? with
    | none => trivial
    | some value => exact ⟨hplain value (List.mem_of_getElem? hget), rfl⟩
  refine hcolumn.bind ?_
  rintro value _ ⟨hvalue, rfl⟩
  exact resolveStructField_agrees hvalue part.structIdentifiers

variable (random random' : ℕ → Int64) {recipe : KeyRecipe}
  (hrandom : ∀ part ∈ recipe.part, part.random ≠ some true)

include hrandom

theorem encodeKeyFromRecipeInto_agrees {values : List Value} (hplain : ∀ v ∈ values, v.Plain) :
    Agrees Eq (encodeKeyFromRecipeInto P random recipe values)
      (encodeKeyFromJsonRecipeInto P random' recipe (values.map Value.intoSerdeValue)) :=
  encodeKeyFromPartsInternal_agrees P nextValue_agrees random random' hrandom ⟨hplain, rfl⟩

theorem encodeKeyFromColumnsAndValuesInto_agrees (columns : List String) {values : List Value}
    (hplain : ∀ v ∈ values, v.Plain) :
    Agrees Eq (encodeKeyFromColumnsAndValuesInto P random recipe columns values)
      (encodeKeyFromJsonColumnsAndValuesInto P random' recipe columns
        (values.map Value.intoSerdeValue)) :=
  encodeKeyFromPartsInternal_agrees P (S := fun _ _ => True)
    (fun part _ _ _ => ⟨columnValue_agrees columns hplain part, trivial⟩)
    random random' hrandom trivial

end KeyRecipe

/-! ## Key extraction -/

def Endpoint.key : Endpoint → Key
  | closed key | opened key => key

@[simp] theorem KeySet.intoProto_all (keySet : KeySet) : keySet.intoProto.all = keySet.all := by
  unfold KeySet.intoProto
  dsimp only
  split_ifs <;> simp_all

@[simp] theorem KeySet.intoProto_keys (keySet : KeySet) :
    keySet.intoProto.keys = keySet.keys.map Key.intoValues := by
  unfold KeySet.intoProto
  dsimp only
  split_ifs <;> simp_all

@[simp] theorem KeySet.intoProto_ranges (keySet : KeySet) :
    keySet.intoProto.ranges = keySet.ranges.map KeyRange.intoProto := by
  unfold KeySet.intoProto
  dsimp only
  split_ifs <;> simp_all

namespace KeyExtractor

open KeyRecipe

/-- Every value the key set mentions is plain. -/
structure PlainKeySet (keySet : KeySet) : Prop where
  keys : ∀ key ∈ keySet.keys, ∀ v ∈ key.values, v.Plain
  starts : ∀ range ∈ keySet.ranges, ∀ v ∈ range.start.key.values, v.Plain
  stops : ∀ range ∈ keySet.ranges, ∀ v ∈ range.stop.key.values, v.Plain

/-- Every value of the mutation is plain. -/
def PlainMutation : Mutation → Prop
  | .insert write | .update write | .insertOrUpdate write | .replace write =>
      ∀ v ∈ write.values, v.Plain
  | .delete delete => PlainKeySet delete.keySet

variable (P : TextParsers) (random random' : ℕ → Int64) {recipe : KeyRecipe}

section Agreement

variable (hrandom : ∀ part ∈ recipe.part, part.random ≠ some true)

include hrandom

/-- A non-empty key is encoded on both sides, and no further source is asked. -/
private theorem nonEmpty_agrees {value : Value} {values : List Value}
    (hplain : ∀ v ∈ value :: values, v.Plain) (rest : BufferM Bool) :
    Agrees Eq (encodeKeyFromRecipeInto P random recipe (value :: values) >>= fun _ => pure true)
      (extractKeyFromProtoKeyListInto P random' recipe
          (some ((value :: values).map Value.intoSerdeValue)) >>= fun found =>
        if found then pure true else rest) := by
  have hlist : extractKeyFromProtoKeyListInto P random' recipe
      (some ((value :: values).map Value.intoSerdeValue)) =
      encodeKeyFromJsonRecipeInto P random' recipe ((value :: values).map Value.intoSerdeValue) >>=
        fun _ => pure true := rfl
  rw [hlist, bind_assoc]
  exact (encodeKeyFromRecipeInto_agrees P random random' hrandom hplain).bind
    fun _ _ _ => Agrees.refl _

private theorem firstRange_agrees {ranges : List KeyRange}
    (hplain : ∀ range ∈ ranges, ∀ v ∈ range.start.key.values, v.Plain) :
    Agrees Eq (extractStartOfFirstRangeInto P random recipe ranges)
      (extractStartOfFirstProtoRangeInto P random' recipe (ranges.map KeyRange.intoProto)) := by
  cases ranges with
  | nil => exact Agrees.refl _
  | cons range ranges =>
      have hstart := hplain range List.mem_cons_self
      rcases range with ⟨⟨⟨values⟩⟩ | ⟨⟨values⟩⟩, stop⟩
      -- Only one of the two protobuf starts is set; the other one writes nothing.
      · cases values with
        | nil => exact Agrees.refl (pure false)
        | cons value values => exact nonEmpty_agrees P random random' hrandom hstart _
      · cases values with
        | nil => exact Agrees.refl (pure false)
        | cons value values => exact nonEmpty_agrees P random random' hrandom hstart (pure false)

theorem extractKeyFromKeySetInto_agrees {keySet : KeySet} (hplain : PlainKeySet keySet) :
    Agrees Eq (extractKeyFromKeySetInto P random recipe keySet)
      (extractKeyFromProtoKeySetInto P random' recipe keySet.intoProto) := by
  rw [extractKeyFromKeySetInto, extractKeyFromProtoKeySetInto]
  simp only [KeySet.intoProto_all, KeySet.intoProto_keys, KeySet.intoProto_ranges]
  have hranges := firstRange_agrees P random random' hrandom hplain.starts
  cases keySet.all with
  | true => exact Agrees.refl _
  | false =>
      have hkeys := hplain.keys
      revert hkeys
      rcases keySet.keys with _ | ⟨⟨values⟩, keys⟩
      · exact fun _ => hranges
      · intro hkeys
        cases values with
        | nil => exact hranges
        | cons value values =>
            exact nonEmpty_agrees P random random' hrandom (hkeys _ List.mem_cons_self) _

private theorem write_agrees {write : Write} (hplain : ∀ v ∈ write.values, v.Plain) :
    Agrees Eq (extractKeyFromWriteInto P random recipe write)
      (extractKeyFromProtoWriteInto P random' recipe write.intoProto) := by
  rcases write with ⟨table, columns, values⟩
  cases columns with
  | nil => exact Agrees.refl _
  | cons column columns =>
      cases values with
      | nil => exact Agrees.refl _
      | cons value values =>
          exact (encodeKeyFromColumnsAndValuesInto_agrees P random random' hrandom _ hplain).bind
            fun _ _ _ => Agrees.refl _

theorem extractKeyFromMutationInto_agrees {mutation : Mutation}
    (hplain : PlainMutation mutation) :
    Agrees Eq (extractKeyFromMutationInto P random recipe mutation)
      (extractKeyFromProtoMutationInto P random' recipe mutation.buildProto) := by
  cases mutation with
  | delete deletion => exact extractKeyFromKeySetInto_agrees P random random' hrandom hplain
  | _ => exact write_agrees P random random' hrandom hplain

end Agreement

/-- Agreeing computations extract the same key from an empty buffer. -/
private theorem extracted_same {m m' : BufferM Bool} (h : Agrees Eq m m') :
    SameOutcome Eq (extracted m) (extracted m') := by
  obtain ⟨hout, hstate⟩ := h []
  unfold extracted
  rcases h : exec m [] with ⟨r, buffer⟩
  rcases h' : exec m' [] with ⟨r', buffer'⟩
  rw [h, h'] at hout hstate
  obtain rfl : buffer = buffer' := hstate
  cases r with
  | error e =>
      cases r' with
      | error e' => trivial
      | ok found' => exact hout.elim
  | ok found =>
      cases r' with
      | error e' => exact hout.elim
      | ok found' =>
          obtain rfl : found = found' := hout
          exact SameOutcome.refl _

/-- For plain mutations the two routes fail together, find no key together, or find
the same key; for plain key sets they also leave the same buffer behind. -/
theorem typed_protobuf_agree (hrandom : ∀ part ∈ recipe.part, part.random ≠ some true) :
    (∀ mutation, PlainMutation mutation →
      SameOutcome Eq (extractKeyFromMutation P random recipe mutation)
        (extractKeyFromProtoMutation P random' recipe mutation.buildProto)) ∧
    (∀ keySet, PlainKeySet keySet →
      Agrees Eq (extractKeyFromKeySetInto P random recipe keySet)
        (extractKeyFromProtoKeySetInto P random' recipe keySet.intoProto)) := by
  constructor
  · intro mutation hplain
    exact extracted_same (extractKeyFromMutationInto_agrees P random random' hrandom hplain)
  · intro keySet hplain
    exact extractKeyFromKeySetInto_agrees P random random' hrandom hplain

def sampleDelete : Mutation :=
  .delete ⟨"Events", ⟨[⟨[.stringValue "300", .stringValue "1970-01-01T00:00:00Z", .unset]⟩], [],
    false⟩⟩

theorem typed_protobuf_agree_sample :
    (∃ key, extractKeyFromMutation sampleParsers 0 sampleRecipe sampleDelete = .ok (some key)) ∧
      SameOutcome Eq (extractKeyFromMutation sampleParsers 0 sampleRecipe sampleDelete)
        (extractKeyFromProtoMutation sampleParsers 0 sampleRecipe sampleDelete.buildProto) := by
  refine ⟨⟨_, rfl⟩, (typed_protobuf_agree sampleParsers 0 0 (by decide)).1 sampleDelete ?_⟩
  refine ⟨?_, nofun, nofun⟩
  intro key hkey v hv
  cases List.mem_singleton.mp hkey
  simp only [List.mem_cons, List.not_mem_nil, or_false] at hv
  rcases hv with rfl | rfl | rfl
  · exact .stringValue _
  · exact .stringValue _
  · exact .unset

end KeyExtractor

end GoogleCloudRust
