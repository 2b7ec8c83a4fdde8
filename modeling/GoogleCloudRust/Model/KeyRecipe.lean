import GoogleCloudRust.Library.Fallible
import GoogleCloudRust.Model.Proto
import GoogleCloudRust.Model.SsFormat

/-! # Key recipe evaluation

Model of `routing/key_recipe.rs`, with `temporal.rs` and `uuid.rs`. A function
that appends to a `&mut Vec<u8>` and may fail is a computation over the buffer
that keeps the buffer it had reached when it fails. -/

namespace GoogleCloudRust

/-- The text parsers of the `time` and `base64` crates. -/
structure TextParsers where
  /-- `Date::parse(_, SPANNER_DATE_FORMAT)`, giving `Date::to_julian_day`. -/
  parseDate : String → Except String Int32
  /-- `OffsetDateTime::parse(_, Rfc3339)`, giving `unix_timestamp` and `nanosecond`. -/
  parseRfc3339 : String → Except String (Int64 × UInt32)
  /-- `BASE64_STANDARD.decode`. -/
  decode : String → Except String Bytes
  /-- `BASE64_STANDARD.decode_slice` into a buffer of the given size. -/
  decodeSlice : String → ℕ → Except String Bytes
  /-- `Date` covers the years -9999 to 9999. -/
  julianDay_mem : ∀ text day, parseDate text = .ok day →
    -1930999 ≤ day.toInt ∧ day.toInt ≤ 5373484
  /-- `nanosecond` is the position inside the second. -/
  nanosecond_lt : ∀ text seconds nanos, parseRfc3339 text = .ok (seconds, nanos) →
    nanos.toNat < 1000000000
  /-- The slice decoder yields what the allocating decoder yields, if it fits. -/
  decodeSlice_eq : ∀ text size bytes, decodeSlice text size = .ok bytes →
    decode text = .ok bytes

namespace KeyRecipe

/-- A fallible computation on the output buffer. -/
abbrev BufferM := Fallible String Bytes

open Fallible (ofResult)

def append (f : Bytes → Bytes) : BufferM Unit := modify f

/-! ## Directed appends -/

def appendInt64Ordered (value : Int64) (decreasing : Bool) : BufferM Unit :=
  append fun buffer =>
    if decreasing then SsFormat.appendInt64Decreasing buffer value
    else SsFormat.appendInt64Increasing buffer value

def appendBytesOrdered (value : Bytes) (decreasing : Bool) : BufferM Unit :=
  append fun buffer =>
    if decreasing then SsFormat.appendBytesDecreasing buffer value
    else SsFormat.appendBytesIncreasing buffer value

def appendStringOrdered (value : String) (decreasing : Bool) : BufferM Unit :=
  append fun buffer =>
    if decreasing then SsFormat.appendStringDecreasing buffer value
    else SsFormat.appendStringIncreasing buffer value

def appendDoubleOrdered (value : F64) (decreasing : Bool) : BufferM Unit :=
  append fun buffer =>
    if decreasing then SsFormat.appendDoubleDecreasing buffer value
    else SsFormat.appendDoubleIncreasing buffer value

def appendBoolOrdered (value : Bool) (decreasing : Bool) : BufferM Unit :=
  append fun buffer =>
    if decreasing then SsFormat.appendBoolDecreasing buffer value
    else SsFormat.appendBoolIncreasing buffer value

def appendNullOrdered (nullsLast : Bool) : BufferM Unit :=
  append fun buffer =>
    if nullsLast then SsFormat.appendNullOrderedLast buffer
    else SsFormat.appendNullOrderedFirst buffer

def appendNotNullMarkerOrdered (nullsLast : Bool) : BufferM Unit :=
  append fun buffer =>
    if nullsLast then SsFormat.appendNotNullMarkerNullOrderedLast buffer
    else SsFormat.appendNotNullMarkerNullOrderedFirst buffer

/-! ## Text of integers, dates, timestamps and UUIDs -/

/-- The digits of `str::parse::<i64>`, each checked before the accumulator is. -/
def parseI64Digits (negative : Bool) : List Char → ℤ → Except String ℤ
  | [], acc => .ok acc
  | c :: cs, acc =>
      if c.isDigit then
        let digit : ℤ := c.toNat - '0'.toNat
        let next := if negative then acc * 10 - digit else acc * 10 + digit
        if next < -2 ^ 63 then .error "number too small to fit in target type"
        else if 2 ^ 63 ≤ next then .error "number too large to fit in target type"
        else parseI64Digits negative cs next
      else .error "invalid digit found in string"

/-- `str::parse::<i64>`. -/
def parseI64 (text : String) : Except String Int64 :=
  match text.toList with
  | [] => .error "cannot parse integer from empty string"
  | ['+'] | ['-'] => .error "invalid digit found in string"
  | '+' :: cs => (parseI64Digits false cs 0).map Int64.ofInt
  | '-' :: cs => (parseI64Digits true cs 0).map Int64.ofInt
  | cs => (parseI64Digits false cs 0).map Int64.ofInt

def unixEpochJulianDay : Int32 := 2440588

/-- The body of the loop over the digits. -/
def pushHexDigit (uuidString : String) (value : UInt64) (byte : UInt8) : Except String UInt64 :=
  if 0x30 ≤ byte ∧ byte ≤ 0x39 then .ok ((value <<< 4) ||| (byte - 0x30).toUInt64)
  else if 0x61 ≤ byte ∧ byte ≤ 0x66 then .ok ((value <<< 4) ||| (byte - 0x61 + 10).toUInt64)
  else if 0x41 ≤ byte ∧ byte ≤ 0x46 then .ok ((value <<< 4) ||| (byte - 0x41 + 10).toUInt64)
  else .error s!"Invalid UUID string '{uuidString}': non-hex character"

def parseHexDigits (slice : Bytes) (uuidString : String) : Except String UInt64 :=
  slice.foldlM (pushHexDigit uuidString) 0

/-- `slice[lo..hi]`. -/
def slice (bytes : Bytes) (lo hi : ℕ) : Bytes := (bytes.take hi).drop lo

/-- The text between the optional braces. -/
def uuidText (uuidString : String) : Except String Bytes :=
  let bytes := SsFormat.strBytes uuidString
  if bytes.length = 36 then .ok bytes
  else if bytes.length = 38 then
    if bytes.getD 0 0 ≠ 0x7b ∨ bytes.getD 37 0 ≠ 0x7d then
      .error s!"Invalid UUID string '{uuidString}': malformed braces"
    else .ok (slice bytes 1 37)
  else .error s!"Invalid UUID string '{uuidString}': expected 36 or 38 characters"

def parseUuidBytes (uuidString : String) : Except String Bytes := do
  let bytes ← uuidText uuidString
  if bytes.getD 8 0 ≠ 0x2d ∨ bytes.getD 13 0 ≠ 0x2d ∨ bytes.getD 18 0 ≠ 0x2d
      ∨ bytes.getD 23 0 ≠ 0x2d then
    .error s!"Invalid UUID string '{uuidString}': malformed hyphens"
  else
    let timeLow ← parseHexDigits (slice bytes 0 8) uuidString
    let timeMid ← parseHexDigits (slice bytes 9 13) uuidString
    let timeHigh ← parseHexDigits (slice bytes 14 18) uuidString
    let clockSeq ← parseHexDigits (slice bytes 19 23) uuidString
    let node ← parseHexDigits (slice bytes 24 36) uuidString
    return SsFormat.encodeUuid ((timeLow <<< 32) ||| (timeMid <<< 16) ||| timeHigh)
      ((clockSeq <<< 48) ||| node)

section Parsers

variable (P : TextParsers)

def parseDateDays (dateString : String) : Except String Int64 :=
  match P.parseDate dateString with
  | .error e => .error s!"Failed to parse DATE string '{dateString}': {e}"
  | .ok julianDay => .ok (julianDay - unixEpochJulianDay).toInt64

def parseTimestampBytes (timestampString : String) : Except String Bytes :=
  match P.parseRfc3339 timestampString with
  | .error e => .error s!"Failed to parse TIMESTAMP string '{timestampString}': {e}"
  | .ok (unixTimestamp, nanosecond) =>
      .ok (SsFormat.encodeTimestamp unixTimestamp nanosecond.toInt32)

/-- The bytes a `BYTES` column denotes: a stack buffer first, then the heap. -/
def decodeBytes (text : String) : Except String Bytes :=
  match P.decodeSlice text 512 with
  | .ok bytes => .ok bytes
  | .error _ =>
      match P.decode text with
      | .ok bytes => .ok bytes
      | .error error => .error s!"Failed to decode base64 Bytes from string '{text}': {error}"

/-! ## Null handling -/

def checkSupportedKeyType (part : Part) : Except String TypeCode :=
  match part.type with
  | none => .error "Invalid KeyRecipe part: missing type definition"
  | some partType =>
      match partType.code with
      | .bool | .int64 | .float64 | .string | .bytes | .date | .timestamp | .uuid | .enum =>
          .ok partType.code
      | .unspecified => .error "Invalid KeyRecipe part: TypeCode::Unspecified is not permitted"
      | unsupported =>
          .error s!"TypeCode {unsupported.debug} is not supported for key recipe encoding"

def encodeNullPart (nullOrder : NullOrder) (decreasing : Bool) : BufferM Unit :=
  match nullOrder with
  | .nullsFirst | .unknownValue _ => appendNullOrdered false
  | .nullsLast => appendNullOrdered true
  | .unspecified => appendNullOrdered decreasing
  | .notNull => ofResult (.error "NULL value provided for NOT NULL key recipe column")

def encodeNotNullMarker (nullOrder : NullOrder) (decreasing : Bool) : BufferM Unit :=
  match nullOrder with
  | .nullsFirst | .unknownValue _ => appendNotNullMarkerOrdered false
  | .nullsLast => appendNotNullMarkerOrdered true
  | .unspecified => appendNotNullMarkerOrdered decreasing
  | .notNull => pure ()

/-! ## Typed values -/

/-- `option.ok_or_else(|| internal_error(message))`. -/
def okOr {α : Type} (option : Option α) (message : String) : Except String α :=
  match option with
  | some value => .ok value
  | none => .error message

/-- The three texts a `FLOAT64` string may have. -/
def parseFloat64String (text : String) : Except String F64 :=
  if text = "NaN" then .ok F64.nan
  else if text = "Infinity" then .ok F64.infinity
  else if text = "-Infinity" then .ok F64.negInfinity
  else .error (s!"Type mismatch: invalid FLOAT64 string '{text}' " ++
    "(only NaN and Infinity strings permitted)")

def parseInt64String (text : String) : Except String Int64 :=
  match parseI64 text with
  | .ok value => .ok value
  | .error error => .error s!"Failed to parse Int64 from string '{text}': {error}"

def encodeBoolPart (value : Value) (decreasing : Bool) : BufferM Unit := do
  let booleanValue ← ofResult
    (okOr value.asBool "Type mismatch: expected Bool value for BOOL column")
  appendBoolOrdered booleanValue decreasing

def encodeInt64Part (value : Value) (decreasing : Bool) : BufferM Unit := do
  let stringValue ← ofResult
    (okOr value.asStr "Type mismatch: expected String value for INT64 or ENUM column")
  let integerValue ← ofResult (parseInt64String stringValue)
  appendInt64Ordered integerValue decreasing

def encodeFloat64Part (value : Value) (decreasing : Bool) : BufferM Unit :=
  match value.asStr with
  | some stringValue => do
      let number ← ofResult (parseFloat64String stringValue)
      appendDoubleOrdered number decreasing
  | none => do
      let number ← ofResult (okOr value.asF64
        "Type mismatch: expected Number or special String value for FLOAT64 column")
      appendDoubleOrdered number decreasing

def encodeStringPart (value : Value) (decreasing : Bool) : BufferM Unit := do
  let stringValue ← ofResult
    (okOr value.asStr "Type mismatch: expected String value for STRING column")
  appendStringOrdered stringValue decreasing

def encodeBytesPart (value : Value) (decreasing : Bool) : BufferM Unit := do
  let stringValue ← ofResult
    (okOr value.asStr "Type mismatch: expected base64 String value for BYTES column")
  let bytesValue ← ofResult (decodeBytes P stringValue)
  appendBytesOrdered bytesValue decreasing

def encodeDatePart (value : Value) (decreasing : Bool) : BufferM Unit := do
  let dateString ← ofResult
    (okOr value.asStr "Type mismatch: expected ISO 8601 String value for DATE column")
  let daysSinceEpoch ← ofResult (parseDateDays P dateString)
  appendInt64Ordered daysSinceEpoch decreasing

def encodeTimestampPart (value : Value) (decreasing : Bool) : BufferM Unit := do
  let timestampString ← ofResult
    (okOr value.asStr "Type mismatch: expected RFC 3339 String value for TIMESTAMP column")
  let timestampBytes ← ofResult (parseTimestampBytes P timestampString)
  appendBytesOrdered timestampBytes decreasing

def encodeUuidPart (value : Value) (decreasing : Bool) : BufferM Unit := do
  let uuidString ← ofResult
    (okOr value.asStr "Type mismatch: expected String value for UUID column")
  let uuidBytes ← ofResult (parseUuidBytes uuidString)
  appendBytesOrdered uuidBytes decreasing

def unsupportedTypeCode (other : TypeCode) : BufferM Unit :=
  ofResult (.error s!"Unsupported TypeCode {other.debug} for key recipe encoding")

def isDecreasing (part : Part) : Bool :=
  match part.order with
  | .descending => true
  | _ => false

def encodePart (part : Part) (value : Value) : BufferM Unit := do
  let typeCode ← ofResult (checkSupportedKeyType part)
  let decreasing := isDecreasing part
  if value.kind = .null then
    encodeNullPart part.nullOrder decreasing
  else
    encodeNotNullMarker part.nullOrder decreasing
    match typeCode with
    | .bool => encodeBoolPart value decreasing
    | .int64 | .enum => encodeInt64Part value decreasing
    | .float64 => encodeFloat64Part value decreasing
    | .string => encodeStringPart value decreasing
    | .bytes => encodeBytesPart P value decreasing
    | .date => encodeDatePart P value decreasing
    | .timestamp => encodeTimestampPart P value decreasing
    | .uuid => encodeUuidPart value decreasing
    | other => unsupportedTypeCode other

/-! ## JSON values -/

def encodeJsonParsedString {α : Type} (value : JsonValue) (typeName : String)
    (parse : String → Except String α) : Except String α := do
  let stringValue ← okOr value.asStr
    s!"Type mismatch: expected String value for {typeName} column"
  parse stringValue

def encodeJsonDatePart (value : JsonValue) (decreasing : Bool) : BufferM Unit := do
  let daysSinceEpoch ← ofResult (encodeJsonParsedString value "DATE" (parseDateDays P))
  appendInt64Ordered daysSinceEpoch decreasing

def encodeJsonTimestampPart (value : JsonValue) (decreasing : Bool) : BufferM Unit := do
  let timestampBytes ← ofResult
    (encodeJsonParsedString value "TIMESTAMP" (parseTimestampBytes P))
  appendBytesOrdered timestampBytes decreasing

def encodeJsonUuidPart (value : JsonValue) (decreasing : Bool) : BufferM Unit := do
  let uuidBytes ← ofResult (encodeJsonParsedString value "UUID" parseUuidBytes)
  appendBytesOrdered uuidBytes decreasing

def encodeJsonBoolPart (value : JsonValue) (decreasing : Bool) : BufferM Unit := do
  let booleanValue ← ofResult
    (okOr value.asBool "Type mismatch: expected Bool value for BOOL column")
  appendBoolOrdered booleanValue decreasing

def encodeJsonInt64Part (value : JsonValue) (decreasing : Bool) : BufferM Unit :=
  match value.asStr with
  | some stringValue => do
      let integerValue ← ofResult (parseInt64String stringValue)
      appendInt64Ordered integerValue decreasing
  | none => do
      let integerValue ← ofResult (okOr value.asI64
        "Type mismatch: expected String or Integer value for INT64 column")
      appendInt64Ordered integerValue decreasing

def encodeJsonFloat64Part (value : JsonValue) (decreasing : Bool) : BufferM Unit :=
  match value.asStr with
  | some stringValue => do
      let floatValue ← ofResult (parseFloat64String stringValue)
      appendDoubleOrdered floatValue decreasing
  | none => do
      let floatValue ← ofResult (okOr value.asF64
        "Type mismatch: expected Number or special String value for FLOAT64 column")
      appendDoubleOrdered floatValue decreasing

def encodeJsonStringPart (value : JsonValue) (decreasing : Bool) : BufferM Unit := do
  let stringValue ← ofResult
    (okOr value.asStr "Type mismatch: expected String value for STRING column")
  appendStringOrdered stringValue decreasing

def encodeJsonBytesPart (value : JsonValue) (decreasing : Bool) : BufferM Unit := do
  let stringValue ← ofResult
    (okOr value.asStr "Type mismatch: expected base64 String value for BYTES column")
  let bytesValue ← ofResult (decodeBytes P stringValue)
  appendBytesOrdered bytesValue decreasing

def encodeJsonPart (part : Part) (value : JsonValue) : BufferM Unit := do
  let typeCode ← ofResult (checkSupportedKeyType part)
  let decreasing := isDecreasing part
  if value.isNull then
    encodeNullPart part.nullOrder decreasing
  else
    encodeNotNullMarker part.nullOrder decreasing
    match typeCode with
    | .bool => encodeJsonBoolPart value decreasing
    | .int64 | .enum => encodeJsonInt64Part value decreasing
    | .float64 => encodeJsonFloat64Part value decreasing
    | .string => encodeJsonStringPart value decreasing
    | .bytes => encodeJsonBytesPart P value decreasing
    | .date => encodeJsonDatePart P value decreasing
    | .timestamp => encodeJsonTimestampPart P value decreasing
    | .uuid => encodeJsonUuidPart value decreasing
    | other => unsupportedTypeCode other

/-! ## Struct traversal -/

def resolveStructField (current : Value) : List Int32 → Except String Value
  | [] => .ok current
  | structIndex :: rest =>
      if structIndex < 0 then
        .error s!"Invalid negative struct index {structIndex} in key recipe part"
      else
        match current.asList with
        | none => .error "Expected Struct ListValue for struct parameter traversal"
        | some list =>
            match list[structIndex.toInt.toNat]? with
            | none =>
                .error s!"Struct field index {structIndex} out of bounds (len {list.length})"
            | some next => resolveStructField next rest

def resolveStructFieldJson (current : JsonValue) : List Int32 → Except String JsonValue
  | [] => .ok current
  | structIndex :: rest =>
      if structIndex < 0 then
        .error s!"Invalid negative struct index {structIndex} in key recipe part"
      else
        match current.asArray with
        | none => .error "Expected Struct array for struct parameter traversal"
        | some array =>
            match array[structIndex.toInt.toNat]? with
            | none =>
                .error s!"Struct field index {structIndex} out of bounds (len {array.length})"
            | some next => resolveStructFieldJson next rest

/-- The trait `RecipeValue`. -/
class RecipeValue (V : Type) where
  resolveField : V → List Int32 → Except String V
  encodeInto : TextParsers → Part → V → BufferM Unit

instance : RecipeValue Value where
  resolveField := resolveStructField
  encodeInto := encodePart

instance : RecipeValue JsonValue where
  resolveField := resolveStructFieldJson
  encodeInto := encodeJsonPart

/-! ## The recipe loop -/

inductive PreambleResult
  | handled
  | valuePart

/-- `randomValue` is what `rand::random::<i64>()` returns here. -/
def encodeRandomPart (part : Part) (decreasing : Bool) (randomValue : Int64) : BufferM Unit := do
  let typeCode ← ofResult (checkSupportedKeyType part)
  if typeCode ≠ .int64 then
    ofResult (.error "Random key recipe part must have TypeCode::Int64")
  else
    appendInt64Ordered (randomValue &&& Int64.maxValue) decreasing

def encodeRecipePartPreamble (randomValue : Int64) (part : Part) : BufferM PreambleResult := do
  if part.tag ≠ 0 then
    let buffer ← get
    let tagged ← ofResult (SsFormat.appendCompositeTag buffer part.tag)
    set tagged
    return .handled
  else if part.random = some true then
    encodeRandomPart part (isDecreasing part) randomValue
    return .handled
  else
    match part.value with
    | some constantVal =>
        let resolvedValue ← ofResult
          (resolveStructFieldJson constantVal part.structIdentifiers)
        encodeJsonPart P part resolvedValue
        return .handled
    | none => return .valuePart

def validateRecipeStructure (recipe : KeyRecipe) : Except String Unit :=
  match recipe.part with
  | [] => .error "Invalid KeyRecipe: must have at least one part"
  | first :: _ =>
      if first.tag = 0 then .error "Invalid KeyRecipe: must start with a table or index tag"
      else .ok ()

variable {V : Type} [RecipeValue V] {σ : Type}

/-- The loop over the parts. `resolveValue` is the closure with its captured state,
and `random i` is the random number drawn at the `i`-th part, if it draws one. -/
def encodeParts (random : ℕ → Int64) (resolveValue : Part → σ → Except String V × σ) :
    List Part → ℕ → σ → BufferM Unit
  | [], _, _ => pure ()
  | part :: parts, i, state => do
      match ← encodeRecipePartPreamble P (random i) part with
      | .handled => encodeParts random resolveValue parts (i + 1) state
      | .valuePart =>
          let (result, state) := resolveValue part state
          let value ← ofResult result
          RecipeValue.encodeInto P part value
          encodeParts random resolveValue parts (i + 1) state

def encodeKeyFromPartsInternal (random : ℕ → Int64)
    (resolveValue : Part → σ → Except String V × σ) (state : σ) (recipe : KeyRecipe) :
    BufferM Unit := do
  ofResult (validateRecipeStructure recipe)
  let initial ← get
  tryCatch (encodeParts P random resolveValue recipe.part 0 state) fun error => do
    modify fun buffer => buffer.take initial.length
    throw error

/-- The closure that draws the next value from the slice. -/
def nextValue (_part : Part) : List V → Except String V × List V
  | [] => (.error "Not enough column values to encode key recipe: more values required", [])
  | value :: values => (.ok value, values)

def encodeKeyFromSliceInto (random : ℕ → Int64) (recipe : KeyRecipe) (values : List V) :
    BufferM Unit :=
  encodeKeyFromPartsInternal P random nextValue values recipe

def encodeKeyFromRecipeInto (random : ℕ → Int64) (recipe : KeyRecipe) (values : List Value) :
    BufferM Unit :=
  encodeKeyFromSliceInto P random recipe values

def encodeKeyFromJsonRecipeInto (random : ℕ → Int64) (recipe : KeyRecipe)
    (values : List JsonValue) : BufferM Unit :=
  encodeKeyFromSliceInto P random recipe values

/-- `str::eq_ignore_ascii_case`. -/
def eqIgnoreAsciiCase (a b : String) : Bool :=
  a.toList.map Char.toLower == b.toList.map Char.toLower

/-- The closure that looks a column up by name. -/
def columnValue (columns : List String) (values : List V) (part : Part) : Except String V := do
  let identifier ← okOr part.identifier "Invalid KeyRecipe part: missing column identifier"
  let columnIndex ← okOr (columns.findIdx? fun column => eqIgnoreAsciiCase column identifier)
    s!"Missing key column '{identifier}' in mutation columns"
  let columnValue ← okOr values[columnIndex]?
    s!"Missing value at column index {columnIndex} for key column '{identifier}'"
  RecipeValue.resolveField columnValue part.structIdentifiers

def encodeKeyFromColumnValuesInto (random : ℕ → Int64) (recipe : KeyRecipe)
    (columns : List String) (values : List V) : BufferM Unit :=
  encodeKeyFromPartsInternal P random
    (fun part (_ : Unit) => (columnValue columns values part, ())) () recipe

def encodeKeyFromColumnsAndValuesInto (random : ℕ → Int64) (recipe : KeyRecipe)
    (columns : List String) (values : List Value) : BufferM Unit :=
  encodeKeyFromColumnValuesInto P random recipe columns values

def encodeKeyFromJsonColumnsAndValuesInto (random : ℕ → Int64) (recipe : KeyRecipe)
    (columns : List String) (values : List JsonValue) : BufferM Unit :=
  encodeKeyFromColumnValuesInto P random recipe columns values

/-- The closure that looks a query parameter up by name. -/
def paramValue (lookup : String → Option V) (part : Part) : Except String V := do
  let identifier ← okOr part.identifier "Invalid KeyRecipe part: missing parameter identifier"
  let value ← okOr (lookup identifier)
    s!"Missing query parameter '{identifier}' required by key recipe"
  RecipeValue.resolveField value part.structIdentifiers

def encodeKeyFromQueryParamsInternal (random : ℕ → Int64) (recipe : KeyRecipe)
    (lookup : String → Option V) : BufferM Unit :=
  encodeKeyFromPartsInternal P random
    (fun part (_ : Unit) => (paramValue lookup part, ())) () recipe

def lookupJsonQueryParam (params : List (String × JsonValue)) (identifier : String) :
    Option JsonValue :=
  ((params.find? fun entry => entry.1 = identifier).or
    (params.find? fun entry => eqIgnoreAsciiCase entry.1 identifier)).map Prod.snd

def encodeKeyFromJsonQueryParamsInto (random : ℕ → Int64) (recipe : KeyRecipe)
    (params : List (String × JsonValue)) : BufferM Unit :=
  encodeKeyFromQueryParamsInternal P random recipe (lookupJsonQueryParam params)

end Parsers

end KeyRecipe

end GoogleCloudRust
