import GoogleCloudRust.Library.Bytes
import GoogleCloudRust.Library.Float64

/-! # Values and protobuf messages

The client's `Value`, the JSON values of the generated messages, and the Spanner
messages the routing code reads. Fields that no modelled function reads are left
out. -/

namespace GoogleCloudRust

/-! ## JSON values -/

/-- `serde_json::Number`. -/
inductive JsonNumber
  | posInt (n : UInt64)
  | negInt (n : Int64)
  | float (x : F64)
deriving DecidableEq, Repr

/-- `serde_json::Value`. -/
inductive JsonValue
  | null
  | bool (b : Bool)
  | number (n : JsonNumber)
  | string (s : String)
  | array (values : List JsonValue)
  | object (fields : List (String × JsonValue))
deriving Inhabited

namespace JsonNumber

/-- `Number::from_f64`: infinities and NaN are no JSON numbers. -/
def fromF64 (x : F64) : Option JsonNumber :=
  if x.isFinite then some (.float x) else none

def asI64 : JsonNumber → Option Int64
  | posInt n => if n.toNat < 2 ^ 63 then some (Int64.ofNat n.toNat) else none
  | negInt n => some n
  | float _ => none

def asF64 : JsonNumber → Option F64
  | posInt n => some (F64.ofNat n.toNat)
  | negInt n => some (F64.ofInt n.toInt)
  | float x => some x

end JsonNumber

namespace JsonValue

def isNull : JsonValue → Bool
  | null => true
  | _ => false

def asBool : JsonValue → Option Bool
  | bool b => some b
  | _ => none

def asStr : JsonValue → Option String
  | string s => some s
  | _ => none

def asI64 : JsonValue → Option Int64
  | number n => n.asI64
  | _ => none

def asF64 : JsonValue → Option F64
  | number n => n.asF64
  | _ => none

def asArray : JsonValue → Option (List JsonValue)
  | array values => some values
  | _ => none

end JsonValue

/-! ## Client values -/

/-- `value::Kind`. -/
inductive Kind
  | null
  | number
  | string
  | bool
  | list
  | unknown
deriving DecidableEq, Repr

/-- `Value`, a `prost_types::Value` whose `kind` may be absent. -/
inductive Value
  | unset
  | nullValue (n : Int32)
  | numberValue (x : F64)
  | stringValue (s : String)
  | boolValue (b : Bool)
  | listValue (values : List Value)
  | structValue (fields : List (String × Value))
deriving Inhabited

namespace Value

def kind : Value → Kind
  | nullValue _ | unset => .null
  | numberValue _ => .number
  | stringValue _ => .string
  | boolValue _ => .bool
  | listValue _ => .list
  | structValue _ => .unknown

def asStr : Value → Option String
  | stringValue s => some s
  | _ => none

def asBool : Value → Option Bool
  | boolValue b => some b
  | _ => none

def asF64 : Value → Option F64
  | numberValue x => some x
  | _ => none

def asList : Value → Option (List Value)
  | listValue values => some values
  | _ => none

mutual

def intoSerdeValue : Value → JsonValue
  | nullValue _ => .null
  | numberValue x =>
      match JsonNumber.fromF64 x with
      | some number => .number number
      | none =>
          if x.isNan then .string "NaN"
          else if x.isSignPositive then .string "Infinity"
          else .string "-Infinity"
  | stringValue s => .string s
  | boolValue b => .bool b
  | listValue values => .array (intoSerdeValues values)
  | unset => .null
  | structValue _ => .null

/-- `intoSerdeValue` on every element. -/
def intoSerdeValues : List Value → List JsonValue
  | [] => []
  | value :: values => intoSerdeValue value :: intoSerdeValues values

end

theorem intoSerdeValues_eq_map (values : List Value) :
    intoSerdeValues values = values.map intoSerdeValue := by
  induction values with
  | nil => rfl
  | cons value values ih => simp [intoSerdeValues, ih]

end Value

/-! ## Types -/

/-- `wkt::internal::UnknownEnumValue`. -/
inductive UnknownEnumValue
  | integer (n : Int32)
  | string (s : String)
deriving DecidableEq, Repr

def UnknownEnumValue.value : UnknownEnumValue → Option Int32
  | integer n => some n
  | string _ => none

/-- `{:?}` of an unknown enum value. -/
def UnknownEnumValue.debug : UnknownEnumValue → String
  | integer n => s!"UnknownValue(UnknownValue(Integer({n})))"
  | string s => s!"UnknownValue(UnknownValue(String({s.quote})))"

inductive TypeCode
  | unspecified
  | bool
  | int64
  | float64
  | float32
  | timestamp
  | date
  | string
  | bytes
  | array
  | struct
  | numeric
  | json
  | proto
  | enum
  | interval
  | uuid
  | unknownValue (u : UnknownEnumValue)
deriving DecidableEq, Repr

namespace TypeCode

def value : TypeCode → Option Int32
  | unspecified => some 0
  | bool => some 1
  | int64 => some 2
  | float64 => some 3
  | float32 => some 15
  | timestamp => some 4
  | date => some 5
  | string => some 6
  | bytes => some 7
  | array => some 8
  | struct => some 9
  | numeric => some 10
  | json => some 11
  | proto => some 13
  | enum => some 14
  | interval => some 16
  | uuid => some 17
  | unknownValue u => u.value

/-- `{:?}` of a type code. -/
def debug : TypeCode → String
  | unspecified => "Unspecified"
  | bool => "Bool"
  | int64 => "Int64"
  | float64 => "Float64"
  | float32 => "Float32"
  | timestamp => "Timestamp"
  | date => "Date"
  | string => "String"
  | bytes => "Bytes"
  | array => "Array"
  | struct => "Struct"
  | numeric => "Numeric"
  | json => "Json"
  | proto => "Proto"
  | enum => "Enum"
  | interval => "Interval"
  | uuid => "Uuid"
  | unknownValue u => u.debug

end TypeCode

inductive TypeAnnotationCode
  | unspecified
  | pgNumeric
  | pgJsonb
  | pgOid
  | unknownValue (u : UnknownEnumValue)
deriving DecidableEq, Repr

def TypeAnnotationCode.value : TypeAnnotationCode → Option Int32
  | unspecified => some 0
  | pgNumeric => some 2
  | pgJsonb => some 3
  | pgOid => some 4
  | unknownValue u => u.value

/-- `model::Type`; a struct type is the list of its field names and types. -/
inductive SpannerType
  | mk : (code : TypeCode) → TypeAnnotationCode → (protoTypeFqn : String) →
      (arrayElementType : Option SpannerType) →
      (structType : Option (List (String × Option SpannerType))) → SpannerType

def SpannerType.code : SpannerType → TypeCode
  | mk code _ _ _ _ => code

/-! ## Key recipes -/

inductive Order
  | unspecified
  | ascending
  | descending
  | unknownValue (u : UnknownEnumValue)
deriving DecidableEq, Repr

inductive NullOrder
  | unspecified
  | nullsFirst
  | nullsLast
  | notNull
  | unknownValue (u : UnknownEnumValue)
deriving DecidableEq, Repr

inductive ValueType
  | identifier (name : String)
  | value (constant : JsonValue)
  | random (enabled : Bool)

/-- `key_recipe::Part`. -/
structure Part where
  tag : UInt32
  order : Order
  nullOrder : NullOrder
  type : Option SpannerType
  structIdentifiers : List Int32
  valueType : Option ValueType

namespace Part

def identifier (part : Part) : Option String :=
  match part.valueType with
  | some (.identifier name) => some name
  | _ => none

def value (part : Part) : Option JsonValue :=
  match part.valueType with
  | some (.value constant) => some constant
  | _ => none

def random (part : Part) : Option Bool :=
  match part.valueType with
  | some (.random enabled) => some enabled
  | _ => none

end Part

inductive Target
  | tableName (name : String)
  | indexName (name : String)
  | operationUid (uid : UInt64)
deriving DecidableEq, Repr

structure KeyRecipe where
  part : List Part
  target : Option Target

structure RecipeList where
  schemaGeneration : Bytes
  recipe : List KeyRecipe

end GoogleCloudRust
