import Mathlib.Data.List.Sort
import Mathlib.Data.String.Basic
import GoogleCloudRust.Library.HashMap
import GoogleCloudRust.Model.Proto
import GoogleCloudRust.Model.SsFormat

/-! # Prepared operations

Model of `routing/prepared_operation.rs`: descriptors of query and read shapes, and
their 64-bit FNV-1a fingerprints. -/

namespace GoogleCloudRust

/-! ## Requests -/

/-- `serde_json::Map`: entries in iteration order, with distinct names. -/
structure JsonMap where
  entries : List (String × JsonValue)
  nodup : (entries.map Prod.fst).Nodup

def JsonMap.get (map : JsonMap) (name : String) : Option JsonValue :=
  (map.entries.find? fun entry => entry.1 = name).map Prod.snd

structure QueryOptions where
  optimizerVersion : String
  optimizerStatisticsPackage : String
deriving DecidableEq, Repr

structure ExecuteSqlRequest where
  sql : String
  params : Option JsonMap
  paramTypes : HashMap String SpannerType
  partitionToken : Bytes
  queryOptions : Option QueryOptions

structure ReadRequest where
  table : String
  index : String
  columns : List String
  partitionToken : Bytes

namespace SpannerType

mutual

/-- Equality of types, through element types and struct fields. -/
def decEq : (a b : SpannerType) → Decidable (a = b)
  | mk code annotationCode fqn element fields, mk code' annotationCode' fqn' element' fields' =>
      match decEqOption element element', decEqFields fields fields' with
      | isTrue helement, isTrue hfields =>
          decidable_of_iff (code = code' ∧ annotationCode = annotationCode' ∧ fqn = fqn')
            (by rw [mk.injEq]; simp [helement, hfields])
      | isFalse helement, _ => isFalse (by rw [mk.injEq]; exact fun h => helement h.2.2.2.1)
      | _, isFalse hfields => isFalse (by rw [mk.injEq]; exact fun h => hfields h.2.2.2.2)

def decEqOption : (a b : Option SpannerType) → Decidable (a = b)
  | none, none => isTrue rfl
  | none, some _ => isFalse nofun
  | some _, none => isFalse nofun
  | some a, some b =>
      match decEq a b with
      | isTrue h => isTrue (congrArg some h)
      | isFalse h => isFalse fun heq => h (Option.some.inj heq)

def decEqFields : (a b : Option (List (String × Option SpannerType))) → Decidable (a = b)
  | none, none => isTrue rfl
  | none, some _ => isFalse nofun
  | some _, none => isFalse nofun
  | some a, some b =>
      match decEqList a b with
      | isTrue h => isTrue (congrArg some h)
      | isFalse h => isFalse fun heq => h (Option.some.inj heq)

def decEqList : (a b : List (String × Option SpannerType)) → Decidable (a = b)
  | [], [] => isTrue rfl
  | [], _ :: _ => isFalse nofun
  | _ :: _, [] => isFalse nofun
  | (name, type) :: a, (name', type') :: b =>
      match decEqOption type type', decEqList a b with
      | isTrue htype, isTrue htail =>
          decidable_of_iff (name = name') (by simp [htype, htail])
      | isFalse htype, _ => isFalse (by simp [htype])
      | _, isFalse htail => isFalse (by simp [htail])

end

instance : DecidableEq SpannerType := decEq

end SpannerType

namespace PreparedOperation

/-! ## Fingerprints -/

/-- `FnvHasher`, which is its state. -/
abbrev FnvHasher := UInt64

def fnvOffsetBasis : UInt64 := 0xcbf29ce484222325
def fnvPrime : UInt64 := 0x100000001b3

namespace FnvHasher

def new : FnvHasher := fnvOffsetBasis

def write (hasher : FnvHasher) (bytes : Bytes) : FnvHasher :=
  bytes.foldl (fun state byte => (state ^^^ byte.toUInt64) * fnvPrime) hasher

/-- `u64::to_le_bytes` first. -/
def writeU64 (hasher : FnvHasher) (value : UInt64) : FnvHasher :=
  write hasher (beBytes 8 value.toNat).reverse

def writeBytes (hasher : FnvHasher) (bytes : Bytes) : FnvHasher :=
  let hasher := writeU64 hasher (UInt64.ofNat bytes.length)
  if bytes.isEmpty then hasher else write hasher bytes

def writeStr (hasher : FnvHasher) (string : String) : FnvHasher :=
  writeBytes hasher (SsFormat.strBytes string)

def finish (hasher : FnvHasher) : UInt64 := hasher

end FnvHasher

open FnvHasher

def jsonValueKind : JsonValue → UInt32
  | .null => 1
  | .number _ => 2
  | .string _ => 3
  | .bool _ => 4
  | .object _ => 5
  | .array _ => 6

/-- `value().unwrap_or(0) as u64` on an enum. -/
def enumValue (value : Option Int32) : UInt64 := (value.getD 0).toInt64.toUInt64

mutual

def hashType (hasher : FnvHasher) : SpannerType → FnvHasher
  | .mk code annotationCode fqn element fields =>
      let hasher := writeU64 hasher (enumValue code.value)
      let hasher := writeU64 hasher (enumValue annotationCode.value)
      let hasher := writeStr hasher fqn
      let hasher := hashOptionalType hasher element
      hashStructType hasher fields

def hashOptionalType (hasher : FnvHasher) : Option SpannerType → FnvHasher
  | some innerType => hashType (writeU64 hasher 1) innerType
  | none => writeU64 hasher 0

def hashStructType (hasher : FnvHasher) :
    Option (List (String × Option SpannerType)) → FnvHasher
  | some fields => hashFields (writeU64 (writeU64 hasher 1) (UInt64.ofNat fields.length)) fields
  | none => writeU64 hasher 0

def hashFields (hasher : FnvHasher) : List (String × Option SpannerType) → FnvHasher
  | [] => hasher
  | (name, type) :: fields =>
      hashFields (hashOptionalType (writeStr hasher name) type) fields

end

/-- The entries by name. Names are distinct, so that the result does not depend on the
sorting algorithm. -/
def sortByName {α : Type} (name : α → String) (entries : List α) : List α :=
  entries.insertionSort fun left right => name left ≤ name right

def hashParam (request : ExecuteSqlRequest) (hasher : FnvHasher) (entry : String × JsonValue) :
    FnvHasher :=
  let hasher := writeStr hasher entry.1
  match request.paramTypes.lookup entry.1 with
  | some paramType => hashType hasher paramType
  | none => writeU64 hasher (jsonValueKind entry.2).toUInt64

/-- Two to four entries are sorted on the stack and more of them on the heap. -/
def hashParams (request : ExecuteSqlRequest) (hasher : FnvHasher) (params : JsonMap) : FnvHasher :=
  if params.entries.length = 1 then params.entries.foldl (hashParam request) hasher
  else (sortByName Prod.fst params.entries).foldl (hashParam request) hasher

def fingerprintExecuteSqlRequest (request : ExecuteSqlRequest) : UInt64 :=
  let hasher := writeStr new request.sql
  let hasher := match request.params with
    | some params => hashParams request hasher params
    | none => hasher
  let (optimizerVersion, optimizerStatisticsPackage) := match request.queryOptions with
    | some options => (options.optimizerVersion, options.optimizerStatisticsPackage)
    | none => ("", "")
  let hasher := writeStr hasher optimizerVersion
  let hasher := writeStr hasher optimizerStatisticsPackage
  finish hasher

def fingerprintReadShape (table index : String) (columns : List String) : UInt64 :=
  let hasher := writeStr new table
  let hasher := writeStr hasher index
  let hasher := writeU64 hasher (UInt64.ofNat columns.length)
  finish (columns.foldl writeStr hasher)

def fingerprintProtoReadRequest (request : ReadRequest) : UInt64 :=
  fingerprintReadShape request.table request.index request.columns

/-! ## Prepared queries -/

structure PreparedQueryParam where
  name : String
  typeRef : Option SpannerType
  kind : UInt32

structure PreparedQuery where
  sql : String
  params : List PreparedQueryParam
  queryOptions : Option QueryOptions
  operationUid : UInt64

def normalizeQueryOptions (options : Option QueryOptions) : Option QueryOptions :=
  options.filter fun options =>
    options.optimizerVersion ≠ "" || options.optimizerStatisticsPackage ≠ ""

def preparedParam (request : ExecuteSqlRequest) (entry : String × JsonValue) :
    PreparedQueryParam :=
  match request.paramTypes.lookup entry.1 with
  | some paramType => ⟨entry.1, some paramType, 0⟩
  | none => ⟨entry.1, none, jsonValueKind entry.2⟩

namespace PreparedQuery

def new (request : ExecuteSqlRequest) (operationUid : UInt64) : PreparedQuery where
  sql := request.sql
  params := match request.params with
    | some requestParams =>
        let params := requestParams.entries.map (preparedParam request)
        if 1 < params.length then sortByName PreparedQueryParam.name params else params
    | none => []
  queryOptions := normalizeQueryOptions request.queryOptions
  operationUid := operationUid

/-- The check of one prepared parameter against the request. -/
def matchesParam (request : ExecuteSqlRequest) (requestParams : JsonMap)
    (param : PreparedQueryParam) : Bool :=
  match requestParams.get param.name with
  | none => false
  | some value =>
      match param.typeRef with
      | some expectedType => request.paramTypes.lookup param.name = some expectedType
      | none => !((request.paramTypes.lookup param.name).isSome || param.kind ≠ jsonValueKind value)

def matchesParams (prepared : PreparedQuery) (request : ExecuteSqlRequest) : Bool :=
  match request.params with
  | none => prepared.params.isEmpty
  | some requestParams =>
      prepared.params.length = requestParams.entries.length &&
        prepared.params.all (matchesParam request requestParams)

/-- `PreparedQuery::matches`. -/
def matchesRequest (prepared : PreparedQuery) (request : ExecuteSqlRequest) : Bool :=
  prepared.sql = request.sql &&
    prepared.queryOptions = normalizeQueryOptions request.queryOptions &&
    prepared.matchesParams request

end PreparedQuery

/-! ## Prepared reads -/

structure PreparedRead where
  table : String
  index : Option String
  columns : List String
  operationUid : UInt64
deriving DecidableEq

namespace PreparedRead

def normalizeIndex (index : Option String) : Option String := index.filter (· ≠ "")

def new (table : String) (index : Option String) (columns : List String) (operationUid : UInt64) :
    PreparedRead :=
  ⟨table, normalizeIndex index, columns, operationUid⟩

def fromProtoReadRequest (request : ReadRequest) (operationUid : UInt64) : PreparedRead :=
  new request.table (some request.index) request.columns operationUid

def matchesShape (prepared : PreparedRead) (table : String) (index : Option String)
    (columns : List String) : Bool :=
  prepared.table = table && prepared.index = normalizeIndex index && prepared.columns = columns

def matchesProtoReadRequest (prepared : PreparedRead) (request : ReadRequest) : Bool :=
  prepared.matchesShape request.table (some request.index) request.columns

end PreparedRead

end PreparedOperation

end GoogleCloudRust
