import GoogleCloudRust.Model.KeyRecipe

/-! # Keys, mutations and key extraction

Model of `key.rs`, `mutation.rs` and `routing/key_extractor.rs`: the client's typed
key sets and mutations, their protobuf forms, and the routing key of either. -/

namespace GoogleCloudRust

/-! ## Typed keys and mutations -/

structure Key where
  values : List Value

inductive Endpoint
  | closed (key : Key)
  | opened (key : Key)

structure KeyRange where
  start : Endpoint
  stop : Endpoint

structure KeySet where
  keys : List Key
  ranges : List KeyRange
  all : Bool

structure Write where
  table : String
  columns : List String
  values : List Value

structure Delete where
  table : String
  keySet : KeySet

/-- `Mutation` with its `InternalMutation`. -/
inductive Mutation
  | insert (write : Write)
  | update (write : Write)
  | insertOrUpdate (write : Write)
  | replace (write : Write)
  | delete (delete : Delete)

/-! ## Protobuf keys and mutations -/

inductive ProtoBound
  | closed (values : List JsonValue)
  | opened (values : List JsonValue)

/-- `model::KeyRange`, with its two `oneof` bounds. -/
structure ProtoKeyRange where
  startKeyType : Option ProtoBound := none
  endKeyType : Option ProtoBound := none

def ProtoKeyRange.startClosed (range : ProtoKeyRange) : Option (List JsonValue) :=
  match range.startKeyType with
  | some (.closed values) => some values
  | _ => none

def ProtoKeyRange.startOpen (range : ProtoKeyRange) : Option (List JsonValue) :=
  match range.startKeyType with
  | some (.opened values) => some values
  | _ => none

structure ProtoKeySet where
  keys : List (List JsonValue) := []
  ranges : List ProtoKeyRange := []
  all : Bool := false

structure ProtoWrite where
  table : String
  columns : List String
  values : List (List JsonValue)

structure ProtoDelete where
  table : String
  keySet : Option ProtoKeySet

/-- `mutation::Send` and `mutation::Ack`, as far as routing reads them. -/
structure ProtoQueueItem where
  queue : String
  key : Option (List JsonValue)

inductive ProtoOperation
  | insert (write : ProtoWrite)
  | update (write : ProtoWrite)
  | insertOrUpdate (write : ProtoWrite)
  | replace (write : ProtoWrite)
  | delete (delete : ProtoDelete)
  | send (send : ProtoQueueItem)
  | ack (ack : ProtoQueueItem)

structure ProtoMutation where
  operation : Option ProtoOperation

/-! ## Conversion to protobuf -/

def Key.intoValues (key : Key) : List JsonValue := key.values.map Value.intoSerdeValue

def Endpoint.intoBound : Endpoint → ProtoBound
  | closed key => .closed key.intoValues
  | opened key => .opened key.intoValues

def KeyRange.intoProto (range : KeyRange) : ProtoKeyRange where
  startKeyType := some range.start.intoBound
  endKeyType := some range.stop.intoBound

def KeySet.intoProto (keySet : KeySet) : ProtoKeySet :=
  let proto : ProtoKeySet := {}
  let proto := if keySet.all then { proto with all := true } else proto
  let keysProto := keySet.keys.map Key.intoValues
  let proto := if keysProto.isEmpty then proto else { proto with keys := keysProto }
  let rangesProto := keySet.ranges.map KeyRange.intoProto
  if rangesProto.isEmpty then proto else { proto with ranges := rangesProto }

def Write.intoProto (write : Write) : ProtoWrite where
  table := write.table
  columns := write.columns
  values := [write.values.map Value.intoSerdeValue]

def Delete.intoProto (delete : Delete) : ProtoDelete where
  table := delete.table
  keySet := some delete.keySet.intoProto

def Mutation.buildProto : Mutation → ProtoMutation
  | .insert write => ⟨some (.insert write.intoProto)⟩
  | .update write => ⟨some (.update write.intoProto)⟩
  | .insertOrUpdate write => ⟨some (.insertOrUpdate write.intoProto)⟩
  | .replace write => ⟨some (.replace write.intoProto)⟩
  | .delete deletion => ⟨some (.delete deletion.intoProto)⟩

/-! ## Key extraction -/

namespace KeyExtractor

open KeyRecipe

/-- Run a computation that reports whether it wrote a key, on an empty buffer. -/
def extracted (m : BufferM Bool) : Except String (Option Bytes) :=
  match Fallible.exec m [] with
  | (.error e, _) => .error e
  | (.ok false, _) => .ok none
  | (.ok true, buffer) => .ok (some buffer)

section Parsers

variable (P : TextParsers) (random : ℕ → Int64) (recipe : KeyRecipe)

/-- The fall-back of a typed key set: the start of its first range. -/
def extractStartOfFirstRangeInto (ranges : List KeyRange) : BufferM Bool :=
  match ranges.head? with
  | none => pure false
  | some firstRange =>
      let startKey := match firstRange.start with
        | .closed key | .opened key => key
      if startKey.values.isEmpty then pure false
      else do
        encodeKeyFromRecipeInto P random recipe startKey.values
        return true

def extractKeyFromKeySetInto (keySet : KeySet) : BufferM Bool :=
  if keySet.all then pure false
  else
    match keySet.keys.head?.filter fun firstKey => !firstKey.values.isEmpty with
    | some firstKey => do
        encodeKeyFromRecipeInto P random recipe firstKey.values
        return true
    | none => extractStartOfFirstRangeInto P random recipe keySet.ranges

def extractKeyFromWriteInto (write : Write) : BufferM Bool :=
  if write.columns.isEmpty || write.values.isEmpty then pure false
  else do
    encodeKeyFromColumnsAndValuesInto P random recipe write.columns write.values
    return true

def extractKeyFromMutationInto : Mutation → BufferM Bool
  | .insert write | .update write | .insertOrUpdate write | .replace write =>
      extractKeyFromWriteInto P random recipe write
  | .delete delete => extractKeyFromKeySetInto P random recipe delete.keySet

def extractKeyFromMutation (mutation : Mutation) : Except String (Option Bytes) :=
  extracted (extractKeyFromMutationInto P random recipe mutation)

def extractKeyFromProtoKeyListInto (keyList : Option (List JsonValue)) : BufferM Bool :=
  match keyList with
  | none => pure false
  | some keyList =>
      if keyList.isEmpty then pure false
      else do
        encodeKeyFromJsonRecipeInto P random recipe keyList
        return true

/-- The fall-back of a protobuf key set: either start of its first range. -/
def extractStartOfFirstProtoRangeInto (ranges : List ProtoKeyRange) : BufferM Bool :=
  match ranges.head? with
  | none => pure false
  | some firstRange => do
      if ← extractKeyFromProtoKeyListInto P random recipe firstRange.startClosed then
        return true
      else if ← extractKeyFromProtoKeyListInto P random recipe firstRange.startOpen then
        return true
      else
        return false

def extractKeyFromProtoKeySetInto (keySet : ProtoKeySet) : BufferM Bool :=
  if keySet.all then pure false
  else do
    if ← extractKeyFromProtoKeyListInto P random recipe keySet.keys.head? then
      return true
    else
      extractStartOfFirstProtoRangeInto P random recipe keySet.ranges

def extractKeyFromProtoWriteInto (write : ProtoWrite) : BufferM Bool :=
  if write.columns.isEmpty || write.values.isEmpty then pure false
  else
    match write.values.head?.filter fun row => !row.isEmpty with
    | some firstRow => do
        encodeKeyFromJsonColumnsAndValuesInto P random recipe write.columns firstRow
        return true
    | none => pure false

def extractKeyFromProtoMutationInto (mutation : ProtoMutation) : BufferM Bool :=
  match mutation.operation with
  | some (.insert write) | some (.update write) | some (.insertOrUpdate write)
  | some (.replace write) => extractKeyFromProtoWriteInto P random recipe write
  | some (.delete delete) =>
      match delete.keySet with
      | none => pure false
      | some keySet => extractKeyFromProtoKeySetInto P random recipe keySet
  | some (.send send) => extractKeyFromProtoKeyListInto P random recipe send.key
  | some (.ack ack) => extractKeyFromProtoKeyListInto P random recipe ack.key
  | none => pure false

def extractKeyFromProtoMutation (mutation : ProtoMutation) : Except String (Option Bytes) :=
  extracted (extractKeyFromProtoMutationInto P random recipe mutation)

end Parsers

/-! ## Table names -/

def extractMutationTableName : Mutation → String
  | .insert write | .update write | .insertOrUpdate write | .replace write => write.table
  | .delete delete => delete.table

def extractProtoMutationTableName (mutation : ProtoMutation) : Option String :=
  match mutation.operation with
  | some (.insert write) | some (.update write) | some (.insertOrUpdate write)
  | some (.replace write) => some write.table
  | some (.delete delete) => some delete.table
  | some (.send send) => some send.queue
  | some (.ack ack) => some ack.queue
  | none => none

/-- The trait `ExtractableMutation`. -/
class ExtractableMutation (M : Type) where
  tableName : M → Option String
  extractKey : TextParsers → (ℕ → Int64) → KeyRecipe → M → Except String (Option Bytes)

instance : ExtractableMutation Mutation where
  tableName mutation := some (extractMutationTableName mutation)
  extractKey := extractKeyFromMutation

instance : ExtractableMutation ProtoMutation where
  tableName := extractProtoMutationTableName
  extractKey := extractKeyFromProtoMutation

end KeyExtractor

end GoogleCloudRust
