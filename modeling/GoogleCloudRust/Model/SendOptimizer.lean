import Mathlib.Data.List.Basic
import Mathlib.Data.Option.Basic

/-! # The send optimizer of an `AppendRows` stream

Model of `optimizer.rs`. The descriptor of a protobuf schema is a type of its own library; the
optimizer only compares descriptors. -/

namespace GoogleCloudRust.BigQuery

structure ArrowSchema where
  serializedSchema : List UInt8
deriving DecidableEq, Repr

structure ProtoSchema (Descriptor : Type) where
  protoDescriptor : Option Descriptor
deriving DecidableEq, Repr

structure ArrowRecordBatch where
  serializedRecordBatch : List UInt8
deriving DecidableEq, Repr

structure ProtoRows where
  serializedRows : List (List UInt8)
deriving DecidableEq, Repr

structure ArrowData where
  writerSchema : Option ArrowSchema
  rows : Option ArrowRecordBatch
deriving DecidableEq, Repr

structure ProtoData (Descriptor : Type) where
  writerSchema : Option (ProtoSchema Descriptor)
  rows : Option ProtoRows
deriving DecidableEq, Repr

inductive Rows (Descriptor : Type)
  | protoRows (data : ProtoData Descriptor)
  | arrowRows (data : ArrowData)
deriving DecidableEq, Repr

structure AppendRowsRequest (Descriptor : Type) where
  writeStream : String
  traceId : String
  rows : Option (Rows Descriptor)
deriving DecidableEq, Repr

inductive WriterSchema (Descriptor : Type)
  | arrow (schema : ArrowSchema)
  | proto (schema : ProtoSchema Descriptor)
deriving DecidableEq, Repr

variable {Descriptor : Type}

def extractSchema (req : AppendRowsRequest Descriptor) : Option (WriterSchema Descriptor) :=
  match req.rows with
  | none => none
  | some (.arrowRows data) => data.writerSchema.map .arrow
  | some (.protoRows data) => data.writerSchema.map .proto

def sameSchema [DecidableEq Descriptor] (req : AppendRowsRequest Descriptor)
    (prev : Option (WriterSchema Descriptor)) : Bool :=
  match req.rows, prev with
  | some (.arrowRows d), some (.arrow s) => decide (d.writerSchema = some s)
  | some (.protoRows d), some (.proto s) => decide (d.writerSchema = some s)
  | _, _ => false

def clearSchema (req : AppendRowsRequest Descriptor) : AppendRowsRequest Descriptor :=
  match req.rows with
  | some (.arrowRows data) =>
    { req with rows := some (.arrowRows { data with writerSchema := none }) }
  | some (.protoRows data) =>
    { req with rows := some (.protoRows { data with writerSchema := none }) }
  | none => req

structure SendOptimizer (Descriptor : Type) where
  prevWriteStream : String
  prevSchema : Option (WriterSchema Descriptor)
  keepWriteStream : Bool
deriving DecidableEq, Repr

namespace SendOptimizer

def new (initialReq : AppendRowsRequest Descriptor) : SendOptimizer Descriptor where
  prevWriteStream := initialReq.writeStream
  prevSchema := extractSchema initialReq
  keepWriteStream := false

variable [DecidableEq Descriptor]

/-- The optimizer after `req` and the request as it is sent. -/
def optimize (optimizer : SendOptimizer Descriptor) (req : AppendRowsRequest Descriptor) :
    SendOptimizer Descriptor × AppendRowsRequest Descriptor :=
  if req.writeStream = optimizer.prevWriteStream ∧ sameSchema req optimizer.prevSchema then
    (optimizer, clearSchema
      (if !optimizer.keepWriteStream then { req with writeStream := "" } else req))
  else
    ({ keepWriteStream := true
       prevWriteStream := req.writeStream
       prevSchema := extractSchema req }, req)

/-- What the write task sends for the requests it receives after the first. -/
def optimizeAll (optimizer : SendOptimizer Descriptor) :
    List (AppendRowsRequest Descriptor) → List (AppendRowsRequest Descriptor)
  | [] => []
  | req :: reqs => (optimizer.optimize req).2 :: (optimizer.optimize req).1.optimizeAll reqs

/-- What is sent on one connection: the first request as it is, then the optimized ones. -/
def sequence : List (AppendRowsRequest Descriptor) → List (AppendRowsRequest Descriptor)
  | [] => []
  | initialReq :: reqs => initialReq :: (new initialReq).optimizeAll reqs

end SendOptimizer

/-! ## The service

What the service takes a request to mean, in its own terms: from the requests it has accepted on
the connection, newest first. -/

/-- The rows of a request without their schema. -/
inductive Payload
  | protoRows (rows : Option ProtoRows)
  | arrowRows (rows : Option ArrowRecordBatch)
deriving DecidableEq, Repr

def Rows.payload : Rows Descriptor → Payload
  | .protoRows data => .protoRows data.rows
  | .arrowRows data => .arrowRows data.rows

structure Interpreted (Descriptor : Type) where
  writeStream : String
  schema : Option (WriterSchema Descriptor)
  rows : Option Payload
deriving DecidableEq, Repr

namespace Service

/-- The connection has used a single write stream and schema. -/
def Single (history : List (Interpreted Descriptor)) : Prop :=
  ∀ r ∈ history, ∀ r' ∈ history, r.writeStream = r'.writeStream ∧ r.schema = r'.schema

instance [DecidableEq Descriptor] (history : List (Interpreted Descriptor)) :
    Decidable (Single history) :=
  inferInstanceAs (Decidable (∀ r ∈ history, ∀ r' ∈ history,
    r.writeStream = r'.writeStream ∧ r.schema = r'.schema))

/-- The schema of the previous request to the same write stream. -/
def inForce (history : List (Interpreted Descriptor)) (writeStream : String) :
    Option (WriterSchema Descriptor) :=
  (history.find? fun r => r.writeStream = writeStream).bind Interpreted.schema

variable [DecidableEq Descriptor]

def streamOf (history : List (Interpreted Descriptor)) (writeStream : String) : Option String :=
  if writeStream = "" then
    if Single history then history.head?.map Interpreted.writeStream else none
  else some writeStream

/-- What `req` means after `history`; `none` when the service refuses it. -/
def interpretOne (history : List (Interpreted Descriptor)) (req : AppendRowsRequest Descriptor) :
    Option (Interpreted Descriptor) :=
  (streamOf history req.writeStream).map fun writeStream =>
    { writeStream
      schema := (extractSchema req).or (inForce history writeStream)
      rows := req.rows.map Rows.payload }

def interpret (history : List (Interpreted Descriptor)) :
    List (AppendRowsRequest Descriptor) → List (Option (Interpreted Descriptor))
  | [] => []
  | req :: reqs =>
    interpretOne history req :: interpret ((interpretOne history req).toList ++ history) reqs

end Service

end GoogleCloudRust.BigQuery
