import GoogleCloudRust.Library.Rounding
import GoogleCloudRust.Library.Text

/-! # JSON integers

Model of `visitor_32.rs` and `visitor_64.rs`, and of the four modules in `wkt/src/internal` that
use their macros. -/

namespace GoogleCloudRust.Wkt

/-- The types the macros are used at. -/
inductive IntType
  | i32
  | u32
  | i64
  | u64
deriving DecidableEq, Repr

def IntType.min : IntType → ℤ
  | i32 => -2 ^ 31
  | u32 => 0
  | i64 => -2 ^ 63
  | u64 => 0

def IntType.max : IntType → ℤ
  | i32 => 2 ^ 31 - 1
  | u32 => 2 ^ 32 - 1
  | i64 => 2 ^ 63 - 1
  | u64 => 2 ^ 64 - 1

theorem IntType.bounds (t : IntType) : t.min ≤ 0 ∧ 0 < t.max := by
  cases t <;> decide

/-- The values of the type. -/
abbrev IntType.Value (t : IntType) : Type := {n : ℤ // t.min ≤ n ∧ n ≤ t.max}

/-- `n as T`, which keeps the low bits. -/
def IntType.ofInt (t : IntType) (n : ℤ) : t.Value :=
  ⟨t.min + (n - t.min) % (t.max - t.min + 1), by
    have hpos : 0 < t.max - t.min + 1 := by
      have hbounds := t.bounds
      omega
    have hnonneg := Int.emod_nonneg (n - t.min) hpos.ne'
    have hlt := Int.emod_lt_of_pos (n - t.min) hpos
    omega⟩

theorem IntType.truncAs_mem (t : IntType) (x : F64) :
    t.min ≤ x.truncAs t.min t.max ∧ x.truncAs t.min t.max ≤ t.max := by
  have hbounds := t.bounds
  simp only [F64.truncAs]
  split_ifs <;> omega

/-- `x as T`, which saturates. -/
def IntType.ofFloat (t : IntType) (x : F64) : t.Value :=
  ⟨x.truncAs t.min t.max, t.truncAs_mem x⟩

/-- What an error shows as the number it was not. -/
inductive Unexpected
  | integer (value : ℤ)
  | float (value : F64)
deriving DecidableEq, Repr

inductive VisitError
  | custom (message : String)
  | invalidValue (unexpected : Unexpected) (expected : String)
deriving DecidableEq, Repr

/-- A visitor, by its methods for what a deserializer hands over. -/
structure Visitor (t : IntType) where
  visitStr : List Char → Except VisitError t.Value
  visitI64 : Int64 → Except VisitError t.Value
  visitU64 : UInt64 → Except VisitError t.Value
  visitF64 : F64 → Except VisitError t.Value

/-! ## 32-bit types -/

namespace Visitor32

variable (t : IntType) (msg : String)

def visitF64 (value : F64) : Except VisitError t.Value :=
  if value.lt (F64.ofInt t.min) then .error (.invalidValue (.float value) msg)
  else if (F64.ofInt t.max).lt value then .error (.invalidValue (.float value) msg)
  else if (F64.ofNat 0).lt value.fract.abs then .error (.invalidValue (.float value) msg)
  else .ok (t.ofFloat value)

def visitStr (value : List Char) : Except VisitError t.Value :=
  match F64.parse value with
  | .error e => .error (.custom e)
  | .ok number => visitF64 t msg number

def visitI64 (value : Int64) : Except VisitError t.Value :=
  if value.toInt < (IntType.i64.ofInt t.min : ℤ) then
    .error (.invalidValue (.integer value.toInt) msg)
  else if (IntType.i64.ofInt t.max : ℤ) < value.toInt then
    .error (.invalidValue (.integer value.toInt) msg)
  else .ok (t.ofInt value.toInt)

def visitU64 (value : UInt64) : Except VisitError t.Value :=
  if (IntType.u64.ofInt t.max : ℤ) < value.toNat then
    .error (.invalidValue (.integer value.toNat) msg)
  else .ok (t.ofInt value.toNat)

end Visitor32

def visitor32 (t : IntType) (msg : String) : Visitor t where
  visitStr := Visitor32.visitStr t msg
  visitI64 := Visitor32.visitI64 t msg
  visitU64 := Visitor32.visitU64 t msg
  visitF64 := Visitor32.visitF64 t msg

/-! ## 64-bit types -/

namespace Visitor64

variable (t : IntType) (msg : String)

def visitF64 (value : F64) : Except VisitError t.Value :=
  if value.lt (F64.ofInt t.min) then .error (.invalidValue (.float value) msg)
  else if (F64.ofInt t.max).lt value then .error (.invalidValue (.float value) msg)
  else if !value.fract.eq (F64.ofNat 0) then .error (.invalidValue (.float value) msg)
  else .ok (t.ofFloat value)

/-- The bounds are the same integers as an `i128`. -/
def visitI128 (value : ℤ) : Except VisitError t.Value :=
  if value < t.min then .error (.invalidValue (.integer value) msg)
  else if t.max < value then .error (.invalidValue (.integer value) msg)
  else .ok (t.ofInt value)

def visitStr (value : List Char) : Except VisitError t.Value :=
  match Text.parseInt 128 value with
  | .ok v => visitI128 t msg v
  | .error _ =>
      match F64.parse value with
      | .error e => .error (.custom e)
      | .ok number => visitF64 t msg number

def visitI64 (value : Int64) : Except VisitError t.Value :=
  if value.toInt < (IntType.i64.ofInt t.min : ℤ) then
    .error (.invalidValue (.integer value.toInt) msg)
  else .ok (t.ofInt value.toInt)

def visitU64 (value : UInt64) : Except VisitError t.Value :=
  if (IntType.u64.ofInt t.max : ℤ) < value.toNat then
    .error (.invalidValue (.integer value.toNat) msg)
  else .ok (t.ofInt value.toNat)

end Visitor64

def visitor64 (t : IntType) (msg : String) : Visitor t where
  visitStr := Visitor64.visitStr t msg
  visitI64 := Visitor64.visitI64 t msg
  visitU64 := Visitor64.visitU64 t msg
  visitF64 := Visitor64.visitF64 t msg

/-! ## The four visitors -/

def i32Visitor : Visitor .i32 := visitor32 .i32 "a 32-bit signed integer"

def u32Visitor : Visitor .u32 := visitor32 .u32 "a 32-bit unsigned integer in ProtoJSON format"

def i64Visitor : Visitor .i64 := visitor64 .i64 "a 64-bit signed integer"

def u64Visitor : Visitor .u64 := visitor64 .u64 "a 64-bit unsigned integer"

def visitor : (t : IntType) → Visitor t
  | .i32 => i32Visitor
  | .u32 => u32Visitor
  | .i64 => i64Visitor
  | .u64 => u64Visitor

/-- What a deserializer hands over for a JSON number or a JSON string. -/
inductive Handed
  | i64 (value : Int64)
  | u64 (value : UInt64)
  | f64 (value : F64)
  | str (value : List Char)
deriving DecidableEq, Repr

/-- `deserialize_as`: the deserializer chooses the method. -/
def deserializeAs (t : IntType) : Handed → Except VisitError t.Value
  | .i64 value => (visitor t).visitI64 value
  | .u64 value => (visitor t).visitU64 value
  | .f64 value => (visitor t).visitF64 value
  | .str value => (visitor t).visitStr value

/-- What a serializer emits. -/
inductive Emitted
  | number (value : ℤ)
  | str (value : List Char)
deriving DecidableEq, Repr

/-- `serialize_as`: integers of 64 bits are emitted as strings. -/
def serializeAs (t : IntType) (source : t.Value) : Emitted :=
  match t with
  | .i32 | .u32 => .number source
  | .i64 | .u64 => .str (Text.int source)

/-- An emitted integer is handed over in one of the integer types that have it. -/
inductive HandedBack : Emitted → Handed → Prop
  | i64 (value : Int64) : HandedBack (.number value.toInt) (.i64 value)
  | u64 (value : UInt64) : HandedBack (.number value.toNat) (.u64 value)
  | str (value : List Char) : HandedBack (.str value) (.str value)

end GoogleCloudRust.Wkt
