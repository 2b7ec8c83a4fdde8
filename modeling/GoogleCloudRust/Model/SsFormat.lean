import GoogleCloudRust.Library.Bytes
import GoogleCloudRust.Library.Float64

/-! # Sortable string format

Model of `routing/ssformat.rs`. A `&mut Vec<u8>` is the byte string before the
call and the returned byte string after it. -/

namespace GoogleCloudRust.SsFormat

def isKey : UInt8 := 0x80

def typeUint1 : UInt8 := 0
def typeDecreasingUint1 : UInt8 := 40

def typeNegInt1 : UInt8 := 16
def typePosInt1 : UInt8 := 17
def typeDecreasingNegInt1 : UInt8 := 48
def typeDecreasingPosInt1 : UInt8 := 49

def typeString : UInt8 := 25
def typeDecreasingString : UInt8 := 57

def typeNullOrderedFirst : UInt8 := 27
def typeNullableNotNullNullOrderedFirst : UInt8 := 28
def typeNullableNotNullNullOrderedLast : UInt8 := 59
def typeNullOrderedLast : UInt8 := 60

def typeNegDouble1 : UInt8 := 73
def typePosDouble1 : UInt8 := 74
def typeDecreasingNegDouble1 : UInt8 := 89
def typeDecreasingPosDouble1 : UInt8 := 90

def ascendingZeroEscape : UInt8 := 0xf0
def ascendingFfEscape : UInt8 := 0x10
def sep : UInt8 := 0x78

def kObjectExistenceTag : UInt32 := 0x7e
def kMaxFieldTag : UInt32 := 0xffff

def timestampSecondsOffset : Int64 := Int64.minValue

/-! ## Tags and markers -/

def appendCompositeTag (out : Bytes) (tag : UInt32) : Except String Bytes :=
  if tag = kObjectExistenceTag ∨ tag = 0 ∨ kMaxFieldTag < tag then
    .error s!"Invalid tag value: {tag}"
  else if tag < 16 then
    .ok (out ++ [(tag <<< 1).toUInt8])
  else
    let shiftedTag := tag <<< 1
    if shiftedTag < (1 : UInt32) <<< (5 + 8) then
      .ok (out ++ [(((1 : UInt32) <<< 5) ||| (shiftedTag >>> 8)).toUInt8, (shiftedTag &&& 0xFF).toUInt8])
    else
      .ok (out ++ [(((2 : UInt32) <<< 5) ||| (shiftedTag >>> 16)).toUInt8,
        ((shiftedTag >>> 8) &&& 0xFF).toUInt8, (shiftedTag &&& 0xFF).toUInt8])

def appendNullOrderedFirst (out : Bytes) : Bytes :=
  out ++ [isKey ||| typeNullOrderedFirst, 0]

def appendNullOrderedLast (out : Bytes) : Bytes :=
  out ++ [isKey ||| typeNullOrderedLast, 0]

def appendNotNullMarkerNullOrderedFirst (out : Bytes) : Bytes :=
  out ++ [isKey ||| typeNullableNotNullNullOrderedFirst]

def appendNotNullMarkerNullOrderedLast (out : Bytes) : Bytes :=
  out ++ [isKey ||| typeNullableNotNullNullOrderedLast]

/-! ## Booleans -/

def appendBoolIncreasing (out : Bytes) (value : Bool) : Bytes :=
  let encoded : UInt8 := value.toUInt8
  out ++ [isKey ||| typeUint1, encoded <<< 1]

def appendBoolDecreasing (out : Bytes) (value : Bool) : Bytes :=
  let encoded : UInt8 := value.toUInt8
  out ++ [isKey ||| typeDecreasingUint1, ((~~~encoded) &&& 0x7F) <<< 1]

/-! ## Integers and floats -/

/-- `i64::leading_zeros`. -/
def leadingZeros (x : Int64) : ℕ := x.toBitVec.clz.toNat

/-- `i64::leading_ones`. -/
def leadingOnes (x : Int64) : ℕ := leadingZeros (~~~x)

/-- `u32::div_ceil`. -/
def divCeil (a b : ℕ) : ℕ := (a + b - 1) / b

/-- `i64::to_be_bytes`. -/
def i64ToBeBytes (x : Int64) : Bytes := beBytes 8 x.toUInt64.toNat

/-- `dst[lo..hi].copy_from_slice(src)`, where `src` has length `hi - lo`. -/
def copyFromSlice (dst : Bytes) (lo hi : ℕ) (src : Bytes) : Bytes :=
  dst.take lo ++ src ++ dst.drop hi

/-- The number of bytes after the header: one for the low seven bits and as many
as the remaining sign-extended bits need. -/
def int64Length (tempVal : Int64) : ℕ :=
  1 + if 0 ≤ tempVal then divCeil (64 - leadingZeros tempVal) 8
    else divCeil (64 - leadingOnes tempVal) 8

def int64TypeCode (nonneg decreasing isDouble : Bool) (len : ℕ) : UInt8 :=
  match nonneg, decreasing, isDouble with
  | true, false, false => typePosInt1 + UInt8.ofNat len - 1
  | true, false, true => typePosDouble1 + UInt8.ofNat len - 1
  | true, true, false => typeDecreasingPosInt1 + UInt8.ofNat len - 1
  | true, true, true => typeDecreasingPosDouble1 + UInt8.ofNat len - 1
  | false, false, false => typeNegInt1 - UInt8.ofNat len + 1
  | false, false, true => typeNegDouble1 - UInt8.ofNat len + 1
  | false, true, false => typeDecreasingNegInt1 - UInt8.ofNat len + 1
  | false, true, true => typeDecreasingNegDouble1 - UInt8.ofNat len + 1

def appendInt64Internal (out : Bytes) (value : Int64) (decreasing isDouble : Bool) : Bytes :=
  let val := if decreasing then ~~~value else value
  let buf : Bytes := (List.replicate 8 0).set 7 ((val &&& 0x7F) <<< 1).toUInt64.toUInt8
  let tempVal := val >>> 7
  let len := int64Length tempVal
  let buf :=
    if 1 < len then copyFromSlice buf (8 - len) 7 ((i64ToBeBytes tempVal).drop (9 - len))
    else buf
  let typeCode := int64TypeCode (0 ≤ val) decreasing isDouble len
  out ++ [isKey ||| typeCode] ++ buf.drop (8 - len)

def appendInt64Increasing (out : Bytes) (value : Int64) : Bytes :=
  appendInt64Internal out value false false

def appendInt64Decreasing (out : Bytes) (value : Int64) : Bytes :=
  appendInt64Internal out value true false

def canonicalDoubleBits (value : F64) : Int64 :=
  if value.isNan then 0x7ff8000000000000 else value.bits.toInt64

/-- Negative patterns are sign and magnitude; the subtraction makes them ordered
as two's complement. -/
def orderedDoubleBits (value : F64) : Int64 :=
  let enc := canonicalDoubleBits value
  if enc < 0 then Int64.minValue - enc else enc

def appendDoubleIncreasing (out : Bytes) (value : F64) : Bytes :=
  appendInt64Internal out (orderedDoubleBits value) false true

def appendDoubleDecreasing (out : Bytes) (value : F64) : Bytes :=
  appendInt64Internal out (orderedDoubleBits value) true true

/-! ## Byte strings -/

def escapeByte (decreasing : Bool) (b : UInt8) : Bytes :=
  let currentByte := if decreasing then ~~~b else b
  if currentByte = 0x00 then [0x00, ascendingZeroEscape]
  else if currentByte = 0xFF then [0xFF, ascendingFfEscape]
  else [currentByte]

def appendByteSequence (out : Bytes) (bytes : Bytes) (decreasing : Bool) : Bytes :=
  out ++ [isKey ||| (if decreasing then typeDecreasingString else typeString)]
    ++ bytes.flatMap (escapeByte decreasing)
    ++ [if decreasing then 0xFF else 0x00, sep]

/-- `str::as_bytes`. -/
def strBytes (s : String) : Bytes := s.toByteArray.data.toList

def appendStringIncreasing (out : Bytes) (value : String) : Bytes :=
  appendByteSequence out (strBytes value) false

def appendStringDecreasing (out : Bytes) (value : String) : Bytes :=
  appendByteSequence out (strBytes value) true

def appendBytesIncreasing (out : Bytes) (value : Bytes) : Bytes :=
  appendByteSequence out value false

def appendBytesDecreasing (out : Bytes) (value : Bytes) : Bytes :=
  appendByteSequence out value true

/-! ## Fixed-width values -/

def encodeTimestamp (seconds : Int64) (nanos : Int32) : Bytes :=
  let offsetSeconds := seconds + timestampSecondsOffset
  i64ToBeBytes offsetSeconds ++ beBytes 4 nanos.toUInt32.toNat

def encodeUuid (high low : UInt64) : Bytes :=
  beBytes 8 high.toNat ++ beBytes 8 low.toNat

end GoogleCloudRust.SsFormat
