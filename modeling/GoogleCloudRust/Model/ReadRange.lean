import GoogleCloudRust.Library.Bytes

/-! # Ranges of a bidi read

Model of `requested_range.rs`, `normalized_range.rs` and `remaining_range.rs`. The errors are
those of `error.rs` that a bidi read can return. -/

namespace GoogleCloudRust.Bidi

inductive RequestedRange
  | offset (offset : UInt64)
  | tail (count : UInt64)
  | segment (offset limit : UInt64)
deriving DecidableEq, Repr

/-- A range as the service has it; its default values are zero. -/
structure ProtoRange where
  readId : ℤ
  readOffset : Int64 := 0
  readLength : Int64 := 0
deriving DecidableEq, Repr

mutual

inductive ReadError
  | checksumMismatch (got want : UInt32)
  | shortRead (missing : UInt64)
  | longRead (got expected : UInt64)
  | unrecoverableBidiReadInterrupt (error : Error)
  | invalidBidiStreamingReadResponse (source : String)

/-- The errors of the connector are known by their text only. -/
inductive Error
  | io (error : ReadError)
  /-- An `Error::io` around another error. -/
  | nested (error : Error)
  | connector (text : String)

end

def ReadError.bidiOutOfOrder (expected got : Int64) : ReadError :=
  .invalidBidiStreamingReadResponse
    s!"message offset mismatch, expected={expected.toInt}, got={got.toInt}"

namespace RequestedRange

def asProto (range : RequestedRange) (id : ℤ) : ProtoRange :=
  match range with
  | .offset o => { readId := id, readOffset := o.toInt64 }
  | .tail o => { readId := id, readOffset := -o.toInt64 }
  | .segment o limit =>
      { readId := id, readOffset := o.toInt64, readLength := limit.toInt64 }

end RequestedRange

/-! ## Normalized ranges -/

structure NormalizedRange where
  offset : Int64
  length : Option Int64
deriving DecidableEq, Repr

namespace NormalizedRange

/-- A new unbounded range. -/
def new (offset : Int64) : Except ReadError NormalizedRange :=
  if offset < 0 then
    .error (.invalidBidiStreamingReadResponse s!"invalid offset ({offset.toInt})")
  else .ok { offset := offset, length := none }

def withLength (range : NormalizedRange) (length : Int64) : Except ReadError NormalizedRange :=
  if length < 0 then
    .error (.invalidBidiStreamingReadResponse s!"invalid length ({length.toInt})")
  else .ok { range with length := some length }

def fromProto (response : ProtoRange) : Except ReadError NormalizedRange :=
  if response.readLength = 0 then new response.readOffset
  else do (← new response.readOffset).withLength response.readLength

def asProto (range : NormalizedRange) (id : ℤ) : ProtoRange where
  readId := id
  readOffset := range.offset
  readLength := range.length.getD 0

/-- The length that remains in `update`. -/
def updateLength : Option Int64 → Option Int64 → Except ReadError (Option Int64)
  | none, _ => .ok none
  | some l, none => .ok (some l)
  | some expected, some got =>
      if got ≤ expected then .ok (some (expected - got))
      else .error (.longRead got.toUInt64 expected.toUInt64)

/-- What remains after a response; the sum wraps. -/
def update (range : NormalizedRange) (response : ProtoRange) :
    Except ReadError NormalizedRange := do
  let update ← fromProto response
  if update.offset ≠ range.offset then
    .error (.bidiOutOfOrder range.offset update.offset)
  else do
    let length ← updateLength range.length update.length
    .ok { offset := update.offset + update.length.getD 0, length := length }

def handleEmpty (range : NormalizedRange) (rangeEnd : Bool) : Except ReadError Unit :=
  match rangeEnd, range.length with
  | true, some l => if l > 0 then .error (.shortRead l.toUInt64) else .ok ()
  | _, _ => .ok ()

end NormalizedRange

/-! ## Remaining ranges -/

inductive RemainingRange
  | requested (range : RequestedRange)
  | normalized (range : NormalizedRange)
deriving DecidableEq, Repr

namespace RemainingRange

def normalize (current : RequestedRange) (response : ProtoRange) :
    Except ReadError NormalizedRange :=
  match current with
  | .tail _ => NormalizedRange.new response.readOffset
  | .offset offset =>
      if response.readOffset.toUInt64 ≠ offset then
        .error (.bidiOutOfOrder offset.toInt64 response.readOffset)
      else NormalizedRange.new response.readOffset
  | .segment offset limit =>
      if response.readLength.toUInt64 > limit ∧ limit ≠ 0 then
        .error (.longRead response.readLength.toUInt64 limit)
      else if response.readOffset.toUInt64 ≠ offset then
        .error (.bidiOutOfOrder offset.toInt64 response.readOffset)
      else if limit = 0 then NormalizedRange.new response.readOffset
      else do
        let range ← NormalizedRange.new response.readOffset
        range.withLength (min limit Int64.maxValue.toUInt64).toInt64

/-- What remains after a response is always normalized. -/
def update (range : RemainingRange) (response : ProtoRange) : Except ReadError NormalizedRange :=
  match range with
  | .normalized segment => segment.update response
  | .requested range => do (← normalize range response).update response

def asProto (range : RemainingRange) (id : ℤ) : ProtoRange :=
  match range with
  | .requested r => r.asProto id
  | .normalized s => s.asProto id

end RemainingRange

end GoogleCloudRust.Bidi
