import GoogleCloudRust.Library.Signed
import GoogleCloudRust.Library.Time

/-! # Timestamps

Model of `timestamp.rs`: the normalising constructor, and the conversions from and to other
representations of an instant. -/

namespace GoogleCloudRust.Wkt

/-- What is used of `time`: dates and times with an offset, and their RFC 3339 texts. -/
structure TimeCrate where
  OffsetDateTime : Type
  parse : String → Except String OffsetDateTime
  format : OffsetDateTime → Except String String
  fromUnixTimestampNanos : ℤ → Except String OffsetDateTime
  unixTimestamp : OffsetDateTime → Int64
  unixTimestampNanos : OffsetDateTime → ℤ

inductive TimestampError
  | outOfRange
  | deserialize (source : String)
deriving DecidableEq, Repr

namespace Timestamp

def ns : ℤ := 1000000000

/-- `0001-01-01T00:00:00Z` -/
def minSeconds : ℤ := -62135596800

/-- `9999-12-31T23:59:59Z` -/
def maxSeconds : ℤ := 253402300799

def minNanos : ℤ := 0

def maxNanos : ℤ := ns - 1

end Timestamp

open Timestamp in
structure Timestamp where
  seconds : ℤ
  nanos : ℤ
  seconds_mem : minSeconds ≤ seconds ∧ seconds ≤ maxSeconds
  nanos_mem : minNanos ≤ nanos ∧ nanos ≤ maxNanos
deriving DecidableEq, Repr

namespace Timestamp

/-- Seconds are compared before nanoseconds. -/
instance : LE Timestamp where
  le s t := s.seconds < t.seconds ∨ s.seconds = t.seconds ∧ s.nanos ≤ t.nanos

def new (seconds nanos : ℤ) : Except TimestampError Timestamp :=
  if hseconds : minSeconds ≤ seconds ∧ seconds ≤ maxSeconds then
    if hnanos : minNanos ≤ nanos ∧ nanos ≤ maxNanos then .ok ⟨seconds, nanos, hseconds, hnanos⟩
    else .error .outOfRange
  else .error .outOfRange

/-- The fields of the timestamp that is built: the sum saturates, and nothing else can overflow. -/
def clamp (seconds : Int64) (nanos : Int32) : ℤ × ℤ :=
  let seconds := Signed.saturate 64 (seconds.toInt + nanos.toInt / ns)
  let nanos := nanos.toInt % ns
  if seconds < minSeconds then (minSeconds, 0)
  else if maxSeconds < seconds then (maxSeconds, 0)
  else (seconds, nanos)

/-! ## Conversions -/

section Conversions

variable (time : TimeCrate)

/-- `TryFrom` of an `OffsetDateTime`. -/
def tryFromOffsetDateTime (value : time.OffsetDateTime) : Except TimestampError Timestamp :=
  let seconds := (time.unixTimestamp value).toInt
  let nanos := Signed.cast 32 (time.unixTimestampNanos value - seconds * ns)
  new seconds nanos

/-- `String::from` of a timestamp, which panics where an `expect` fails. -/
def toString (timestamp : Timestamp) : Option String :=
  match time.fromUnixTimestampNanos (timestamp.seconds * ns + timestamp.nanos) with
  | .error _ => none
  | .ok ts => (time.format ts).toOption

/-- `TryFrom` of a text. -/
def tryFrom (value : String) : Except TimestampError Timestamp := do
  let odt ← (time.parse value).mapError .deserialize
  let nanosSinceEpoch := time.unixTimestampNanos odt
  let seconds := Signed.cast 64 (nanosSinceEpoch.tdiv ns)
  let nanos := Signed.cast 32 (nanosSinceEpoch.tmod ns)
  if nanos < 0 then new (seconds - 1) (ns + nanos)
  else new seconds nanos

end Conversions

/-- `TryFrom` of a `SystemTime`. -/
def tryFromSystemTime (value : SystemTime) : Except TimestampError Timestamp :=
  match value.durationSinceEpoch with
  | .ok d =>
      let s := d.asSecs
      if 2 ^ 63 - 1 < s then .error .outOfRange
      else new s d.subsecNanos
  | .error d =>
      let s := d.asSecs
      if 2 ^ 63 - 1 < s then .error .outOfRange
      else
        let seconds : ℤ := -s
        let nanos : ℤ := d.subsecNanos
        if 0 < nanos then new (seconds - 1) (ns - nanos)
        else new seconds 0

end Timestamp

end GoogleCloudRust.Wkt
