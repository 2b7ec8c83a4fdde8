import GoogleCloudRust.Library.Decimal
import GoogleCloudRust.Library.Signed

/-! # Durations and their texts

Model of `duration.rs`. A duration can only be made by `new`, whose checks are kept with it. -/

namespace GoogleCloudRust.Wkt

inductive DurationError
  | outOfRange
  | mismatchedSigns
  | deserialize (source : String)
deriving DecidableEq, Repr

namespace Duration

def ns : ℤ := 1000000000

def maxSeconds : ℤ := 315576000000

def minSeconds : ℤ := -maxSeconds

def maxNanos : ℤ := ns - 1

def minNanos : ℤ := -maxNanos

end Duration

structure Duration where
  seconds : ℤ
  nanos : ℤ
  seconds_mem : Duration.minSeconds ≤ seconds ∧ seconds ≤ Duration.maxSeconds
  nanos_mem : Duration.minNanos ≤ nanos ∧ nanos ≤ Duration.maxNanos
  signs : ¬ ((seconds ≠ 0 ∧ nanos ≠ 0) ∧ ¬ (seconds < 0 ↔ nanos < 0))
deriving DecidableEq, Repr

namespace Duration

/-- Seconds are compared before nanoseconds. -/
instance : LE Duration where
  le d e := d.seconds < e.seconds ∨ d.seconds = e.seconds ∧ d.nanos ≤ e.nanos

def new (seconds nanos : ℤ) : Except DurationError Duration :=
  if hseconds : minSeconds ≤ seconds ∧ seconds ≤ maxSeconds then
    if hnanos : minNanos ≤ nanos ∧ nanos ≤ maxNanos then
      if hsigns : (seconds ≠ 0 ∧ nanos ≠ 0) ∧ ¬ (seconds < 0 ↔ nanos < 0) then
        .error .mismatchedSigns
      else .ok ⟨seconds, nanos, hseconds, hnanos, hsigns⟩
    else .error .outOfRange
  else .error .outOfRange

/-- The fields of the duration that is built, unless the arithmetic overflows. -/
def clamp (seconds : Int64) (nanos : Int32) : Option (ℤ × ℤ) := do
  let seconds := Signed.saturate 64 (seconds.toInt + nanos.toInt.tdiv ns)
  let nanos := nanos.toInt.tmod ns
  let (seconds, nanos) ←
    if 0 < seconds ∧ nanos < 0 then do
      let nanos ← Signed.checked 32 (nanos + ns)
      pure (Signed.saturate 64 (seconds - 1), nanos)
    else if seconds < 0 ∧ 0 < nanos then do
      let rest ← Signed.checked 32 (ns - nanos)
      let nanos ← Signed.checked 32 (-rest)
      pure (Signed.saturate 64 (seconds + 1), nanos)
    else pure (seconds, nanos)
  if maxSeconds < seconds then pure (maxSeconds, 0)
  else if seconds < minSeconds then pure (minSeconds, 0)
  else pure (seconds, nanos)

/-! ## Printing -/

def chars (duration : Duration) : List Char :=
  let sign := if duration.seconds < 0 ∨ duration.nanos < 0 then ['-'] else []
  let seconds := Nat.toDigits 10 duration.seconds.natAbs
  if duration.nanos = 0 then sign ++ seconds ++ ['s']
  else
    let ns := Decimal.pad 9 (Nat.toDigits 10 duration.nanos.natAbs)
    sign ++ seconds ++ '.' :: Decimal.trimEnd ns ++ ['s']

/-- `String::from` of a duration. -/
def toString (duration : Duration) : String := String.ofList duration.chars

/-! ## Parsing -/

/-- `str::parse` of digits, with the largest number that fits. -/
def parse (max : ℕ) (digits : List Char) : Except DurationError ℕ :=
  if Decimal.value digits ≤ max then .ok (Decimal.value digits)
  else .error (.deserialize "number too large to fit in target type")

def parseSeconds (s : List Char) : Except DurationError ℕ :=
  if s = [] ∨ ¬ Decimal.Digits s then
    .error (.deserialize ("seconds are not a number [" ++ String.ofList s ++ "]"))
  else parse (2 ^ 63 - 1) s

def parseNanos (s : List Char) : Except DurationError ℕ :=
  if s = [] ∨ ¬ Decimal.Digits s then
    .error (.deserialize ("nanos are not a number [" ++ String.ofList s ++ "]"))
  else
    let (digits, power) := if s.length > 9 then (s.take 9, 0) else (s, 9 - s.length)
    (parse (2 ^ 31 - 1) digits).map fun val => val * 10 ^ power

/-- The sign is taken off the front. -/
def stripSign : List Char → ℤ × List Char
  | '-' :: stripped => (-1, stripped)
  | '+' :: stripped => (1, stripped)
  | digits => (1, digits)

/-- `splitn` at the first dot. -/
def splitDot (digits : List Char) : List Char × Option (List Char) :=
  (digits.takeWhile (· != '.'), (digits.dropWhile (· != '.')).tail?)

def tryFromChars (value : List Char) : Except DurationError Duration :=
  if value.getLast? ≠ some 's' then .error (.deserialize "missing trailing 's'")
  else
    let (sign, digits) := stripSign value.dropLast
    let (seconds, nanos) := splitDot digits
    do
      let seconds ← parseSeconds seconds
      let nanos ← match nanos with
        | some s => parseNanos s
        | none => .ok 0
      new (sign * seconds) (sign * nanos)

def tryFrom (value : String) : Except DurationError Duration := tryFromChars value.toList

end Duration

end GoogleCloudRust.Wkt
