import Mathlib.Data.Rat.Defs
import GoogleCloudRust.Library.Text

/-! # Cells of a row

Model of the accessors and of `to_sql_string` of an `ArrowCell` in `bigquery/src/query/arrow.rs`, of
the decoding of temporal and decimal types in `from_sql.rs`, and of intervals in `datatypes.rs`. The
crates `time` and `rust_decimal`, and how Arrow prints a decimal, are given. Of the values that are
not Arrow cells only texts are kept. -/

namespace GoogleCloudRust.SqlCell

open Text (Fits int paddedInt parseInt)

abbrev I8 := { n : ℤ // Fits 8 n }
abbrev I32 := { n : ℤ // Fits 32 n }
abbrev I64 := { n : ℤ // Fits 64 n }
abbrev I128 := { n : ℤ // Fits 128 n }
abbrev I256 := { n : ℤ // Fits 256 n }

/-! ## Other crates -/

/-- The format descriptions for `time`. -/
inductive Format
  /-- `[year]-[month]-[day]` -/
  | date
  /-- `[hour padding:none]:[minute padding:none]:[second padding:none]` -/
  | time
  /-- `[hour padding:none]:[minute padding:none]:[second padding:none].[subsecond]` -/
  | timeSubsec
  /-- `[year]-[month]-[day]T[hour]:[minute]:[second]` -/
  | dateTime
  /-- `[year]-[month]-[day]T[hour]:[minute]:[second].[subsecond]` -/
  | dateTimeSubsec
deriving DecidableEq, Repr

/-- What is used of `time`. -/
structure TimeCrate where
  Date : Type
  Time : Type
  year : Date → ℤ
  month : Date → ℕ
  day : Date → ℕ
  hour : Time → ℕ
  minute : Time → ℕ
  second : Time → ℕ
  nanosecond : Time → ℕ
  parseDate : List Char → Format → Except String Date
  parseTime : List Char → Format → Except String Time
  parsePrimitiveDateTime : List Char → Format → Except String (Date × Time)
  fromUnixTimestamp : ℤ → Except String (Date × Time)
  fromUnixTimestampNanos : ℤ → Except String (Date × Time)

/-- What is used of `rust_decimal`. -/
structure DecimalCrate where
  Decimal : Type
  parse : List Char → Except String Decimal
  tryFromI128WithScale : ℤ → ℕ → Except String Decimal
  normalize : Decimal → Decimal
  /-- The number, which is what `==` compares. -/
  number : Decimal → ℚ

structure Crates where
  time : TimeCrate
  decimal : DecimalCrate
  /-- `value_as_string` of a decimal array, of the value and the scale. -/
  valueAsString : ℤ → ℤ → List Char

/-! ## Cells -/

inductive ConvertError
  | typeMismatch (expected got : String)
  | notNull
  | convert (source : String)
  /-- An arithmetic overflow, where the source panics. -/
  | overflow
deriving DecidableEq, Repr

inductive TimeUnit
  | second
  | millisecond
  | microsecond
  | nanosecond
deriving DecidableEq, Repr

structure IntervalMonthDayNano where
  months : I32
  days : I32
  nanoseconds : I64
deriving DecidableEq

/-- The values of a cell by the type of its array. -/
inductive CellValue
  | utf8 (text : List Char)
  | date32 (days : I32)
  | time64 (unit : TimeUnit) (value : I64)
  | timestamp (unit : TimeUnit) (zone : Option String) (value : I64)
  | decimal128 (scale : I8) (value : I128)
  | decimal256 (scale : I8) (value : I256)
  | interval (value : IntervalMonthDayNano)
  /-- Of a type that none of the functions below reads. -/
  | other

structure ArrowCell where
  dataTypeStr : String
  /-- None when the cell is null. -/
  value : Option CellValue

inductive SqlValueInner
  | null
  | string (s : List Char)
  | arrow (cell : ArrowCell)

namespace ArrowCell

def asStr (cell : ArrowCell) : Except ConvertError (List Char) :=
  match cell.value with
  | none => .error .notNull
  | some (.utf8 text) => .ok text
  | some _ => .error (.typeMismatch "StringArray or LargeStringArray" cell.dataTypeStr)

/-- `i64::checked_mul`, with the error it is turned into. -/
def checkedMul (a b : ℤ) : Except ConvertError ℤ :=
  if Fits 64 (a * b) then .ok (a * b) else .error (.convert "timestamp overflow")

def asTimestampMicros (cell : ArrowCell) : Except ConvertError ℤ :=
  match cell.value with
  | none => .error .notNull
  | some (.timestamp .microsecond _ value) => .ok value
  | some (.timestamp .millisecond _ value) => checkedMul value 1000
  | some (.timestamp .nanosecond _ value) => .ok (value / 1000)
  | some (.timestamp .second _ value) => checkedMul value 1000000
  | some _ => .error (.typeMismatch "TimestampArray" cell.dataTypeStr)

def asDate32 (cell : ArrowCell) : Except ConvertError ℤ :=
  match cell.value with
  | none => .error .notNull
  | some (.date32 days) => .ok days
  | some _ => .error (.typeMismatch "Date32Array" cell.dataTypeStr)

def asTime64Micros (cell : ArrowCell) : Except ConvertError ℤ :=
  match cell.value with
  | none => .error .notNull
  | some (.time64 .microsecond value) => .ok value
  | some (.time64 .nanosecond value) => .ok (value / 1000)
  | some _ => .error (.typeMismatch "Time64MicrosecondArray" cell.dataTypeStr)

def asInterval (cell : ArrowCell) : Except ConvertError IntervalMonthDayNano :=
  match cell.value with
  | none => .error .notNull
  | some (.interval value) => .ok value
  | some _ => .error (.typeMismatch "IntervalMonthDayNanoArray" cell.dataTypeStr)

/-- The zeros at the end of a fraction are taken off, and the point with all of them. -/
def trimDecimal (s : List Char) : List Char :=
  if '.' ∈ s then (Decimal.trimEnd s).rdropWhile (· == '.') else s

def asDecimalStr (crates : Crates) (cell : ArrowCell) : Except ConvertError (List Char) :=
  match cell.value with
  | none => .error .notNull
  | some (.decimal128 scale value) => .ok (trimDecimal (crates.valueAsString value scale))
  | some (.decimal256 scale value) => .ok (trimDecimal (crates.valueAsString value scale))
  | some _ => .error (.typeMismatch "Decimal128Array or Decimal256Array" cell.dataTypeStr)

def asDecimal128WithScale (cell : ArrowCell) : Option (ℤ × ℕ) :=
  match cell.value with
  | some (.decimal128 scale value) =>
      if 0 ≤ scale.1 then some (value, scale.1.toNat) else none
  | _ => none

end ArrowCell

/-! ## Types that are decoded -/

structure Timestamp where
  seconds : ℤ
  nanos : ℤ
deriving DecidableEq, Repr

structure Date where
  year : ℤ
  month : ℤ
  day : ℤ
deriving DecidableEq, Repr

structure TimeOfDay where
  hours : ℤ
  minutes : ℤ
  seconds : ℤ
  nanos : ℤ
deriving DecidableEq, Repr

structure DateTime where
  year : ℤ
  month : ℤ
  day : ℤ
  hours : ℤ
  minutes : ℤ
  seconds : ℤ
  nanos : ℤ
deriving DecidableEq, Repr

/-- `google_cloud_type::model::Decimal`. -/
structure DecimalText where
  value : List Char
deriving DecidableEq, Repr

structure Interval where
  years : ℤ
  months : ℤ
  days : ℤ
  hours : ℤ
  minutes : ℤ
  seconds : ℤ
  nanos : ℤ
deriving DecidableEq, Repr

/-- An error of another crate or of a number. -/
def convert {α : Type} (result : Except String α) : Except ConvertError α :=
  result.mapError .convert

namespace Timestamp

def new (seconds nanos : ℤ) : Except ConvertError Timestamp :=
  if ¬(-62135596800 ≤ seconds ∧ seconds ≤ 253402300799) then
    .error (.convert "seconds and/or nanoseconds out of range")
  else if ¬(0 ≤ nanos ∧ nanos ≤ 999999999) then
    .error (.convert "seconds and/or nanoseconds out of range")
  else .ok { seconds, nanos }

/-- `timestamp_from_micros`. -/
def fromMicros (micros : ℤ) : Except ConvertError Timestamp :=
  new (micros / 1000000) (micros % 1000000 * 1000)

def fromValue : SqlValueInner → Except ConvertError Timestamp
  | .string s => do fromMicros (← convert (parseInt 64 s))
  | .null => .error .notNull
  | .arrow cell => do fromMicros (← cell.asTimestampMicros)

end Timestamp

section

variable (crates : Crates)

namespace Date

def ofDate (date : crates.time.Date) : Date where
  year := crates.time.year date
  month := crates.time.month date
  day := crates.time.day date

def fromValue : SqlValueInner → Except ConvertError Date
  | .string s => do return ofDate crates (← convert (crates.time.parseDate s .date))
  | .null => .error .notNull
  | .arrow cell => do
      let days ← cell.asDate32
      let (date, _) ← convert (crates.time.fromUnixTimestamp (days * 86400))
      return ofDate crates date

end Date

namespace TimeOfDay

def ofTime (time : crates.time.Time) : TimeOfDay where
  hours := crates.time.hour time
  minutes := crates.time.minute time
  seconds := crates.time.second time
  nanos := crates.time.nanosecond time

def parseTime (s : List Char) : Except ConvertError crates.time.Time :=
  convert (crates.time.parseTime s (if '.' ∈ s then .timeSubsec else .time))

def fromValue : SqlValueInner → Except ConvertError TimeOfDay
  | .string s => do return ofTime crates (← parseTime crates s)
  | .null => .error .notNull
  | .arrow cell => do
      let micros ← cell.asTime64Micros
      if ¬(0 ≤ micros ∧ micros < 86400000000) then
        .error (.convert s!"time64 microseconds out of range: {micros}")
      else
        let totalSecs := micros / 1000000
        let totalMins := totalSecs / 60
        .ok { hours := totalMins / 60, minutes := totalMins % 60, seconds := totalSecs % 60
              nanos := micros % 1000000 * 1000 }

end TimeOfDay

namespace DateTime

def ofDateTime (date : crates.time.Date) (time : crates.time.Time) : DateTime where
  year := crates.time.year date
  month := crates.time.month date
  day := crates.time.day date
  hours := crates.time.hour time
  minutes := crates.time.minute time
  seconds := crates.time.second time
  nanos := crates.time.nanosecond time

def fromValue : SqlValueInner → Except ConvertError DateTime
  | .string s => do
      let format := if '.' ∈ s then Format.dateTimeSubsec else .dateTime
      let (date, time) ← convert (crates.time.parsePrimitiveDateTime s format)
      return ofDateTime crates date time
  | .null => .error .notNull
  | .arrow cell => do
      let micros ← cell.asTimestampMicros
      let (date, time) ← convert (crates.time.fromUnixTimestampNanos (micros * 1000))
      return ofDateTime crates date time

end DateTime

def DecimalText.fromValue : SqlValueInner → Except ConvertError DecimalText
  | .string s => .ok ⟨s⟩
  | .null => .error .notNull
  | .arrow cell => (cell.asDecimalStr crates).map DecimalText.mk

/-- `from_value` of `rust_decimal::Decimal`. -/
def rustDecimalFromValue : SqlValueInner → Except ConvertError crates.decimal.Decimal
  | .string s => convert (crates.decimal.parse (Text.trim s))
  | .null => .error .notNull
  | .arrow cell =>
      let parsed : Except ConvertError crates.decimal.Decimal := do
        let s ← cell.asDecimalStr crates
        return crates.decimal.normalize (← convert (crates.decimal.parse s))
      match cell.asDecimal128WithScale with
      | some (val, scale) =>
          match crates.decimal.tryFromI128WithScale val scale with
          | .ok d => .ok (crates.decimal.normalize d)
          | .error _ => parsed
      | none => parsed

end

/-! ## Intervals -/

namespace Interval

/-- `*` of two `i32`. -/
def mul (a b : ℤ) : Except ConvertError ℤ :=
  if Fits 32 (a * b) then .ok (a * b) else .error .overflow

/-- `abs` of an `i32`. -/
def abs (a : ℤ) : Except ConvertError ℤ :=
  if Fits 32 |a| then .ok |a| else .error .overflow

/-- `as i32`. -/
def asI32 (n : ℕ) : ℤ := (n : ℤ).bmod (2 ^ 32)

def ofMonthDayNano (v : IntervalMonthDayNano) : Except ConvertError Interval := do
  let ymSign : ℤ := if v.months.1 < 0 then -1 else 1
  let totalMonths := v.months.1.natAbs
  let years ← mul (asI32 (totalMonths / 12)) ymSign
  let months ← mul (asI32 (totalMonths % 12)) ymSign
  let timeSign : ℤ := if v.nanoseconds.1 < 0 then -1 else 1
  let totalNanos := v.nanoseconds.1.natAbs
  let nanos ← mul (asI32 (totalNanos % 1000000000)) timeSign
  let totalSecs := totalNanos / 1000000000
  let seconds ← mul (asI32 (totalSecs % 60)) timeSign
  let totalMins := totalSecs / 60
  let minutes ← mul (asI32 (totalMins % 60)) timeSign
  let hours ← mul (asI32 (totalMins / 60)) timeSign
  return { years, months, days := v.days, hours, minutes, seconds, nanos }

/-- A number of a group, with the sign of the group. -/
def parsePart (sign : ℤ) (text : List Char) : Except ConvertError ℤ := do
  mul (← convert (parseInt 32 text)) sign

/-- The sign of a group, and what follows it. -/
def stripSign (text : List Char) : ℤ × List Char :=
  match text with
  | '-' :: content => (-1, content)
  | content => (1, content)

def parseYearMonth (ymStr : List Char) : Except ConvertError (ℤ × ℤ) :=
  let (ymSign, ymContent) := stripSign ymStr
  match ymContent.splitOn '-' with
  | [yStr, mStr] => do
      let years ← parsePart ymSign yStr
      let months ← parsePart ymSign mStr
      return (years, months)
  | _ => .error (.convert "invalid interval year-month format")

def parseTime (timeStr : List Char) : Except ConvertError (ℤ × ℤ × ℤ × ℤ) :=
  let (timeSign, timeContent) := stripSign timeStr
  let (hms, frac) := (Text.splitOnce '.' timeContent).getD (timeContent, ['0'])
  match hms.splitOn ':' with
  | [hStr, mStr, sStr] => do
      let hours ← parsePart timeSign hStr
      let minutes ← parsePart timeSign mStr
      let seconds ← parsePart timeSign sStr
      -- Nine digits, as `{frac:0<9.9}` prints them.
      let nanos ← parsePart timeSign ((frac.take 9).rightpad 9 '0')
      return (hours, minutes, seconds, nanos)
  | _ => .error (.convert "invalid interval time format")

def ofString (s : List Char) : Except ConvertError Interval :=
  match Text.splitWhitespace s with
  | [ymStr, daysStr, timeStr] => do
      let (years, months) ← parseYearMonth ymStr
      let days ← convert (parseInt 32 daysStr)
      let (hours, minutes, seconds, nanos) ← parseTime timeStr
      return { years, months, days, hours, minutes, seconds, nanos }
  | _ =>
      let text := String.ofList s
      .error (.convert s!"invalid interval format: expected 3 parts, got `{text}`")

def fromValue : SqlValueInner → Except ConvertError Interval
  | .string s => ofString s
  | .null => .error .notNull
  | .arrow cell => do ofMonthDayNano (← cell.asInterval)

end Interval

/-! ## Texts of cells -/

def Date.text (d : Date) : List Char :=
  paddedInt 4 d.year ++ '-' :: paddedInt 2 d.month ++ '-' :: paddedInt 2 d.day

/-- Hours, minutes and seconds, with microseconds when there are any. -/
def clockText (hours minutes seconds nanos : ℤ) : List Char :=
  let hms := paddedInt 2 hours ++ ':' :: paddedInt 2 minutes ++ ':' :: paddedInt 2 seconds
  if nanos = 0 then hms else hms ++ '.' :: paddedInt 6 (nanos.tdiv 1000)

def TimeOfDay.text (t : TimeOfDay) : List Char := clockText t.hours t.minutes t.seconds t.nanos

def DateTime.text (dt : DateTime) : List Char :=
  paddedInt 4 dt.year ++ '-' :: paddedInt 2 dt.month ++ '-' :: paddedInt 2 dt.day ++
    'T' :: clockText dt.hours dt.minutes dt.seconds dt.nanos

/-- The fraction of an interval, in as many groups of three digits as it needs. -/
def Interval.fracText (absNanos : ℤ) : List Char :=
  if absNanos = 0 then []
  else if absNanos % 1000000 = 0 then '.' :: paddedInt 3 (absNanos / 1000000)
  else if absNanos % 1000 = 0 then '.' :: paddedInt 6 (absNanos / 1000)
  else '.' :: paddedInt 9 absNanos

def Interval.text (interval : Interval) : Except ConvertError (List Char) := do
  let ymSign := if interval.years < 0 ∨ interval.months < 0 then ['-'] else []
  let timeSign :=
    if interval.hours < 0 ∨ interval.minutes < 0 ∨ interval.seconds < 0 ∨ interval.nanos < 0 then
      ['-']
    else []
  let absNanos ← abs interval.nanos
  let years ← abs interval.years
  let months ← abs interval.months
  let hours ← abs interval.hours
  let minutes ← abs interval.minutes
  let seconds ← abs interval.seconds
  return (ymSign ++ int years ++ '-' :: int months) ++ ' ' :: int interval.days ++
    ' ' :: (timeSign ++ int hours ++ ':' :: int minutes ++ ':' :: int seconds ++ fracText absNanos)

def ArrowCell.toSqlString (crates : Crates) (cell : ArrowCell) :
    Except ConvertError (List Char) :=
  match cell.value with
  | none => .error .notNull
  | some (.utf8 _) => cell.asStr
  | some (.date32 _) => do return (← Date.fromValue crates (.arrow cell)).text
  | some (.time64 unit _) =>
      if unit = .microsecond ∨ unit = .nanosecond then do
        return (← TimeOfDay.fromValue crates (.arrow cell)).text
      else .error (.typeMismatch "StringArray or LargeStringArray" cell.dataTypeStr)
  | some (.timestamp _ none _) => do return (← DateTime.fromValue crates (.arrow cell)).text
  | some (.timestamp _ (some _) _) => do return int (← cell.asTimestampMicros)
  | some (.decimal128 _ _) => cell.asDecimalStr crates
  | some (.decimal256 _ _) => cell.asDecimalStr crates
  | some (.interval _) => do (← Interval.fromValue (.arrow cell)).text
  | some .other => .error (.typeMismatch "StringArray or LargeStringArray" cell.dataTypeStr)

end GoogleCloudRust.SqlCell
