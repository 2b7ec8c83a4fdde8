import GoogleCloudRust.Model.SqlCell
import GoogleCloudRust.Verification.SqlCell.Intervals
import Mathlib.Tactic.FieldSimp

/-! # What other crates are relied on for

The documented behaviour of `time` and `rust_decimal`, and that Arrow prints decimals exactly. A
calendar, a clock and decimals behave like this, with the texts of the formats read one component
after another. -/

namespace GoogleCloudRust.SqlCell

open Text (Number Fraction signText)

/-! ## Texts of a format -/

/-- `[year]`, of four digits after the sign of a negative year. -/
inductive YearText : ℤ → List Char → Prop
  | positive {n : ℕ} {digits : List Char} (h : Number 4 n digits) : YearText n digits
  | negative {n : ℕ} {digits : List Char} (hn : 0 < n) (h : Number 4 n digits) :
      YearText (-n) ('-' :: digits)

/-- `[year]-[month]-[day]` -/
inductive DateText (year : ℤ) (month day : ℕ) : List Char → Prop
  | mk {y m d : List Char} (hy : YearText year y) (hm : Number 2 month m) (hd : Number 2 day d) :
      DateText year month day (y ++ '-' :: (m ++ '-' :: d))

/-- `[hour]:[minute]:[second]`, and `.[subsecond]` in a format that has it. -/
inductive ClockText (hour minute second : ℕ) : ℕ → Bool → List Char → Prop
  | whole {h m s : List Char} (hh : Number 2 hour h) (hm : Number 2 minute m)
      (hs : Number 2 second s) :
      ClockText hour minute second 0 false (h ++ ':' :: (m ++ ':' :: s))
  | subsecond {h m s digits : List Char} {nanos : ℕ} (hh : Number 2 hour h)
      (hm : Number 2 minute m) (hs : Number 2 second s) (hne : digits ≠ [])
      (hdigits : Fraction 9 nanos digits) :
      ClockText hour minute second nanos true (h ++ ':' :: (m ++ ':' :: (s ++ '.' :: digits)))

/-! ## Crates -/

namespace TimeCrate

structure Shows (time : TimeCrate) (t : time.Time) (hour minute second nanos : ℕ) : Prop where
  hour_eq : time.hour t = hour
  minute_eq : time.minute t = minute
  second_eq : time.second t = second
  nanosecond_eq : time.nanosecond t = nanos

/-- Components are in range, and texts of a format are parsed into their components. -/
structure Documented (time : TimeCrate) : Prop where
  year_le : ∀ d, |time.year d| ≤ 9999
  month_le : ∀ d, time.month d ≤ 12
  day_le : ∀ d, time.day d ≤ 31
  hour_lt : ∀ t, time.hour t < 24
  minute_lt : ∀ t, time.minute t < 60
  second_lt : ∀ t, time.second t < 60
  nanosecond_eq : ∀ {n d t}, time.fromUnixTimestampNanos n = .ok (d, t) →
    (time.nanosecond t : ℤ) = n % 1000000000
  parseDate_eq : ∀ {d text}, DateText (time.year d) (time.month d) (time.day d) text →
    time.parseDate text .date = .ok d
  parseTime_eq : ∀ {hour minute second nanos subsecond text},
    ClockText hour minute second nanos subsecond text → hour < 24 → minute < 60 → second < 60 →
    ∃ t, time.parseTime text (if subsecond then .timeSubsec else .time) = .ok t ∧
      time.Shows t hour minute second nanos
  parsePrimitiveDateTime_eq : ∀ {d front hour minute second nanos subsecond text},
    DateText (time.year d) (time.month d) (time.day d) front →
    ClockText hour minute second nanos subsecond text → hour < 24 → minute < 60 → second < 60 →
    ∃ t, time.parsePrimitiveDateTime (front ++ 'T' :: text)
        (if subsecond then .dateTimeSubsec else .dateTime) = .ok (d, t) ∧
      time.Shows t hour minute second nanos

end TimeCrate

/-- A decimal number: its sign, the digits before the point, and the point with the digits after it
unless there are none. -/
def decimalText (negative : Prop) [Decidable negative] (whole frac : List Char) : List Char :=
  signText negative ++ (whole ++ if frac = [] then [] else '.' :: frac)

/-- The number of such a text. -/
def decimalNumber (negative : Prop) [Decidable negative] (whole frac : List Char) : ℚ :=
  (if negative then -1 else 1) * (Decimal.value (whole ++ frac) : ℚ) / 10 ^ frac.length

/-- Numbers of up to 96 bits and 28 digits after the point are exact. -/
structure DecimalCrate.Documented (decimal : DecimalCrate) : Prop where
  tryFrom_ok : ∀ {val scale d}, decimal.tryFromI128WithScale val scale = .ok d →
    |val| < 2 ^ 96 ∧ scale ≤ 28 ∧ decimal.number d = (val : ℚ) / 10 ^ scale
  number_normalize : ∀ d, decimal.number (decimal.normalize d) = decimal.number d
  parse_eq : ∀ (negative : Prop) [Decidable negative] {whole frac : List Char}, whole ≠ [] →
    Decimal.Digits whole → Decimal.Digits frac → Decimal.value (whole ++ frac) < 2 ^ 96 →
    frac.length ≤ 28 →
    ∃ d, decimal.parse (decimalText negative whole frac) = .ok d ∧
      decimal.number d = decimalNumber negative whole frac

/-- The text of a decimal of a cell: every digit of the value, as many after the point as the scale
says, and zeros for a negative scale. -/
structure Prints (value scale : ℤ) (text whole frac : List Char) : Prop where
  whole_ne : whole ≠ []
  whole_digits : Decimal.Digits whole
  frac_digits : Decimal.Digits frac
  length_eq : frac.length = scale.toNat
  value_eq : Decimal.value (whole ++ frac) = value.natAbs * 10 ^ (-scale).toNat
  text_eq : text = decimalText (value < 0) whole frac

structure Crates.Documented (crates : Crates) : Prop where
  time : crates.time.Documented
  decimal : crates.decimal.Documented
  valueAsString : ∀ value scale,
    ∃ whole frac, Prints value scale (crates.valueAsString value scale) whole frac

/-! ## Components of a text -/

namespace Reference

open Text (decimal)

def number (width : ℕ) (text : List Char) : Option (ℕ × List Char) :=
  if (text.take width).length = width ∧ Decimal.Digits (text.take width) then
    some (Decimal.value (text.take width), text.drop width)
  else none

def literal (c : Char) : List Char → Option (List Char)
  | [] => none
  | d :: rest => if d = c then some rest else none

def year (text : List Char) : Option (ℤ × List Char) := do
  let (sign, content) := Interval.stripSign text
  let (n, rest) ← number 4 content
  return (sign * n, rest)

def subsecond (text : List Char) : Option ℕ :=
  if text ≠ [] ∧ text.length ≤ 9 ∧ Decimal.Digits text then
    some (Decimal.value text * 10 ^ (9 - text.length))
  else none

theorem number_append {width n : ℕ} {digits : List Char} (h : Number width n digits)
    (rest : List Char) : number width (digits ++ rest) = some (n, rest) := by
  have htake : (digits ++ rest).take width = digits := List.take_left' h.length_eq
  have hdrop : (digits ++ rest).drop width = rest := List.drop_left' h.length_eq
  rw [number, htake, hdrop, if_pos ⟨h.length_eq, h.isDigits⟩, h.value_eq]

theorem number_eq {width n : ℕ} {digits : List Char} (h : Number width n digits) :
    number width digits = some (n, []) := by
  have happend := number_append h []
  rwa [List.append_nil] at happend

@[simp] theorem literal_cons (c : Char) (rest : List Char) :
    literal c (c :: rest) = some rest := by
  simp [literal]

theorem year_append {y : ℤ} {text : List Char} (h : YearText y text) (rest : List Char) :
    year (text ++ rest) = some (y, rest) := by
  cases h with
  | positive h =>
    have hne : text ≠ [] := by
      intro hnil
      have hlength := h.length_eq
      rw [hnil] at hlength
      cases hlength
    have hstrip := Interval.stripSign_signText False hne h.isDigits rest
    simp only [signText, if_false, List.nil_append] at hstrip
    simp [year, hstrip, number_append h]
  | negative hn h => simp [year, Interval.stripSign, number_append h]

theorem subsecond_eq {nanos : ℕ} {digits : List Char} (hne : digits ≠ [])
    (h : Fraction 9 nanos digits) : subsecond digits = some nanos := by
  rw [subsecond, if_pos ⟨hne, h.length_le, h.isDigits⟩, h.value_eq]

/-! ## Dates and times -/

def daysIn (year : ℤ) (month : ℕ) : ℕ :=
  if month = 2 then
    if year % 4 = 0 ∧ (year % 100 ≠ 0 ∨ year % 400 = 0) then 29 else 28
  else if month = 4 ∨ month = 6 ∨ month = 9 ∨ month = 11 then 30
  else 31

structure CivilDate where
  year : ℤ
  month : ℕ
  day : ℕ
  year_le : |year| ≤ 9999
  month_range : 1 ≤ month ∧ month ≤ 12
  day_range : 1 ≤ day ∧ day ≤ daysIn year month

theorem CivilDate.day_le (d : CivilDate) : d.day ≤ 31 := by
  have hday := d.day_range.2
  rw [daysIn] at hday
  split_ifs at hday <;> omega

structure Clock where
  hour : Fin 24
  minute : Fin 60
  second : Fin 60
  nanosecond : Fin 1000000000

def fromCalendarDate (year : ℤ) (month day : ℕ) : Except String CivilDate :=
  if h : |year| ≤ 9999 ∧ (1 ≤ month ∧ month ≤ 12) ∧ 1 ≤ day ∧ day ≤ daysIn year month then
    .ok ⟨year, month, day, h.1, h.2.1, h.2.2⟩
  else .error "component out of range"

theorem fromCalendarDate_eq (d : CivilDate) : fromCalendarDate d.year d.month d.day = .ok d := by
  rw [fromCalendarDate, dif_pos ⟨d.year_le, d.month_range, d.day_range⟩]

/-- Days since the epoch, in the years of four centuries that begin in March. -/
def ofDays (days : ℤ) : Except String CivilDate :=
  let shifted := days + 719468
  let era := shifted / 146097
  let ofEra := shifted % 146097
  let yearOfEra := (ofEra - ofEra / 1460 + ofEra / 36524 - ofEra / 146096) / 365
  let ofYear := ofEra - (365 * yearOfEra + yearOfEra / 4 - yearOfEra / 100)
  let fromMarch := (5 * ofYear + 2) / 153
  let day := ofYear - (153 * fromMarch + 2) / 5 + 1
  let month := if fromMarch < 10 then fromMarch + 3 else fromMarch - 9
  let year := yearOfEra + era * 400 + if month ≤ 2 then 1 else 0
  fromCalendarDate year month.toNat day.toNat

def ofSeconds (seconds : ℕ) (nanosecond : Fin 1000000000) : Clock where
  hour := Fin.ofNat 24 (seconds / 3600)
  minute := Fin.ofNat 60 (seconds / 60)
  second := Fin.ofNat 60 seconds
  nanosecond := nanosecond

def fromUnixTimestampNanos (nanos : ℤ) : Except String (CivilDate × Clock) := do
  let seconds := nanos / 1000000000
  let date ← ofDays (seconds / 86400)
  return (date, ofSeconds (seconds % 86400).toNat
    (Fin.ofNat 1000000000 (nanos % 1000000000).toNat))

def date (text : List Char) : Option (Except String CivilDate × List Char) := do
  let (y, rest) ← year text
  let (m, rest) ← number 2 (← literal '-' rest)
  let (d, rest) ← number 2 (← literal '-' rest)
  return (fromCalendarDate y m d, rest)

def clock (subsec : Bool) (text : List Char) : Option Clock := do
  let (h, rest) ← number 2 text
  let (m, rest) ← number 2 (← literal ':' rest)
  let (s, rest) ← number 2 (← literal ':' rest)
  let nanos ← if subsec then subsecond (← literal '.' rest) else if rest = [] then some 0 else none
  if hrange : (h < 24 ∧ m < 60) ∧ s < 60 ∧ nanos < 1000000000 then
    return ⟨⟨h, hrange.1.1⟩, ⟨m, hrange.1.2⟩, ⟨s, hrange.2.1⟩, ⟨nanos, hrange.2.2⟩⟩
  else none

def parseError : String := "the text could not be parsed"

def parseDate (text : List Char) : Except String CivilDate :=
  match date text with
  | some (result, []) => result
  | _ => .error parseError

def parseTime (text : List Char) (format : Format) : Except String Clock :=
  match clock (format = .timeSubsec) text with
  | some t => .ok t
  | none => .error parseError

def parsePrimitiveDateTime (text : List Char) (format : Format) :
    Except String (CivilDate × Clock) :=
  let parsed := do
    let (result, rest) ← date text
    return (result, ← clock (format = .dateTimeSubsec) (← literal 'T' rest))
  match parsed with
  | some (result, t) => do return (← result, t)
  | none => .error parseError

def time : TimeCrate where
  Date := CivilDate
  Time := Clock
  year := CivilDate.year
  month := CivilDate.month
  day := CivilDate.day
  hour t := t.hour
  minute t := t.minute
  second t := t.second
  nanosecond t := t.nanosecond
  parseDate text _ := parseDate text
  parseTime := parseTime
  parsePrimitiveDateTime := parsePrimitiveDateTime
  fromUnixTimestamp seconds := fromUnixTimestampNanos (seconds * 1000000000)
  fromUnixTimestampNanos := fromUnixTimestampNanos

theorem date_append {d : CivilDate} {text : List Char} (h : DateText d.year d.month d.day text)
    (rest : List Char) : date (text ++ rest) = some (.ok d, rest) := by
  cases h with
  | mk hy hm hd =>
    simp [date, year_append hy, number_append hm, number_append hd, fromCalendarDate_eq]

theorem clock_eq {hour minute second nanos : ℕ} {subsec : Bool} {text : List Char}
    (h : ClockText hour minute second nanos subsec text) (hhour : hour < 24) (hminute : minute < 60)
    (hsecond : second < 60) :
    ∃ t, clock subsec text = some t ∧ time.Shows t hour minute second nanos := by
  cases h with
  | whole hh hm hs =>
    refine ⟨⟨⟨hour, hhour⟩, ⟨minute, hminute⟩, ⟨second, hsecond⟩, 0⟩, ?_, ⟨rfl, rfl, rfl, rfl⟩⟩
    simp [clock, number_append hh, number_append hm, number_eq hs, hhour, hminute, hsecond]
  | subsecond hh hm hs hne hdigits =>
    have hnanos : nanos < 1000000000 := hdigits.lt
    refine ⟨⟨⟨hour, hhour⟩, ⟨minute, hminute⟩, ⟨second, hsecond⟩, ⟨nanos, hnanos⟩⟩, ?_,
      ⟨rfl, rfl, rfl, rfl⟩⟩
    simp [clock, number_append hh, number_append hm, number_append hs, hhour, hminute, hsecond,
      subsecond_eq hne hdigits, hnanos]

theorem time_documented : time.Documented where
  year_le d := CivilDate.year_le d
  month_le d := (CivilDate.month_range d).2
  day_le d := CivilDate.day_le d
  hour_lt t := (Clock.hour t).2
  minute_lt t := (Clock.minute t).2
  second_lt t := (Clock.second t).2
  nanosecond_eq := by
    intro n d t h
    simp only [time, fromUnixTimestampNanos, bind, Except.bind, pure, Except.pure] at h
    split at h
    · cases h
    · cases h
      simp only [time, ofSeconds, Fin.val_ofNat]
      omega
  parseDate_eq := by
    intro d text h
    have hdate := date_append h []
    rw [List.append_nil] at hdate
    simp [time, parseDate, hdate]
  parseTime_eq := by
    intro hour minute second nanos subsec text h hhour hminute hsecond
    obtain ⟨t, hclock, hshows⟩ := clock_eq h hhour hminute hsecond
    refine ⟨t, ?_, hshows⟩
    cases subsec <;> simp [time, parseTime, hclock]
  parsePrimitiveDateTime_eq := by
    intro d front hour minute second nanos subsec text hfront h hhour hminute hsecond
    obtain ⟨t, hclock, hshows⟩ := clock_eq h hhour hminute hsecond
    refine ⟨t, ?_, hshows⟩
    cases subsec <;> simp [time, parsePrimitiveDateTime, date_append hfront, hclock] <;> rfl

/-! ## Decimals -/

structure Scaled where
  mantissa : ℤ
  scale : ℕ

def Scaled.number (d : Scaled) : ℚ := (d.mantissa : ℚ) / 10 ^ d.scale

/-- Zeros at the end of the digits after the point are taken off. -/
def normalize (mantissa : ℤ) : ℕ → Scaled
  | 0 => ⟨mantissa, 0⟩
  | scale + 1 =>
      if mantissa % 10 = 0 then normalize (mantissa / 10) scale else ⟨mantissa, scale + 1⟩

def tryFromI128WithScale (val : ℤ) (scale : ℕ) : Except String Scaled :=
  if |val| < 2 ^ 96 ∧ scale ≤ 28 then .ok ⟨val, scale⟩ else .error "out of range"

def parse (text : List Char) : Except String Scaled :=
  let (sign, content) := Interval.stripSign text
  let (whole, frac) := (Text.splitOnce '.' content).getD (content, [])
  if whole ≠ [] ∧ Decimal.Digits (whole ++ frac) then
    tryFromI128WithScale (sign * Decimal.value (whole ++ frac)) frac.length
  else .error "invalid decimal"

def decimals : DecimalCrate where
  Decimal := Scaled
  parse := parse
  tryFromI128WithScale := tryFromI128WithScale
  normalize d := normalize d.mantissa d.scale
  number := Scaled.number

theorem number_normalize (mantissa : ℤ) (scale : ℕ) :
    (normalize mantissa scale).number = (mantissa : ℚ) / 10 ^ scale := by
  induction scale generalizing mantissa with
  | zero => rfl
  | succ scale ih =>
    rw [normalize]
    split_ifs with hzero
    · obtain ⟨n, rfl⟩ := Int.dvd_of_emod_eq_zero hzero
      rw [Int.mul_ediv_cancel_left _ (by decide), ih]
      push_cast
      rw [pow_succ]
      field_simp
    · rfl

theorem parse_decimalText {negative : Prop} [Decidable negative] {whole frac : List Char}
    (hne : whole ≠ []) (hwhole : Decimal.Digits whole) (hfrac : Decimal.Digits frac) :
    parse (decimalText negative whole frac) =
      tryFromI128WithScale ((if negative then -1 else 1) * Decimal.value (whole ++ frac))
        frac.length := by
  have hpoint : '.' ∉ whole := fun hmem => absurd (hwhole _ hmem) (by decide)
  have hsplit : (Text.splitOnce '.' (whole ++ if frac = [] then [] else '.' :: frac)).getD
      (whole ++ if frac = [] then [] else '.' :: frac, []) = (whole, frac) := by
    by_cases hnil : frac = []
    · simp [hnil, Text.splitOnce_eq_none hpoint]
    · simp [hnil, Text.splitOnce_append hpoint]
  have hdigits : whole ≠ [] ∧ Decimal.Digits (whole ++ frac) := ⟨hne, hwhole.append hfrac⟩
  simp only [parse, decimalText, Interval.stripSign_signText negative hne hwhole, hsplit, if_pos hdigits]

theorem decimals_documented : decimals.Documented where
  tryFrom_ok := by
    intro val scale d h
    simp only [decimals, tryFromI128WithScale] at h
    split at h
    · rename_i hrange
      cases h
      exact ⟨hrange.1, hrange.2, rfl⟩
    · cases h
  number_normalize d := number_normalize d.mantissa d.scale
  parse_eq := by
    intro negative _ whole frac hne hwhole hfrac hlt hle
    have hrange : |(if negative then (-1 : ℤ) else 1) * (Decimal.value (whole ++ frac) : ℤ)| < 2 ^ 96 ∧
        frac.length ≤ 28 := by
      refine ⟨?_, hle⟩
      rw [abs_lt]
      split_ifs <;> omega
    refine ⟨⟨(if negative then -1 else 1) * Decimal.value (whole ++ frac), frac.length⟩, ?_, ?_⟩
    · rw [show decimals.parse = parse from rfl, parse_decimalText hne hwhole hfrac,
        tryFromI128WithScale, if_pos hrange]
      rfl
    · by_cases hneg : negative <;> simp [decimals, Scaled.number, decimalNumber, hneg]

/-- Digits of the value, with zeros in front of a short fraction and behind a negative scale. -/
def decimalDigits (value scale : ℤ) : List Char :=
  Decimal.pad (scale.toNat + 1) (decimal value.natAbs) ++ List.replicate (-scale).toNat '0'

def valueAsString (value scale : ℤ) : List Char :=
  let digits := decimalDigits value scale
  decimalText (value < 0) (digits.take (digits.length - scale.toNat))
    (digits.drop (digits.length - scale.toNat))

theorem valueAsString_prints (value scale : ℤ) :
    ∃ whole frac, Prints value scale (valueAsString value scale) whole frac := by
  have hdigits : Decimal.Digits (decimalDigits value scale) := by
    refine ((Text.digits_decimal _).pad _).append fun c hc => ?_
    rw [List.eq_of_mem_replicate hc]
    rfl
  have hlength : scale.toNat + 1 ≤ (decimalDigits value scale).length := by
    simp [decimalDigits, Decimal.pad, List.leftpad]
    omega
  refine ⟨_, _, ?_, hdigits.take _, ?_, ?_, ?_, rfl⟩
  · intro hnil
    have htake := congrArg List.length hnil
    rw [List.length_take, List.length_nil] at htake
    omega
  · exact fun c hc => hdigits c (List.mem_of_mem_drop hc)
  · rw [List.length_drop]
    omega
  · rw [List.take_append_drop, decimalDigits, Decimal.value_append, Decimal.value_pad,
      Decimal.value_replicate_zero, List.length_replicate, add_zero, mul_comm]
    exact congrArg (· * _) (Decimal.value_toDigits value.natAbs)

def crates : Crates where
  time := time
  decimal := decimals
  valueAsString := valueAsString

theorem documented : crates.Documented where
  time := time_documented
  decimal := decimals_documented
  valueAsString := valueAsString_prints

end Reference

end GoogleCloudRust.SqlCell
