import GoogleCloudRust.Library.Calendar
import GoogleCloudRust.Verification.SqlCell.Reference
import GoogleCloudRust.Verification.Wkt.Clamp

/-! # Timestamps of an instant

Texts, system times and dates with an offset are converted by the instant that they stand for,
and the text of a timestamp is converted back. Dates and times in UTC, printed and read by the
calendar, behave as the crate documents. -/

namespace GoogleCloudRust.Wkt

open Timestamp (lower upper lower_eq upper_eq)

/-! ## A crate with the documented behaviour -/

/-- Texts and instants are mutually inverse in the years 1 to 9999, and the seconds of a date and
time are rounded down. -/
structure TimeCrate.Documented (time : TimeCrate) : Prop where
  exists_offsetDateTime : ∀ {n}, lower ≤ n → n ≤ upper →
    ∃ odt, time.fromUnixTimestampNanos n = .ok odt ∧ time.unixTimestampNanos odt = n
  parse_format : ∀ {n odt}, lower ≤ n → n ≤ upper → time.fromUnixTimestampNanos n = .ok odt →
    ∃ text, time.format odt = .ok text ∧ time.parse text = .ok odt
  floor_eq : ∀ odt, (time.unixTimestamp odt).toInt = time.unixTimestampNanos odt / 10 ^ 9

namespace Reference

open Decimal Calendar
open Text (Number Fraction decimal number_pad)
open SqlCell.Reference (number literal subsecond number_append subsecond_eq literal_cons)

/-- An instant of the years -9999 to 9999. -/
abbrev Utc := { n : ℤ // -377705116800000000000 ≤ n ∧ n ≤ upper }

def ofNanos (n : ℤ) : Except String Utc :=
  if h : -377705116800000000000 ≤ n ∧ n ≤ upper then .ok ⟨n, h⟩
  else .error "timestamp must be in range"

/-! ## Printing -/

def two (n : ℕ) : List Char := pad 2 (decimal n)

def fraction (nanos : ℕ) : List Char :=
  if nanos = 0 then [] else '.' :: trimEnd (pad 9 (decimal nanos))

def clockText (seconds nanos : ℕ) : List Char :=
  two (seconds / 3600) ++ ':' :: (two (seconds / 60 % 60) ++ ':' ::
    (two (seconds % 60) ++ fraction nanos))

def dateText (date : Date) : List Char :=
  pad 4 (decimal date.year.toNat) ++ '-' :: (two date.month ++ '-' :: two date.day)

def format (odt : Utc) : Except String String :=
  let date := ofDays (odt.1 / 10 ^ 9 / 86400)
  if 0 ≤ date.year ∧ date.year ≤ 9999 then
    .ok (String.ofList (dateText date ++ 'T' ::
      (clockText (odt.1 / 10 ^ 9 % 86400).toNat (odt.1 % 10 ^ 9).toNat ++ ['Z'])))
  else .error "the year component cannot be formatted"

/-! ## Parsing -/

def readFraction : List Char → Option ℕ
  | [] => some 0
  | '.' :: digits => subsecond digits
  | _ => none

def readClock (text : List Char) : Option (ℕ × ℕ) := do
  let (h, rest) ← number 2 text
  let (m, rest) ← number 2 (← literal ':' rest)
  let (s, rest) ← number 2 (← literal ':' rest)
  let nanos ← readFraction rest
  if h < 24 ∧ m < 60 ∧ s < 60 then return (h * 3600 + m * 60 + s, nanos) else none

/-- A date is valid if it is the date of its day. -/
def readDate (text : List Char) : Option (ℤ × List Char) := do
  let (y, rest) ← number 4 text
  let (m, rest) ← number 2 (← literal '-' rest)
  let (d, rest) ← number 2 (← literal '-' rest)
  let days := toDays ⟨y, m, d⟩
  if ofDays days = ⟨y, m, d⟩ then return (days, rest) else none

def read (text : List Char) : Option ℤ := do
  let (days, rest) ← readDate text
  let rest ← literal 'T' rest
  if rest.getLast? = some 'Z' then
    let (seconds, nanos) ← readClock rest.dropLast
    return (days * 86400 + seconds) * 10 ^ 9 + nanos
  else none

def parse (text : String) : Except String Utc :=
  match read text.toList with
  | some n => ofNanos n
  | none => .error "the text could not be parsed"

def time : TimeCrate where
  OffsetDateTime := Utc
  parse := parse
  format := format
  fromUnixTimestampNanos := ofNanos
  unixTimestamp odt := .ofInt (odt.1 / 10 ^ 9)
  unixTimestampNanos odt := odt.1

/-! ## Reading what was printed -/

theorem number_two {n : ℕ} (h : n < 100) (rest : List Char) :
    number 2 (two n ++ rest) = some (n, rest) :=
  number_append (number_pad (by decide) h) rest

theorem fraction_digits {nanos : ℕ} (h : nanos < 10 ^ 9) :
    Fraction 9 nanos (trimEnd (pad 9 (decimal nanos))) := by
  have hpad := number_pad (show 0 < 9 by decide) h
  have hle := length_trimEnd_le (pad 9 (decimal nanos))
  have hvalue := value_trimEnd (pad 9 (decimal nanos))
  rw [hpad.length_eq] at hle hvalue
  rw [hpad.value_eq, Nat.mul_comm] at hvalue
  exact ⟨hpad.isDigits.trimEnd, hle, hvalue.symm⟩

theorem readFraction_fraction {nanos : ℕ} (h : nanos < 10 ^ 9) :
    readFraction (fraction nanos) = some nanos := by
  by_cases hzero : nanos = 0
  · rw [fraction, if_pos hzero, hzero]
    rfl
  · have hdigits := fraction_digits h
    rw [fraction, if_neg hzero]
    apply subsecond_eq ?_ hdigits
    intro hnil
    have hvalue := hdigits.value_eq
    rw [hnil, value_nil, Nat.zero_mul] at hvalue
    exact hzero hvalue.symm

theorem readClock_clockText {seconds nanos : ℕ} (hseconds : seconds < 86400)
    (hnanos : nanos < 10 ^ 9) : readClock (clockText seconds nanos) = some (seconds, nanos) := by
  have hhour : seconds / 3600 < 24 := by omega
  have hminute : seconds / 60 % 60 < 60 := by omega
  have hsecond : seconds % 60 < 60 := by omega
  have hsum : seconds / 3600 * 3600 + seconds / 60 % 60 * 60 + seconds % 60 = seconds := by omega
  simp [readClock, clockText, number_two (hhour.trans (by decide)),
    number_two (hminute.trans (by decide)), number_two (hsecond.trans (by decide)),
    readFraction_fraction hnanos, hhour, hminute, hsecond, hsum]

theorem readDate_dateText {days : ℤ} (hlower : -719162 ≤ days) (hupper : days ≤ 2932896)
    (rest : List Char) : readDate (dateText (ofDays days) ++ rest) = some (days, rest) := by
  obtain ⟨hmonth, hday⟩ := ofDays_lt days
  obtain ⟨hfirst, hlast⟩ := year_ofDays hlower hupper
  have hyear : (((ofDays days).year.toNat : ℕ) : ℤ) = (ofDays days).year := by omega
  have hnumber := @number_append 4 _ _ (number_pad (show 0 < 4 by decide)
    (show (ofDays days).year.toNat < 10 ^ 4 by omega))
  have hdate : toDays ⟨(ofDays days).year, (ofDays days).month, (ofDays days).day⟩ = days :=
    toDays_ofDays days
  simp [readDate, dateText, hnumber, number_two hmonth, number_two hday, hyear, hdate]

/-- The day of an instant in range has a year of four digits. -/
theorem day_range {n : ℤ} (hlower : lower ≤ n) (hupper : n ≤ upper) :
    -719162 ≤ n / 10 ^ 9 / 86400 ∧ n / 10 ^ 9 / 86400 ≤ 2932896 := by
  rw [lower_eq] at hlower
  rw [upper_eq] at hupper
  omega

theorem read_text {n : ℤ} (hlower : lower ≤ n) (hupper : n ≤ upper) :
    read (dateText (ofDays (n / 10 ^ 9 / 86400)) ++ 'T' ::
      (clockText (n / 10 ^ 9 % 86400).toNat (n % 10 ^ 9).toNat ++ ['Z'])) = some n := by
  obtain ⟨hfirst, hlast⟩ := day_range hlower hupper
  have hseconds : (n / 10 ^ 9 % 86400).toNat < 86400 := by omega
  have hnanos : (n % 10 ^ 9).toNat < 10 ^ 9 := by omega
  rw [read, readDate_dateText hfirst hlast]
  simp only [Option.bind_eq_bind, Option.bind_some, literal_cons, List.getLast?_concat, if_true,
    List.dropLast_concat, readClock_clockText hseconds hnanos, Option.pure_def, Option.some.injEq]
  omega

theorem parse_format {odt : Utc} (hlower : lower ≤ odt.1) :
    ∃ text, format odt = .ok text ∧ parse text = .ok odt := by
  have hupper := odt.2.2
  obtain ⟨hfirst, hlast⟩ := day_range hlower hupper
  obtain ⟨hyear, hyears⟩ := year_ofDays hfirst hlast
  have hprinted : 0 ≤ (ofDays (odt.1 / 10 ^ 9 / 86400)).year ∧
      (ofDays (odt.1 / 10 ^ 9 / 86400)).year ≤ 9999 := ⟨by omega, hyears⟩
  refine ⟨_, if_pos hprinted, ?_⟩
  rw [parse, String.toList_ofList, read_text hlower hupper]
  exact dif_pos odt.2

theorem unixTimestamp_eq (odt : Utc) : (Int64.ofInt (odt.1 / 10 ^ 9)).toInt = odt.1 / 10 ^ 9 := by
  obtain ⟨n, hlower, hupper⟩ := odt
  rw [upper_eq] at hupper
  dsimp only
  exact Int64.toInt_ofInt_of_le (by omega) (by omega)

theorem documented : time.Documented where
  exists_offsetDateTime := by
    intro n hlower hupper
    rw [lower_eq] at hlower
    have hrange : -377705116800000000000 ≤ n ∧ n ≤ upper := ⟨by omega, hupper⟩
    exact ⟨⟨n, hrange⟩, dif_pos hrange, rfl⟩
  parse_format := by
    intro n odt hlower hupper hodt
    have hrange : -377705116800000000000 ≤ n ∧ n ≤ upper := by
      rw [lower_eq] at hlower
      exact ⟨by omega, hupper⟩
    have hvalue : (⟨n, hrange⟩ : Utc) = odt :=
      Except.ok.inj ((dif_pos hrange).symm.trans hodt)
    subst hvalue
    exact Reference.parse_format hlower
  floor_eq := unixTimestamp_eq

end Reference

/-! ## Instants -/

namespace Timestamp

theorem ns_eq : ns = 10 ^ 9 := rfl

/-- The instant in whole seconds, rounded down, and the rest. -/
def ofInstant (n : ℤ) : Except TimestampError Timestamp := new (n / 10 ^ 9) (n % 10 ^ 9)

theorem ofInstant_eq_ok {n : ℤ} {t : Timestamp} : ofInstant n = .ok t ↔ t.nanoseconds = n := by
  have hnanos := t.nanos_bounds
  rw [ofInstant, new_eq_ok, nanoseconds]
  omega

theorem exists_ofInstant_iff (n : ℤ) :
    (∃ t, ofInstant n = .ok t) ↔ lower ≤ n ∧ n ≤ upper := by
  simp only [ofInstant_eq_ok, exists_nanoseconds_iff]

/-- Any split with a remainder in range is this one. -/
theorem new_eq_ofInstant {seconds nanos n : ℤ} (hlower : 0 ≤ nanos) (hupper : nanos < 10 ^ 9)
    (hn : seconds * 10 ^ 9 + nanos = n) : new seconds nanos = ofInstant n := by
  have hseconds : n / 10 ^ 9 = seconds := by omega
  have hnanos : n % 10 ^ 9 = nanos := by omega
  rw [ofInstant, hseconds, hnanos]

theorem ofInstant_eq_error {n : ℤ} (h : n < lower ∨ upper < n) :
    ofInstant n = .error .outOfRange := by
  have hseconds : ¬ (minSeconds ≤ n / 10 ^ 9 ∧ n / 10 ^ 9 ≤ maxSeconds) := by
    rw [lower_eq, upper_eq] at h
    rw [minSeconds_eq, maxSeconds_eq]
    omega
  rw [ofInstant, new, dif_neg hseconds]

/-! ## System times -/

/-- Before the epoch the fraction is taken from one more second. -/
theorem tryFromSystemTime_eq (value : SystemTime) :
    tryFromSystemTime value = ofInstant value.nanos := by
  rcases value.durationSinceEpoch_cases with ⟨d, hduration, hnanos⟩ | ⟨d, hduration, hnanos⟩
  all_goals
    have hsplit := d.asSecs_mul_add_subsecNanos
    have hrest := d.subsecNanos_lt
    rw [tryFromSystemTime, hduration]
    dsimp only
    generalize d.asSecs = s at *
    generalize d.subsecNanos = nanos at *
  · by_cases hlarge : 2 ^ 63 - 1 < s
    · rw [if_pos hlarge, ofInstant_eq_error]
      rw [upper_eq]
      omega
    · rw [if_neg hlarge]
      apply new_eq_ofInstant <;> omega
  · by_cases hlarge : 2 ^ 63 - 1 < s
    · rw [if_pos hlarge, ofInstant_eq_error]
      rw [lower_eq]
      omega
    · rw [if_neg hlarge, ns_eq]
      by_cases hfraction : 0 < (nanos : ℤ)
      · rw [if_pos hfraction]
        apply new_eq_ofInstant <;> omega
      · rw [if_neg hfraction]
        apply new_eq_ofInstant <;> omega

/-! ## Dates and times with an offset -/

section Documented

variable {time : TimeCrate} (h : time.Documented)

include h

theorem tryFromOffsetDateTime_eq (odt : time.OffsetDateTime) :
    tryFromOffsetDateTime time odt = ofInstant (time.unixTimestampNanos odt) := by
  have hfloor := h.floor_eq odt
  have hrest : Signed.cast 32
      (time.unixTimestampNanos odt - (time.unixTimestamp odt).toInt * 10 ^ 9) =
        time.unixTimestampNanos odt % 10 ^ 9 := by
    rw [Signed.cast_eq (by decide) (by omega) (by omega)]
    omega
  rw [tryFromOffsetDateTime, ns_eq, hrest]
  apply new_eq_ofInstant <;> omega

/-- The truncated quotient is one more than the seconds rounded down when the rest is negative. -/
theorem tryFrom_eq {text : String} {odt : time.OffsetDateTime} (hparse : time.parse text = .ok odt) :
    tryFrom time text = ofInstant (time.unixTimestampNanos odt) := by
  have hfloor := h.floor_eq odt
  have hmin := Int64.le_toInt (time.unixTimestamp odt)
  have hmax := Int64.toInt_lt (time.unixTimestamp odt)
  rw [hfloor] at hmin hmax
  have hconvert : tryFrom time text =
      if Signed.cast 32 ((time.unixTimestampNanos odt).tmod ns) < 0 then
        new (Signed.cast 64 ((time.unixTimestampNanos odt).tdiv ns) - 1)
          (ns + Signed.cast 32 ((time.unixTimestampNanos odt).tmod ns))
      else new (Signed.cast 64 ((time.unixTimestampNanos odt).tdiv ns))
        (Signed.cast 32 ((time.unixTimestampNanos odt).tmod ns)) := by
    rw [tryFrom, hparse]
    rfl
  rw [hconvert, ns_eq]
  generalize time.unixTimestampNanos odt = n at *
  have hdivision := Int.mul_tdiv_add_tmod n (10 ^ 9)
  have hupper := Int.tmod_lt_of_pos n (show (0 : ℤ) < 10 ^ 9 by decide)
  have hlower := Int.lt_tmod_of_pos n (show (0 : ℤ) < 10 ^ 9 by decide)
  have hsign := @Int.tmod_nonneg n (10 ^ 9)
  have hseconds : Signed.cast 64 (n.tdiv (10 ^ 9)) = n.tdiv (10 ^ 9) :=
    Signed.cast_eq (by decide) (by omega) (by omega)
  have hnanos : Signed.cast 32 (n.tmod (10 ^ 9)) = n.tmod (10 ^ 9) :=
    Signed.cast_eq (by decide) (by omega) (by omega)
  rw [hseconds, hnanos]
  by_cases hnegative : n.tmod (10 ^ 9) < 0
  · rw [if_pos hnegative]
    apply new_eq_ofInstant <;> omega
  · rw [if_neg hnegative]
    apply new_eq_ofInstant <;> omega

/-- The text of a timestamp stands for its instant. -/
theorem toString_eq (t : Timestamp) :
    ∃ text odt, t.toString time = some text ∧ time.parse text = .ok odt ∧
      time.unixTimestampNanos odt = t.nanoseconds := by
  obtain ⟨hlower, hupper⟩ := (exists_nanoseconds_iff _).mp ⟨t, rfl⟩
  obtain ⟨odt, hodt, hnanos⟩ := h.exists_offsetDateTime hlower hupper
  obtain ⟨text, hformat, hparse⟩ := h.parse_format hlower hupper hodt
  refine ⟨text, odt, ?_, hparse, hnanos⟩
  have hconvert : time.fromUnixTimestampNanos (t.seconds * ns + t.nanos) = .ok odt := hodt
  rw [toString, hconvert]
  simp only [hformat]
  rfl

end Documented

/-- Every conversion gives the timestamp of the instant, and fails out of range only; a timestamp
is read back from its text. -/
theorem conversions_preserve_instant {time : TimeCrate} (h : time.Documented) :
    (∀ n, ((∃ t, ofInstant n = .ok t) ↔ lower ≤ n ∧ n ≤ upper) ∧
      ∀ t, ofInstant n = .ok t → t.seconds * 10 ^ 9 + t.nanos = n) ∧
    (∀ value, tryFromSystemTime value = ofInstant value.nanos) ∧
    (∀ text odt, time.parse text = .ok odt →
      tryFrom time text = ofInstant (time.unixTimestampNanos odt)) ∧
    (∀ odt, tryFromOffsetDateTime time odt = ofInstant (time.unixTimestampNanos odt)) ∧
    ∀ t : Timestamp, ∃ text, t.toString time = some text ∧ tryFrom time text = .ok t := by
  refine ⟨?_, tryFromSystemTime_eq, ?_, tryFromOffsetDateTime_eq h, ?_⟩
  · intro n
    refine ⟨exists_ofInstant_iff n, ?_⟩
    intro t ht
    exact ofInstant_eq_ok.mp ht
  · intro text odt hparse
    exact tryFrom_eq h hparse
  · intro t
    obtain ⟨text, odt, htext, hparse, hnanos⟩ := toString_eq h t
    refine ⟨text, htext, ?_⟩
    rw [tryFrom_eq h hparse, hnanos]
    exact ofInstant_eq_ok.mpr rfl

theorem conversions_before_epoch :
    tryFromSystemTime ⟨-1500000000, by decide⟩ = .ok ⟨-2, 500000000, by decide, by decide⟩ ∧
    tryFrom Reference.time "1969-12-31T23:59:58.5Z" =
      .ok ⟨-2, 500000000, by decide, by decide⟩ ∧
    toString Reference.time ⟨-2, 500000000, by decide, by decide⟩ =
      some "1969-12-31T23:59:58.5Z" := by
  obtain ⟨-, hsystem, htext, -, -⟩ := conversions_preserve_instant Reference.documented
  refine ⟨hsystem _, ?_, rfl⟩
  have hread : Reference.read "1969-12-31T23:59:58.5Z".toList = some (-1500000000) := by decide
  have hparse : Reference.parse "1969-12-31T23:59:58.5Z" = .ok ⟨-1500000000, by decide⟩ := by
    rw [Reference.parse, hread]
    rfl
  exact htext "1969-12-31T23:59:58.5Z" (⟨-1500000000, by decide⟩ : Reference.Utc) hparse

end Timestamp

end GoogleCloudRust.Wkt
