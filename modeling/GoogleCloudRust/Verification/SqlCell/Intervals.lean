import GoogleCloudRust.Model.SqlCell

/-! # Intervals

A cell is decoded into components that share the sign of their group, and the text of such an
interval is decoded into the same components. -/

namespace GoogleCloudRust.SqlCell.Interval

open Text (Fits int paddedInt parseInt decimal signText solid_signText)

/-! ## From a cell -/

theorem asI32_eq {n : ℕ} (h : n < 2 ^ 31) : asI32 n = n := by
  have hlow : -((2 ^ 32 : ℕ) : ℤ) / 2 ≤ n := by omega
  have hhigh : (n : ℤ) < (((2 ^ 32 : ℕ) : ℤ) + 1) / 2 := by omega
  exact Int.bmod_eq_of_le hlow hhigh

/-- A component with the sign of its group. -/
def signed (negative : Prop) [Decidable negative] (n : ℕ) : ℤ := if negative then -n else n

theorem mul_sign {negative : Prop} [Decidable negative] {n : ℕ} (h : n < 2 ^ 31) :
    mul (asI32 n) (if negative then -1 else 1) = .ok (signed negative n) := by
  rw [asI32_eq h]
  by_cases hneg : negative
  · have hfits : Fits 32 ((n : ℤ) * -1) := by
      constructor <;> omega
    simp only [mul, signed, hneg, if_true]
    rw [if_pos hfits]
    congr 1
    omega
  · have hfits : Fits 32 ((n : ℤ) * 1) := by
      constructor <;> omega
    simp only [mul, signed, hneg, if_false]
    rw [if_pos hfits]
    congr 1
    omega

/-- The components of a cell. -/
def ofCell (v : IntervalMonthDayNano) : Interval where
  years := signed (v.months.1 < 0) (v.months.1.natAbs / 12)
  months := signed (v.months.1 < 0) (v.months.1.natAbs % 12)
  days := v.days
  hours := signed (v.nanoseconds.1 < 0) (v.nanoseconds.1.natAbs / 1000000000 / 60 / 60)
  minutes := signed (v.nanoseconds.1 < 0) (v.nanoseconds.1.natAbs / 1000000000 / 60 % 60)
  seconds := signed (v.nanoseconds.1 < 0) (v.nanoseconds.1.natAbs / 1000000000 % 60)
  nanos := signed (v.nanoseconds.1 < 0) (v.nanoseconds.1.natAbs % 1000000000)

/-- No product of the decoding overflows. -/
theorem ofMonthDayNano_eq (v : IntervalMonthDayNano) : ofMonthDayNano v = .ok (ofCell v) := by
  have hmonths := v.months.2
  have hnanos := v.nanoseconds.2
  simp only [Fits] at hmonths hnanos
  have hyears : v.months.1.natAbs / 12 < 2 ^ 31 := by omega
  have hhours : v.nanoseconds.1.natAbs / 1000000000 / 60 / 60 < 2 ^ 31 := by omega
  have hbelow : ∀ n k : ℕ, 0 < k → k ≤ 1000000000 → n % k < 2 ^ 31 := by
    intro n k hpos hle
    have hlt := Nat.mod_lt n hpos
    omega
  simp only [ofMonthDayNano, mul_sign hyears, mul_sign hhours,
    mul_sign (hbelow _ 12 (by decide) (by decide)),
    mul_sign (hbelow _ 1000000000 (by decide) (by decide)),
    mul_sign (hbelow _ 60 (by decide) (by decide))]
  rfl

/-- The components add up to the cell, stay below their units and share signs. -/
structure Represents (v : IntervalMonthDayNano) (x : Interval) : Prop where
  months : x.years * 12 + x.months = v.months
  days : x.days = v.days
  nanos : ((x.hours * 60 + x.minutes) * 60 + x.seconds) * 1000000000 + x.nanos = v.nanoseconds
  months_lt : |x.months| < 12
  minutes_lt : |x.minutes| < 60
  seconds_lt : |x.seconds| < 60
  nanos_lt : |x.nanos| < 1000000000
  yearSign : (0 ≤ x.years ∧ 0 ≤ x.months) ∨ (x.years ≤ 0 ∧ x.months ≤ 0)
  timeSign : (0 ≤ x.hours ∧ 0 ≤ x.minutes ∧ 0 ≤ x.seconds ∧ 0 ≤ x.nanos) ∨
    (x.hours ≤ 0 ∧ x.minutes ≤ 0 ∧ x.seconds ≤ 0 ∧ x.nanos ≤ 0)
  years_fits : |x.years| < 2 ^ 31
  hours_fits : |x.hours| < 2 ^ 31

theorem ofCell_represents (v : IntervalMonthDayNano) : Represents v (ofCell v) := by
  obtain ⟨⟨months, hmonths⟩, days, ⟨nanos, hnanos⟩⟩ := v
  simp only [Fits] at hmonths hnanos
  constructor <;> simp only [ofCell, signed, abs_lt] <;> split_ifs <;> omega

/-! ## Groups of a text -/

theorem stripSign_signText (negative : Prop) [Decidable negative] {digits : List Char}
    (hne : digits ≠ []) (h : Decimal.Digits digits) (rest : List Char) :
    stripSign (signText negative ++ (digits ++ rest)) =
      (if negative then -1 else 1, digits ++ rest) := by
  by_cases hneg : negative
  · simp [signText, hneg, stripSign]
  · cases digits with
    | nil => exact absurd rfl hne
    | cons c digits =>
      have hc : c ≠ '-' := by
        rintro rfl
        exact absurd (h '-' (by simp)) (by decide)
      simp [signText, hneg, stripSign, hc]

theorem stripSign_decimal {negative : Prop} [Decidable negative] (n : ℕ) (rest : List Char) :
    stripSign (signText negative ++ (decimal n ++ rest)) =
      (if negative then -1 else 1, decimal n ++ rest) :=
  stripSign_signText negative (Text.decimal_ne_nil n) (Text.digits_decimal n) rest

/-- A component that agrees with the sign of its group. -/
def Agrees (negative : Prop) (a : ℤ) : Prop := (negative → a ≤ 0) ∧ (¬negative → 0 ≤ a)

theorem parsePart_digits {negative : Prop} [Decidable negative] {a : ℤ} (h : Agrees negative a)
    {digits : List Char} (hne : digits ≠ []) (hdigits : Decimal.Digits digits)
    (hvalue : Decimal.value digits = a.natAbs) (hlt : |a| < 2 ^ 31) :
    parsePart (if negative then -1 else 1) digits = .ok a := by
  rw [abs_lt] at hlt
  have hparse : parseInt 32 digits = .ok (a.natAbs : ℤ) := by
    rw [Text.parseInt_digits hne hdigits (by rw [hvalue]; omega), hvalue]
  have hproduct : (a.natAbs : ℤ) * (if negative then -1 else 1) = a := by
    by_cases hneg : negative
    · have hle := h.1 hneg
      simp only [hneg, if_true]
      omega
    · have hge := h.2 hneg
      simp only [hneg, if_false]
      omega
  have hfits : Fits 32 a := by constructor <;> omega
  simp only [parsePart, convert, hparse, Except.mapError, bind, Except.bind, mul, hproduct]
  rw [if_pos hfits]

theorem parsePart_decimal {negative : Prop} [Decidable negative] {a : ℤ} (h : Agrees negative a)
    (hlt : |a| < 2 ^ 31) : parsePart (if negative then -1 else 1) (decimal a.natAbs) = .ok a :=
  parsePart_digits h (Text.decimal_ne_nil _) (Text.digits_decimal _)
    (Decimal.value_toDigits a.natAbs) hlt

theorem parseYearMonth_text {negative : Prop} [Decidable negative] {years months : ℤ}
    (hyears : Agrees negative years) (hmonths : Agrees negative months) (hy : |years| < 2 ^ 31)
    (hm : |months| < 2 ^ 31) :
    parseYearMonth (signText negative ++ (decimal years.natAbs ++ '-' :: decimal months.natAbs)) =
      .ok (years, months) := by
  have hdash : ∀ n, '-' ∉ decimal n := Text.not_mem_decimal (by decide)
  have hsplit : (decimal years.natAbs ++ '-' :: decimal months.natAbs).splitOn '-' =
      [decimal years.natAbs, decimal months.natAbs] := by
    rw [List.splitOn_append_cons_self_of_not_mem (hdash _), List.splitOn_eq_singleton (hdash _)]
  simp only [parseYearMonth, stripSign_decimal, hsplit, parsePart_decimal hyears hy,
    parsePart_decimal hmonths hm]
  rfl

/-! ## Fractions -/

/-- The nine digits of a fraction that has at most nine. -/
theorem value_rightpad {digits : List Char} (h : digits.length ≤ 9) :
    Decimal.value ((digits.take 9).rightpad 9 '0') =
      Decimal.value digits * 10 ^ (9 - digits.length) := by
  rw [List.take_of_length_le h, List.rightpad, Decimal.value_append, Decimal.value_replicate_zero,
    List.length_replicate, Nat.add_zero, Nat.mul_comm]

theorem fracText_spec {nanos : ℕ} (h : nanos < 1000000000) :
    (nanos = 0 ∧ fracText nanos = []) ∨
      ∃ digits, fracText nanos = '.' :: digits ∧ Text.Fraction 9 nanos digits := by
  by_cases hzero : nanos = 0
  · exact .inl ⟨hzero, by simp [fracText, hzero]⟩
  · right
    have hne : (nanos : ℤ) ≠ 0 := by omega
    have hfraction : ∀ {width n : ℕ}, 0 < width → width ≤ 9 → n < 10 ^ width →
        n * 10 ^ (9 - width) = nanos → Text.Fraction 9 nanos (paddedInt width n) := by
      rintro width n hpos hwidth hlt rfl
      exact (Text.number_paddedInt hpos hlt).fraction hwidth
    by_cases hmillis : nanos % 1000000 = 0
    · have hmod : (nanos : ℤ) % 1000000 = 0 := by omega
      rw [fracText, if_neg hne, if_pos hmod]
      exact ⟨_, rfl, hfraction (n := nanos / 1000000) (by decide) (by decide) (by omega) (by omega)⟩
    · have hmod : ¬(nanos : ℤ) % 1000000 = 0 := by omega
      by_cases hmicros : nanos % 1000 = 0
      · have hmod' : (nanos : ℤ) % 1000 = 0 := by omega
        rw [fracText, if_neg hne, if_neg hmod, if_pos hmod']
        exact ⟨_, rfl, hfraction (n := nanos / 1000) (by decide) (by decide) (by omega) (by omega)⟩
      · have hmod' : ¬(nanos : ℤ) % 1000 = 0 := by omega
        rw [fracText, if_neg hne, if_neg hmod, if_neg hmod']
        exact ⟨_, rfl, hfraction (n := nanos) (by decide) (by decide) (by omega) (by omega)⟩

/-! ## The text of an interval -/

/-- Hours, minutes and seconds, before a fraction. -/
def hms (hours minutes seconds : ℕ) : List Char :=
  decimal hours ++ (':' :: decimal minutes ++ ':' :: decimal seconds)

theorem splitOn_hms (hours minutes seconds : ℕ) :
    (hms hours minutes seconds).splitOn ':' = [decimal hours, decimal minutes, decimal seconds] := by
  have hcolon : ∀ n, ':' ∉ decimal n := Text.not_mem_decimal (by decide)
  simp only [hms, List.cons_append]
  rw [List.splitOn_append_cons_self_of_not_mem (hcolon _),
    List.splitOn_append_cons_self_of_not_mem (hcolon _), List.splitOn_eq_singleton (hcolon _)]

theorem stripSign_hms {negative : Prop} [Decidable negative] (hours minutes seconds : ℕ)
    (frac : List Char) :
    stripSign (signText negative ++ (hms hours minutes seconds ++ frac)) =
      (if negative then -1 else 1, hms hours minutes seconds ++ frac) := by
  rw [hms, List.append_assoc]
  exact stripSign_decimal hours _

/-- The digits of the fraction are read back, or the zero that stands for none. -/
theorem splitOnce_hms (hours minutes seconds : ℕ) {negative : Prop} [Decidable negative] {nanos : ℤ}
    (hnanos : Agrees negative nanos) (hn : |nanos| < 1000000000) :
    ∃ frac, (Text.splitOnce '.' (hms hours minutes seconds ++ fracText nanos.natAbs)).getD
        (hms hours minutes seconds ++ fracText nanos.natAbs, ['0']) =
        (hms hours minutes seconds, frac) ∧
      parsePart (if negative then -1 else 1) ((frac.take 9).rightpad 9 '0') = .ok nanos := by
  have hpoint : '.' ∉ hms hours minutes seconds := by
    have hnot : ∀ n, '.' ∉ decimal n := Text.not_mem_decimal (by decide)
    simp [hms, hnot]
  have hlt : |nanos| < 2 ^ 31 := hn.trans (by decide)
  have hbound : nanos.natAbs < 1000000000 := by
    rw [abs_lt] at hn
    omega
  rcases fracText_spec hbound with ⟨hzero, htext⟩ | ⟨digits, htext, hfraction⟩
  · refine ⟨['0'], ?_, ?_⟩
    · rw [htext, List.append_nil, Text.splitOnce_eq_none hpoint]
      rfl
    · refine parsePart_digits hnanos (by decide) (by decide) ?_ hlt
      rw [hzero]
      decide
  · refine ⟨digits, ?_, ?_⟩
    · rw [htext, Text.splitOnce_append hpoint]
      rfl
    · refine parsePart_digits hnanos ?_ ((hfraction.isDigits.take 9).rightpad 9) ?_ hlt
      · intro hnil
        have hlength := congrArg List.length hnil
        simp [List.rightpad] at hlength
      · rw [value_rightpad hfraction.length_le, hfraction.value_eq]

theorem parseTime_text {negative : Prop} [Decidable negative] {hours minutes seconds nanos : ℤ}
    (hhours : Agrees negative hours) (hminutes : Agrees negative minutes)
    (hseconds : Agrees negative seconds) (hnanos : Agrees negative nanos) (hh : |hours| < 2 ^ 31)
    (hm : |minutes| < 2 ^ 31) (hs : |seconds| < 2 ^ 31) (hn : |nanos| < 1000000000) :
    parseTime (signText negative ++ (hms hours.natAbs minutes.natAbs seconds.natAbs ++
        fracText nanos.natAbs)) = .ok (hours, minutes, seconds, nanos) := by
  obtain ⟨frac, honce, hpart⟩ :=
    splitOnce_hms hours.natAbs minutes.natAbs seconds.natAbs hnanos hn
  simp only [parseTime, stripSign_hms, honce, splitOn_hms, hpart, parsePart_decimal hhours hh,
    parsePart_decimal hminutes hm, parsePart_decimal hseconds hs]
  rfl

theorem solid_fracText {nanos : ℕ} (h : nanos < 1000000000) : Text.Solid (fracText nanos) := by
  rcases fracText_spec h with ⟨-, htext⟩ | ⟨digits, htext, hfraction⟩
  · rw [htext]
    exact .nil
  · rw [htext]
    exact .cons (by decide) (Text.solid_of_digits hfraction.isDigits)

theorem solid_hms (hours minutes seconds : ℕ) : Text.Solid (hms hours minutes seconds) :=
  (Text.solid_decimal hours).append (.append (.cons (by decide) (Text.solid_decimal minutes))
    (.cons (by decide) (Text.solid_decimal seconds)))

/-- The text of an interval, group by group. -/
def yearMonthText (x : Interval) : List Char :=
  signText (x.years < 0 ∨ x.months < 0) ++
    (decimal x.years.natAbs ++ '-' :: decimal x.months.natAbs)

def timeText (x : Interval) : List Char :=
  signText (x.hours < 0 ∨ x.minutes < 0 ∨ x.seconds < 0 ∨ x.nanos < 0) ++
    (hms x.hours.natAbs x.minutes.natAbs x.seconds.natAbs ++ fracText x.nanos.natAbs)

theorem abs_ok {a : ℤ} (h : |a| < 2 ^ 31) : abs a = .ok (a.natAbs : ℤ) := by
  have hfits : Fits 32 |a| := by
    have hnonneg := abs_nonneg a
    constructor <;> omega
  rw [abs, if_pos hfits, Int.abs_eq_natAbs]

theorem int_natCast (n : ℕ) : int (n : ℤ) = decimal n := by
  rw [Text.int_of_nonneg (by omega), Int.natAbs_natCast]

section

variable {v : IntervalMonthDayNano} {x : Interval}

theorem Represents.text_eq (h : Represents v x) :
    x.text = .ok (yearMonthText x ++ ' ' :: (int x.days ++ ' ' :: timeText x)) := by
  have hmonths : |x.months| < 2 ^ 31 := h.months_lt.trans (by decide)
  have hminutes : |x.minutes| < 2 ^ 31 := h.minutes_lt.trans (by decide)
  have hseconds : |x.seconds| < 2 ^ 31 := h.seconds_lt.trans (by decide)
  have hnanos : |x.nanos| < 2 ^ 31 := h.nanos_lt.trans (by decide)
  simp only [Interval.text, abs_ok h.years_fits, abs_ok hmonths, abs_ok h.hours_fits,
    abs_ok hminutes, abs_ok hseconds, abs_ok hnanos, bind, Except.bind, int_natCast]
  simp [yearMonthText, timeText, hms, signText, pure, Except.pure]

theorem Represents.agrees_year (h : Represents v x) :
    Agrees (x.years < 0 ∨ x.months < 0) x.years ∧ Agrees (x.years < 0 ∨ x.months < 0) x.months := by
  have hsign := h.yearSign
  simp only [Agrees]
  omega

theorem Represents.agrees_time (h : Represents v x) {a : ℤ}
    (ha : a = x.hours ∨ a = x.minutes ∨ a = x.seconds ∨ a = x.nanos) :
    Agrees (x.hours < 0 ∨ x.minutes < 0 ∨ x.seconds < 0 ∨ x.nanos < 0) a := by
  have hsign := h.timeSign
  simp only [Agrees]
  omega

/-- The text of an interval is decoded into its components. -/
theorem Represents.ofString_text (h : Represents v x) :
    ofString (yearMonthText x ++ ' ' :: (int x.days ++ ' ' :: timeText x)) = .ok x := by
  have hnanos : x.nanos.natAbs < 1000000000 := by
    have hlt := h.nanos_lt
    rw [abs_lt] at hlt
    omega
  have hdays : Fits 32 x.days := by
    rw [h.days]
    exact v.days.2
  have hwords : Text.splitWhitespace (yearMonthText x ++ ' ' :: (int x.days ++ ' ' :: timeText x)) =
      [yearMonthText x, int x.days, timeText x] := by
    rw [Text.splitWhitespace_cons, Text.splitWhitespace_cons (Text.int_ne_nil _) (Text.solid_int _),
      Text.splitWhitespace_word]
    · simp [timeText, hms, Text.decimal_ne_nil]
    · exact solid_signText.append ((solid_hms _ _ _).append (solid_fracText hnanos))
    · simp [yearMonthText, Text.decimal_ne_nil]
    · exact solid_signText.append ((Text.solid_decimal _).append
        (.cons (by decide) (Text.solid_decimal _)))
  have hyear : parseYearMonth (yearMonthText x) = .ok (x.years, x.months) :=
    parseYearMonth_text h.agrees_year.1 h.agrees_year.2 h.years_fits
      (h.months_lt.trans (by decide))
  have htime : parseTime (timeText x) = .ok (x.hours, x.minutes, x.seconds, x.nanos) :=
    parseTime_text (h.agrees_time (.inl rfl)) (h.agrees_time (.inr (.inl rfl)))
      (h.agrees_time (.inr (.inr (.inl rfl)))) (h.agrees_time (.inr (.inr (.inr rfl))))
      h.hours_fits (h.minutes_lt.trans (by decide)) (h.seconds_lt.trans (by decide)) h.nanos_lt
  simp only [ofString, hwords, hyear, htime, Text.parseInt_int hdays, convert, Except.mapError]
  rfl

end

end GoogleCloudRust.SqlCell.Interval
