import GoogleCloudRust.Verification.SqlCell.Reference

/-! # Both ways to decode a value agree

A cell is decoded directly into the value that its text is decoded into. The texts printed for dates
and times are texts of the formats that they are parsed with, and the zeros that are taken off the
text of a decimal do not change its number. -/

namespace GoogleCloudRust.SqlCell

open Text (Fits Number Fraction int paddedInt decimal signText Solid)

/-- Decoding a cell gives what decoding its text gives. -/
def Agree (crates : Crates) {α : Type} (fromValue : SqlValueInner → Except ConvertError α)
    (cell : ArrowCell) : Prop :=
  fromValue (.arrow cell) = (cell.toSqlString crates).bind fun s => fromValue (.string s)

/-- When a text is printed from what was decoded, it is enough to read back what was printed. -/
theorem agree_of_text {crates : Crates} {α : Type}
    {fromValue : SqlValueInner → Except ConvertError α} {cell : ArrowCell}
    (print : α → Except ConvertError (List Char))
    (hprint : cell.toSqlString crates = (fromValue (.arrow cell)).bind print)
    (hread : ∀ x, fromValue (.arrow cell) = .ok x →
      ∃ s, print x = .ok s ∧ fromValue (.string s) = .ok x) : Agree crates fromValue cell := by
  rw [Agree, hprint]
  cases hcell : fromValue (.arrow cell) with
  | error e => rfl
  | ok x =>
    obtain ⟨s, hs, hx⟩ := hread x hcell
    simp only [Except.bind, hs, hx]

/-! ## Printed dates and times -/

theorem number_two {n : ℕ} (h : n < 100) : Number 2 n (paddedInt 2 n) :=
  Text.number_paddedInt (by decide) h

/-- A year that is printed as the format reads it. -/
def Readable (year : ℤ) : Prop := year < -999 ∨ 0 ≤ year

instance (year : ℤ) : Decidable (Readable year) := inferInstanceAs (Decidable (_ ∨ _))

theorem yearText_paddedInt {year : ℤ} (hle : |year| ≤ 9999) (h : Readable year) :
    YearText year (paddedInt 4 year) := by
  rw [abs_le] at hle
  rcases h with hneg | hpos
  · obtain ⟨n, hn⟩ : ∃ n : ℕ, year = -(n : ℤ) := ⟨year.natAbs, by omega⟩
    subst hn
    have hlength : (decimal n).length = 4 := by
      have hle : (decimal n).length ≤ 4 := Text.length_decimal_le (by decide) (by omega)
      have hgt : ¬(decimal n).length ≤ 3 := by
        intro hshort
        have hlt := (Nat.length_toDigits_le_iff (by decide) (by decide)).mp hshort
        omega
      omega
    have hpad : Decimal.pad 3 (decimal n) = decimal n := by
      simp [Decimal.pad, List.leftpad, hlength]
    rw [paddedInt, if_pos (by omega), Int.natAbs_neg, Int.natAbs_natCast, hpad]
    exact .negative (by omega) ⟨Text.digits_decimal n, hlength, Decimal.value_toDigits n⟩
  · obtain ⟨n, rfl⟩ := Int.eq_ofNat_of_zero_le hpos
    exact .positive (Text.number_paddedInt (by decide) (by omega))

theorem dateText_text {year : ℤ} {month day : ℕ} (hle : |year| ≤ 9999) (h : Readable year)
    (hmonth : month ≤ 12) (hday : day ≤ 31) :
    DateText year month day
      (paddedInt 4 year ++ '-' :: paddedInt 2 month ++ '-' :: paddedInt 2 day) := by
  rw [List.append_assoc, List.cons_append]
  exact .mk (yearText_paddedInt hle h) (number_two (by omega)) (number_two (by omega))

theorem point_not_mem_number {width n : ℕ} {text : List Char} (h : Number width n text) :
    '.' ∉ text := by
  intro hmem
  exact absurd (h.isDigits _ hmem) (by decide)

/-- The point of a date and time is that of its clock. -/
theorem DateText.point_mem {year : ℤ} {month day : ℕ} {front text : List Char}
    (h : DateText year month day front) : '.' ∈ front ++ 'T' :: text ↔ '.' ∈ text := by
  cases h with
  | mk hy hm hd =>
    have hyear : ∀ {y : List Char}, YearText year y → '.' ∉ y := by
      intro y hy
      cases hy with
      | positive h => exact point_not_mem_number h
      | negative hn h => simp [point_not_mem_number h]
    simp [hyear hy, point_not_mem_number hm, point_not_mem_number hd]

/-- A clock is printed in the format that its text is read with. -/
theorem clockText_spec (hour minute second micros : ℕ) (hhour : hour < 24) (hminute : minute < 60)
    (hsecond : second < 60) (hmicros : micros < 1000000) :
    ∃ subsecond,
      ClockText hour minute second (micros * 1000) subsecond
        (clockText hour minute second (micros * 1000 : ℕ)) ∧
      ('.' ∈ clockText hour minute second (micros * 1000 : ℕ) ↔ subsecond = true) := by
  have hh := number_two (n := hour) (by omega)
  have hm := number_two (n := minute) (by omega)
  have hs := number_two (n := second) (by omega)
  by_cases hzero : micros = 0
  · refine ⟨false, ?_, ?_⟩
    · simp only [hzero, clockText, Nat.zero_mul, Int.natCast_zero, if_true, List.append_assoc,
        List.cons_append]
      exact .whole hh hm hs
    · simp [hzero, clockText, point_not_mem_number hh, point_not_mem_number hm,
        point_not_mem_number hs]
  · have hne : ¬((micros * 1000 : ℕ) : ℤ) = 0 := by omega
    have hdiv : ((micros * 1000 : ℕ) : ℤ).tdiv 1000 = micros := by
      rw [Int.tdiv_eq_ediv_of_nonneg (by omega)]
      omega
    have hnumber : Number 6 micros (paddedInt 6 micros) :=
      Text.number_paddedInt (by decide) hmicros
    refine ⟨true, ?_, ?_⟩
    · simp only [clockText, if_neg hne, hdiv, List.append_assoc, List.cons_append]
      refine .subsecond hh hm hs ?_ (hnumber.fraction (by decide))
      intro hnil
      have hlength := hnumber.length_eq
      rw [hnil] at hlength
      cases hlength
    · simp [clockText, hzero]

/-! ## Cells -/

section

variable {crates : Crates} {cell : ArrowCell}

theorem asTimestampMicros_fits {micros : ℤ} (h : cell.asTimestampMicros = .ok micros) :
    Fits 64 micros := by
  have hmul : ∀ {a b : ℤ}, ArrowCell.checkedMul a b = .ok micros → Fits 64 micros := by
    intro a b hmul
    rw [ArrowCell.checkedMul] at hmul
    split at hmul
    · cases hmul
      assumption
    · cases hmul
  rw [ArrowCell.asTimestampMicros] at h
  split at h
  · cases h
  · cases h
    exact Subtype.property _
  · exact hmul h
  · rename_i value _
    cases h
    have hvalue := value.2
    simp only [Fits] at hvalue ⊢
    omega
  · exact hmul h
  · cases h

theorem Timestamp.agree {unit : TimeUnit} {zone : String} {value : I64}
    (hcell : cell.value = some (.timestamp unit (some zone) value)) :
    Agree crates Timestamp.fromValue cell := by
  have htext : cell.toSqlString crates = cell.asTimestampMicros.bind fun micros => .ok (int micros) := by
    simp only [ArrowCell.toSqlString, hcell]
    rfl
  rw [Agree, htext]
  cases hmicros : cell.asTimestampMicros with
  | error e => simp [Timestamp.fromValue, hmicros, bind, Except.bind]
  | ok micros =>
    have hparse := Text.parseInt_int (asTimestampMicros_fits hmicros)
    simp [Timestamp.fromValue, hmicros, hparse, bind, Except.bind, convert, Except.mapError]

theorem Date.agree (h : crates.Documented) {days : I32} (hcell : cell.value = some (.date32 days))
    (hyear : ∀ d, Date.fromValue crates (.arrow cell) = .ok d → Readable d.year) :
    Agree crates (Date.fromValue crates) cell := by
  apply agree_of_text fun d => .ok d.text
  · simp only [ArrowCell.toSqlString, hcell]
    rfl
  · intro x hx
    refine ⟨_, rfl, ?_⟩
    have hread := hyear x hx
    simp only [Date.fromValue, ArrowCell.asDate32, hcell, bind, Except.bind, convert] at hx
    cases hdate : crates.time.fromUnixTimestamp (days * 86400) with
    | error e => simp [hdate, Except.mapError] at hx
    | ok result =>
      obtain ⟨date, time⟩ := result
      simp only [hdate, Except.mapError, pure, Except.pure, Except.ok.injEq] at hx
      subst hx
      have htext := dateText_text (h.time.year_le date) hread (h.time.month_le date)
        (h.time.day_le date)
      have hparse := h.time.parseDate_eq htext
      simp only [Date.fromValue, Date.text, Date.ofDate, hparse, convert, Except.mapError, bind,
        Except.bind, pure, Except.pure]

theorem TimeOfDay.agree (h : crates.Documented) {unit : TimeUnit} {value : I64}
    (hcell : cell.value = some (.time64 unit value))
    (hunit : unit = .microsecond ∨ unit = .nanosecond) :
    Agree crates (TimeOfDay.fromValue crates) cell := by
  apply agree_of_text fun t => .ok t.text
  · simp only [ArrowCell.toSqlString, hcell, if_pos hunit]
    rfl
  · intro x hx
    refine ⟨_, rfl, ?_⟩
    simp only [TimeOfDay.fromValue, bind, Except.bind] at hx
    cases hmicros : cell.asTime64Micros with
    | error e => simp [hmicros] at hx
    | ok micros =>
      simp only [hmicros] at hx
      split at hx
      · cases hx
      · rename_i hrange
        cases hx
        obtain ⟨n, rfl⟩ := Int.eq_ofNat_of_zero_le (a := micros) (by omega)
        obtain ⟨subsecond, htext, hpoint⟩ := clockText_spec (n / 1000000 / 60 / 60)
          (n / 1000000 / 60 % 60) (n / 1000000 % 60) (n % 1000000) (by omega) (by omega) (by omega)
          (by omega)
        obtain ⟨t, hparse, hshows⟩ := h.time.parseTime_eq htext (by omega) (by omega) (by omega)
        push_cast at hparse hpoint
        simp only [TimeOfDay.fromValue, TimeOfDay.text, TimeOfDay.parseTime, hpoint, hparse,
          convert, Except.mapError, bind, Except.bind, pure, Except.pure, TimeOfDay.ofTime,
          hshows.hour_eq, hshows.minute_eq, hshows.second_eq, hshows.nanosecond_eq]
        push_cast
        rfl

theorem DateTime.agree (h : crates.Documented) {unit : TimeUnit} {value : I64}
    (hcell : cell.value = some (.timestamp unit none value))
    (hyear : ∀ dt, DateTime.fromValue crates (.arrow cell) = .ok dt → Readable dt.year) :
    Agree crates (DateTime.fromValue crates) cell := by
  apply agree_of_text fun dt => .ok dt.text
  · simp only [ArrowCell.toSqlString, hcell]
    rfl
  · intro x hx
    refine ⟨_, rfl, ?_⟩
    have hread := hyear x hx
    simp only [DateTime.fromValue, bind, Except.bind, convert] at hx
    cases hmicros : cell.asTimestampMicros with
    | error e => simp [hmicros] at hx
    | ok micros =>
      simp only [hmicros] at hx
      cases hdate : crates.time.fromUnixTimestampNanos (micros * 1000) with
      | error e => simp [hdate, Except.mapError] at hx
      | ok result =>
        obtain ⟨date, time⟩ := result
        simp only [hdate, Except.mapError, pure, Except.pure, Except.ok.injEq] at hx
        subst hx
        -- Nanoseconds are whole microseconds, so that none are lost in the text.
        have hnanos := h.time.nanosecond_eq hdate
        obtain ⟨micros', hmicros', hlt⟩ : ∃ micros' : ℕ,
            crates.time.nanosecond time = micros' * 1000 ∧ micros' < 1000000 :=
          ⟨crates.time.nanosecond time / 1000, by omega, by omega⟩
        have hfront := dateText_text (h.time.year_le date) hread (h.time.month_le date)
          (h.time.day_le date)
        have hhour := h.time.hour_lt time
        have hminute := h.time.minute_lt time
        have hsecond := h.time.second_lt time
        obtain ⟨subsecond, hclock, hpoint⟩ := clockText_spec _ _ _ _ hhour hminute hsecond hlt
        rw [← hmicros'] at hclock hpoint
        obtain ⟨t, hparse, hshows⟩ :=
          h.time.parsePrimitiveDateTime_eq hfront hclock hhour hminute hsecond
        have hformat := hfront.point_mem.trans hpoint
        simp only [DateTime.fromValue, DateTime.text, DateTime.ofDateTime, hformat, hparse, convert,
          Except.mapError, bind, Except.bind, pure, Except.pure, hshows.hour_eq, hshows.minute_eq,
          hshows.second_eq, hshows.nanosecond_eq]

end

/-! ## Zeros at the end of a decimal -/

/-- Nothing before a character that stays is removed. -/
theorem rdropWhile_append_cons {p : Char → Bool} {c : Char} (hc : p c = false)
    (front rest : List Char) :
    (front ++ c :: rest).rdropWhile p = front ++ c :: rest.rdropWhile p := by
  induction rest using List.reverseRecOn with
  | nil =>
    rw [List.rdropWhile_concat_neg _ _ _ (by simp [hc])]
    simp
  | append_singleton rest d ih =>
    rw [← List.cons_append, ← List.append_assoc]
    by_cases hd : p d = true
    · rw [List.rdropWhile_concat_pos _ _ _ hd, List.rdropWhile_concat_pos _ _ _ hd, ih]
    · rw [List.rdropWhile_concat_neg _ _ _ hd, List.rdropWhile_concat_neg _ _ _ hd]
      simp

/-- A point is not removed behind digits. -/
theorem rdropWhile_digits {digits : List Char} (hne : digits ≠ []) (h : Decimal.Digits digits)
    (front : List Char) :
    (front ++ digits).rdropWhile (· == '.') = front ++ digits := by
  rw [List.rdropWhile_eq_self_iff]
  intro hne'
  rw [List.getLast_append_of_ne_nil hne' hne]
  have hlast := h _ (List.getLast_mem hne)
  intro hpoint
  rw [beq_iff_eq] at hpoint
  rw [hpoint] at hlast
  exact absurd hlast (by decide)

theorem trimDecimal_decimalText {negative : Prop} [Decidable negative] {whole frac : List Char}
    (hne : whole ≠ []) (hwhole : Decimal.Digits whole) (hfrac : Decimal.Digits frac) :
    ArrowCell.trimDecimal (decimalText negative whole frac) =
      decimalText negative whole (Decimal.trimEnd frac) := by
  by_cases hnil : frac = []
  · have hpoint : '.' ∉ decimalText negative whole frac := by
      have hnot : '.' ∉ whole := fun hmem => absurd (hwhole _ hmem) (by decide)
      by_cases hneg : negative <;> simp [decimalText, signText, hnil, hneg, hnot]
    rw [ArrowCell.trimDecimal, if_neg hpoint, hnil]
    rfl
  · have htext : decimalText negative whole frac = (signText negative ++ whole) ++ '.' :: frac := by
      simp [decimalText, hnil]
    have hpoint : '.' ∈ (signText negative ++ whole) ++ '.' :: frac := by simp
    rw [htext, ArrowCell.trimDecimal, if_pos hpoint, Decimal.trimEnd,
      rdropWhile_append_cons (by decide)]
    by_cases hzeros : Decimal.trimEnd frac = []
    · rw [Decimal.trimEnd] at hzeros
      rw [hzeros, List.rdropWhile_concat_pos _ _ _ (by decide), rdropWhile_digits hne hwhole]
      simp [decimalText, Decimal.trimEnd, hzeros]
    · have hdigits : Decimal.Digits (Decimal.trimEnd frac) := hfrac.trimEnd
      rw [Decimal.trimEnd] at hzeros hdigits
      rw [List.append_cons, rdropWhile_digits hzeros hdigits]
      simp [decimalText, Decimal.trimEnd, hzeros]

theorem value_append_trimEnd (whole frac : List Char) :
    Decimal.value (whole ++ frac) = 10 ^ (frac.length - (Decimal.trimEnd frac).length) *
      Decimal.value (whole ++ Decimal.trimEnd frac) := by
  have hle := Decimal.length_trimEnd_le frac
  have hlength : frac.length =
      frac.length - (Decimal.trimEnd frac).length + (Decimal.trimEnd frac).length := by omega
  rw [Decimal.value_append, Decimal.value_append, Decimal.value_trimEnd frac, mul_add, ← mul_assoc,
    ← pow_add, ← hlength]

theorem decimalNumber_trimEnd (negative : Prop) [Decidable negative] (whole frac : List Char) :
    decimalNumber negative whole (Decimal.trimEnd frac) = decimalNumber negative whole frac := by
  have hle := Decimal.length_trimEnd_le frac
  have hpow : (10 : ℚ) ^ frac.length = 10 ^ (frac.length - (Decimal.trimEnd frac).length) *
      10 ^ (Decimal.trimEnd frac).length := by
    rw [← pow_add]
    congr 1
    omega
  have hpos : (10 : ℚ) ^ (frac.length - (Decimal.trimEnd frac).length) ≠ 0 :=
    pow_ne_zero _ (by norm_num)
  rw [decimalNumber, decimalNumber, value_append_trimEnd whole frac, hpow]
  push_cast
  rw [mul_left_comm, mul_div_mul_left _ _ hpos]

theorem solid_decimalText (negative : Prop) [Decidable negative] {whole frac : List Char}
    (hwhole : Decimal.Digits whole) (hfrac : Decimal.Digits frac) :
    Solid (decimalText negative whole frac) := by
  refine Text.solid_signText.append ((Text.solid_of_digits hwhole).append ?_)
  by_cases hnil : frac = []
  · rw [if_pos hnil]
    exact .nil
  · rw [if_neg hnil]
    exact .cons (by decide) (Text.solid_of_digits hfrac)

/-! ## Cells -/

/-- The number that a printed decimal of a scale that is not negative stands for. -/
theorem Prints.number_eq {value scale : ℤ} {text whole frac : List Char}
    (h : Prints value scale text whole frac) (hscale : 0 ≤ scale) :
    decimalNumber (value < 0) whole frac = (value : ℚ) / 10 ^ scale.toNat := by
  have hzero : (-scale).toNat = 0 := by omega
  have hvalue : (if value < 0 then (-1 : ℚ) else 1) * (value.natAbs : ℚ) = value := by
    rw [Nat.cast_natAbs]
    by_cases hneg : value < 0
    · rw [if_pos hneg, abs_of_neg hneg]
      push_cast
      ring
    · rw [if_neg hneg, abs_of_nonneg (by omega)]
      ring
  rw [decimalNumber, h.value_eq, h.length_eq, hzero, pow_zero, mul_one, hvalue]

section

variable {crates : Crates} {cell : ArrowCell}

/-- A cell of one of the two widths of decimals. -/
def HoldsDecimal (cell : ArrowCell) : Prop :=
  (∃ scale value, cell.value = some (.decimal128 scale value)) ∨
    ∃ scale value, cell.value = some (.decimal256 scale value)

/-- The text of a decimal without zeros at the end. -/
theorem trimDecimal_valueAsString (h : crates.Documented) (value scale : ℤ) :
    ∃ text whole frac, Prints value scale text whole frac ∧
      ArrowCell.trimDecimal (crates.valueAsString value scale) =
        decimalText (value < 0) whole (Decimal.trimEnd frac) := by
  obtain ⟨whole, frac, hprints⟩ := h.valueAsString value scale
  refine ⟨_, whole, frac, hprints, ?_⟩
  rw [hprints.text_eq,
    trimDecimal_decimalText hprints.whole_ne hprints.whole_digits hprints.frac_digits]

/-- Both widths print the text of a decimal without zeros at the end. -/
theorem HoldsDecimal.asDecimalStr_eq (h : crates.Documented) (hcell : HoldsDecimal cell) :
    ∃ (value scale : ℤ) (text whole frac : List Char), Prints value scale text whole frac ∧
      cell.asDecimalStr crates = .ok (decimalText (value < 0) whole (Decimal.trimEnd frac)) ∧
      ∀ val n, cell.asDecimal128WithScale = some (val, n) → val = value ∧ (n : ℤ) = scale := by
  rcases hcell with ⟨scale, value, hcell⟩ | ⟨scale, value, hcell⟩
  · obtain ⟨text, whole, frac, hprints, htrim⟩ := trimDecimal_valueAsString h value scale
    refine ⟨value, scale, text, whole, frac, hprints, ?_, ?_⟩
    · simp only [ArrowCell.asDecimalStr, hcell, htrim]
    · intro val n hsome
      rw [ArrowCell.asDecimal128WithScale, hcell] at hsome
      simp only [Option.ite_none_right_eq_some, Option.some.injEq, Prod.mk.injEq] at hsome
      omega
  · obtain ⟨text, whole, frac, hprints, htrim⟩ := trimDecimal_valueAsString h value scale
    refine ⟨value, scale, text, whole, frac, hprints, ?_, ?_⟩
    · simp only [ArrowCell.asDecimalStr, hcell, htrim]
    · intro val n hsome
      simp [ArrowCell.asDecimal128WithScale, hcell] at hsome

theorem HoldsDecimal.toSqlString_eq (hcell : HoldsDecimal cell) :
    cell.toSqlString crates = cell.asDecimalStr crates := by
  rcases hcell with ⟨scale, value, hcell⟩ | ⟨scale, value, hcell⟩ <;>
    simp only [ArrowCell.toSqlString, hcell]

theorem HoldsDecimal.agree_text (hcell : HoldsDecimal cell) :
    Agree crates (DecimalText.fromValue crates) cell := by
  rw [Agree, hcell.toSqlString_eq]
  rfl

/-- Decoding a cell gives an equal number, or the same error. -/
def AgreeNumber (crates : Crates) (cell : ArrowCell) : Prop :=
  (rustDecimalFromValue crates (.arrow cell)).map crates.decimal.number =
    ((cell.toSqlString crates).bind fun s => rustDecimalFromValue crates (.string s)).map
      crates.decimal.number

/-- A text that a decimal of the cell fits in is parsed into the number of the cell. -/
theorem Prints.parse_eq (h : crates.Documented) {val : ℤ} {n : ℕ} {text whole frac : List Char}
    (hprints : Prints val n text whole frac) {d : crates.decimal.Decimal}
    (htry : crates.decimal.tryFromI128WithScale val n = .ok d) :
    ∃ d', crates.decimal.parse (decimalText (val < 0) whole (Decimal.trimEnd frac)) = .ok d' ∧
      crates.decimal.number d' = crates.decimal.number d := by
  obtain ⟨hlt, hle, hnumber⟩ := h.decimal.tryFrom_ok htry
  have hlength : (Decimal.trimEnd frac).length ≤ 28 := by
    have htrim := Decimal.length_trimEnd_le frac
    have hscale := hprints.length_eq
    omega
  have hbound : Decimal.value (whole ++ Decimal.trimEnd frac) < 2 ^ 96 := by
    have hall := value_append_trimEnd whole frac
    have hpos : 0 < 10 ^ (frac.length - (Decimal.trimEnd frac).length) := Nat.pow_pos (by decide)
    have hmul := Nat.le_mul_of_pos_left (Decimal.value (whole ++ Decimal.trimEnd frac)) hpos
    have hexact := hprints.value_eq
    have hzero : (-(n : ℤ)).toNat = 0 := by omega
    rw [hzero, pow_zero, mul_one] at hexact
    rw [abs_lt] at hlt
    omega
  obtain ⟨d', hparse, hnumber'⟩ := h.decimal.parse_eq (val < 0) hprints.whole_ne
    hprints.whole_digits hprints.frac_digits.trimEnd hbound hlength
  refine ⟨d', hparse, ?_⟩
  rw [hnumber, hnumber', decimalNumber_trimEnd, hprints.number_eq (by omega), Int.toNat_natCast]

theorem HoldsDecimal.agree_number (h : crates.Documented) (hcell : HoldsDecimal cell) :
    AgreeNumber crates cell := by
  obtain ⟨value, scale, text, whole, frac, hprints, hstr, hscale⟩ := hcell.asDecimalStr_eq h
  have hsolid := solid_decimalText (value < 0) hprints.whole_digits hprints.frac_digits.trimEnd
  rw [AgreeNumber, hcell.toSqlString_eq, hstr]
  simp only [Except.bind, rustDecimalFromValue, Text.trim_of_solid hsolid, hstr]
  generalize htext : decimalText (value < 0) whole (Decimal.trimEnd frac) = s
  -- A value that does not fit is parsed from the same text.
  have hparsed : (do
      let s ← (Except.ok s : Except ConvertError (List Char))
      return crates.decimal.normalize (← convert (crates.decimal.parse s))).map
        crates.decimal.number = (convert (crates.decimal.parse s)).map crates.decimal.number := by
    cases hparse : crates.decimal.parse s with
    | error e => simp [hparse, convert, Except.mapError, Except.map, bind, Except.bind]
    | ok d =>
      simp [hparse, convert, Except.mapError, Except.map, bind, Except.bind, pure, Except.pure,
        h.decimal.number_normalize d]
  cases hvalue : cell.asDecimal128WithScale with
  | none => exact hparsed
  | some pair =>
    obtain ⟨val, n⟩ := pair
    obtain ⟨rfl, rfl⟩ := hscale val n hvalue
    cases htry : crates.decimal.tryFromI128WithScale val n with
    | error e => simpa only [htry] using hparsed
    | ok d =>
      obtain ⟨d', hparse, hnumber⟩ := hprints.parse_eq h htry
      rw [htext] at hparse
      simp only [htry, hparse, Except.map, convert, Except.mapError, h.decimal.number_normalize,
        hnumber]

end

/-! ## Agreement -/

variable {crates : Crates} {cell : ArrowCell}

theorem Interval.fromValue_cell {v : IntervalMonthDayNano}
    (hcell : cell.value = some (.interval v)) :
    Interval.fromValue (.arrow cell) = .ok (Interval.ofCell v) := by
  simp only [Interval.fromValue, ArrowCell.asInterval, hcell, bind, Except.bind,
    Interval.ofMonthDayNano_eq]

theorem Interval.agree {v : IntervalMonthDayNano} (hcell : cell.value = some (.interval v)) :
    Agree crates Interval.fromValue cell := by
  have hcell' := Interval.fromValue_cell hcell
  apply agree_of_text Interval.text
  · simp only [ArrowCell.toSqlString, hcell]
    rfl
  · intro x hx
    rw [hcell'] at hx
    cases hx
    have hrepresents := Interval.ofCell_represents v
    exact ⟨_, hrepresents.text_eq, hrepresents.ofString_text⟩

/-- Dates and times of a year that can be read back, times, timestamps, decimals and intervals are
decoded directly as their texts are, and the components of an interval add up to the cell. -/
theorem cell_decoded_as_its_text (h : crates.Documented) (cell : ArrowCell) :
    (∀ days, cell.value = some (.date32 days) →
      (∀ d, Date.fromValue crates (.arrow cell) = .ok d → Readable d.year) →
      Agree crates (Date.fromValue crates) cell) ∧
    (∀ unit value, cell.value = some (.time64 unit value) →
      unit = .microsecond ∨ unit = .nanosecond →
      Agree crates (TimeOfDay.fromValue crates) cell) ∧
    (∀ unit value, cell.value = some (.timestamp unit none value) →
      (∀ dt, DateTime.fromValue crates (.arrow cell) = .ok dt → Readable dt.year) →
      Agree crates (DateTime.fromValue crates) cell) ∧
    (∀ unit zone value, cell.value = some (.timestamp unit (some zone) value) →
      Agree crates Timestamp.fromValue cell) ∧
    (HoldsDecimal cell →
      Agree crates (DecimalText.fromValue crates) cell ∧ AgreeNumber crates cell) ∧
    ∀ v, cell.value = some (.interval v) →
      Agree crates Interval.fromValue cell ∧
      ∃ x, Interval.fromValue (.arrow cell) = .ok x ∧ Interval.Represents v x := by
  refine ⟨?_, ?_, ?_, ?_, ?_, ?_⟩
  · intro days hcell hyear
    exact Date.agree h hcell hyear
  · intro unit value hcell hunit
    exact TimeOfDay.agree h hcell hunit
  · intro unit value hcell hyear
    exact DateTime.agree h hcell hyear
  · intro unit zone value hcell
    exact Timestamp.agree hcell
  · intro hcell
    exact ⟨hcell.agree_text, hcell.agree_number h⟩
  · intro v hcell
    exact ⟨Interval.agree hcell, _, Interval.fromValue_cell hcell, Interval.ofCell_represents v⟩

/-- A microsecond before the epoch. -/
def beforeEpoch : ArrowCell where
  dataTypeStr := "Timestamp(Microsecond, None)"
  value := some (.timestamp .microsecond none ⟨-1, by decide⟩)

theorem cell_decoded_as_its_text_before_epoch :
    Agree Reference.crates (DateTime.fromValue Reference.crates) beforeEpoch ∧
      beforeEpoch.toSqlString Reference.crates = .ok "1969-12-31T23:59:59.999999".toList := by
  have hcell : DateTime.fromValue Reference.crates (.arrow beforeEpoch) =
      .ok ⟨1969, 12, 31, 23, 59, 59, 999999000⟩ := by rfl
  refine ⟨(cell_decoded_as_its_text Reference.documented beforeEpoch).2.2.1 _ _ rfl ?_, by rfl⟩
  intro dt hdt
  rw [hcell] at hdt
  cases hdt
  decide

/-- The first day of the year before year zero. -/
def negativeYear : ArrowCell where
  dataTypeStr := "Timestamp(Second, None)"
  value := some (.timestamp .second none ⟨-62198755200, by decide⟩)

/-- The sign of a year counts for its four characters, so that a digit is missing. -/
theorem negative_year_not_read_back :
    Reference.crates.Documented ∧
      DateTime.fromValue Reference.crates (.arrow negativeYear) = .ok ⟨-1, 1, 1, 0, 0, 0, 0⟩ ∧
      negativeYear.toSqlString Reference.crates = .ok "-001-01-01T00:00:00".toList ∧
      DateTime.fromValue Reference.crates (.string "-001-01-01T00:00:00".toList) =
        .error (.convert "the text could not be parsed") ∧
      ¬Agree Reference.crates (DateTime.fromValue Reference.crates) negativeYear := by
  have hcell : DateTime.fromValue Reference.crates (.arrow negativeYear) =
      .ok ⟨-1, 1, 1, 0, 0, 0, 0⟩ := by rfl
  have htext : negativeYear.toSqlString Reference.crates = .ok "-001-01-01T00:00:00".toList := by rfl
  have hparse : DateTime.fromValue Reference.crates (.string "-001-01-01T00:00:00".toList) =
      .error (.convert "the text could not be parsed") := by rfl
  refine ⟨Reference.documented, hcell, htext, hparse, ?_⟩
  intro hagree
  rw [Agree, hcell, htext, Except.bind, hparse] at hagree
  cases hagree

end GoogleCloudRust.SqlCell
