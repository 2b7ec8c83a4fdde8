import GoogleCloudRust.Library.Fallible
import GoogleCloudRust.Verification.SqlCell.Intervals

/-! # The grammar of an interval

What `ofString` accepts, against the grammar `[-]Y-M [-]D [-]H:M:S[.F]`. -/

namespace GoogleCloudRust.SqlCell.Interval

open Text (Fits parseInt signText)

/-! ## The grammar -/

/-- A non-empty run of digits whose value fits in an `i32`. -/
structure Run (text : List Char) : Prop where
  ne_nil : text ≠ []
  digits : Decimal.Digits text
  fits : Decimal.value text < 2 ^ 31

/-- The signs of the groups and the texts between the separators. -/
structure Parts where
  ymNegative : Bool
  years : List Char
  months : List Char
  daysNegative : Bool
  days : List Char
  timeNegative : Bool
  hours : List Char
  minutes : List Char
  seconds : List Char
  frac : Option (List Char)

namespace Parts

def yearMonth (p : Parts) : List Char :=
  signText (p.ymNegative = true) ++ (p.years ++ '-' :: p.months)

def day (p : Parts) : List Char := signText (p.daysNegative = true) ++ p.days

def clock (p : Parts) : List Char := p.hours ++ ':' :: (p.minutes ++ ':' :: p.seconds)

def fraction (p : Parts) : List Char := p.frac.elim [] ('.' :: ·)

def time (p : Parts) : List Char :=
  signText (p.timeNegative = true) ++ (p.clock ++ p.fraction)

/-- The text has these parts, with whitespace between the groups. -/
def Of (p : Parts) (s : List Char) : Prop :=
  Text.splitWhitespace s = [p.yearMonth, p.day, p.time]

structure Grammatical (p : Parts) : Prop where
  years : Run p.years
  months : Run p.months
  days : Run p.days
  hours : Run p.hours
  minutes : Run p.minutes
  seconds : Run p.seconds
  frac : ∀ digits ∈ p.frac, digits ≠ [] ∧ Decimal.Digits digits

/-- A fraction of a second in nanoseconds, the digits after the ninth cut off. -/
def nanoseconds (p : Parts) : ℕ :=
  p.frac.elim 0 fun digits => Decimal.value (digits.take 9) * 10 ^ (9 - digits.length)

/-- The interval so written. -/
def interval (p : Parts) : Interval where
  years := signed (p.ymNegative = true) (Decimal.value p.years)
  months := signed (p.ymNegative = true) (Decimal.value p.months)
  days := signed (p.daysNegative = true) (Decimal.value p.days)
  hours := signed (p.timeNegative = true) (Decimal.value p.hours)
  minutes := signed (p.timeNegative = true) (Decimal.value p.minutes)
  seconds := signed (p.timeNegative = true) (Decimal.value p.seconds)
  nanos := signed (p.timeNegative = true) p.nanoseconds

end Parts

/-- No overflow, and exactly the texts of the grammar, as the intervals so written. -/
def Exact (s : List Char) : Prop :=
  ofString s ≠ .error .overflow ∧
    ∀ x, ofString s = .ok x ↔ ∃ p : Parts, p.Of s ∧ p.Grammatical ∧ x = p.interval

/-! ## How a text is cut -/

/-- The cuts that the code makes before it reads any number. -/
def cut (s : List Char) : Option Parts :=
  match Text.splitWhitespace s with
  | [ymStr, daysStr, timeStr] =>
      let (ymSign, ymContent) := stripSign ymStr
      let (daysSign, days) := stripSign daysStr
      let (timeSign, timeContent) := stripSign timeStr
      let hmsFrac := Text.splitOnce '.' timeContent
      match ymContent.splitOn '-', (hmsFrac.elim timeContent Prod.fst).splitOn ':' with
      | [years, months], [hours, minutes, seconds] =>
          some { ymNegative := ymSign = -1, years, months
                 daysNegative := daysSign = -1, days
                 timeNegative := timeSign = -1, hours, minutes, seconds
                 frac := hmsFrac.map Prod.snd }
      | _, _ => none
  | _ => none

theorem stripSign_spec (text : List Char) :
    text = signText ((stripSign text).1 = -1) ++ (stripSign text).2 ∧
      ((stripSign text).1 = -1 ∨ (stripSign text).1 = 1) := by
  unfold stripSign
  split
  · exact ⟨rfl, .inl rfl⟩
  · exact ⟨rfl, .inr rfl⟩

theorem intercalate_pair {c : Char} {text front back : List Char}
    (h : text.splitOn c = [front, back]) : text = front ++ c :: back := by
  have hjoin : [c].intercalate (text.splitOn c) = text := List.intercalate_splitOn c
  rw [h] at hjoin
  simpa using hjoin.symm

theorem intercalate_triple {c : Char} {text front middle back : List Char}
    (h : text.splitOn c = [front, middle, back]) :
    text = front ++ c :: (middle ++ c :: back) := by
  have hjoin : [c].intercalate (text.splitOn c) = text := List.intercalate_splitOn c
  rw [h] at hjoin
  simpa using hjoin.symm

theorem of_cut {s : List Char} {p : Parts} (h : cut s = some p) : p.Of s := by
  unfold cut at h
  split at h
  · next ymStr daysStr timeStr hwords =>
      simp only at h
      split at h
      · next years months hours minutes seconds hym htime =>
          obtain rfl := Option.some.inj h
          have hymText := (stripSign_spec ymStr).1
          have hdayText := (stripSign_spec daysStr).1
          have htimeText := (stripSign_spec timeStr).1
          rw [intercalate_pair hym] at hymText
          have hcontent : (stripSign timeStr).2 =
              (hours ++ ':' :: (minutes ++ ':' :: seconds)) ++
                ((Text.splitOnce '.' (stripSign timeStr).2).map Prod.snd).elim [] ('.' :: ·) := by
            rw [← intercalate_triple htime]
            cases honce : Text.splitOnce '.' (stripSign timeStr).2 with
            | none => simp
            | some halves => exact Text.splitOnce_eq_some honce
          rw [hcontent] at htimeText
          simp only [Parts.Of, Parts.yearMonth, Parts.day, Parts.time, Parts.clock,
            Parts.fraction, hwords, decide_eq_true_eq]
          rw [← hymText, ← hdayText, ← htimeText]
      · cases h
  · cases h

theorem Run.not_mem {text : List Char} (h : Run text) {c : Char} (hc : c.isDigit = false) :
    c ∉ text := by
  intro hmem
  have hdigit := h.digits c hmem
  rw [hc] at hdigit
  cases hdigit

/-- The parts of a text of the grammar are where the code cuts. -/
theorem cut_of_grammatical {s : List Char} {p : Parts} (hof : p.Of s) (h : p.Grammatical) :
    cut s = some p := by
  have hyear : stripSign p.yearMonth =
      (if p.ymNegative = true then -1 else 1, p.years ++ '-' :: p.months) :=
    stripSign_signText _ h.years.ne_nil h.years.digits _
  have hday : stripSign p.day = (if p.daysNegative = true then -1 else 1, p.days) := by
    have := stripSign_signText (p.daysNegative = true) h.days.ne_nil h.days.digits []
    simpa [Parts.day] using this
  have htime : stripSign p.time =
      (if p.timeNegative = true then -1 else 1, p.clock ++ p.fraction) := by
    have := stripSign_signText (p.timeNegative = true) h.hours.ne_nil h.hours.digits
      (':' :: (p.minutes ++ ':' :: p.seconds) ++ p.fraction)
    simpa [Parts.time, Parts.clock] using this
  have hpoint : '.' ∉ p.clock := by
    simp [Parts.clock, h.hours.not_mem, h.minutes.not_mem, h.seconds.not_mem]
  have hdash : (p.years ++ '-' :: p.months).splitOn '-' = [p.years, p.months] := by
    rw [List.splitOn_append_cons_self_of_not_mem (h.years.not_mem (by decide)),
      List.splitOn_eq_singleton (h.months.not_mem (by decide))]
  have hcolon : p.clock.splitOn ':' = [p.hours, p.minutes, p.seconds] := by
    rw [Parts.clock, List.splitOn_append_cons_self_of_not_mem (h.hours.not_mem (by decide)),
      List.splitOn_append_cons_self_of_not_mem (h.minutes.not_mem (by decide)),
      List.splitOn_eq_singleton (h.seconds.not_mem (by decide))]
  have honce : Text.splitOnce '.' (p.clock ++ p.fraction) = p.frac.map (p.clock, ·) := by
    cases hfrac : p.frac with
    | none => simp [Parts.fraction, hfrac, Text.splitOnce_eq_none hpoint]
    | some digits => simp [Parts.fraction, hfrac, Text.splitOnce_append hpoint]
  have hsign : ∀ negative : Bool,
      decide ((if negative = true then (-1 : ℤ) else 1) = -1) = negative := by decide
  have hclock : (p.frac.map (p.clock, ·)).elim (p.clock ++ p.fraction) Prod.fst = p.clock := by
    cases hfrac : p.frac with
    | none => simp [Parts.fraction, hfrac]
    | some digits => rfl
  unfold cut
  rw [hof]
  simp only [hyear, hday, htime, honce, hdash, hclock, hcolon, hsign, Option.map_map]
  cases hfrac : p.frac with
  | none => simp [← hfrac]
  | some digits => simp [← hfrac]

/-! ## What is read -/

/-- The nine digits that are read, `0` standing for no fraction. -/
def Parts.nanos (p : Parts) : List Char := ((p.frac.getD ['0']).take 9).rightpad 9 '0'

/-- The numbers in the order in which they are read, with their signs. -/
def Parts.numbers (p : Parts) : List (ℤ × List Char) :=
  let ymSign := if p.ymNegative then -1 else 1
  let timeSign := if p.timeNegative then -1 else 1
  [(ymSign, p.years), (ymSign, p.months), (1, p.day), (timeSign, p.hours), (timeSign, p.minutes),
    (timeSign, p.seconds), (timeSign, p.nanos)]

def ofNumbers : List ℤ → Interval
  | [years, months, days, hours, minutes, seconds, nanos] =>
      { years, months, days, hours, minutes, seconds, nanos }
  | _ => ⟨0, 0, 0, 0, 0, 0, 0⟩

theorem parsePart_one (text : List Char) : parsePart 1 text = convert (parseInt 32 text) := by
  cases h : parseInt 32 text with
  | error e => simp [parsePart, h, convert, Except.mapError, bind, Except.bind]
  | ok n =>
      have hfits : Fits 32 (n * 1) := by
        rw [mul_one]
        exact (Text.parseInt_eq_ok h).1
      simp only [parsePart, h, convert, Except.mapError, bind, Except.bind, mul]
      rw [if_pos hfits, mul_one]

theorem stripSign_sign (text : List Char) :
    (if decide ((stripSign text).1 = -1) = true then -1 else 1) = (stripSign text).1 := by
  rcases (stripSign_spec text).2 with hsign | hsign
  · rw [hsign]
    rfl
  · rw [hsign]
    rfl

theorem halves_eq (content : List Char) :
    (Text.splitOnce '.' content).getD (content, ['0']) =
      ((Text.splitOnce '.' content).elim content Prod.fst,
        ((Text.splitOnce '.' content).map Prod.snd).getD ['0']) := by
  cases Text.splitOnce '.' content with
  | none => rfl
  | some halves => rfl

theorem ofString_of_cut {s : List Char} {p : Parts} (h : cut s = some p) :
    ofString s = (p.numbers.mapM fun number => parsePart number.1 number.2).map ofNumbers := by
  have hday := of_cut h
  unfold cut at h
  split at h
  · next ymStr daysStr timeStr hwords =>
      simp only at h
      split at h
      · next years months hours minutes seconds hym htime =>
          obtain rfl := Option.some.inj h
          rw [Parts.Of, hwords] at hday
          have hdayStr := (List.cons.inj (List.cons.inj hday).2).1
          simp only [ofString, hwords, parseYearMonth, hym, parseTime, halves_eq, htime,
            Parts.numbers, stripSign_sign, List.mapM_cons, List.mapM_nil, parsePart_one,
            Parts.nanos]
          rw [← hdayStr]
          -- One number after the other: the first error is the error of both sides.
          cases parsePart (stripSign ymStr).1 years with
          | error e => rfl
          | ok y =>
          cases parsePart (stripSign ymStr).1 months with
          | error e => rfl
          | ok mo =>
          cases convert (parseInt 32 daysStr) with
          | error e => rfl
          | ok d =>
          cases parsePart (stripSign timeStr).1 hours with
          | error e => rfl
          | ok h =>
          cases parsePart (stripSign timeStr).1 minutes with
          | error e => rfl
          | ok mi =>
          cases parsePart (stripSign timeStr).1 seconds with
          | error e => rfl
          | ok se =>
          cases parsePart (stripSign timeStr).1 ((List.take 9 _).rightpad 9 '0') with
          | error e => rfl
          | ok n => rfl
      · cases h
  · cases h

theorem mul_eq_overflow {n sign : ℤ} (hn : Fits 32 n) (hsign : sign = -1 ∨ sign = 1) :
    mul n sign = .error .overflow ↔ sign = -1 ∧ n = -2 ^ 31 := by
  unfold mul
  split_ifs with hfits
  · refine iff_of_false (by simp) ?_
    rintro ⟨rfl, rfl⟩
    exact absurd hfits (by decide)
  · refine iff_of_true rfl ?_
    obtain ⟨hlow, hhigh⟩ := hn
    rcases hsign with rfl | rfl
    · refine ⟨rfl, ?_⟩
      by_contra hne
      refine hfits ⟨?_, ?_⟩ <;> omega
    · refine absurd ?_ hfits
      refine ⟨?_, ?_⟩ <;> omega

/-- A number overflows when it is the smallest one, with a `-` of its own and that of the group. -/
theorem parsePart_eq_overflow {sign : ℤ} {text : List Char} (hsign : sign = -1 ∨ sign = 1) :
    parsePart sign text = .error .overflow ↔ sign = -1 ∧ parseInt 32 text = .ok (-2 ^ 31) := by
  cases h : parseInt 32 text with
  | error e => simp [parsePart, h, convert, Except.mapError, bind, Except.bind]
  | ok n =>
      have hfits := (Text.parseInt_eq_ok h).1
      simpa [parsePart, h, convert, Except.mapError, bind, Except.bind] using
        mul_eq_overflow hfits hsign

theorem parsePart_eq_ok {sign n : ℤ} {text : List Char} (h : parsePart sign text = .ok n) :
    ∃ m, parseInt 32 text = .ok m ∧ n = m * sign := by
  cases hparse : parseInt 32 text with
  | error e => simp [parsePart, hparse, convert, Except.mapError, bind, Except.bind] at h
  | ok m =>
      refine ⟨m, rfl, ?_⟩
      simp only [parsePart, hparse, convert, Except.mapError, bind, Except.bind, mul] at h
      split_ifs at h
      exact (Except.ok.inj h).symm

theorem parsePart_ne_overflow {sign : ℤ} {text : List Char} (hsign : sign = -1 ∨ sign = 1)
    (h : '-' ∉ text) : parsePart sign text ≠ .error .overflow := by
  intro hoverflow
  obtain ⟨-, hparse⟩ := (parsePart_eq_overflow hsign).mp hoverflow
  obtain ⟨-, digits, -, -, ⟨-, hn⟩ | ⟨-, hn⟩ | ⟨htext, -⟩⟩ := Text.parseInt_eq_ok hparse
  · omega
  · omega
  · exact h (by simp [htext])

theorem bind_ne_overflow {α β : Type} {m : Except ConvertError α}
    {f : α → Except ConvertError β} (hm : m ≠ .error .overflow)
    (hf : ∀ a, m = .ok a → f a ≠ .error .overflow) : m >>= f ≠ .error .overflow := by
  cases m with
  | error e =>
      intro h
      exact hm (congrArg Except.error (Except.error.inj h))
  | ok a => exact hf a rfl

theorem parseYearMonth_ne_overflow (ymStr : List Char) :
    parseYearMonth ymStr ≠ .error .overflow := by
  have hsign := (stripSign_spec ymStr).2
  unfold parseYearMonth
  simp only
  split
  · next years months hsplit =>
      have hdash : ∀ piece ∈ (stripSign ymStr).2.splitOn '-', '-' ∉ piece :=
        fun piece => Text.not_mem_of_mem_splitOn
      rw [hsplit] at hdash
      refine bind_ne_overflow (parsePart_ne_overflow hsign (hdash years (by simp))) fun y _ => ?_
      refine bind_ne_overflow (parsePart_ne_overflow hsign (hdash months (by simp))) fun m _ => ?_
      simp [pure, Except.pure]
  · simp

theorem bind_error {α β : Type} {m : Except ConvertError α} {f : α → Except ConvertError β}
    (hf : ∀ a, m = .ok a → ∀ b, f a ≠ .ok b) (b : β) : m >>= f ≠ .ok b := by
  cases m with
  | error e =>
      intro h
      cases h
  | ok a => exact hf a rfl b

/-- Without a cut there is an error before any overflow. -/
theorem rejects_of_cut {s : List Char} (h : cut s = none) :
    ofString s ≠ .error .overflow ∧ ∀ x, ofString s ≠ .ok x := by
  unfold cut at h
  split at h
  · next ymStr daysStr timeStr hwords =>
      simp only at h
      have hgroups : ∀ years months, parseYearMonth ymStr = .ok (years, months) →
          ∃ e, parseTime timeStr = .error (.convert e) := by
        intro years months hym
        unfold parseYearMonth at hym
        simp only at hym
        split at hym
        · next y m hdash =>
            unfold parseTime
            simp only [halves_eq]
            split
            · next hours minutes seconds hcolon =>
                rw [hdash, hcolon] at h
                cases h
            · exact ⟨_, rfl⟩
        · cases hym
      unfold ofString
      rw [hwords]
      constructor
      · refine bind_ne_overflow (parseYearMonth_ne_overflow ymStr) fun ym hym => ?_
        obtain ⟨e, htime⟩ := hgroups ym.1 ym.2 hym
        refine bind_ne_overflow ?_ fun days _ => ?_
        · cases parseInt 32 daysStr with
          | error e => simp [convert, Except.mapError]
          | ok n => simp [convert, Except.mapError]
        · rw [htime]
          simp [bind, Except.bind]
      · refine bind_error fun ym hym => ?_
        obtain ⟨e, htime⟩ := hgroups ym.1 ym.2 hym
        refine bind_error fun days _ => ?_
        rw [htime]
        simp [bind, Except.bind]
  · next hnot =>
      unfold ofString
      split
      · next ymStr daysStr timeStr hwords => exact absurd hwords (hnot _ _ _)
      · simp

/-! ## The texts of the grammar -/

theorem Run.parsePart {text : List Char} (h : Run text) (negative : Bool) :
    Interval.parsePart (if negative = true then -1 else 1) text =
      .ok (signed (negative = true) (Decimal.value text)) := by
  have hlt := h.fits
  refine parsePart_digits ?_ h.ne_nil h.digits ?_ ?_
  · cases negative <;> simp [Agrees, signed]
  · cases negative <;> simp [signed]
  · rw [abs_lt, signed]
    split_ifs <;> omega

theorem run_rightpad {digits : List Char} (h : Decimal.Digits digits) :
    Run ((digits.take 9).rightpad 9 '0') := by
  have hlength : ((digits.take 9).rightpad 9 '0').length = 9 := by
    simp [List.rightpad]
  have hdigits := (h.take 9).rightpad 9
  have hlt := Decimal.value_lt hdigits
  rw [hlength] at hlt
  refine ⟨?_, hdigits, hlt.trans (by decide)⟩
  intro hnil
  rw [hnil] at hlength
  cases hlength

theorem Parts.Grammatical.run_nanos {p : Parts} (h : p.Grammatical) :
    Run p.nanos ∧ Decimal.value p.nanos = p.nanoseconds := by
  unfold Parts.nanos Parts.nanoseconds
  cases hfrac : p.frac with
  | none => exact ⟨run_rightpad (by decide), by decide⟩
  | some digits =>
      refine ⟨run_rightpad (h.frac digits hfrac).2, ?_⟩
      rw [Option.getD_some, List.rightpad, Decimal.value_append, Decimal.value_replicate_zero,
        List.length_replicate, List.length_take, Nat.add_zero, Nat.mul_comm, Option.elim_some]
      congr 2
      omega

theorem Parts.Grammatical.parsePart_day {p : Parts} (h : p.Grammatical) :
    Interval.parsePart 1 p.day = .ok (signed (p.daysNegative = true) (Decimal.value p.days)) := by
  have hlt : (Decimal.value p.days : ℤ) < 2 ^ (32 - 1) := by
    have hfits := h.days.fits
    omega
  rw [parsePart_one]
  unfold Parts.day
  cases p.daysNegative with
  | false =>
      have hparse := Text.parseInt_digits h.days.ne_nil h.days.digits hlt
      simp [signText, hparse, convert, Except.mapError, signed]
  | true =>
      have hlow : -(2 : ℤ) ^ (32 - 1) ≤ -(Decimal.value p.days : ℤ) := by omega
      have hparse := Text.parseInt_minus h.days.ne_nil h.days.digits hlow
      simp [signText, hparse, convert, Except.mapError, signed]

theorem Parts.Grammatical.ofString {s : List Char} {p : Parts} (hof : p.Of s)
    (h : p.Grammatical) : Interval.ofString s = .ok p.interval := by
  rw [ofString_of_cut (cut_of_grammatical hof h)]
  simp only [Parts.numbers, List.mapM_cons, List.mapM_nil, h.years.parsePart, h.months.parsePart,
    h.parsePart_day, h.hours.parsePart, h.minutes.parsePart, h.seconds.parsePart,
    h.run_nanos.1.parsePart, h.run_nanos.2]
  rfl

/-! ## Texts that are read all the same -/

def IsNumber (text : List Char) : Prop := ∃ n, parseInt 32 text = .ok n

/-- A sign that the parser of integers takes. -/
def OwnSign (text : List Char) : Prop := ∃ rest, text = '+' :: rest ∨ text = '-' :: rest

namespace Parts

/-- After readable numbers, the smallest one in a group with a `-`. -/
def Overflows (p : Parts) : Prop :=
  ∃ before text after, p.numbers = before ++ (-1, text) :: after ∧
    (∀ number ∈ before, IsNumber number.2) ∧ parseInt 32 text = .ok (-2 ^ 31)

def Readable (p : Parts) : Prop := ∀ number ∈ p.numbers, IsNumber number.2

/-- What the grammar has no place for, in numbers that can be read. -/
def Irregular (p : Parts) : Prop :=
  (∃ text ∈ [p.years, p.months, p.days, p.hours, p.minutes, p.seconds], OwnSign text) ∨
    (p.daysNegative = true ∧ Decimal.value p.days = 2 ^ 31) ∨
    ∃ digits ∈ p.frac, OwnSign digits ∨ digits = [] ∨ ∃ c ∈ digits.drop 9, c.isDigit = false

end Parts

/-- A number that is read without a sign of its own. -/
theorem IsNumber.run {text : List Char} (h : IsNumber text) (hsign : ¬OwnSign text) :
    Run text := by
  obtain ⟨n, hn⟩ := h
  obtain ⟨hfits, digits, hne, hdigits, ⟨rfl, rfl⟩ | ⟨rfl, -⟩ | ⟨rfl, -⟩⟩ := Text.parseInt_eq_ok hn
  · exact ⟨hne, hdigits, by have hhigh := hfits.2; omega⟩
  · exact absurd ⟨digits, .inl rfl⟩ hsign
  · exact absurd ⟨digits, .inr rfl⟩ hsign

theorem Run.not_ownSign {text : List Char} (h : Run text) : ¬OwnSign text := by
  rintro ⟨rest, rfl | rfl⟩
  · exact h.not_mem (by decide) (List.mem_cons_self)
  · exact h.not_mem (by decide) (List.mem_cons_self)

namespace Parts

variable {p : Parts}

theorem Grammatical.not_irregular (h : p.Grammatical) : ¬p.Irregular := by
  rintro (⟨text, htext, hsign⟩ | ⟨-, hdays⟩ | ⟨digits, hdigits, hbad⟩)
  · have hrun : Run text := by
      simp only [List.mem_cons, List.not_mem_nil, or_false] at htext
      rcases htext with rfl | rfl | rfl | rfl | rfl | rfl
      · exact h.years
      · exact h.months
      · exact h.days
      · exact h.hours
      · exact h.minutes
      · exact h.seconds
    exact hrun.not_ownSign hsign
  · have hfits := h.days.fits
    omega
  · obtain ⟨hne, hall⟩ := h.frac digits hdigits
    rcases hbad with ⟨rest, hrest⟩ | hnil | ⟨c, hc, hdigit⟩
    · rcases hrest with rfl | rfl
      · exact absurd (hall '+' (by simp)) (by decide)
      · exact absurd (hall '-' (by simp)) (by decide)
    · exact hne hnil
    · rw [hall c (List.mem_of_mem_drop hc)] at hdigit
      cases hdigit

theorem run_days (h : IsNumber p.day) (hsign : ¬OwnSign p.days)
    (hmin : ¬(p.daysNegative = true ∧ Decimal.value p.days = 2 ^ 31)) : Run p.days := by
  unfold day signText at h
  split at h
  · next hneg =>
      obtain ⟨n, hn⟩ := h
      obtain ⟨hfits, digits, hne, hdigits, ⟨htext, -⟩ | ⟨htext, -⟩ | ⟨htext, hvalue⟩⟩ :=
        Text.parseInt_eq_ok hn
      · exact absurd (hdigits '-' (by simp [← htext])) (by decide)
      · exact absurd (List.cons.inj htext).1 (by decide)
      · obtain rfl : p.days = digits := (List.cons.inj htext).2
        have hlow := hfits.1
        have hne_min : Decimal.value p.days ≠ 2 ^ 31 := fun hval => hmin ⟨hneg, hval⟩
        exact ⟨hne, hdigits, by omega⟩
  · exact h.run hsign

theorem frac_digits (h : IsNumber p.nanos) {digits : List Char} (hfrac : digits ∈ p.frac)
    (hsign : ¬OwnSign digits) (hne : digits ≠ [])
    (hrest : ∀ c ∈ digits.drop 9, c.isDigit = true) : Decimal.Digits digits := by
  cases digits with
  | nil => exact absurd rfl hne
  | cons c digits =>
      have hnanos : p.nanos = ((c :: digits).take 9).rightpad 9 '0' := by
        rw [Option.mem_def] at hfrac
        rw [nanos, hfrac, Option.getD_some]
      have hfirst : ¬OwnSign p.nanos := by
        rintro ⟨rest, hrest⟩
        rw [hnanos, List.take_succ_cons, List.rightpad, List.cons_append] at hrest
        refine hsign ⟨digits, ?_⟩
        rcases hrest with hplus | hminus
        · exact .inl (by rw [(List.cons.inj hplus).1])
        · exact .inr (by rw [(List.cons.inj hminus).1])
      have hdigits := (h.run hfirst).digits
      rw [hnanos, List.rightpad] at hdigits
      have hall := hdigits.of_append_left.append hrest
      rwa [List.take_append_drop] at hall

/-- Readable numbers are those of the grammar, or irregular. -/
theorem Readable.grammatical (h : p.Readable)
    (hirregular : ¬p.Irregular) : p.Grammatical := by
  have hsign : ∀ text ∈ [p.years, p.months, p.days, p.hours, p.minutes, p.seconds],
      ¬OwnSign text := fun text htext hown => hirregular (.inl ⟨text, htext, hown⟩)
  simp only [Readable, numbers, List.forall_mem_cons] at h
  obtain ⟨hyears, hmonths, hday, hhours, hminutes, hseconds, hnanos, -⟩ := h
  refine ⟨hyears.run (hsign _ (by simp)), hmonths.run (hsign _ (by simp)), ?_,
    hhours.run (hsign _ (by simp)), hminutes.run (hsign _ (by simp)),
    hseconds.run (hsign _ (by simp)), ?_⟩
  · exact run_days hday (hsign _ (by simp)) fun hmin => hirregular (.inr (.inl hmin))
  · intro digits hfrac
    have hregular : ∀ {P : Prop}, (P → OwnSign digits ∨ digits = [] ∨
        ∃ c ∈ digits.drop 9, c.isDigit = false) → ¬P :=
      fun hP h => hirregular (.inr (.inr ⟨digits, hfrac, hP h⟩))
    have hne : digits ≠ [] := hregular fun h => .inr (.inl h)
    refine ⟨hne, frac_digits hnanos hfrac (hregular .inl) hne ?_⟩
    intro c hc
    rw [← Bool.not_eq_false]
    exact hregular fun h => .inr (.inr ⟨c, hc, h⟩)

end Parts

/-! ## Acceptance -/

theorem parsePart_of_isNumber {sign : ℤ} {text : List Char} (h : IsNumber text) :
    (∃ n, parsePart sign text = .ok n) ∨ parsePart sign text = .error .overflow := by
  obtain ⟨n, hn⟩ := h
  simp only [parsePart, hn, convert, Except.mapError, bind, Except.bind, mul]
  split_ifs
  · exact .inl ⟨_, rfl⟩
  · exact .inr rfl

theorem Parts.sign_of_mem {p : Parts} {number : ℤ × List Char} (h : number ∈ p.numbers) :
    number.1 = -1 ∨ number.1 = 1 := by
  have hsign : ∀ negative : Bool, (if negative = true then (-1 : ℤ) else 1) = -1 ∨
      (if negative = true then (-1 : ℤ) else 1) = 1 := by decide
  simp only [numbers, List.mem_cons, List.not_mem_nil, or_false] at h
  rcases h with rfl | rfl | rfl | rfl | rfl | rfl | rfl
  all_goals first | exact hsign _ | exact .inr rfl

theorem Parts.readable_of_ok {s : List Char} {p : Parts} {x : Interval} (hcut : cut s = some p)
    (h : Interval.ofString s = .ok x) : p.Readable := by
  rw [ofString_of_cut hcut] at h
  have hok : ∃ ys, p.numbers.mapM (fun number => parsePart number.1 number.2) = .ok ys := by
    cases hm : p.numbers.mapM fun number => parsePart number.1 number.2 with
    | error e =>
        rw [hm] at h
        cases h
    | ok ys => exact ⟨ys, rfl⟩
  intro number hnumber
  obtain ⟨n, hn⟩ := Fallible.exists_mapM_eq_ok.mp hok number hnumber
  obtain ⟨m, hm, -⟩ := parsePart_eq_ok hn
  exact ⟨m, hm⟩

theorem Parts.overflows_iff {s : List Char} {p : Parts} (hcut : cut s = some p) :
    Interval.ofString s = .error .overflow ↔ p.Overflows := by
  rw [ofString_of_cut hcut]
  have hmap : (p.numbers.mapM fun number => parsePart number.1 number.2).map ofNumbers =
      .error .overflow ↔
        p.numbers.mapM (fun number => parsePart number.1 number.2) = .error .overflow := by
    cases p.numbers.mapM fun number => parsePart number.1 number.2 with
    | error e => simp [Except.map]
    | ok ys => simp [Except.map]
  rw [hmap]
  constructor
  · intro h
    obtain ⟨before, ⟨sign, text⟩, after, hsplit, hbefore, hoverflow⟩ :=
      Fallible.mapM_eq_error.mp h
    have hsign := p.sign_of_mem (hsplit ▸ List.mem_append_right before List.mem_cons_self)
    obtain ⟨rfl, hmin⟩ := (parsePart_eq_overflow hsign).mp hoverflow
    refine ⟨before, text, after, hsplit, ?_, hmin⟩
    intro number hnumber
    obtain ⟨n, hn⟩ := hbefore number hnumber
    obtain ⟨m, hm, -⟩ := parsePart_eq_ok hn
    exact ⟨m, hm⟩
  · rintro ⟨before, text, after, hsplit, hbefore, hmin⟩
    rw [hsplit]
    exact Fallible.mapM_of_error (fun number hnumber => parsePart_of_isNumber (hbefore number hnumber))
      ((parsePart_eq_overflow (.inl rfl)).mpr ⟨rfl, hmin⟩)

theorem Parts.Readable.ofString_eq_ok {s : List Char} {p : Parts} (hreadable : p.Readable)
    (hcut : cut s = some p) (hoverflow : Interval.ofString s ≠ .error .overflow) :
    ∃ x, Interval.ofString s = .ok x := by
  rw [ofString_of_cut hcut] at hoverflow ⊢
  cases hm : p.numbers.mapM fun number => parsePart number.1 number.2 with
  | ok ys => exact ⟨ofNumbers ys, rfl⟩
  | error e =>
      obtain ⟨before, number, after, hsplit, -, herror⟩ := Fallible.mapM_eq_error.mp hm
      rw [hm] at hoverflow
      rcases parsePart_of_isNumber (hreadable number (by simp [hsplit])) with ⟨n, hn⟩ | ho
      · rw [herror] at hn
        cases hn
      · rw [herror] at ho
        rw [Except.error.inj ho] at hoverflow
        exact absurd rfl hoverflow

/-- The decoder is exact unless an overflow or an irregular text that can be read comes first. -/
theorem exact_iff_regular (s : List Char) :
    Exact s ↔ ∀ p, cut s = some p → ¬p.Overflows ∧ ¬(p.Readable ∧ p.Irregular) := by
  cases hcut : cut s with
  | none =>
      refine iff_of_true ?_ fun p hp => by cases hp
      obtain ⟨hoverflow, hok⟩ := rejects_of_cut hcut
      refine ⟨hoverflow, fun x => iff_of_false (hok x) ?_⟩
      rintro ⟨p, hof, hgrammatical, -⟩
      rw [cut_of_grammatical hof hgrammatical] at hcut
      cases hcut
  | some p =>
      constructor
      · rintro ⟨hoverflow, hexact⟩ q hq
        obtain rfl := Option.some.inj hq
        refine ⟨fun h => hoverflow ((Parts.overflows_iff hcut).mpr h), ?_⟩
        rintro ⟨hreadable, hirregular⟩
        obtain ⟨x, hx⟩ := hreadable.ofString_eq_ok hcut hoverflow
        obtain ⟨q, hof, hgrammatical, -⟩ := (hexact x).mp hx
        obtain rfl := Option.some.inj (hcut.symm.trans (cut_of_grammatical hof hgrammatical))
        exact hgrammatical.not_irregular hirregular
      · intro h
        obtain ⟨hoverflow, hirregular⟩ := h p rfl
        refine ⟨fun h => hoverflow ((Parts.overflows_iff hcut).mp h), fun x => ⟨?_, ?_⟩⟩
        · intro hx
          have hreadable := Parts.readable_of_ok hcut hx
          have hgrammatical := hreadable.grammatical fun h => hirregular ⟨hreadable, h⟩
          refine ⟨p, of_cut hcut, hgrammatical, ?_⟩
          rw [hgrammatical.ofString (of_cut hcut)] at hx
          exact (Except.ok.inj hx).symm
        · rintro ⟨q, hof, hgrammatical, rfl⟩
          exact hgrammatical.ofString hof

/-- A second `-` overflows in front of the smallest hours, and is the sign of a fraction. -/
theorem own_signs_accepted :
    ofString "0-0 0 --2147483648:0:0".toList = .error .overflow ∧
      ofString "0-0 0 0:0:1.-5".toList = .ok ⟨0, 0, 0, 0, 0, 1, -50000000⟩ ∧
      ¬Exact "0-0 0 --2147483648:0:0".toList := by
  have hoverflow : ofString "0-0 0 --2147483648:0:0".toList = .error .overflow := by decide
  exact ⟨hoverflow, by decide, fun h => h.1 hoverflow⟩

end GoogleCloudRust.SqlCell.Interval
