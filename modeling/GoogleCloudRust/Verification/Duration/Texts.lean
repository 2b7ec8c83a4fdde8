import Mathlib.Data.Rat.Floor
import GoogleCloudRust.Model.Duration

/-! # The texts of durations

A text is a sign, a number and a fraction. Texts that are too long are truncated, and the text
that is printed for a duration is read back as the same duration. -/

namespace GoogleCloudRust.Wkt

open Decimal

/-! ## The grammar -/

inductive Sign
  | none
  | plus
  | minus
deriving DecidableEq, Repr

namespace Sign

def chars : Sign → List Char
  | .none => []
  | .plus => ['+']
  | .minus => ['-']

def factor : Sign → ℤ
  | .none | .plus => 1
  | .minus => -1

end Sign

/-- The texts `[+-]?[0-9]+(\.[0-9]+)?s`. -/
structure Literal where
  sign : Sign
  whole : List Char
  fraction : Option (List Char)
  whole_ne : whole ≠ []
  whole_digits : Digits whole
  fraction_ne : ∀ f ∈ fraction, f ≠ []
  fraction_digits : ∀ f ∈ fraction, Digits f

/-- A fraction with its dot. -/
def dotted : Option (List Char) → List Char
  | none => []
  | some f => '.' :: f

namespace Literal

def text (literal : Literal) : List Char :=
  literal.sign.chars ++ (literal.whole ++ dotted literal.fraction) ++ ['s']

def fractionDigits (literal : Literal) : ℕ := (literal.fraction.getD []).length

/-- The number that a text denotes. -/
def value (literal : Literal) : ℚ :=
  literal.sign.factor * (Decimal.value literal.whole +
    Decimal.value (literal.fraction.getD []) / 10 ^ literal.fractionDigits)

end Literal

/-- Rounding towards zero. -/
def truncate (q : ℚ) : ℤ := if q < 0 then ⌈q⌉ else ⌊q⌋

/-- The nine digits of a fraction that are kept. -/
def fractionNanos (digits : List Char) : ℕ :=
  if digits.length > 9 then Decimal.value (digits.take 9)
  else Decimal.value digits * 10 ^ (9 - digits.length)

theorem fractionNanos_lt {digits : List Char} (h : Digits digits) :
    fractionNanos digits < 10 ^ 9 := by
  rw [fractionNanos]
  split
  case isTrue hlength =>
    have hlt := value_lt (h.take 9)
    rwa [List.length_take, min_eq_left (le_of_lt hlength)] at hlt
  case isFalse hlength =>
    have hpow : 10 ^ 9 = 10 ^ digits.length * 10 ^ (9 - digits.length) := by
      rw [← pow_add]
      congr 1
      omega
    rw [hpow]
    exact Nat.mul_lt_mul_of_pos_right (value_lt h) (Nat.pow_pos (by decide))

theorem floor_fraction {digits : List Char} (h : Digits digits) :
    ⌊(Decimal.value digits / 10 ^ digits.length * 10 ^ 9 : ℚ)⌋ = fractionNanos digits := by
  rw [fractionNanos]
  split
  case isTrue hlength =>
    rw [value_take h 9]
    have heq : (Decimal.value digits / 10 ^ digits.length * 10 ^ 9 : ℚ) =
        Decimal.value digits / ((10 ^ (digits.length - 9) : ℕ) : ℚ) := by
      have hpow : (10 : ℚ) ^ digits.length = 10 ^ (digits.length - 9) * 10 ^ 9 := by
        rw [← pow_add]
        congr 1
        omega
      rw [hpow]
      push_cast
      field_simp
    rw [heq, Rat.floor_natCast_div_natCast]
    exact (Int.natCast_div _ _).symm
  case isFalse hlength =>
    have heq : (Decimal.value digits / 10 ^ digits.length * 10 ^ 9 : ℚ) =
        ((Decimal.value digits * 10 ^ (9 - digits.length) : ℕ) : ℤ) := by
      have hpow : (10 : ℚ) ^ 9 = 10 ^ digits.length * 10 ^ (9 - digits.length) := by
        rw [← pow_add]
        congr 1
        omega
      rw [hpow]
      push_cast
      field_simp
    rw [heq, Int.floor_intCast]

theorem truncate_factor (sign : Sign) {q : ℚ} (h : 0 ≤ q) :
    truncate (sign.factor * q) = sign.factor * ⌊q⌋ := by
  cases sign with
  | none | plus => simp [truncate, Sign.factor, not_lt.mpr h]
  | minus =>
      simp only [truncate, Sign.factor]
      push_cast
      rw [neg_one_mul, neg_one_mul]
      split
      · exact Int.ceil_neg
      case isFalse hneg =>
        have hzero : q = 0 := le_antisymm (by linarith) h
        simp [hzero]

theorem digits_fraction (literal : Literal) : Digits (literal.fraction.getD []) := by
  cases hfraction : literal.fraction with
  | none =>
      intro c hc
      cases hc
  | some f => exact literal.fraction_digits f hfraction

/-- Nanoseconds, truncated, of the number that a text denotes. -/
theorem truncate_value (literal : Literal) :
    truncate (literal.value * 10 ^ 9) = literal.sign.factor *
      (Decimal.value literal.whole * 10 ^ 9 + fractionNanos (literal.fraction.getD [])) := by
  have hdigits := digits_fraction literal
  rw [Literal.value, mul_assoc, truncate_factor _ (by positivity), add_mul,
    ← floor_fraction hdigits]
  congr 1
  rw [show (Decimal.value literal.whole : ℚ) * 10 ^ 9 =
    ((Decimal.value literal.whole * 10 ^ 9 : ℕ) : ℚ) by push_cast; rfl, Int.floor_natCast_add]
  push_cast
  rfl

/-! ## Parsing -/

namespace Duration

theorem stripSign_chars (sign : Sign) {text : List Char} (hne : text ≠ [])
    (hhead : ∀ c ∈ text.head?, c.isDigit = true) :
    stripSign (sign.chars ++ text) = (sign.factor, text) := by
  cases sign with
  | plus | minus => rfl
  | none =>
      cases text with
      | nil => exact absurd rfl hne
      | cons c rest =>
          have hc : c.isDigit = true := hhead c rfl
          rw [Sign.chars, List.nil_append, stripSign.eq_def]
          split
          case h_1 heq =>
            cases heq
            exact absurd hc (by decide)
          case h_2 heq =>
            cases heq
            exact absurd hc (by decide)
          case h_3 => rfl

theorem stripSign_eq (text : List Char) :
    ∃ sign : Sign, text = sign.chars ++ (stripSign text).2 ∧ (stripSign text).1 = sign.factor := by
  rw [stripSign.eq_def]
  split
  · exact ⟨.minus, rfl, rfl⟩
  · exact ⟨.plus, rfl, rfl⟩
  · exact ⟨.none, rfl, rfl⟩

theorem splitDot_dotted {whole : List Char} (h : Digits whole) (fraction : Option (List Char)) :
    splitDot (whole ++ dotted fraction) = (whole, fraction) := by
  have hdot : ∀ c ∈ whole, (c != '.') = true := by
    intro c hc
    have hdigit := h c hc
    rw [bne_iff_ne]
    rintro rfl
    exact absurd hdigit (by decide)
  rw [splitDot, List.takeWhile_append_of_pos hdot, List.dropWhile_append_of_pos hdot]
  cases fraction with
  | none => simp [dotted]
  | some f => simp [dotted]

theorem splitDot_eq (text : List Char) :
    text = (splitDot text).1 ++ dotted (splitDot text).2 := by
  have hsplit := List.takeWhile_append_dropWhile (p := (· != '.')) (l := text)
  rw [splitDot]
  cases hrest : text.dropWhile (· != '.') with
  | nil =>
      rw [hrest] at hsplit
      simpa [dotted] using hsplit.symm
  | cons c rest =>
      have hc : c = '.' := by
        have hnot := List.head?_dropWhile_not (· != '.') text
        rw [hrest] at hnot
        simpa using hnot
      rw [hrest, hc] at hsplit
      simpa [dotted] using hsplit.symm

theorem parseSeconds_eq {text : List Char} (hne : text ≠ []) (h : Digits text) :
    parseSeconds text = parse (2 ^ 63 - 1) text := by
  rw [parseSeconds, if_neg (by simp only [not_or, not_not]; exact ⟨hne, h⟩)]

theorem parseNanos_eq {text : List Char} (hne : text ≠ []) (h : Digits text) :
    parseNanos text = .ok (fractionNanos text) := by
  rw [parseNanos, if_neg (by simp only [not_or, not_not]; exact ⟨hne, h⟩), fractionNanos]
  by_cases hlength : text.length > 9
  · have hlt := value_lt (h.take 9)
    rw [List.length_take, min_eq_left (le_of_lt hlength)] at hlt
    simp only [hlength, if_true, parse]
    rw [if_pos (by omega)]
    simp [Except.map]
  · have hlt := value_lt h
    have hpow : 10 ^ text.length ≤ 10 ^ 9 := Nat.pow_le_pow_right (by decide) (by omega)
    simp only [hlength, if_false, parse]
    rw [if_pos (by omega)]
    rfl

theorem tryFromChars_text (literal : Literal) :
    tryFromChars literal.text = (parse (2 ^ 63 - 1) literal.whole).bind fun seconds =>
      new (literal.sign.factor * seconds)
        (literal.sign.factor * fractionNanos (literal.fraction.getD [])) := by
  have hne : literal.whole ++ dotted literal.fraction ≠ [] := by
    simp [literal.whole_ne]
  have hhead : ∀ c ∈ (literal.whole ++ dotted literal.fraction).head?, c.isDigit = true := by
    intro c hc
    rw [List.head?_append_of_ne_nil _ literal.whole_ne] at hc
    exact literal.whole_digits c (List.mem_of_mem_head? hc)
  rw [tryFromChars, Literal.text, List.getLast?_concat, List.dropLast_concat,
    stripSign_chars literal.sign hne hhead]
  simp only [ne_eq, not_true_eq_false, if_false, splitDot_dotted literal.whole_digits,
    parseSeconds_eq literal.whole_ne literal.whole_digits]
  cases hparse : parse (2 ^ 63 - 1) literal.whole with
  | error e => rfl
  | ok seconds =>
      cases hfraction : literal.fraction with
      | none => rfl
      | some f =>
          simp only [parseNanos_eq (literal.fraction_ne f hfraction)
            (literal.fraction_digits f hfraction)]
          rfl

/-- Only texts of the grammar are accepted. -/
theorem exists_literal {text : List Char} {duration : Duration}
    (h : tryFromChars text = .ok duration) : ∃ literal : Literal, text = literal.text := by
  rw [tryFromChars] at h
  split at h
  · cases h
  case isFalse hlast =>
    have htext : text = text.dropLast ++ ['s'] :=
      (List.dropLast_append_getLast? 's' (not_not.mp hlast)).symm
    obtain ⟨sign, hsign, -⟩ := stripSign_eq text.dropLast
    have hsplit := splitDot_eq (stripSign text.dropLast).2
    dsimp only at h
    generalize hparts : splitDot (stripSign text.dropLast).2 = parts at h hsplit
    obtain ⟨whole, fraction⟩ := parts
    by_cases hwhole : whole = [] ∨ ¬ Digits whole
    · simp only [parseSeconds, if_pos hwhole] at h
      cases h
    · rw [not_or, not_not] at hwhole
      cases fraction with
      | none =>
          refine ⟨⟨sign, whole, none, hwhole.1, hwhole.2, by simp, by simp⟩, ?_⟩
          rw [Literal.text, ← hsplit, ← hsign, ← htext]
      | some f =>
          by_cases hfraction : f = [] ∨ ¬ Digits f
          · simp only [parseNanos, if_pos hfraction] at h
            cases hseconds : parseSeconds whole <;> rw [hseconds] at h <;> cases h
          · rw [not_or, not_not] at hfraction
            refine ⟨⟨sign, whole, some f, hwhole.1, hwhole.2, ?_, ?_⟩, ?_⟩
            · rintro g hg
              cases hg
              exact hfraction.1
            · rintro g hg
              cases hg
              exact hfraction.2
            · rw [Literal.text, ← hsplit, ← hsign, ← htext]

/-! ## Values -/

def nanoseconds (duration : Duration) : ℤ := duration.seconds * 10 ^ 9 + duration.nanos

theorem minSeconds_eq : minSeconds = -315576000000 := rfl

theorem maxSeconds_eq : maxSeconds = 315576000000 := rfl

theorem minNanos_eq : minNanos = -999999999 := rfl

theorem maxNanos_eq : maxNanos = 999999999 := rfl

theorem nanoseconds_injective : Function.Injective nanoseconds := by
  rintro ⟨seconds, nanos, hseconds, hnanos, hsigns⟩ ⟨seconds', nanos', hseconds', hnanos', hsigns'⟩
    heq
  simp only [nanoseconds] at heq
  rw [minNanos_eq, maxNanos_eq] at hnanos hnanos'
  have hs : seconds = seconds' := by omega
  have hn : nanos = nanos' := by omega
  subst hs hn
  rfl

theorem new_eq_ok {seconds nanos : ℤ} {duration : Duration} :
    new seconds nanos = .ok duration ↔
      duration.seconds = seconds ∧ duration.nanos = nanos := by
  constructor
  · intro h
    rw [new] at h
    split at h
    · split at h
      · split at h
        · cases h
        · cases h
          exact ⟨rfl, rfl⟩
      · cases h
    · cases h
  · rintro ⟨rfl, rfl⟩
    rw [new, dif_pos duration.seconds_mem, dif_pos duration.nanos_mem, dif_neg duration.signs]

/-- Numbers with a common sign are accepted up to the largest number of seconds. -/
theorem exists_new_factor (sign : Sign) {seconds nanos : ℕ} (hnanos : nanos < 10 ^ 9) :
    (∃ duration, new (sign.factor * seconds) (sign.factor * nanos) = .ok duration) ↔
      |sign.factor * ((seconds : ℤ) * 10 ^ 9 + nanos)| ≤ maxSeconds * 10 ^ 9 + maxNanos := by
  have habs : |sign.factor * ((seconds : ℤ) * 10 ^ 9 + nanos)| =
      (seconds : ℤ) * 10 ^ 9 + nanos := by
    cases sign with
    | none | plus => rw [Sign.factor, one_mul, abs_of_nonneg (by omega)]
    | minus => rw [Sign.factor, neg_one_mul, abs_neg, abs_of_nonneg (by omega)]
  rw [habs, maxSeconds_eq, maxNanos_eq]
  constructor
  · rintro ⟨duration, h⟩
    obtain ⟨hseconds, -⟩ := new_eq_ok.mp h
    have hmem := duration.seconds_mem
    rw [hseconds, minSeconds_eq, maxSeconds_eq] at hmem
    cases sign with
    | none | plus | minus =>
        rw [Sign.factor] at hmem
        omega
  · intro hle
    have hseconds : minSeconds ≤ sign.factor * seconds ∧ sign.factor * seconds ≤ maxSeconds := by
      rw [minSeconds_eq, maxSeconds_eq]
      cases sign <;> rw [Sign.factor] <;> omega
    have hmem : minNanos ≤ sign.factor * nanos ∧ sign.factor * nanos ≤ maxNanos := by
      rw [minNanos_eq, maxNanos_eq]
      cases sign <;> rw [Sign.factor] <;> omega
    refine ⟨⟨_, _, hseconds, hmem, ?_⟩, new_eq_ok.mpr ⟨rfl, rfl⟩⟩
    cases sign <;> rw [Sign.factor] <;> omega

theorem parse_eq_ok {max : ℕ} {text : List Char} {n : ℕ} :
    parse max text = .ok n ↔ Decimal.value text ≤ max ∧ n = Decimal.value text := by
  rw [parse]
  split
  case isTrue h => simp [h, eq_comm]
  case isFalse h => simp [h]

theorem tryFromChars_text_ok {literal : Literal} {duration : Duration}
    (h : tryFromChars literal.text = .ok duration) :
    Decimal.value literal.whole ≤ 2 ^ 63 - 1 ∧
      new (literal.sign.factor * Decimal.value literal.whole)
        (literal.sign.factor * fractionNanos (literal.fraction.getD [])) = .ok duration := by
  rw [tryFromChars_text] at h
  cases hparse : parse (2 ^ 63 - 1) literal.whole with
  | error e =>
      rw [hparse] at h
      cases h
  | ok seconds =>
      rw [hparse] at h
      obtain ⟨hle, rfl⟩ := parse_eq_ok.mp hparse
      exact ⟨hle, h⟩

theorem nanoseconds_of_tryFromChars {literal : Literal} {duration : Duration}
    (h : tryFromChars literal.text = .ok duration) :
    duration.nanoseconds = truncate (literal.value * 10 ^ 9) := by
  obtain ⟨hseconds, hnanos⟩ := new_eq_ok.mp (tryFromChars_text_ok h).2
  rw [truncate_value, nanoseconds, hseconds, hnanos]
  ring

theorem exists_tryFromChars_iff (text : List Char) :
    (∃ duration, tryFromChars text = .ok duration) ↔
      ∃ literal : Literal, text = literal.text ∧ Decimal.value literal.whole ≤ 2 ^ 63 - 1 ∧
        |truncate (literal.value * 10 ^ 9)| ≤ maxSeconds * 10 ^ 9 + maxNanos := by
  constructor
  · rintro ⟨duration, h⟩
    obtain ⟨literal, rfl⟩ := exists_literal h
    obtain ⟨hle, hnew⟩ := tryFromChars_text_ok h
    refine ⟨literal, rfl, hle, ?_⟩
    rw [truncate_value]
    exact (exists_new_factor literal.sign (fractionNanos_lt (digits_fraction literal))).mp
      ⟨duration, hnew⟩
  · rintro ⟨literal, rfl, hle, hbound⟩
    rw [truncate_value] at hbound
    obtain ⟨duration, hnew⟩ :=
      (exists_new_factor literal.sign (fractionNanos_lt (digits_fraction literal))).mpr hbound
    refine ⟨duration, ?_⟩
    rw [tryFromChars_text, parse_eq_ok.mpr ⟨hle, rfl⟩]
    exact hnew

/-! ## Printing -/

theorem nanos_lt (duration : Duration) : duration.nanos.natAbs < 10 ^ 9 := by
  have hmem := duration.nanos_mem
  rw [minNanos_eq, maxNanos_eq] at hmem
  omega

/-- The nine digits of the nanoseconds. -/
def nanoDigits (duration : Duration) : List Char := pad 9 (Nat.toDigits 10 duration.nanos.natAbs)

theorem length_nanoDigits (duration : Duration) : duration.nanoDigits.length = 9 :=
  length_pad ((Nat.length_toDigits_le_iff (by decide) (by decide)).mpr duration.nanos_lt)

theorem value_nanoDigits (duration : Duration) :
    Decimal.value duration.nanoDigits = duration.nanos.natAbs := by
  rw [nanoDigits, value_pad, value_toDigits]

theorem digits_nanoDigits (duration : Duration) : Digits duration.nanoDigits :=
  (digits_toDigits _).pad 9

theorem fractionNanos_trimEnd (duration : Duration) :
    fractionNanos (trimEnd duration.nanoDigits) = duration.nanos.natAbs := by
  have hlength := duration.length_nanoDigits
  have hle := length_trimEnd_le duration.nanoDigits
  have hvalue := value_trimEnd duration.nanoDigits
  rw [hlength] at hvalue hle
  rw [fractionNanos, if_neg (by omega), Nat.mul_comm, ← hvalue, value_nanoDigits]

theorem trimEnd_nanoDigits_ne (duration : Duration) (h : duration.nanos ≠ 0) :
    trimEnd duration.nanoDigits ≠ [] := by
  intro hnil
  have hnanos := duration.fractionNanos_trimEnd
  rw [hnil] at hnanos
  simp [fractionNanos] at hnanos
  omega

/-- The text of a duration as one of the grammar. -/
def literal (duration : Duration) : Literal where
  sign := if duration.seconds < 0 ∨ duration.nanos < 0 then .minus else .none
  whole := Nat.toDigits 10 duration.seconds.natAbs
  fraction := if duration.nanos = 0 then none else some (trimEnd duration.nanoDigits)
  whole_ne := Nat.toDigits_ne_nil
  whole_digits := digits_toDigits _
  fraction_ne := by
    intro f hf
    split at hf
    · cases hf
    case isFalse h =>
      cases hf
      exact duration.trimEnd_nanoDigits_ne h
  fraction_digits := by
    intro f hf
    split at hf
    · cases hf
    · cases hf
      exact duration.digits_nanoDigits.trimEnd

theorem chars_eq (duration : Duration) : duration.chars = duration.literal.text := by
  have hsign : (if duration.seconds < 0 ∨ duration.nanos < 0 then ['-'] else []) =
      (if duration.seconds < 0 ∨ duration.nanos < 0 then Sign.minus else Sign.none).chars := by
    split <;> rfl
  rw [chars, Literal.text, literal]
  dsimp only
  rw [hsign]
  by_cases hzero : duration.nanos = 0
  · simp [hzero, dotted]
  · simp [hzero, dotted, nanoDigits]

theorem fractionNanos_literal (duration : Duration) :
    fractionNanos (duration.literal.fraction.getD []) = duration.nanos.natAbs := by
  rw [literal]
  dsimp only
  split
  case isTrue h => simp [h, fractionNanos]
  case isFalse => exact duration.fractionNanos_trimEnd

theorem tryFromChars_chars (duration : Duration) :
    tryFromChars duration.chars = .ok duration := by
  have hseconds := duration.seconds_mem
  have hsigns := duration.signs
  rw [minSeconds_eq, maxSeconds_eq] at hseconds
  have hwhole : Decimal.value duration.literal.whole = duration.seconds.natAbs :=
    value_toDigits _
  rw [chars_eq, tryFromChars_text, fractionNanos_literal,
    parse_eq_ok.mpr ⟨by rw [hwhole]; omega, rfl⟩, hwhole]
  refine new_eq_ok.mpr ?_
  by_cases hneg : duration.seconds < 0 ∨ duration.nanos < 0
  · simp only [literal, if_pos hneg, Sign.factor]
    omega
  · simp only [literal, if_neg hneg, Sign.factor]
    omega

theorem toString_inj {d e : Duration} : d.toString = e.toString ↔ d = e := by
  refine ⟨fun h => ?_, congrArg toString⟩
  have hchars : d.chars = e.chars := by
    rw [← String.toList_ofList (l := d.chars), ← String.toList_ofList (l := e.chars)]
    exact congrArg String.toList h
  have hparsed := d.tryFromChars_chars
  rw [hchars, e.tryFromChars_chars] at hparsed
  cases hparsed
  rfl

/-! ## Canonical texts -/

theorem nanoseconds_eq_value {literal : Literal} {duration : Duration}
    (hdigits : literal.fractionDigits ≤ 9) (h : tryFromChars literal.text = .ok duration) :
    (duration.nanoseconds : ℚ) = literal.value * 10 ^ 9 := by
  have hpow : (10 : ℚ) ^ 9 = 10 ^ literal.fractionDigits * 10 ^ (9 - literal.fractionDigits) := by
    rw [← pow_add]
    congr 1
    omega
  have hnanos : fractionNanos (literal.fraction.getD []) =
      Decimal.value (literal.fraction.getD []) * 10 ^ (9 - literal.fractionDigits) := by
    rw [fractionNanos, if_neg (by simpa [Literal.fractionDigits] using hdigits)]
    rfl
  have hfraction : (Decimal.value (literal.fraction.getD []) : ℚ) / 10 ^ literal.fractionDigits *
      10 ^ 9 = Decimal.value (literal.fraction.getD []) * 10 ^ (9 - literal.fractionDigits) := by
    rw [hpow]
    field_simp
  rw [nanoseconds_of_tryFromChars h, truncate_value, hnanos, Literal.value, mul_assoc, add_mul,
    hfraction]
  push_cast
  rfl

/-- Texts of durations: printing is read back, exactly the texts of the grammar within the bounds
are accepted and truncated, and the printed texts are a canonical form. -/
theorem text_roundTrips :
    (∀ seconds nanos duration, new seconds nanos = .ok duration →
      tryFrom duration.toString = .ok duration) ∧
    (∀ text : String, (∃ duration, tryFrom text = .ok duration) ↔
      ∃ literal : Literal, text.toList = literal.text ∧
        Decimal.value literal.whole ≤ 2 ^ 63 - 1 ∧
        |truncate (literal.value * 10 ^ 9)| ≤ maxSeconds * 10 ^ 9 + maxNanos) ∧
    (∀ (text : String) (literal : Literal) duration, text.toList = literal.text →
      tryFrom text = .ok duration →
      duration.seconds * 10 ^ 9 + duration.nanos = truncate (literal.value * 10 ^ 9)) ∧
    ∀ (text text' : String) (literal literal' : Literal) (duration duration' : Duration),
      text.toList = literal.text → text'.toList = literal'.text →
      literal.fractionDigits ≤ 9 → literal'.fractionDigits ≤ 9 →
      tryFrom text = .ok duration → tryFrom text' = .ok duration' →
      (duration.toString = duration'.toString ↔ literal.value = literal'.value) := by
  refine ⟨fun seconds nanos duration _ => ?_, fun text => exists_tryFromChars_iff text.toList,
    fun text literal duration htext h => ?_, ?_⟩
  · rw [tryFrom, toString, String.toList_ofList]
    exact duration.tryFromChars_chars
  · rw [tryFrom, htext] at h
    exact nanoseconds_of_tryFromChars h
  · intro text text' literal literal' duration duration' htext htext' hdigits hdigits' h h'
    rw [tryFrom, htext] at h
    rw [tryFrom, htext'] at h'
    rw [toString_inj, ← nanoseconds_injective.eq_iff, ← Int.cast_inj (α := ℚ),
      nanoseconds_eq_value hdigits h, nanoseconds_eq_value hdigits' h']
    exact mul_left_inj' (by norm_num)

end Duration

end GoogleCloudRust.Wkt
