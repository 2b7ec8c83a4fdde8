import GoogleCloudRust.Library.Decimal

/-! # Texts

Texts as lists of characters: a prefix, the first of a separator, words, and numbers as they are
printed and as `parse` reads them. -/

namespace GoogleCloudRust.Text

/-- `str::strip_prefix`. -/
def strip (front text : List Char) : Option (List Char) :=
  if front.isPrefixOf text then some (text.drop front.length) else none

/-- `str::split_once`. -/
def splitOnce (separator : Char) : List Char → Option (List Char × List Char)
  | [] => none
  | c :: text =>
      if c = separator then some ([], text)
      else (splitOnce separator text).map fun (front, back) => (c :: front, back)

/-- The checked loop of `parse` over the digits of an integer, which fails at the first character
that is not a digit or takes the number above its limit. -/
def readDigits (limit : ℕ) (overflow : String) (n : ℕ) : List Char → Except String ℕ
  | [] => .ok n
  | c :: text =>
      if c.isDigit then
        if 10 * n + (c.toNat - '0'.toNat) ≤ limit then
          readDigits limit overflow (10 * n + (c.toNat - '0'.toNat)) text
        else .error overflow
      else .error "invalid digit found in string"

/-- `parse::<u64>`, with the texts of its errors. -/
def parseU64 (text : List Char) : Except String ℕ :=
  match text with
  | [] => .error "cannot parse integer from empty string"
  | c :: rest =>
      let digits := if c = '+' then rest else text
      if digits = [] then .error "invalid digit found in string"
      else readDigits (2 ^ 64 - 1) "number too large to fit in target type" 0 digits

/-- A number in decimal digits. -/
def decimal (n : ℕ) : List Char := Nat.toDigits 10 n

/-- `char::is_whitespace`. -/
def isWhitespace (c : Char) : Bool :=
  (9 ≤ c.toNat && c.toNat ≤ 13) || (0x2000 ≤ c.toNat && c.toNat ≤ 0x200A) ||
    c.toNat ∈ [0x20, 0x85, 0xA0, 0x1680, 0x2028, 0x2029, 0x202F, 0x205F, 0x3000]

/-- `str::split_whitespace`. -/
def splitWhitespace (text : List Char) : List (List Char) :=
  (text.splitOnP isWhitespace).filter (· ≠ [])

/-- `str::trim`. -/
def trim (text : List Char) : List Char :=
  (text.dropWhile isWhitespace).rdropWhile isWhitespace

/-! ## Signed integers -/

/-- The number fits in a signed integer of the width. -/
abbrev Fits (bits : ℕ) (n : ℤ) : Prop := -2 ^ (bits - 1) ≤ n ∧ n < 2 ^ (bits - 1)

/-- The sign before a number. -/
def signText (negative : Prop) [Decidable negative] : List Char := if negative then ['-'] else []

/-- `to_string` of a signed integer. -/
def int (n : ℤ) : List Char := if n < 0 then '-' :: decimal n.natAbs else decimal n.natAbs

/-- A signed integer padded with zeros to a width, which the sign counts for. -/
def paddedInt (width : ℕ) (n : ℤ) : List Char :=
  if n < 0 then '-' :: Decimal.pad (width - 1) (decimal n.natAbs)
  else Decimal.pad width (decimal n.natAbs)

/-- `parse` of a signed integer of the width, with the texts of its errors. -/
def parseInt (bits : ℕ) (text : List Char) : Except String ℤ :=
  match text with
  | [] => .error "cannot parse integer from empty string"
  | c :: rest =>
      let digits := if c = '+' ∨ c = '-' then rest else text
      if digits = [] then .error "invalid digit found in string"
      else if c = '-' then
        (readDigits (2 ^ (bits - 1)) "number too small to fit in target type" 0 digits).map
          fun n : ℕ => -(n : ℤ)
      else
        (readDigits (2 ^ (bits - 1) - 1) "number too large to fit in target type" 0 digits).map
          fun n : ℕ => (n : ℤ)

theorem strip_append (front back : List Char) : strip front (front ++ back) = some back := by
  simp [strip]

theorem splitOnce_append {separator : Char} {front : List Char} (h : separator ∉ front)
    (back : List Char) : splitOnce separator (front ++ separator :: back) = some (front, back) := by
  induction front with
  | nil => simp [splitOnce]
  | cons c front ih =>
    simp only [List.mem_cons, not_or] at h
    simp [splitOnce, Ne.symm h.1, ih h.2]

theorem splitOnce_eq_none {separator : Char} {text : List Char} (h : separator ∉ text) :
    splitOnce separator text = none := by
  induction text with
  | nil => rfl
  | cons c text ih =>
    simp only [List.mem_cons, not_or] at h
    simp [splitOnce, Ne.symm h.1, ih h.2]

theorem splitOnce_eq_some {separator : Char} {text front back : List Char}
    (h : splitOnce separator text = some (front, back)) : text = front ++ separator :: back := by
  induction text generalizing front with
  | nil => cases h
  | cons c text ih =>
    by_cases hc : c = separator
    · simp only [splitOnce, hc, if_true, Option.some.injEq, Prod.mk.injEq] at h
      obtain ⟨rfl, rfl⟩ := h
      rw [hc]
      rfl
    · simp only [splitOnce, hc, if_false, Option.map_eq_some_iff] at h
      obtain ⟨⟨front', back'⟩, hrest, heq⟩ := h
      obtain ⟨rfl, rfl⟩ := Prod.mk.inj heq
      rw [ih hrest]
      rfl

/-- The separator is in none of the pieces. -/
theorem not_mem_of_mem_splitOn {separator : Char} {text piece : List Char}
    (h : piece ∈ text.splitOn separator) : separator ∉ piece := by
  induction text generalizing piece with
  | nil =>
    rw [List.splitOn_nil, List.mem_singleton] at h
    simp [h]
  | cons c text ih =>
    rw [List.splitOn_cons_eq_if_modifyHead] at h
    by_cases hc : c = separator
    · simp only [hc, beq_self_eq_true, if_true, List.mem_cons] at h
      rcases h with rfl | hmem
      · exact List.not_mem_nil
      · exact ih hmem
    · simp only [beq_iff_eq, hc, if_false] at h
      cases hpieces : text.splitOn separator with
      | nil => exact absurd hpieces (List.splitOn_ne_nil separator text)
      | cons first pieces =>
        rw [hpieces, List.modifyHead_cons, List.mem_cons] at h
        rcases h with rfl | hmem
        · have hfirst : separator ∉ first := ih (by simp [hpieces])
          simp [Ne.symm hc, hfirst]
        · exact ih (by simp [hpieces, hmem])

theorem digits_decimal (n : ℕ) : Decimal.Digits (decimal n) := Decimal.digits_toDigits n

theorem not_mem_decimal {c : Char} (h : c.isDigit = false) (n : ℕ) : c ∉ decimal n := by
  intro hmem
  exact absurd (digits_decimal n c hmem) (by simp [h])

theorem decimal_ne_nil (n : ℕ) : decimal n ≠ [] := by
  intro h
  have hlength := Nat.length_toDigits_pos (b := 10) (n := n)
  rw [show Nat.toDigits 10 n = [] from h] at hlength
  cases hlength

/-- Digits that are read only make a number larger. -/
theorem le_ofDigitChars (n : ℕ) (text : List Char) : n ≤ Nat.ofDigitChars 10 text n := by
  induction text generalizing n with
  | nil => rw [Nat.ofDigitChars_nil]
  | cons c text ih =>
    rw [Nat.ofDigitChars_cons]
    have hle := ih (10 * n + (c.toNat - '0'.toNat))
    omega

theorem readDigits_eq_ok_iff {limit : ℕ} (overflow : String) {n m : ℕ} (text : List Char)
    (hn : n ≤ limit) : readDigits limit overflow n text = .ok m ↔
      Decimal.Digits text ∧ Nat.ofDigitChars 10 text n = m ∧ m ≤ limit := by
  induction text generalizing n with
  | nil =>
    rw [readDigits, Except.ok.injEq, Nat.ofDigitChars_nil]
    constructor
    · rintro rfl
      exact ⟨nofun, rfl, hn⟩
    · exact fun h => h.2.1
  | cons c text ih =>
    rw [readDigits, Nat.ofDigitChars_cons]
    split_ifs with hdigit hle
    · rw [ih hle]
      simp [Decimal.Digits, hdigit]
    · -- The number never comes back below the limit.
      have habove := le_ofDigitChars (10 * n + (c.toNat - '0'.toNat)) text
      refine ⟨nofun, ?_⟩
      rintro ⟨-, rfl, hlimit⟩
      omega
    · simp [Decimal.Digits, hdigit]

theorem readDigits_of_digits {limit : ℕ} {text : List Char} (overflow : String)
    (hdigits : Decimal.Digits text) (h : Decimal.value text ≤ limit) :
    readDigits limit overflow 0 text = .ok (Decimal.value text) :=
  (readDigits_eq_ok_iff overflow text (Nat.zero_le limit)).mpr ⟨hdigits, rfl, h⟩

/-- A number is read back from its digits. -/
theorem parseU64_decimal {n : ℕ} (h : n < 2 ^ 64) : parseU64 (decimal n) = .ok n := by
  have hvalue : Decimal.value (decimal n) = n := Decimal.value_toDigits n
  have hdigits := digits_decimal n
  have hplus : '+' ∉ decimal n := not_mem_decimal (by decide) n
  cases htext : decimal n with
  | nil => exact absurd htext (decimal_ne_nil n)
  | cons c rest =>
    rw [htext] at hvalue hdigits hplus
    have hc : c ≠ '+' := by
      intro hc
      simp [hc] at hplus
    rw [parseU64, if_neg hc, if_neg (List.cons_ne_nil c rest),
      readDigits_of_digits _ hdigits (by omega), hvalue]

/-- The number overflows before the invalid character is reached. -/
example : parseU64 "99999999999999999999x".toList =
    .error "number too large to fit in target type" := by decide

theorem length_decimal_le {n width : ℕ} (hwidth : 0 < width) (h : n < 10 ^ width) :
    (decimal n).length ≤ width :=
  (Nat.length_toDigits_le_iff (by decide) hwidth).mpr h

theorem isWhitespace_digit {c : Char} (h : c.isDigit = true) : isWhitespace c = false := by
  have hrange : 48 ≤ c.toNat ∧ c.toNat ≤ 57 := by
    simp only [Char.isDigit, Bool.and_eq_true, decide_eq_true_eq] at h
    exact h
  simp only [isWhitespace, List.mem_cons, List.not_mem_nil, or_false, Bool.or_eq_false_iff,
    Bool.and_eq_false_iff, decide_eq_false_iff_not]
  omega

/-- A text without blanks. -/
abbrev Solid (text : List Char) : Prop := ∀ c ∈ text, isWhitespace c = false

theorem Solid.nil : Solid [] := fun _ hc => absurd hc List.not_mem_nil

theorem Solid.append {front back : List Char} (hfront : Solid front) (hback : Solid back) :
    Solid (front ++ back) := by
  intro c hc
  rcases List.mem_append.mp hc with hc | hc
  · exact hfront c hc
  · exact hback c hc

theorem Solid.cons {c : Char} {text : List Char} (hc : isWhitespace c = false)
    (htext : Solid text) : Solid (c :: text) :=
  List.forall_mem_cons.mpr ⟨hc, htext⟩

theorem solid_of_digits {text : List Char} (h : Decimal.Digits text) : Solid text := fun c hc =>
  isWhitespace_digit (h c hc)

theorem solid_decimal (n : ℕ) : Solid (decimal n) := solid_of_digits (digits_decimal n)

theorem solid_signText {negative : Prop} [Decidable negative] : Solid (signText negative) := by
  by_cases hneg : negative
  · rw [signText, if_pos hneg]
    exact .cons (by decide) .nil
  · rw [signText, if_neg hneg]
    exact .nil

theorem solid_int (n : ℤ) : Solid (int n) := by
  by_cases hneg : n < 0
  · rw [int, if_pos hneg]
    exact .cons (by decide) (solid_decimal _)
  · rw [int, if_neg hneg]
    exact solid_decimal _

theorem int_ne_nil (n : ℤ) : int n ≠ [] := by
  by_cases hneg : n < 0
  · simp [int, hneg]
  · rw [int, if_neg hneg]
    exact decimal_ne_nil _

/-- Words with blanks between them. -/
theorem splitWhitespace_cons {word : List Char} (hne : word ≠ []) (hword : Solid word)
    (rest : List Char) :
    splitWhitespace (word ++ ' ' :: rest) = word :: splitWhitespace rest := by
  have hblank : isWhitespace ' ' = true := by decide
  rw [splitWhitespace, List.splitOnP_append_cons_of_forall_mem hword ' ' hblank]
  simp [splitWhitespace, hne]

theorem splitWhitespace_word {word : List Char} (hne : word ≠ []) (hword : Solid word) :
    splitWhitespace word = [word] := by
  rw [splitWhitespace, List.splitOnP_eq_singleton hword]
  simp [hne]

theorem int_of_nonneg {n : ℤ} (h : 0 ≤ n) : int n = decimal n.natAbs := by
  rw [int, if_neg (by omega)]

theorem paddedInt_of_nonneg {width : ℕ} {n : ℤ} (h : 0 ≤ n) :
    paddedInt width n = Decimal.pad width (decimal n.natAbs) := by
  rw [paddedInt, if_neg (by omega)]

theorem parseInt_digits {bits : ℕ} {digits : List Char} (hne : digits ≠ [])
    (hdigits : Decimal.Digits digits) (h : (Decimal.value digits : ℤ) < 2 ^ (bits - 1)) :
    parseInt bits digits = .ok (Decimal.value digits : ℤ) := by
  cases digits with
  | nil => exact absurd rfl hne
  | cons c rest =>
    have hdigit : c.isDigit = true := hdigits c (by simp)
    have hplus : c ≠ '+' := by
      rintro rfl
      simp at hdigit
    have hminus : c ≠ '-' := by
      rintro rfl
      simp at hdigit
    have hlimit : Decimal.value (c :: rest) ≤ 2 ^ (bits - 1) - 1 := by
      have hlt : Decimal.value (c :: rest) < 2 ^ (bits - 1) := by exact_mod_cast h
      omega
    simp only [parseInt, hplus, hminus, or_self, if_false, List.cons_ne_nil,
      readDigits_of_digits _ hdigits hlimit, Except.map]

theorem parseInt_minus {bits : ℕ} {digits : List Char} (hne : digits ≠ [])
    (hdigits : Decimal.Digits digits) (h : -2 ^ (bits - 1) ≤ -(Decimal.value digits : ℤ)) :
    parseInt bits ('-' :: digits) = .ok (-(Decimal.value digits : ℤ)) := by
  have hlimit : Decimal.value digits ≤ 2 ^ (bits - 1) := by
    have hle : (Decimal.value digits : ℤ) ≤ 2 ^ (bits - 1) := neg_le_neg_iff.mp h
    exact_mod_cast hle
  simp only [parseInt, or_true, if_true, hne, if_false, readDigits_of_digits _ hdigits hlimit,
    Except.map]

theorem exists_of_map_eq_ok {ε α β : Type} {f : α → β} {x : Except ε α} {b : β}
    (h : x.map f = .ok b) : ∃ a, x = .ok a ∧ f a = b := by
  cases x with
  | error e => cases h
  | ok a => exact ⟨a, rfl, Except.ok.inj h⟩

/-- What is read: digits, with at most one sign before them. -/
theorem parseInt_eq_ok {bits : ℕ} {text : List Char} {n : ℤ} (h : parseInt bits text = .ok n) :
    Fits bits n ∧ ∃ digits, digits ≠ [] ∧ Decimal.Digits digits ∧
      ((text = digits ∧ n = Decimal.value digits) ∨
        (text = '+' :: digits ∧ n = Decimal.value digits) ∨
        (text = '-' :: digits ∧ n = -(Decimal.value digits : ℤ))) := by
  cases text with
  | nil => cases h
  | cons c rest =>
    have hpos : (0 : ℤ) < 2 ^ (bits - 1) := Int.pow_pos (by decide)
    have hread : ∀ {digits : List Char},
        (readDigits (2 ^ (bits - 1) - 1) "number too large to fit in target type" 0 digits).map
          (fun n : ℕ => (n : ℤ)) = .ok n →
        Decimal.Digits digits ∧ Fits bits n ∧ n = Decimal.value digits := by
      intro digits hok
      obtain ⟨m, hm, rfl⟩ := exists_of_map_eq_ok hok
      obtain ⟨hdigits, rfl, hle⟩ :=
        (readDigits_eq_ok_iff _ digits (Nat.zero_le _)).mp hm
      have hlt : Nat.ofDigitChars 10 digits 0 < 2 ^ (bits - 1) :=
        Nat.lt_of_le_pred (Nat.pow_pos (by decide)) hle
      have hlt' : (Nat.ofDigitChars 10 digits 0 : ℤ) < 2 ^ (bits - 1) := by exact_mod_cast hlt
      exact ⟨hdigits, ⟨by omega, hlt'⟩, rfl⟩
    by_cases hminus : c = '-'
    · simp only [parseInt, hminus, or_true, if_true] at h
      split_ifs at h with hne
      obtain ⟨m, hm, rfl⟩ := exists_of_map_eq_ok h
      obtain ⟨hdigits, rfl, hle⟩ := (readDigits_eq_ok_iff _ rest (Nat.zero_le _)).mp hm
      have hle' : (Nat.ofDigitChars 10 rest 0 : ℤ) ≤ 2 ^ (bits - 1) := by exact_mod_cast hle
      exact ⟨⟨by omega, by omega⟩, rest, hne, hdigits, .inr (.inr ⟨by rw [hminus], rfl⟩)⟩
    · by_cases hplus : c = '+'
      · simp only [parseInt, hplus, true_or, if_true] at h
        rw [if_neg (by decide : ¬ '+' = '-')] at h
        split_ifs at h with hne
        obtain ⟨hdigits, hfits, hn⟩ := hread h
        exact ⟨hfits, rest, hne, hdigits, .inr (.inl ⟨by rw [hplus], hn⟩)⟩
      · simp only [parseInt, hminus, hplus, or_self, if_false, List.cons_ne_nil] at h
        obtain ⟨hdigits, hfits, hn⟩ := hread h
        exact ⟨hfits, c :: rest, List.cons_ne_nil c rest, hdigits, .inl ⟨rfl, hn⟩⟩

/-- A signed integer is read back from its text. -/
theorem parseInt_int {bits : ℕ} {n : ℤ} (h : Fits bits n) : parseInt bits (int n) = .ok n := by
  have hvalue : Decimal.value (decimal n.natAbs) = n.natAbs := Decimal.value_toDigits n.natAbs
  by_cases hneg : n < 0
  · have hn : -(Decimal.value (decimal n.natAbs) : ℤ) = n := by
      rw [hvalue]
      omega
    rw [int, if_pos hneg, parseInt_minus (decimal_ne_nil _) (digits_decimal _) (by omega), hn]
  · have hn : (Decimal.value (decimal n.natAbs) : ℤ) = n := by
      rw [hvalue]
      omega
    rw [int, if_neg hneg, parseInt_digits (decimal_ne_nil _) (digits_decimal _) (by omega), hn]

/-! ## Numbers of a fixed width -/

/-- As many digits as the width, for the number. -/
structure Number (width n : ℕ) (text : List Char) : Prop where
  isDigits : Decimal.Digits text
  length_eq : text.length = width
  value_eq : Decimal.value text = n

/-- Digits after a point, for a number of units of the last place. -/
structure Fraction (places n : ℕ) (text : List Char) : Prop where
  isDigits : Decimal.Digits text
  length_le : text.length ≤ places
  value_eq : Decimal.value text * 10 ^ (places - text.length) = n

theorem number_pad {width n : ℕ} (hwidth : 0 < width) (h : n < 10 ^ width) :
    Number width n (Decimal.pad width (decimal n)) where
  isDigits := (digits_decimal n).pad width
  length_eq := Decimal.length_pad (length_decimal_le hwidth h)
  value_eq := by
    rw [Decimal.value_pad]
    exact Decimal.value_toDigits n

theorem number_paddedInt {width n : ℕ} (hwidth : 0 < width) (h : n < 10 ^ width) :
    Number width n (paddedInt width n) := by
  rw [paddedInt_of_nonneg (by omega), Int.natAbs_natCast]
  exact number_pad hwidth h

theorem Number.fraction {width places n : ℕ} {text : List Char} (h : Number width n text)
    (hle : width ≤ places) : Fraction places (n * 10 ^ (places - width)) text where
  isDigits := h.isDigits
  length_le := by rwa [h.length_eq]
  value_eq := by rw [h.length_eq, h.value_eq]

theorem Fraction.lt {places n : ℕ} {text : List Char} (h : Fraction places n text) :
    n < 10 ^ places := by
  have hlt := Nat.mul_lt_mul_of_pos_right (Decimal.value_lt h.isDigits)
    (show 0 < 10 ^ (places - text.length) from Nat.pow_pos (by decide))
  rwa [h.value_eq, ← Nat.pow_add, Nat.add_sub_of_le h.length_le] at hlt

/-- A text without blanks is not changed by `trim`. -/
theorem trim_of_solid {text : List Char} (h : Solid text) : trim text = text := by
  have hdrop : text.dropWhile isWhitespace = text := by
    cases text with
    | nil => rfl
    | cons c rest => rw [List.dropWhile_cons_of_neg (by simp [h c])]
  rw [trim, hdrop, List.rdropWhile_eq_self_iff]
  intro hne
  simp [h _ (List.getLast_mem hne)]

end GoogleCloudRust.Text
