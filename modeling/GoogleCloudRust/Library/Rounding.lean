import GoogleCloudRust.Library.Decimal
import GoogleCloudRust.Library.Float64
import Mathlib.Algebra.GroupWithZero.Basic
import Mathlib.Algebra.Order.Field.Basic
import Mathlib.Algebra.Order.Ring.Nat
import Mathlib.Algebra.Order.Ring.Rat
import Mathlib.Order.Monotone.Basic
import Mathlib.Tactic.FieldSimp
import Mathlib.Tactic.Positivity
import Mathlib.Tactic.Ring

/-! # Doubles as numbers

Doubles are ordered as the numbers they stand for, and the result of a division is a nearest double.
Numbers are counted in units of the smallest positive double. What `f64::from_str` reads is a nearest
double to what is written. -/

namespace GoogleCloudRust.F64

/-! ## Units of a magnitude -/

/-- The units of a float with this exponent and fraction. -/
def unitsOf (magnitude : ℕ) : ℕ :=
  let exponent := magnitude / 2 ^ 52
  let fraction := magnitude % 2 ^ 52
  if exponent = 0 then fraction else (2 ^ 52 + fraction) * 2 ^ (exponent - 1)

theorem units_eq (x : F64) : x.units = unitsOf x.magnitude := rfl

theorem unitsOf_of_lt {m : ℕ} (h : m < 2 ^ 52) : unitsOf m = m := by
  simp only [unitsOf, Nat.div_eq_of_lt h, Nat.mod_eq_of_lt h, if_true]

/-- A significand, shifted. -/
theorem unitsOf_shift {shift significand : ℕ} (hle : significand ≤ 2 ^ 53)
    (hge : shift = 0 ∨ 2 ^ 52 ≤ significand) :
    unitsOf (shift * 2 ^ 52 + significand) = significand * 2 ^ shift := by
  by_cases hsmall : significand < 2 ^ 52
  · obtain rfl : shift = 0 := by omega
    rw [Nat.zero_mul, Nat.zero_add, unitsOf_of_lt hsmall, Nat.pow_zero, Nat.mul_one]
  · by_cases htop : significand = 2 ^ 53
    · have hdiv : (shift * 2 ^ 52 + significand) / 2 ^ 52 = shift + 2 := by omega
      have hmod : (shift * 2 ^ 52 + significand) % 2 ^ 52 = 0 := by omega
      simp only [unitsOf, hdiv, hmod]
      rw [if_neg (by omega), show shift + 2 - 1 = shift + 1 by omega, htop, Nat.pow_succ]
      omega
    · have hdiv : (shift * 2 ^ 52 + significand) / 2 ^ 52 = shift + 1 := by omega
      have hmod : (shift * 2 ^ 52 + significand) % 2 ^ 52 = significand - 2 ^ 52 := by omega
      simp only [unitsOf, hdiv, hmod]
      rw [if_neg (by omega), Nat.add_sub_cancel, Nat.add_sub_cancel' (by omega)]

/-- Every magnitude is a shifted significand. -/
theorem exists_shift (m : ℕ) : ∃ shift significand, m = shift * 2 ^ 52 + significand ∧
    significand < 2 ^ 53 ∧ (shift = 0 ∨ 2 ^ 52 ≤ significand) := by
  by_cases h : m < 2 ^ 53
  · exact ⟨0, m, by omega, h, .inl rfl⟩
  · exact ⟨m / 2 ^ 52 - 1, 2 ^ 52 + m % 2 ^ 52, by omega, by omega, .inr (by omega)⟩

theorem unitsOf_strictMono : StrictMono unitsOf := by
  refine strictMono_nat_of_lt_succ fun m => ?_
  obtain ⟨shift, significand, rfl, hlt, hge⟩ := exists_shift m
  rw [Nat.add_assoc, unitsOf_shift hlt.le hge, unitsOf_shift (by omega) (by omega)]
  exact Nat.mul_lt_mul_of_pos_right (Nat.lt_succ_self _) (Nat.two_pow_pos shift)

/-- Units from this power of two on are multiples of the quantum there. -/
theorem dvd_unitsOf {m shift : ℕ} (h : 2 ^ (52 + shift) ≤ unitsOf m) : 2 ^ shift ∣ unitsOf m := by
  obtain ⟨shift', significand, rfl, hlt, hge⟩ := exists_shift m
  rw [unitsOf_shift hlt.le hge] at h ⊢
  have hbound : significand * 2 ^ shift' < 2 ^ (53 + shift') := by
    rw [Nat.pow_add]
    exact Nat.mul_lt_mul_of_pos_right hlt (Nat.two_pow_pos shift')
  have hshift : 52 + shift < 53 + shift' :=
    (Nat.pow_lt_pow_iff_right (by decide)).mp (h.trans_lt hbound)
  exact (Nat.pow_dvd_pow 2 (by omega)).trans (Nat.dvd_mul_left _ _)

/-! ## Division -/

/-- The quotient, rounded to the nearest integer, with ties to even. -/
def roundDiv (num quantum : ℕ) : ℕ :=
  let q := num / quantum
  let r := num % quantum
  if quantum < 2 * r ∨ (2 * r = quantum ∧ q % 2 = 1) then q + 1 else q

theorem roundDiv_le_succ (num quantum : ℕ) : roundDiv num quantum ≤ num / quantum + 1 := by
  simp only [roundDiv]
  split_ifs <;> omega

theorem le_roundDiv (num quantum : ℕ) : num / quantum ≤ roundDiv num quantum := by
  simp only [roundDiv]
  split_ifs <;> omega

/-- No multiple of the quantum is nearer, and nothing up to the quotient. -/
theorem roundDiv_nearest {num quantum u : ℕ} (hpos : 0 < quantum)
    (hu : quantum ∣ u ∨ u ≤ num / quantum * quantum) :
    ((roundDiv num quantum * quantum : ℕ) - num : ℤ).natAbs ≤ ((u : ℤ) - num).natAbs := by
  have hdivision := Nat.div_add_mod' num quantum
  have hrest := Nat.mod_lt num hpos
  have hsides : u ≤ num / quantum * quantum ∨ num / quantum * quantum + quantum ≤ u := by
    rcases hu with ⟨k, rfl⟩ | hle
    · by_cases hk : k ≤ num / quantum
      · left
        rw [Nat.mul_comm]
        exact Nat.mul_le_mul_right quantum hk
      · right
        rw [← Nat.succ_mul, Nat.mul_comm quantum]
        exact Nat.mul_le_mul_right quantum (by omega)
    · exact .inl hle
  have hround : roundDiv num quantum * quantum = num / quantum * quantum ∧
        2 * (num % quantum) ≤ quantum ∨
      roundDiv num quantum * quantum = num / quantum * quantum + quantum ∧
        quantum ≤ 2 * (num % quantum) := by
    simp only [roundDiv]
    split_ifs with hup
    · exact .inr ⟨Nat.succ_mul _ _, by omega⟩
    · exact .inl ⟨rfl, by omega⟩
  generalize num / quantum * quantum = low at *
  generalize roundDiv num quantum * quantum = rounded at *
  omega

theorem ofUnits_eq (negative : Bool) (num den : ℕ) :
    ofUnits negative num den =
      ofMagnitude negative (min ((Nat.log2 (num / den) - 52) * 2 ^ 52 +
        roundDiv num (den * 2 ^ (Nat.log2 (num / den) - 52))) 0x7ff0000000000000) := rfl

/-- The significand of a quotient, at the shift that leaves 53 bits of it. -/
theorem significand_spec (num den : ℕ) :
    roundDiv num (den * 2 ^ (Nat.log2 (num / den) - 52)) ≤ 2 ^ 53 ∧
      (Nat.log2 (num / den) - 52 = 0 ∨
        2 ^ 52 ≤ num / (den * 2 ^ (Nat.log2 (num / den) - 52))) := by
  have hle := roundDiv_le_succ num (den * 2 ^ (Nat.log2 (num / den) - 52))
  rw [← Nat.div_div_eq_div_mul] at hle ⊢
  generalize num / den = n at *
  have hlt : n < 2 ^ (Nat.log2 n + 1) := Nat.lt_log2_self
  by_cases hlog : Nat.log2 n ≤ 52
  · have hzero : Nat.log2 n - 52 = 0 := by omega
    have hbound : n < 2 ^ 53 := hlt.trans_le (Nat.pow_le_pow_right (by decide) (by omega))
    refine ⟨?_, .inl hzero⟩
    have hquotient : n / 2 ^ (Nat.log2 n - 52) ≤ n := Nat.div_le_self _ _
    omega
  · have hne : n ≠ 0 := by
      rintro rfl
      exact hlog (by decide)
    have hge : 2 ^ Nat.log2 n ≤ n := Nat.log2_self_le hne
    have hsplit : Nat.log2 n = 52 + (Nat.log2 n - 52) := by omega
    generalize Nat.log2 n - 52 = shift at *
    rw [hsplit, Nat.pow_add] at hge
    rw [hsplit, show 52 + shift + 1 = 53 + shift by omega, Nat.pow_add] at hlt
    have hquotient : n / 2 ^ shift < 2 ^ 53 := (Nat.div_lt_iff_lt_mul (Nat.two_pow_pos shift)).mpr hlt
    refine ⟨by omega, .inr ?_⟩
    exact (Nat.le_div_iff_mul_le (Nat.two_pow_pos shift)).mpr hge

/-! ## Nearest doubles -/

theorem toNat_ofMagnitude {magnitude : ℕ} (h : magnitude < 2 ^ 63) (negative : Bool) :
    (ofMagnitude negative magnitude).bits.toNat =
      if negative then 2 ^ 63 + magnitude else magnitude := by
  have hlt : (if negative then 2 ^ 63 + magnitude else magnitude) < 2 ^ 64 := by
    split_ifs <;> omega
  rw [ofMagnitude, UInt64.toNat_ofNat_of_lt' hlt]

theorem magnitude_ofMagnitude {magnitude : ℕ} (h : magnitude < 2 ^ 63) (negative : Bool) :
    (ofMagnitude negative magnitude).magnitude = magnitude := by
  rw [F64.magnitude, toNat_ofMagnitude h]
  split_ifs <;> omega

theorem isSignNegative_ofMagnitude {magnitude : ℕ} (h : magnitude < 2 ^ 63) (negative : Bool) :
    (ofMagnitude negative magnitude).isSignNegative = negative := by
  rw [isSignNegative, toNat_ofMagnitude h]
  cases negative with
  | false => simpa using h
  | true => simp

/-- The result of a division is a multiple of its quantum. -/
theorem units_ofUnits {negative : Bool} {num den : ℕ}
    (hfinite : (ofUnits negative num den).isFinite = true) :
    (ofUnits negative num den).isSignNegative = negative ∧
      (ofUnits negative num den).units =
        roundDiv num (den * 2 ^ (Nat.log2 (num / den) - 52)) *
          2 ^ (Nat.log2 (num / den) - 52) := by
  obtain ⟨hle, hshift⟩ := significand_spec num den
  have hge := le_roundDiv num (den * 2 ^ (Nat.log2 (num / den) - 52))
  rw [ofUnits_eq] at hfinite ⊢
  generalize Nat.log2 (num / den) - 52 = shift at *
  generalize roundDiv num (den * 2 ^ shift) = significand at *
  have hsmall : min (shift * 2 ^ 52 + significand) 0x7ff0000000000000 < 2 ^ 63 := by omega
  rw [isFinite, magnitude_ofMagnitude hsmall, decide_eq_true_eq] at hfinite
  have hmin : min (shift * 2 ^ 52 + significand) 0x7ff0000000000000 =
      shift * 2 ^ 52 + significand := by omega
  refine ⟨isSignNegative_ofMagnitude hsmall negative, ?_⟩
  rw [units_eq, magnitude_ofMagnitude hsmall, hmin]
  exact unitsOf_shift hle (by omega)

/-- No double is nearer to the quotient. -/
theorem units_nearest {negative : Bool} {num den : ℕ} (hden : 0 < den)
    (hfinite : (ofUnits negative num den).isFinite = true) (m : ℕ) :
    (((ofUnits negative num den).units * den : ℕ) - num : ℤ).natAbs ≤
      ((unitsOf m * den : ℕ) - num : ℤ).natAbs := by
  obtain ⟨-, hshift⟩ := significand_spec num den
  rw [(units_ofUnits hfinite).2]
  generalize Nat.log2 (num / den) - 52 = shift at *
  have hpos : 0 < den * 2 ^ shift := Nat.mul_pos hden (Nat.two_pow_pos shift)
  rw [show roundDiv num (den * 2 ^ shift) * 2 ^ shift * den =
    roundDiv num (den * 2 ^ shift) * (den * 2 ^ shift) by ring]
  refine roundDiv_nearest hpos ?_
  by_cases hlarge : 2 ^ (52 + shift) ≤ unitsOf m
  · left
    rw [Nat.mul_comm den]
    exact Nat.mul_dvd_mul_right (dvd_unitsOf hlarge) den
  · rcases hshift with rfl | hquotient
    · left
      simp
    · right
      rw [Nat.pow_add] at hlarge
      calc unitsOf m * den ≤ 2 ^ 52 * 2 ^ shift * den := Nat.mul_le_mul_right den (by omega)
        _ = 2 ^ 52 * (den * 2 ^ shift) := by ring
        _ ≤ num / (den * 2 ^ shift) * (den * 2 ^ shift) := Nat.mul_le_mul_right _ hquotient

/-! ## Order -/

theorem units_lt_iff (x y : F64) : x.units < y.units ↔ x.magnitude < y.magnitude := by
  rw [units_eq, units_eq]
  exact unitsOf_strictMono.lt_iff_lt

theorem units_pos_iff (x : F64) : 0 < x.units ↔ 0 < x.magnitude :=
  unitsOf_strictMono.lt_iff_lt (a := 0)

theorem rank_lt_iff {x y : F64} (hx : x.isNan = false) (hy : y.isNan = false) :
    x.rank < y.rank ↔ x.signedUnits < y.signedUnits := by
  have hlt := units_lt_iff x y
  have hgt := units_lt_iff y x
  have hxpos := units_pos_iff x
  have hypos := units_pos_iff y
  simp only [rank, hx, hy, Bool.false_eq_true, if_false, signedUnits]
  split_ifs <;> omega

theorem lt_iff {x y : F64} (hx : x.isNan = false) (hy : y.isNan = false) :
    x.lt y = true ↔ x.signedUnits < y.signedUnits := by
  rw [lt, hx, hy]
  simpa using rank_lt_iff hx hy

theorem lt_of_isNan {x : F64} (h : x.isNan = true) (y : F64) : x.lt y = false ∧ y.lt x = false := by
  simp [lt, h]

/-! ## Values -/

/-- The number a finite double stands for. -/
def toRat (x : F64) : ℚ := x.signedUnits / 2 ^ 1074

/-- No double is nearer to the number. -/
def IsNearest (q : ℚ) (x : F64) : Prop :=
  x.isFinite = true ∧ ∀ y : F64, y.isFinite = true → |x.toRat - q| ≤ |y.toRat - q|

/-- A natural number with a sign. -/
def withSign (negative : Bool) (n : ℕ) : ℤ := if negative then -n else n

theorem signedUnits_eq (x : F64) : x.signedUnits = withSign x.isSignNegative x.units := rfl

theorem signedUnits_nearest {negative : Bool} {num den : ℕ} (hden : 0 < den)
    (hfinite : (ofUnits negative num den).isFinite = true) (y : F64) :
    |(ofUnits negative num den).signedUnits * den - withSign negative num| ≤
      |y.signedUnits * den - withSign negative num| := by
  have hnearest := units_nearest hden hfinite y.magnitude
  have hzero := units_nearest hden hfinite 0
  rw [signedUnits_eq, signedUnits_eq y, (units_ofUnits hfinite).1, y.units_eq]
  rw [show unitsOf 0 = 0 from rfl, Nat.zero_mul] at hzero
  generalize (ofUnits negative num den).units = u at *
  generalize unitsOf y.magnitude = w at *
  push_cast at hnearest hzero
  rw [Int.abs_eq_natAbs, Int.abs_eq_natAbs]
  have hw : (0 : ℤ) ≤ w * den := by positivity
  cases negative <;> cases y.isSignNegative <;>
    simp only [withSign, Bool.false_eq_true, if_true, if_false, neg_mul] <;> omega

/-- The result of a division is nearest to the quotient. -/
theorem isNearest_ofUnits {negative : Bool} {num den : ℕ} (hden : 0 < den)
    (hfinite : (ofUnits negative num den).isFinite = true) :
    IsNearest (withSign negative num / (den * 2 ^ 1074)) (ofUnits negative num den) := by
  refine ⟨hfinite, fun y _ => ?_⟩
  have hnearest := signedUnits_nearest hden hfinite y
  have hscale : (0 : ℚ) < 2 ^ 1074 := by positivity
  have hquotient : (0 : ℚ) < den := Nat.cast_pos.mpr hden
  simp only [toRat]
  generalize (2 : ℚ) ^ 1074 = scale at *
  have hdistance : ∀ z : ℤ, |(z : ℚ) / scale - withSign negative num / (den * scale)| =
      (|z * den - withSign negative num| : ℤ) / (den * scale) := by
    intro z
    have hsub : (z : ℚ) / scale - withSign negative num / (den * scale) =
        (z * den - withSign negative num : ℤ) / (den * scale) := by
      push_cast
      field_simp
    rw [hsub, abs_div, abs_of_pos (mul_pos hquotient hscale), Int.cast_abs]
  rw [hdistance, hdistance]
  gcongr

theorem toRat_eq_iff (x : F64) (k : ℤ) : x.toRat = k ↔ x.signedUnits = k * 2 ^ 1074 := by
  have hscale : ((2 ^ 1074 : ℤ) : ℚ) = 2 ^ 1074 := Int.cast_pow 2 1074
  rw [toRat, div_eq_iff (by positivity), ← hscale, ← Int.cast_mul, Int.cast_inj]

/-! ## Fractions -/

theorem isNan_of_isFinite {x : F64} (h : x.isFinite = true) : x.isNan = false := by
  simp only [isFinite, decide_eq_true_eq] at h
  simp only [isNan, decide_eq_false_iff_not]
  omega

theorem isInfinite_of_isFinite {x : F64} (h : x.isFinite = true) : x.isInfinite = false := by
  simp only [isFinite, decide_eq_true_eq] at h
  simp only [isInfinite, decide_eq_false_iff_not]
  omega

/-- A quotient that is not too large is rounded to a finite double. -/
theorem isFinite_ofUnits {num den bits : ℕ} (h : num / den < 2 ^ bits) (hbits : bits ≤ 2097)
    (negative : Bool) :
    (ofUnits negative num den).isFinite = true := by
  obtain ⟨hle, -⟩ := significand_spec num den
  have hlog : Nat.log2 (num / den) < bits ∨ num / den = 0 := by
    by_cases hzero : num / den = 0
    · exact .inr hzero
    · exact .inl ((Nat.log2_lt hzero).mpr h)
  have hshift : Nat.log2 (num / den) - 52 ≤ 2044 := by
    rcases hlog with hlt | hzero
    · omega
    · rw [hzero]
      decide
  rw [ofUnits_eq]
  generalize Nat.log2 (num / den) - 52 = shift at *
  generalize roundDiv num (den * 2 ^ shift) = significand at *
  rw [isFinite, magnitude_ofMagnitude (by omega), decide_eq_true_eq]
  omega

/-- Rounding leaves no part of a number out. -/
theorem units_ofUnits_pos_iff {negative : Bool} {num : ℕ}
    (hfinite : (ofUnits negative num 1).isFinite = true) :
    0 < (ofUnits negative num 1).units ↔ 0 < num := by
  constructor
  · intro h
    apply Nat.pos_of_ne_zero
    rintro rfl
    cases negative <;> exact absurd h (by decide)
  · intro h
    obtain ⟨-, hshift⟩ := significand_spec num 1
    have hge := le_roundDiv num (1 * 2 ^ (Nat.log2 (num / 1) - 52))
    rw [(units_ofUnits hfinite).2]
    apply Nat.mul_pos _ (Nat.two_pow_pos _)
    rcases hshift with hzero | hlarge
    · rw [hzero] at hge ⊢
      simp only [Nat.pow_zero, Nat.mul_one, Nat.div_one] at hge ⊢
      omega
    · omega

theorem fract_spec {x : F64} (h : x.isFinite = true) :
    x.fract.isFinite = true ∧ (0 < x.fract.magnitude ↔ x.units % 2 ^ 1074 ≠ 0) := by
  have hfract : x.fract = ofUnits x.isSignNegative (x.units % 2 ^ 1074) 1 := by
    rw [fract, isNan_of_isFinite h, isInfinite_of_isFinite h]
    rfl
  have hlt : x.units % 2 ^ 1074 / 1 < 2 ^ 1074 := by
    rw [Nat.div_one]
    exact Nat.mod_lt _ (by positivity)
  have hfinite := isFinite_ofUnits hlt (by decide) x.isSignNegative
  rw [hfract, ← units_pos_iff, units_ofUnits_pos_iff hfinite, Nat.pos_iff_ne_zero]
  exact ⟨hfinite, Iff.rfl⟩

theorem abs_spec (x : F64) : x.abs.magnitude = x.magnitude ∧ x.abs.isSignNegative = false := by
  have hlt : x.magnitude < 2 ^ 63 := Nat.mod_lt _ (by decide)
  exact ⟨magnitude_ofMagnitude hlt false, isSignNegative_ofMagnitude hlt false⟩

theorem zero_lt_abs_iff {x : F64} (h : x.isNan = false) :
    (ofNat 0).lt x.abs = true ↔ 0 < x.magnitude := by
  obtain ⟨hmagnitude, hsign⟩ := x.abs_spec
  have hnan : x.abs.isNan = false := by
    rw [isNan, hmagnitude]
    exact h
  rw [lt, hnan, show (ofNat 0).isNan = false by decide, show (ofNat 0).rank = 0 by decide]
  simp [rank, hnan, hsign, hmagnitude]

theorem eq_zero_iff {x : F64} (h : x.isNan = false) :
    x.eq (ofNat 0) = true ↔ x.magnitude = 0 := by
  rw [eq, h, show (ofNat 0).isNan = false by decide, show (ofNat 0).rank = 0 by decide]
  simp only [rank, h]
  cases x.isSignNegative <;> simp

/-- A finite double is a whole number when nothing is left of its units. -/
theorem units_mod_eq_zero_iff (x : F64) :
    x.units % 2 ^ 1074 = 0 ↔ ∃ k : ℤ, x.signedUnits = k * 2 ^ 1074 := by
  have hnatAbs : x.signedUnits.natAbs = x.units := by
    rw [signedUnits]
    split_ifs <;> omega
  have hscale : ((2 ^ 1074 : ℕ) : ℤ) = 2 ^ 1074 := Nat.cast_pow 2 1074
  rw [← Nat.dvd_iff_mod_eq_zero, ← hnatAbs, ← Int.natCast_dvd, hscale, dvd_iff_exists_eq_mul_left]

theorem truncAs_of_whole {x : F64} {k : ℤ} (h : x.isFinite = true)
    (hk : x.signedUnits = k * 2 ^ 1074) (low high : ℤ) :
    x.truncAs low high = Max.max low (min high k) := by
  rw [truncAs, isNan_of_isFinite h, hk, Int.mul_tdiv_cancel k (by positivity)]
  rfl

/-! ## Doubles read from texts -/

/-- Whether there is a minus, and what follows the sign. -/
def splitSign : List Char → Bool × List Char
  | '-' :: rest => (true, rest)
  | '+' :: rest => (false, rest)
  | text => (false, text)

/-- The exponent after the digits, up to the end of the text. -/
def readExponent : List Char → Option ℤ
  | [] => some 0
  | c :: rest =>
      let (negative, digits) := splitSign rest
      if (c = 'e' ∨ c = 'E') ∧ digits ≠ [] ∧ Decimal.Digits digits then
        some (withSign negative (Decimal.value digits))
      else none

/-- The digits after the decimal point, and what follows them. -/
def readFraction : List Char → List Char × List Char
  | '.' :: rest => (rest.takeWhile Char.isDigit, rest.dropWhile Char.isDigit)
  | rest => ([], rest)

/-- All digits as one number, and the power of ten that it is multiplied with. -/
def readNumber (text : List Char) : Option (ℕ × ℤ) :=
  let whole := text.takeWhile Char.isDigit
  let (fraction, rest) := readFraction (text.dropWhile Char.isDigit)
  if whole ++ fraction = [] then none
  else
    (readExponent rest).map fun exponent =>
      (Decimal.value (whole ++ fraction), exponent - fraction.length)

/-- The double nearest to `digits * 10 ^ exponent`. -/
def ofDecimal (negative : Bool) (digits : ℕ) (exponent : ℤ) : F64 :=
  ofUnits negative (digits * 10 ^ exponent.toNat * 2 ^ 1074) (10 ^ (-exponent).toNat)

/-- The names of values that are not finite, in any case. -/
def readName (negative : Bool) (text : List Char) : Option F64 :=
  let name := text.map Char.toLower
  if name = "inf".toList ∨ name = "infinity".toList then
    some (ofMagnitude negative 0x7ff0000000000000)
  else if name = "nan".toList then some (ofMagnitude negative 0x7ff8000000000000)
  else none

/-- `parse::<f64>`, with the texts of its errors. -/
def parse (text : List Char) : Except String F64 :=
  if text = [] then .error "cannot parse float from empty string"
  else
    let (negative, rest) := splitSign text
    match readNumber rest with
    | some (digits, exponent) => .ok (ofDecimal negative digits exponent)
    | none =>
        match readName negative rest with
        | some x => .ok x
        | none => .error "invalid float literal"

/-! ## The grammar -/

/-- An optional sign, and whether it is a minus. -/
inductive Sign : List Char → Bool → Prop
  | none : Sign [] false
  | plus : Sign ['+'] false
  | minus : Sign ['-'] true

/-- An optional exponent. -/
inductive Exponent : List Char → ℤ → Prop
  | none : Exponent [] 0
  | mark {c : Char} {sign digits : List Char} {negative : Bool} (hmark : c = 'e' ∨ c = 'E')
      (hsign : Sign sign negative) (hne : digits ≠ []) (hdigits : Decimal.Digits digits) :
      Exponent (c :: sign ++ digits) (withSign negative (Decimal.value digits))

/-- The digits after a decimal point, which may be absent with them. -/
inductive Fraction : List Char → List Char → Prop
  | none : Fraction [] []
  | point {digits : List Char} (hdigits : Decimal.Digits digits) : Fraction ('.' :: digits) digits

/-- The decimal text of a number. -/
inductive Denotes : List Char → ℚ → Prop
  | decimal {sign whole point fraction exponent : List Char} {negative : Bool} {e : ℤ}
      (hsign : Sign sign negative) (hwhole : Decimal.Digits whole)
      (hfraction : Fraction point fraction) (hne : whole ++ fraction ≠ [])
      (hexponent : Exponent exponent e) :
      Denotes (sign ++ whole ++ point ++ exponent)
        (withSign negative (Decimal.value (whole ++ fraction)) * 10 ^ (e - fraction.length))

theorem splitSign_spec (text : List Char) :
    ∃ sign, Sign sign (splitSign text).1 ∧ text = sign ++ (splitSign text).2 := by
  match text with
  | [] => exact ⟨[], .none, rfl⟩
  | c :: rest =>
      by_cases hminus : c = '-'
      · rw [hminus]
        exact ⟨['-'], .minus, rfl⟩
      · by_cases hplus : c = '+'
        · rw [hplus]
          exact ⟨['+'], .plus, rfl⟩
        · rw [splitSign.eq_3 _ (by simp [hminus]) (by simp [hplus])]
          exact ⟨[], .none, rfl⟩

theorem readExponent_sound {text : List Char} {e : ℤ} (h : readExponent text = some e) :
    Exponent text e := by
  cases text with
  | nil =>
      cases h
      exact .none
  | cons c rest =>
      obtain ⟨sign, hsign, hrest⟩ := splitSign_spec rest
      simp only [readExponent] at h
      generalize splitSign rest = parts at *
      subst hrest
      split_ifs at h with hread
      cases h
      obtain ⟨hmark, hne, hdigits⟩ := hread
      exact .mark hmark hsign hne hdigits

theorem digits_takeWhile (text : List Char) : Decimal.Digits (text.takeWhile Char.isDigit) :=
  fun _ hc => List.mem_takeWhile_imp hc

theorem readFraction_spec (text : List Char) :
    ∃ point, Fraction point (readFraction text).1 ∧ text = point ++ (readFraction text).2 := by
  match text with
  | [] => exact ⟨[], .none, rfl⟩
  | c :: rest =>
      by_cases hpoint : c = '.'
      · rw [hpoint]
        refine ⟨'.' :: rest.takeWhile Char.isDigit, .point (digits_takeWhile rest), ?_⟩
        rw [readFraction, List.cons_append, List.takeWhile_append_dropWhile]
      · rw [readFraction.eq_2 _ (by simp [hpoint])]
        exact ⟨[], .none, rfl⟩

theorem zpow_mul_pow (e : ℤ) : (10 : ℚ) ^ e * 10 ^ (-e).toNat = 10 ^ e.toNat := by
  rcases Int.le_total 0 e with hnonneg | hnonpos
  · rw [Int.toNat_of_nonpos (by omega), pow_zero, mul_one, ← zpow_natCast,
      Int.toNat_of_nonneg hnonneg]
  · rw [Int.toNat_of_nonpos hnonpos, pow_zero, ← zpow_natCast, Int.toNat_of_nonneg (by omega),
      ← zpow_add₀ (by decide), add_neg_cancel, zpow_zero]

theorem withSign_mul (negative : Bool) (n m : ℕ) :
    withSign negative (n * m) = withSign negative n * m := by
  cases negative with
  | false => exact Nat.cast_mul n m
  | true => rw [withSign, withSign, if_pos rfl, if_pos rfl, Nat.cast_mul, neg_mul]

/-- The rounding of a decimal. -/
theorem isNearest_ofDecimal {negative : Bool} {digits : ℕ} {exponent : ℤ}
    (hfinite : (ofDecimal negative digits exponent).isFinite = true) :
    IsNearest (withSign negative digits * 10 ^ exponent) (ofDecimal negative digits exponent) := by
  have hnearest := isNearest_ofUnits (by positivity) hfinite
  have hquotient : (withSign negative (digits * 10 ^ exponent.toNat * 2 ^ 1074) : ℚ) /
      ((10 ^ (-exponent).toNat : ℕ) * 2 ^ 1074) = withSign negative digits * 10 ^ exponent := by
    rw [withSign_mul, withSign_mul, div_eq_iff (by positivity)]
    simp only [Int.cast_mul, Int.cast_pow, Int.cast_ofNat, Nat.cast_pow, Nat.cast_ofNat]
    rw [← zpow_mul_pow exponent]
    generalize (2 : ℚ) ^ 1074 = scale
    ring
  rw [hquotient] at hnearest
  exact hnearest

theorem readNumber_sound {text : List Char} {digits : ℕ} {scale : ℤ}
    (h : readNumber text = some (digits, scale)) {sign : List Char} {negative : Bool}
    (hsign : Sign sign negative) :
    Denotes (sign ++ text) (withSign negative digits * 10 ^ scale) := by
  obtain ⟨point, hpoint, hrest⟩ := readFraction_spec (text.dropWhile Char.isDigit)
  simp only [readNumber] at h
  split_ifs at h with hne
  obtain ⟨e, hexponent, heq⟩ := Option.map_eq_some_iff.mp h
  obtain ⟨rfl, rfl⟩ := Prod.mk.inj heq
  have hdenotes := Denotes.decimal hsign (digits_takeWhile text) hpoint hne
    (readExponent_sound hexponent)
  rw [List.append_assoc, ← hrest, List.append_assoc, List.takeWhile_append_dropWhile] at hdenotes
  exact hdenotes

theorem isFinite_readName {negative : Bool} {text : List Char} {x : F64}
    (h : readName negative text = some x) : x.isFinite = false := by
  simp only [readName] at h
  split_ifs at h
  · cases h
    cases negative <;> decide
  · cases h
    cases negative <;> decide

/-- A text that is read as a finite double denotes a number to which the double is nearest. -/
theorem parse_sound {text : List Char} {x : F64} (h : parse text = .ok x)
    (hfinite : x.isFinite = true) : ∃ q, Denotes text q ∧ IsNearest q x := by
  obtain ⟨sign, hsign, hrest⟩ := splitSign_spec text
  simp only [parse] at h
  split_ifs at h with hempty
  cases hnumber : readNumber (splitSign text).2 with
  | some number =>
      rw [hnumber] at h
      cases h
      have hdenotes := readNumber_sound hnumber hsign
      rw [← hrest] at hdenotes
      exact ⟨_, hdenotes, isNearest_ofDecimal hfinite⟩
  | none =>
      rw [hnumber] at h
      cases hname : readName (splitSign text).1 (splitSign text).2 with
      | none =>
          rw [hname] at h
          cases h
      | some y =>
          rw [hname] at h
          cases h
          rw [isFinite_readName hname] at hfinite
          cases hfinite

/-! ## Every number of the grammar is read -/

/-- Digits end here. -/
def Ends (rest : List Char) : Prop := ∀ c, rest.head? = some c → c.isDigit = false

theorem takeWhile_digits {digits rest : List Char} (h : Decimal.Digits digits) (hrest : Ends rest) :
    (digits ++ rest).takeWhile Char.isDigit = digits ∧
      (digits ++ rest).dropWhile Char.isDigit = rest := by
  rw [List.takeWhile_append_of_pos h, List.dropWhile_append_of_pos h]
  cases rest with
  | nil => exact ⟨List.append_nil _, rfl⟩
  | cons c rest =>
      have hc := hrest c rfl
      rw [List.takeWhile_cons_of_neg (by simp [hc]), List.dropWhile_cons_of_neg (by simp [hc])]
      exact ⟨List.append_nil _, rfl⟩

theorem Exponent.ends {text : List Char} {e : ℤ} (h : Exponent text e) : Ends text := by
  intro c hc
  cases h with
  | none => cases hc
  | mark hmark hsign hne hdigits =>
      cases hc
      rcases hmark with rfl | rfl <;> decide

theorem Fraction.ends {text digits rest : List Char} (h : Fraction text digits)
    (hrest : Ends rest) : Ends (text ++ rest) := by
  cases h with
  | none => exact hrest
  | point hdigits =>
      intro c hc
      cases hc
      decide

/-- No sign starts the text. -/
def Unsigned (text : List Char) : Prop := text.head? ≠ some '-' ∧ text.head? ≠ some '+'

theorem splitSign_append {sign : List Char} {negative : Bool} (h : Sign sign negative)
    {text : List Char} (htext : Unsigned text) : splitSign (sign ++ text) = (negative, text) := by
  cases h with
  | plus => rfl
  | minus => rfl
  | none =>
      cases text with
      | nil => rfl
      | cons c rest =>
          rw [List.nil_append, splitSign.eq_3]
          · rintro _ h
            exact htext.1 (by rw [h]; rfl)
          · rintro _ h
            exact htext.2 (by rw [h]; rfl)

theorem unsigned_of_digits {digits rest : List Char} (hne : digits ≠ [])
    (h : Decimal.Digits digits) : Unsigned (digits ++ rest) := by
  cases digits with
  | nil => exact absurd rfl hne
  | cons c digits =>
      have hc := h c (by simp)
      constructor
      · rintro ⟨⟩
        cases hc
      · rintro ⟨⟩
        cases hc

theorem readExponent_complete {text : List Char} {e : ℤ} (h : Exponent text e) :
    readExponent text = some e := by
  cases h with
  | none => rfl
  | mark hmark hsign hne hdigits =>
      have hunsigned := @unsigned_of_digits _ [] hne hdigits
      rw [List.append_nil] at hunsigned
      rw [List.cons_append, readExponent, splitSign_append hsign hunsigned]
      exact if_pos ⟨hmark, hne, hdigits⟩

theorem readFraction_append {text digits rest : List Char} (h : Fraction text digits)
    (hends : Ends rest) (hrest : rest.head? ≠ some '.') :
    readFraction (text ++ rest) = (digits, rest) := by
  cases h with
  | none =>
      rw [List.nil_append, readFraction.eq_2]
      rintro _ rfl
      exact hrest rfl
  | point hdigits =>
      obtain ⟨htake, hdrop⟩ := takeWhile_digits hdigits hends
      rw [List.cons_append, readFraction, htake, hdrop]

theorem readNumber_complete {whole point fraction exponent : List Char} {e : ℤ}
    (hwhole : Decimal.Digits whole) (hfraction : Fraction point fraction)
    (hne : whole ++ fraction ≠ []) (hexponent : Exponent exponent e) :
    readNumber (whole ++ (point ++ exponent)) =
      some (Decimal.value (whole ++ fraction), e - fraction.length) := by
  have hpoint : exponent.head? ≠ some '.' := by
    cases hexponent with
    | none => simp
    | mark hmark =>
        rcases hmark with rfl | rfl <;> simp
  obtain ⟨htake, hdrop⟩ := takeWhile_digits hwhole (hfraction.ends hexponent.ends)
  simp only [readNumber]
  rw [htake, hdrop, readFraction_append hfraction hexponent.ends hpoint, if_neg hne,
    readExponent_complete hexponent]
  rfl

/-- Every number of the grammar is read, and rounded to a nearest double unless it is too large. -/
theorem parse_complete {text : List Char} {q : ℚ} (h : Denotes text q) :
    ∃ x, parse text = .ok x ∧ (x.isFinite = true → IsNearest q x) := by
  cases h with
  | @decimal sign whole point fraction exponent negative e hsign hwhole hfraction hne hexponent =>
      have hbody : Unsigned (whole ++ (point ++ exponent)) ∧ whole ++ (point ++ exponent) ≠ [] := by
        cases whole with
        | cons c whole => exact ⟨unsigned_of_digits (by simp) hwhole, by simp⟩
        | nil =>
            cases hfraction with
            | none => exact absurd rfl hne
            | point hdigits => exact ⟨⟨by simp, by simp⟩, by simp⟩
      obtain ⟨hunsigned, hnonempty⟩ := hbody
      refine ⟨_, ?_, isNearest_ofDecimal⟩
      simp only [List.append_assoc, parse]
      rw [if_neg (by simp [hnonempty]), splitSign_append hsign hunsigned,
        readNumber_complete hwhole hfraction hne hexponent]

end GoogleCloudRust.F64
