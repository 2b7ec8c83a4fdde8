import Mathlib.Algebra.Order.Ring.Int

/-! # IEEE 754 binary64 by bit pattern -/

namespace GoogleCloudRust

/-- A `f64`, given by the 64 bits of its interchange format. -/
structure F64 where
  bits : UInt64
deriving DecidableEq, Repr

namespace F64

/-- Exponent and fraction, read as one number. -/
def magnitude (x : F64) : ℕ := x.bits.toNat % 2 ^ 63

def isSignNegative (x : F64) : Bool := 2 ^ 63 ≤ x.bits.toNat

def isSignPositive (x : F64) : Bool := !x.isSignNegative

/-- All exponent bits set and a nonzero fraction. -/
def isNan (x : F64) : Bool := 0x7ff0000000000000 < x.magnitude

def isFinite (x : F64) : Bool := x.magnitude < 0x7ff0000000000000

def nan : F64 := ⟨0x7ff8000000000000⟩

def infinity : F64 := ⟨0x7ff0000000000000⟩

def negInfinity : F64 := ⟨0xfff0000000000000⟩

/-- `n as f64` for an unsigned integer: round to nearest, ties to even. The carry of
a rounded-up significand lands in the exponent field. -/
def ofNat (n : ℕ) : F64 :=
  if n = 0 then ⟨0⟩
  else
    let e := Nat.log2 n
    let significand :=
      if e ≤ 52 then n * 2 ^ (52 - e)
      else
        let shift := e - 52
        let q := n / 2 ^ shift
        let r := n % 2 ^ shift
        let half := 2 ^ (shift - 1)
        if half < r ∨ (r = half ∧ q % 2 = 1) then q + 1 else q
    ⟨UInt64.ofNat ((e + 1022) * 2 ^ 52 + significand)⟩

/-- `n as f64` for a signed integer. -/
def ofInt (n : ℤ) : F64 :=
  if n < 0 then ⟨(ofNat n.natAbs).bits ||| 0x8000000000000000⟩ else ofNat n.natAbs

/-- The position of a float in the order of bit patterns: sign and magnitude for
numbers, one place above all of them for every NaN. -/
def rank (x : F64) : ℤ :=
  if x.isNan then 2 ^ 63 else if x.isSignNegative then -(x.magnitude : ℤ) else x.magnitude

/-- Zeros are equal, NaNs are equal and above positive infinity. -/
def totalCompare (x y : F64) : Ordering := compare x.rank y.rank

/-- The key by which `total_cmp` orders: negative floats below positive ones, a NaN by its bits. -/
def totalKey (x : F64) : ℤ := if x.isSignNegative then -(x.magnitude : ℤ) - 1 else x.magnitude

/-- `total_cmp`. -/
def totalCmp (x y : F64) : Ordering := compare x.totalKey y.totalKey

/-! ## Arithmetic

The finite floats are the multiples of the smallest positive one that fit into 53 bits
with a shift. Results are computed in these units and rounded to nearest, ties to even. -/

def isInfinite (x : F64) : Bool := x.magnitude = 0x7ff0000000000000

/-- `<` of the language: false as soon as a NaN is involved. -/
def lt (x y : F64) : Bool := !x.isNan && !y.isNan && x.rank < y.rank

/-- `<=` of the language. -/
def le (x y : F64) : Bool := !x.isNan && !y.isNan && x.rank ≤ y.rank

/-- `f64::max`, which prefers a number to a NaN. -/
def max (x y : F64) : F64 :=
  if x.isNan then y else if y.isNan then x else if x.lt y then y else x

/-- The absolute value as a multiple of `2 ^ (-1074)`. -/
def units (x : F64) : ℕ :=
  let exponent := x.magnitude / 2 ^ 52
  let fraction := x.magnitude % 2 ^ 52
  if exponent = 0 then fraction else (2 ^ 52 + fraction) * 2 ^ (exponent - 1)

def ofMagnitude (negative : Bool) (magnitude : ℕ) : F64 :=
  ⟨UInt64.ofNat (if negative then 2 ^ 63 + magnitude else magnitude)⟩

/-- The float nearest to `num / den` units. Below `2 ^ 53` units the count of units is
itself the bit pattern; a result that is too large becomes infinite. -/
def ofUnits (negative : Bool) (num den : ℕ) : F64 :=
  let shift := Nat.log2 (num / den) - 52
  let quantum := den * 2 ^ shift
  let q := num / quantum
  let r := num % quantum
  let significand := if quantum < 2 * r ∨ (2 * r = quantum ∧ q % 2 = 1) then q + 1 else q
  ofMagnitude negative (min (shift * 2 ^ 52 + significand) 0x7ff0000000000000)

/-- The value in units, with its sign. -/
def signedUnits (x : F64) : ℤ := if x.isSignNegative then -(x.units : ℤ) else x.units

/-- `x + y`, up to the sign of a zero. -/
def add (x y : F64) : F64 :=
  if x.isNan || y.isNan then nan
  else if x.isInfinite then
    if y.isInfinite && x.isSignNegative != y.isSignNegative then nan else x
  else if y.isInfinite then y
  else
    let sum := x.signedUnits + y.signedUnits
    ofUnits (sum < 0) sum.natAbs 1

def mul (x y : F64) : F64 :=
  let negative := x.isSignNegative != y.isSignNegative
  if x.isNan || y.isNan then nan
  else if x.isInfinite || y.isInfinite then
    if x.magnitude = 0 || y.magnitude = 0 then nan else ofMagnitude negative 0x7ff0000000000000
  else ofUnits negative (x.units * y.units) (2 ^ 1074)

def div (x y : F64) : F64 :=
  let negative := x.isSignNegative != y.isSignNegative
  if x.isNan || y.isNan then nan
  else if x.isInfinite then
    if y.isInfinite then nan else ofMagnitude negative 0x7ff0000000000000
  else if y.isInfinite then ofMagnitude negative 0
  else if y.magnitude = 0 then
    if x.magnitude = 0 then nan else ofMagnitude negative 0x7ff0000000000000
  else ofUnits negative (x.units * 2 ^ 1074) y.units

/-- `x.floor() as uN` for the unsigned type with the largest value `last`: the cast
saturates, and a NaN becomes zero. -/
def floorAs (last : ℕ) (x : F64) : ℕ :=
  if x.isNan || x.isSignNegative then 0 else min (x.units / 2 ^ 1074) last

/-- `x.ceil() as uN`. -/
def ceilAs (last : ℕ) (x : F64) : ℕ :=
  if x.isNan || x.isSignNegative then 0 else min ((x.units + (2 ^ 1074 - 1)) / 2 ^ 1074) last

/-- `==` of the language: zeros are equal, and a NaN is not equal to itself. -/
def eq (x y : F64) : Bool := !x.isNan && !y.isNan && x.rank = y.rank

def abs (x : F64) : F64 := ofMagnitude false x.magnitude

/-- `f64::fract`, up to the sign of a zero. -/
def fract (x : F64) : F64 :=
  if x.isNan || x.isInfinite then nan else ofUnits x.isSignNegative (x.units % 2 ^ 1074) 1

/-- `x as T` for the integer type with these bounds: rounds towards zero and saturates, and a NaN
becomes zero. -/
def truncAs (low high : ℤ) (x : F64) : ℤ :=
  if x.isNan then 0 else Max.max low (min high (x.signedUnits.tdiv (2 ^ 1074)))

-- 10 / 3 rounds up in its last place, and 0.1 + 0.2 is not 0.3.
example : ((ofNat 10).div (ofNat 3)).bits = 0x400aaaaaaaaaaaab := by decide +kernel
example : (add ⟨0x3fb999999999999a⟩ ⟨0x3fc999999999999a⟩).bits = 0x3fd3333333333334 := by
  decide +kernel

end F64

end GoogleCloudRust
