import Mathlib.Data.List.Lex
import Mathlib.Algebra.Order.Ring.Nat
import GoogleCloudRust.Library.OrderedCode

/-! # Byte strings and their big-endian numerals -/

namespace GoogleCloudRust

abbrev Bytes := List UInt8

/-- The order of `u8`; with it byte strings are ordered lexicographically. -/
instance instLinearOrderUInt8 : LinearOrder UInt8 where
  le_refl := UInt8.le_refl
  le_trans := fun _ _ _ => UInt8.le_trans
  lt_iff_le_not_ge a b := by
    rw [UInt8.lt_iff_le_and_ne]
    constructor <;> grind
  le_antisymm := fun _ _ => UInt8.le_antisymm
  le_total := UInt8.le_total
  toDecidableLE := inferInstance
  toDecidableEq := inferInstance
  toDecidableLT := inferInstance
  compare_eq_compareOfLessAndEq _ _ := rfl
  min_def _ _ := rfl
  max_def _ _ := rfl

theorem compare_uint8 (a b : UInt8) : compare a b = compare a.toNat b.toNat := by
  simp only [compare, compareOfLessAndEq, UInt8.lt_iff_toNat_lt, ← UInt8.toNat_inj]

/-- The `n` low-order base-256 digits of `x`, most significant first. -/
def beBytes : ℕ → ℕ → Bytes
  | 0, _ => []
  | n + 1, x => UInt8.ofNat (x / 256 ^ n) :: beBytes n x

@[simp] theorem length_beBytes (n x : ℕ) : (beBytes n x).length = n := by
  induction n with
  | zero => rfl
  | succ n ih => simp [beBytes, ih]

@[simp] theorem drop_beBytes (m n x : ℕ) : (beBytes (m + n) x).drop m = beBytes n x := by
  induction m with
  | zero => simp
  | succ m ih =>
      rw [Nat.add_right_comm, beBytes, List.drop_succ_cons]
      exact ih

/-- Digits above position `n` do not occur in the numeral of length `n`. -/
theorem beBytes_add_mul (n x k : ℕ) : beBytes n (x + 256 ^ n * k) = beBytes n x := by
  induction n generalizing k with
  | zero => rfl
  | succ n ih =>
      have hhead : (x + 256 ^ (n + 1) * k) / 256 ^ n = x / 256 ^ n + 256 * k := by
        rw [pow_succ, Nat.mul_assoc, Nat.add_mul_div_left _ _ (Nat.pow_pos (by decide))]
      have htail : beBytes n (x + 256 ^ (n + 1) * k) = beBytes n x := by
        rw [pow_succ, Nat.mul_assoc]
        exact ih (256 * k)
      rw [beBytes, beBytes, hhead, htail]
      congr 1
      apply UInt8.toNat_inj.mp
      simp

theorem beBytes_mod (n x : ℕ) : beBytes n (x % 256 ^ n) = beBytes n x := by
  have h := beBytes_add_mul n (x % 256 ^ n) (x / 256 ^ n)
  rwa [Nat.mod_add_div, eq_comm] at h

/-- A numeral with a low-order digit appended. -/
theorem beBytes_snoc (n x : ℕ) (d : UInt8) :
    beBytes n x ++ [d] = beBytes (n + 1) (256 * x + d.toNat) := by
  have hd := d.toNat_lt
  induction n with
  | zero =>
      have hlow : UInt8.ofNat (256 * x + d.toNat) = d := by
        apply UInt8.toNat_inj.mp
        simp
      simp [beBytes, hlow]
  | succ n ih =>
      have hhead : (256 * x + d.toNat) / 256 ^ (n + 1) = x / 256 ^ n := by
        rw [pow_succ', ← Nat.div_div_eq_div_mul]
        congr 1
        omega
      rw [beBytes, List.cons_append, ih, ← hhead]
      rfl

/-- A numeral in two parts. -/
theorem beBytes_append (m n x y : ℕ) (hy : y < 256 ^ n) :
    beBytes m x ++ beBytes n y = beBytes (m + n) (x * 256 ^ n + y) := by
  induction m with
  | zero =>
      rw [Nat.zero_add, ← beBytes_add_mul n y x, Nat.add_comm, Nat.mul_comm]
      rfl
  | succ m ih =>
      have hhead : (x * 256 ^ n + y) / 256 ^ (m + n) = x / 256 ^ m := by
        rw [Nat.add_comm m n, pow_add, ← Nat.div_div_eq_div_mul, Nat.mul_comm, Nat.mul_add_div
          (Nat.pow_pos (by decide)), Nat.div_eq_of_lt hy, Nat.add_zero]
      rw [Nat.add_right_comm, beBytes, beBytes, List.cons_append, ih, hhead]

/-- Numerals of one length compare as the numbers they denote. -/
theorem compare_beBytes (n x y : ℕ) (hx : x < 256 ^ n) (hy : y < 256 ^ n) (s t : Bytes) :
    compare (beBytes n x ++ s) (beBytes n y ++ t) = (compare x y).then (compare s t) := by
  induction n generalizing x y with
  | zero =>
      have hx0 : x = 0 := by simpa using hx
      have hy0 : y = 0 := by simpa using hy
      subst hx0 hy0
      rfl
  | succ n ih =>
      have hp : 0 < 256 ^ n := Nat.pow_pos (by decide)
      have hxq : x / 256 ^ n < 256 := by
        rw [Nat.div_lt_iff_lt_mul hp]
        simpa [pow_succ, Nat.mul_comm] using hx
      have hyq : y / 256 ^ n < 256 := by
        rw [Nat.div_lt_iff_lt_mul hp]
        simpa [pow_succ, Nat.mul_comm] using hy
      have htail := ih (x % 256 ^ n) (y % 256 ^ n) (Nat.mod_lt _ hp) (Nat.mod_lt _ hp)
      rw [beBytes_mod, beBytes_mod] at htail
      have hsplit : compare x y =
          (compare (x / 256 ^ n) (y / 256 ^ n)).then (compare (x % 256 ^ n) (y % 256 ^ n)) := by
        have hxs := Nat.div_add_mod x (256 ^ n)
        have hys := Nat.div_add_mod y (256 ^ n)
        have hxm := Nat.mod_lt x hp
        have hym := Nat.mod_lt y hp
        rcases lt_trichotomy (x / 256 ^ n) (y / 256 ^ n) with h | h | h
        · have hlt : x < y := Nat.lt_of_div_lt_div h
          rw [Nat.compare_eq_lt.mpr hlt, Nat.compare_eq_lt.mpr h]
          rfl
        · rw [Nat.compare_eq_eq.mpr h, Ordering.eq_then]
          rw [h] at hxs
          apply compare_eq_compare_of_lt_iff <;> omega
        · have hgt : y < x := Nat.lt_of_div_lt_div h
          rw [Nat.compare_eq_gt.mpr hgt, Nat.compare_eq_gt.mpr h]
          rfl
      rw [beBytes, beBytes, List.cons_append, List.cons_append, List.compare_cons_cons, htail,
        compare_uint8, UInt8.toNat_ofNat_of_lt' hxq, UInt8.toNat_ofNat_of_lt' hyq,
        ← Ordering.then_assoc, hsplit]

end GoogleCloudRust
