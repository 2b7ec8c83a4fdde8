import Mathlib.Algebra.Order.Group.Abs
import Mathlib.Algebra.Order.Ring.Int
import Mathlib.Order.Interval.Set.Basic
import Mathlib.Tactic.Common

/-! # Signed integers

Sums that saturate or are checked, values of `Int64` operations that do not overflow, and of
conversions between `Int64` and `UInt64` that keep the number. In general, values stand for the
elements between two bounds, and an element outside is given one of two chosen values, which need
not be the first or the last. -/

namespace GoogleCloudRust

namespace Signed

/-- `saturating_add` and `saturating_sub`: the closest number of so many bits. -/
def saturate (bits : ℕ) (n : ℤ) : ℤ := max (-2 ^ (bits - 1)) (min n (2 ^ (bits - 1) - 1))

/-- The result of an operation on numbers of so many bits, unless it overflows. -/
def checked (bits : ℕ) (n : ℤ) : Option ℤ :=
  if -2 ^ (bits - 1) ≤ n ∧ n < 2 ^ (bits - 1) then some n else none

/-- `as`: the number of so many bits that is left when higher ones are dropped. -/
def cast (bits : ℕ) (n : ℤ) : ℤ := n.bmod (2 ^ bits)

theorem saturate_cases (bits : ℕ) (n : ℤ) :
    saturate bits n = n ∨ (saturate bits n = 2 ^ (bits - 1) - 1 ∧ 2 ^ (bits - 1) - 1 < n) ∨
      (saturate bits n = -2 ^ (bits - 1) ∧ n < -2 ^ (bits - 1)) := by
  have hpos : (0 : ℤ) < 2 ^ (bits - 1) := Int.pow_pos (by decide)
  rw [saturate]
  omega

theorem checked_eq_some {bits : ℕ} {n : ℤ} (hlower : -2 ^ (bits - 1) ≤ n)
    (hupper : n < 2 ^ (bits - 1)) : checked bits n = some n := by
  rw [checked, if_pos ⟨hlower, hupper⟩]

theorem cast_eq {bits : ℕ} (hbits : 0 < bits) {n : ℤ} (hlower : -2 ^ (bits - 1) ≤ n)
    (hupper : n < 2 ^ (bits - 1)) : cast bits n = n := by
  obtain ⟨k, rfl⟩ : ∃ k, bits = k + 1 := ⟨bits - 1, by omega⟩
  have hpow : (2 : ℤ) ^ (k + 1) = 2 ^ k * 2 := pow_succ 2 k
  rw [Nat.add_sub_cancel] at hlower hupper
  rw [cast]
  apply Int.bmod_eq_of_le
  · push_cast
    omega
  · push_cast
    omega

variable {a b : Int64}

theorem toInt_add (hlower : -2 ^ 63 ≤ a.toInt + b.toInt) (hupper : a.toInt + b.toInt < 2 ^ 63) :
    (a + b).toInt = a.toInt + b.toInt := by
  rw [Int64.toInt_add]
  exact Int.bmod_eq_of_le (by omega) (by omega)

theorem toInt_sub (hlower : -2 ^ 63 ≤ a.toInt - b.toInt) (hupper : a.toInt - b.toInt < 2 ^ 63) :
    (a - b).toInt = a.toInt - b.toInt := by
  rw [Int64.toInt_sub]
  exact Int.bmod_eq_of_le (by omega) (by omega)

theorem toInt_neg (h : -2 ^ 63 < a.toInt) : (-a).toInt = -a.toInt := by
  have hlt := Int64.toInt_lt a
  rw [Int64.toInt_neg]
  exact Int.bmod_eq_of_le (by omega) (by omega)

theorem toNat_toUInt64 (h : 0 ≤ a.toInt) : (a.toUInt64.toNat : ℤ) = a.toInt := by
  have hsigned : a.toInt = a.toBitVec.toInt := rfl
  have hunsigned : a.toUInt64.toNat = a.toBitVec.toNat := rfl
  rw [hsigned, BitVec.toInt_eq_toNat_cond] at h ⊢
  rw [hunsigned]
  omega

theorem toInt_toInt64 {u : UInt64} (h : u.toNat < 2 ^ 63) : u.toInt64.toInt = u.toNat := by
  have hsigned : u.toInt64.toInt = u.toBitVec.toInt := rfl
  have hnat : u.toBitVec.toNat = u.toNat := rfl
  rw [hsigned, BitVec.toInt_eq_toNat_of_lt (by omega), hnat]

end Signed

/-! ## Saturation -/

variable {α V : Type*}

/-- Every element between `lo` and `hi` has one value; `low` and `high` are the chosen ones. -/
structure Saturation [LinearOrder α] (value : V → α) (lo hi : α) (low high : V) : Prop where
  injective : Function.Injective value
  range_eq : Set.range value = Set.Icc lo hi
  low_le_high : value low ≤ value high

/-- The value that is given to `x`. -/
inductive Saturates [LinearOrder α] (value : V → α) (lo hi : α) (low high : V) (x : α) :
    V → Prop
  | exact {v : V} (h : value v = x) : Saturates value lo hi low high x v
  | above (h : hi < x) : Saturates value lo hi low high x high
  | below (h : x < lo) : Saturates value lo hi low high x low

/-- No value is closer to `x`. -/
def Closest [AddCommGroup α] [LinearOrder α] (value : V → α) (x : α) (v : V) : Prop :=
  ∀ w, |value v - x| ≤ |value w - x|

namespace Saturation

section Order

variable [LinearOrder α] {value : V → α} {lo hi x y : α} {low high v w : V}
  (h : Saturation value lo hi low high)

include h

theorem lo_le (v : V) : lo ≤ value v := by
  have hmem : value v ∈ Set.Icc lo hi := h.range_eq ▸ Set.mem_range_self v
  exact hmem.1

theorem le_hi (v : V) : value v ≤ hi := by
  have hmem : value v ∈ Set.Icc lo hi := h.range_eq ▸ Set.mem_range_self v
  exact hmem.2

theorem exists_value (hlo : lo ≤ x) (hhi : x ≤ hi) : ∃ v, value v = x := by
  have hmem : x ∈ Set.range value := h.range_eq ▸ ⟨hlo, hhi⟩
  exact hmem

/-- An element that has a value is given that value. -/
theorem eq_of_value (hv : Saturates value lo hi low high (value w) v) : v = w := by
  cases hv with
  | exact heq => exact h.injective heq
  | above hlt => exact absurd (h.le_hi w) (not_le.mpr hlt)
  | below hlt => exact absurd (h.lo_le w) (not_le.mpr hlt)

theorem eq_high (hv : Saturates value lo hi low high x v) (hlt : hi < x) : v = high := by
  cases hv with
  | exact heq => exact absurd (heq ▸ h.le_hi v) (not_le.mpr hlt)
  | above => rfl
  | below hbelow =>
    exact absurd ((h.lo_le low).trans (h.le_hi low)) (not_le.mpr (hlt.trans hbelow))

theorem eq_low (hv : Saturates value lo hi low high x v) (hlt : x < lo) : v = low := by
  cases hv with
  | exact heq => exact absurd (heq ▸ h.lo_le v) (not_le.mpr hlt)
  | above habove =>
    exact absurd ((h.lo_le high).trans (h.le_hi high)) (not_le.mpr (habove.trans hlt))
  | below => rfl

/-- The order is only reversed between an element beyond a chosen value and one outside the
bounds on the same side. -/
theorem value_le_iff (hv : Saturates value lo hi low high x v)
    (hw : Saturates value lo hi low high y w) (hlt : x < y) :
    value v ≤ value w ↔
      ¬ (value high < x ∧ x ≤ hi ∧ hi < y) ∧ ¬ (x < lo ∧ lo ≤ y ∧ y < value low) := by
  have hbounds := (h.lo_le v).trans (h.le_hi v)
  cases hv with
  | exact heqx =>
    subst heqx
    have hlo := h.lo_le v
    have hhi := h.le_hi v
    cases hw with
    | exact heqy =>
      subst heqy
      have hle := h.le_hi w
      simp only [hlt.le, not_lt.mpr hle, not_lt.mpr hlo, and_false, false_and, not_false_eq_true,
        and_self]
    | above habove => simp [hhi, habove, not_lt.mpr hlo]
    | below hbelow => exact absurd (hbelow.trans_le hlo) hlt.not_gt
  | above habove =>
    have hw' := h.eq_high hw (habove.trans hlt)
    subst hw'
    simp only [le_refl, not_le.mpr habove, not_lt.mpr (hbounds.trans habove.le), false_and,
      and_false, not_false_eq_true, and_self]
  | below hbelow =>
    have hx : ¬ value high < x := not_lt.mpr (hbelow.le.trans (h.lo_le high))
    cases hw with
    | exact heqy =>
      subst heqy
      simp [hx, hbelow, h.lo_le w]
    | above habove =>
      have hlow : ¬ y < value low := not_lt.mpr ((h.le_hi low).trans habove.le)
      simp [hx, hlow, h.low_le_high]
    | below hbelow' => simp [hx, not_le.mpr hbelow']

end Order

section Distance

variable [AddCommGroup α] [LinearOrder α] [IsOrderedAddMonoid α] {value : V → α} {lo hi x : α}
  {low high v : V} (h : Saturation value lo hi low high)

include h

/-- Outside the bounds a chosen value is only the closest where it is the last one. -/
theorem closest_iff (hv : Saturates value lo hi low high x v) :
    Closest value x v ↔ (hi < x → value high = hi) ∧ (x < lo → value low = lo) := by
  have hbounds := (h.lo_le v).trans (h.le_hi v)
  cases hv with
  | exact heq =>
    subst heq
    have hclosest : Closest value (value v) v := by
      intro w
      rw [sub_self, abs_zero]
      exact abs_nonneg _
    simp only [hclosest, not_lt.mpr (h.le_hi v), not_lt.mpr (h.lo_le v), false_imp_iff, and_self]
  | above habove =>
    have hdistance (w : V) : |value w - x| = x - value w := by
      rw [abs_sub_comm, abs_of_nonneg (sub_nonneg.mpr ((h.le_hi w).trans habove.le))]
    simp only [Closest, hdistance, sub_le_sub_iff_left, habove, true_imp_iff,
      not_lt.mpr (hbounds.trans habove.le), false_imp_iff, and_true]
    obtain ⟨last, hlast⟩ := h.exists_value hbounds le_rfl
    constructor
    · intro hle
      exact le_antisymm (h.le_hi high) (hlast ▸ hle last)
    · intro heq w
      exact heq ▸ h.le_hi w
  | below hbelow =>
    have hdistance (w : V) : |value w - x| = value w - x :=
      abs_of_nonneg (sub_nonneg.mpr (hbelow.le.trans (h.lo_le w)))
    simp only [Closest, hdistance, sub_le_sub_iff_right, hbelow, true_imp_iff,
      not_lt.mpr (hbelow.le.trans hbounds), false_imp_iff, true_and]
    obtain ⟨first, hfirst⟩ := h.exists_value le_rfl hbounds
    constructor
    · intro hle
      exact le_antisymm (hfirst ▸ hle first) (h.lo_le low)
    · intro heq w
      exact heq ▸ h.lo_le w

end Distance

end Saturation

end GoogleCloudRust
