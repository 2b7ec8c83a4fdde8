import Mathlib.Algebra.Order.Ring.Nat
import Mathlib.Data.List.DropRight
import Mathlib.Tactic.Ring

/-! # Decimal digits

Texts of decimal digits and the numbers they stand for: truncation, padding with zeros at the
front and removal of zeros at the end. -/

namespace GoogleCloudRust.Decimal

variable {digits rest : List Char}

abbrev Digits (text : List Char) : Prop := ∀ c ∈ text, c.isDigit = true

-- Decided along the text and not, as any statement about all characters can be, over all of them.
instance (text : List Char) : Decidable (Digits text) := List.decidableBAll _ text

/-- The number that a text of digits stands for. -/
def value (text : List Char) : ℕ := Nat.ofDigitChars 10 text 0

@[simp] theorem value_nil : value [] = 0 := rfl

theorem value_append (front rest : List Char) :
    value (front ++ rest) = 10 ^ rest.length * value front + value rest := by
  rw [value, Nat.ofDigitChars_append, Nat.ofDigitChars_eq_ofDigitChars_zero]
  rfl

@[simp] theorem value_replicate_zero (n : ℕ) : value (List.replicate n '0') = 0 := by
  rw [value, Nat.ofDigitChars_replicate_zero, Nat.mul_zero]

@[simp] theorem value_toDigits (n : ℕ) : value (Nat.toDigits 10 n) = n :=
  Nat.ofDigitChars_toDigits (by decide) (by decide)

theorem digits_toDigits (n : ℕ) : Digits (Nat.toDigits 10 n) := fun _ hc =>
  Nat.isDigit_of_mem_toDigits (by decide) (by decide) hc

theorem Digits.of_append_left (h : Digits (digits ++ rest)) : Digits digits := fun c hc =>
  h c (List.mem_append_left _ hc)

theorem Digits.of_append_right (h : Digits (digits ++ rest)) : Digits rest := fun c hc =>
  h c (List.mem_append_right _ hc)

theorem Digits.append (h : Digits digits) (h' : Digits rest) : Digits (digits ++ rest) := by
  intro c hc
  rcases List.mem_append.mp hc with hc | hc
  · exact h c hc
  · exact h' c hc

theorem Digits.take (h : Digits digits) (n : ℕ) : Digits (digits.take n) := fun c hc =>
  h c (List.mem_of_mem_take hc)

theorem value_lt (h : Digits digits) : value digits < 10 ^ digits.length := by
  induction digits using List.reverseRecOn with
  | nil => simp
  | append_singleton front c ih =>
      have hfront := ih h.of_append_left
      have hc : c.isDigit = true := h c (by simp)
      have hvalue : value [c] < 10 := by
        have hle : c.toNat ≤ 57 := by
          simp only [Char.isDigit, Bool.and_eq_true, decide_eq_true_eq] at hc
          exact hc.2
        have heq : value [c] = c.toNat - 48 := by simp [value, Nat.ofDigitChars]
        omega
      rw [value_append, List.length_append, List.length_singleton, pow_succ]
      omega

/-- Leading digits are a quotient. -/
theorem value_take (h : Digits digits) (n : ℕ) :
    value (digits.take n) = value digits / 10 ^ (digits.length - n) := by
  have hsplit := value_append (digits.take n) (digits.drop n)
  have hrest := @value_lt (digits.drop n) fun c hc => h c (List.mem_of_mem_drop hc)
  rw [List.take_append_drop, List.length_drop] at hsplit
  rw [List.length_drop] at hrest
  rw [hsplit, Nat.mul_add_div (Nat.pow_pos (by decide)), Nat.div_eq_of_lt hrest, Nat.add_zero]

/-! ## Padding and trimming -/

def pad (width : ℕ) (text : List Char) : List Char := text.leftpad width '0'

def trimEnd (text : List Char) : List Char := text.rdropWhile (· == '0')

theorem length_pad {width : ℕ} (h : digits.length ≤ width) : (pad width digits).length = width := by
  simp [pad, List.leftpad]
  omega

theorem value_pad (width : ℕ) : value (pad width digits) = value digits := by
  rw [pad, List.leftpad, value_append, value_replicate_zero, Nat.mul_zero, Nat.zero_add]

theorem Digits.pad (h : Digits digits) (width : ℕ) : Digits (pad width digits) := by
  refine Digits.append (fun c hc => ?_) h
  rw [List.eq_of_mem_replicate hc]
  rfl

theorem Digits.rightpad (h : Digits digits) (width : ℕ) : Digits (digits.rightpad width '0') := by
  refine Digits.append h fun c hc => ?_
  rw [List.eq_of_mem_replicate hc]
  rfl

/-- What was removed at the end are zeros. -/
theorem trimEnd_append (text : List Char) :
    ∃ n, text = trimEnd text ++ List.replicate n '0' := by
  induction text using List.reverseRecOn with
  | nil => exact ⟨0, rfl⟩
  | append_singleton front c ih =>
      obtain ⟨n, hn⟩ := ih
      by_cases hc : c = '0'
      · subst hc
        refine ⟨n + 1, ?_⟩
        rw [trimEnd, List.rdropWhile_concat_pos _ _ _ rfl, List.replicate_succ', ← List.append_assoc]
        rw [trimEnd] at hn
        rw [← hn]
      · refine ⟨0, ?_⟩
        rw [trimEnd, List.rdropWhile_concat_neg _ _ _ (by simpa using hc)]
        simp

theorem value_trimEnd (text : List Char) :
    value text = 10 ^ (text.length - (trimEnd text).length) * value (trimEnd text) := by
  obtain ⟨n, hn⟩ := trimEnd_append text
  have hlength : text.length - (trimEnd text).length = n := by
    have hcongr := congrArg List.length hn
    rw [List.length_append, List.length_replicate] at hcongr
    omega
  rw [hlength]
  nth_rewrite 1 [hn]
  rw [value_append, value_replicate_zero, List.length_replicate, Nat.add_zero]

theorem length_trimEnd_le (text : List Char) : (trimEnd text).length ≤ text.length := by
  obtain ⟨n, hn⟩ := trimEnd_append text
  have hcongr := congrArg List.length hn
  rw [List.length_append] at hcongr
  omega

theorem Digits.trimEnd (h : Digits digits) : Digits (trimEnd digits) := by
  obtain ⟨n, hn⟩ := trimEnd_append digits
  rw [hn] at h
  exact h.of_append_left

end GoogleCloudRust.Decimal
