import Mathlib.Data.List.Basic
import Mathlib.Order.Compare
import Mathlib.Order.Lattice

/-! # Self-delimiting codes that preserve an order

A code is judged by what it does in front of arbitrary continuations. The law
below says at once that the code is prefix-free, that it is injective up to
`cmp`, and that lexicographic comparison of code words is `cmp`; it is closed
under concatenation, which is what makes tuples of columns comparable. -/

namespace GoogleCloudRust

/-- Pairs that are ordered alike compare alike. -/
theorem compare_eq_compare_of_lt_iff {α β : Type*} [LinearOrder α] [LinearOrder β]
    {a b : α} {c d : β} (hlt : a < b ↔ c < d) (hgt : b < a ↔ d < c) :
    compare a b = compare c d := by
  rcases lt_trichotomy a b with h | h | h
  · rw [compare_lt_iff_lt.mpr h, compare_lt_iff_lt.mpr (hlt.mp h)]
  · have hcd : c = d :=
      le_antisymm (not_lt.mp (mt hgt.mpr h.not_gt)) (not_lt.mp (mt hlt.mpr h.not_lt))
    rw [compare_eq_iff_eq.mpr h, compare_eq_iff_eq.mpr hcd]
  · rw [compare_gt_iff_gt.mpr h, compare_gt_iff_gt.mpr (hgt.mp h)]

/-- Two code words in front of any continuations compare as their arguments do,
and as the continuations do when the arguments compare equal. -/
structure IsOrderedCode {α β : Type*} [Ord β] (cmp : α → α → Ordering)
    (code : α → List β) : Prop where
  compare_append : ∀ a b s t,
    compare (code a ++ s) (code b ++ t) = (cmp a b).then (compare s t)

namespace IsOrderedCode

variable {α β γ : Type*} [Ord β] {cmp cmp' : α → α → Ordering} {code code' : α → List β}

theorem compare_eq (h : IsOrderedCode cmp code) (a b : α) :
    compare (code a) (code b) = cmp a b := by
  simpa using h.compare_append a b [] []

theorem comp (h : IsOrderedCode cmp code) (f : γ → α) :
    IsOrderedCode (fun x y => cmp (f x) (f y)) (fun x => code (f x)) :=
  ⟨fun a b s t => h.compare_append (f a) (f b) s t⟩

theorem congr_cmp (h : IsOrderedCode cmp code) (hc : ∀ a b, cmp a b = cmp' a b) :
    IsOrderedCode cmp' code :=
  ⟨fun a b s t => by rw [h.compare_append, hc]⟩

/-- Concatenated codes compare by the first code and break ties by the second. -/
theorem append (h : IsOrderedCode cmp code) (h' : IsOrderedCode cmp' code') :
    IsOrderedCode (fun a b => (cmp a b).then (cmp' a b)) (fun a => code a ++ code' a) := by
  refine ⟨fun a b s t => ?_⟩
  rw [List.append_assoc, List.append_assoc, h.compare_append, h'.compare_append,
    Ordering.then_assoc]

/-- A common leading word does not influence the comparison. -/
theorem const [Std.ReflOrd β] (word : List β) :
    IsOrderedCode (fun _ _ : α => .eq) (fun _ : α => word) := by
  refine ⟨fun _ _ s t => ?_⟩
  induction word with
  | nil => rfl
  | cons x word ih =>
      rw [List.cons_append, List.cons_append, List.compare_cons_cons,
        Std.ReflOrd.compare_self]
      exact ih

/-- A header symbol splits the arguments into classes. Across classes the header
decides; inside a class the payload does. -/
theorem header {head : α → β} {payload : α → List β}
    (hne : ∀ a b, compare (head a) (head b) ≠ .eq → cmp a b = compare (head a) (head b))
    (heq : ∀ a b s t, compare (head a) (head b) = .eq →
      compare (payload a ++ s) (payload b ++ t) = (cmp a b).then (compare s t)) :
    IsOrderedCode cmp (fun a => head a :: payload a) := by
  refine ⟨fun a b s t => ?_⟩
  rw [List.cons_append, List.cons_append, List.compare_cons_cons]
  cases hc : compare (head a) (head b) with
  | eq => exact heq a b s t hc
  | lt => rw [hne a b (by simp [hc]), hc]; rfl
  | gt => rw [hne a b (by simp [hc]), hc]; rfl

end IsOrderedCode

/-! ## Pairs of words -/

/-- In front of any continuations the two words compare as `o`, and the
continuations are looked at only when `o` is `eq`. -/
def WordsCompare {β : Type*} [Ord β] (o : Ordering) (x y : List β) : Prop :=
  ∀ s t, compare (x ++ s) (y ++ t) = o.then (compare s t)

namespace WordsCompare

variable {β : Type*} [Ord β] {o o' : Ordering} {x x' y y' : List β}

theorem compare_eq (h : WordsCompare o x y) : compare x y = o := by
  simpa using h [] []

theorem refl [Std.ReflOrd β] (x : List β) : WordsCompare .eq x x :=
  (IsOrderedCode.const x).compare_append () ()

theorem swap [Std.OrientedOrd β] (h : WordsCompare o x y) : WordsCompare o.swap y x := by
  intro s t
  rw [Std.OrientedOrd.eq_swap, h, Ordering.swap_then, ← Std.OrientedOrd.eq_swap]

theorem append (h : WordsCompare o x y) (h' : WordsCompare o' x' y') :
    WordsCompare (o.then o') (x ++ x') (y ++ y') := by
  intro s t
  rw [List.append_assoc, List.append_assoc, h, h', Ordering.then_assoc]

/-- Words that differ in their first symbol are decided by it. -/
theorem cons_of_ne {a b : β} (h : compare a b = o) (hne : o ≠ .eq) :
    WordsCompare o (a :: x) (b :: y) := by
  intro s t
  rw [List.cons_append, List.cons_append, List.compare_cons_cons, h]
  cases o with
  | lt => rfl
  | eq => exact absurd rfl hne
  | gt => rfl

end WordsCompare

theorem IsOrderedCode.words {α β : Type*} [Ord β] {cmp : α → α → Ordering} {code : α → List β}
    (h : IsOrderedCode cmp code) (a b : α) : WordsCompare (cmp a b) (code a) (code b) :=
  h.compare_append a b

/-! ## Sequences closed by a terminator -/

/-- Lexicographic comparison in which a proper prefix compares as `short` against
its extensions. -/
def lexWith {α : Type*} (short : Ordering) (cmp : α → α → Ordering) :
    List α → List α → Ordering
  | [], [] => .eq
  | [], _ :: _ => short
  | _ :: _, [] => short.swap
  | a :: as, b :: bs => (cmp a b).then (lexWith short cmp as bs)

theorem lexWith_lt {α : Type*} (cmp : α → α → Ordering) (as bs : List α) :
    lexWith .lt cmp as bs = List.compareLex cmp as bs := by
  induction as generalizing bs with
  | nil => cases bs <;> rfl
  | cons a as ih =>
      cases bs with
      | nil => rfl
      | cons b bs => rw [lexWith, ih, List.compareLex_cons_cons]

/-- Placing prefixes last and comparing symbols backwards reverses the order. -/
theorem lexWith_gt_swap {α : Type*} (cmp : α → α → Ordering) (as bs : List α) :
    lexWith .gt (fun a b => (cmp a b).swap) as bs = (List.compareLex cmp as bs).swap := by
  induction as generalizing bs with
  | nil => cases bs <;> rfl
  | cons a as ih =>
      cases bs with
      | nil => rfl
      | cons b bs => rw [lexWith, ih, List.compareLex_cons_cons, Ordering.swap_then]

/-- Coding the symbols one by one and closing with a terminator that no symbol's
code starts with gives a code for sequences; the side on which the terminator
lies decides where prefixes go. -/
theorem IsOrderedCode.sequence {α β : Type*} [Ord β] [Std.TransOrd β]
    {cmp : α → α → Ordering} {code : α → List β} {short : Ordering}
    (hsym : IsOrderedCode cmp code) (terminator : List β)
    (hshort : ∀ a s t, compare (terminator ++ s) (code a ++ t) = short) (hne : short ≠ .eq) :
    IsOrderedCode (lexWith short cmp) (fun as => as.flatMap code ++ terminator) := by
  refine ⟨fun as bs s t => ?_⟩
  have hkeep : ∀ o : Ordering, o ≠ .eq → ∀ r : Ordering, o.then r = o := by decide
  induction as generalizing bs with
  | nil =>
      cases bs with
      | nil => simpa [lexWith] using (IsOrderedCode.const terminator).compare_append () () s t
      | cons b bs =>
          simp only [List.flatMap_nil, List.nil_append, List.flatMap_cons, List.append_assoc,
            hshort, lexWith, hkeep short hne]
  | cons a as ih =>
      cases bs with
      | nil =>
          have hswap : ∀ xs : List β, compare (code a ++ xs) (terminator ++ t) = short.swap := by
            intro xs
            rw [← hshort a t xs, ← Std.OrientedOrd.eq_swap]
          have hne' : short.swap ≠ .eq := by simpa using hne
          simp only [List.flatMap_nil, List.nil_append, List.flatMap_cons, List.append_assoc,
            hswap, lexWith, hkeep _ hne']
      | cons b bs =>
          have htail := ih bs
          simp only [List.append_assoc] at htail
          simp only [List.flatMap_cons, List.append_assoc, hsym.compare_append, lexWith, htail,
            Ordering.then_assoc]

end GoogleCloudRust
