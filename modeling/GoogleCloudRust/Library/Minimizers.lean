import Mathlib.Data.List.Induction
import Mathlib.Order.Lattice

/-! # The nearest elements of a list

The elements at the least distance, in the order of the list. A scan that takes one element after
the other starts over at a nearer one, keeps one that is as near, and skips one that is farther. -/

namespace GoogleCloudRust

variable {α δ : Type*} [LinearOrder δ] {distance : α → δ} {l : List α} {a x : α}

def minimizers (distance : α → δ) (l : List α) : List α :=
  l.filter fun x => l.all fun y => distance x ≤ distance y

theorem mem_minimizers : x ∈ minimizers distance l ↔ x ∈ l ∧ ∀ y ∈ l, distance x ≤ distance y := by
  simp [minimizers]

@[simp] theorem minimizers_nil : minimizers distance [] = [] := rfl

theorem minimizers_sublist : (minimizers distance l).Sublist l := List.filter_sublist

/-- The nearest elements are those as near as one of them. -/
theorem minimizers_eq_filter (hx : x ∈ minimizers distance l) :
    minimizers distance l = l.filter fun y => distance y = distance x := by
  refine List.filter_congr fun y hy => ?_
  have hnear := mem_minimizers.mp hx
  rw [Bool.eq_iff_iff, List.all_eq_true, decide_eq_true_iff]
  constructor
  · intro hall
    exact le_antisymm (of_decide_eq_true (hall x hnear.1)) (hnear.2 y hy)
  · intro heq z hz
    rw [decide_eq_true_iff, heq]
    exact hnear.2 z hz

theorem all_append_of_le (h : ∀ y ∈ l, distance a ≤ distance y) :
    (l ++ [a]).all (fun y => decide (distance a ≤ distance y)) = true := by
  simpa using h

/-- The new element is nearer than all others. -/
theorem minimizers_append_nearer (h : ∀ y ∈ l, distance a < distance y) :
    minimizers distance (l ++ [a]) = [a] := by
  have hfront : (l.filter fun x => (l ++ [a]).all fun y => distance x ≤ distance y) = [] := by
    rw [List.filter_eq_nil_iff]
    intro x hx hall
    have hle : distance x ≤ distance a := by
      simpa using List.all_eq_true.mp hall a (by simp)
    exact absurd (h x hx) hle.not_gt
  rw [minimizers, List.filter_append, hfront, List.nil_append]
  exact List.filter_cons_of_pos (all_append_of_le fun y hy => (h y hy).le)

/-- What is nearest stays so when something is added that is not nearer. -/
theorem filter_append_of_le (hx : x ∈ l) (h : distance x ≤ distance a) :
    (l.filter fun z => (l ++ [a]).all fun y => distance z ≤ distance y) =
      minimizers distance l := by
  refine List.filter_congr fun z hz => ?_
  have hback : (l.all fun y => decide (distance z ≤ distance y)) = true →
      distance z ≤ distance a := by
    intro hall
    have hle : distance z ≤ distance x := by simpa using List.all_eq_true.mp hall x hx
    exact hle.trans h
  rw [Bool.eq_iff_iff]
  simp only [List.all_append, List.all_cons, List.all_nil, Bool.and_true, Bool.and_eq_true,
    decide_eq_true_eq]
  exact ⟨fun hall => hall.1, fun hall => ⟨hall, hback hall⟩⟩

/-- The new element is as near as the nearest ones. -/
theorem minimizers_append_equal (hx : x ∈ minimizers distance l) (h : distance a = distance x) :
    minimizers distance (l ++ [a]) = minimizers distance l ++ [a] := by
  rw [mem_minimizers] at hx
  have hback : (l ++ [a]).all (fun y => decide (distance a ≤ distance y)) = true :=
    all_append_of_le fun y hy => h.le.trans (hx.2 y hy)
  rw [minimizers, List.filter_append, filter_append_of_le hx.1 h.ge]
  exact congrArg (minimizers distance l ++ ·) (List.filter_cons_of_pos hback)

/-- Some element is nearer than the new one. -/
theorem minimizers_append_farther (hx : x ∈ l) (h : distance x < distance a) :
    minimizers distance (l ++ [a]) = minimizers distance l := by
  have hback : ¬(l ++ [a]).all (fun y => decide (distance a ≤ distance y)) = true := by
    intro hall
    have hle : distance a ≤ distance x := by
      simpa using List.all_eq_true.mp hall x (List.mem_append_left _ hx)
    exact absurd h hle.not_gt
  rw [minimizers, List.filter_append, filter_append_of_le hx h.le]
  exact (congrArg (minimizers distance l ++ ·) (List.filter_cons_of_neg hback)).trans
    (List.append_nil _)

/-- There are nearest elements when there are elements. -/
theorem exists_mem_minimizers (distance : α → δ) (h : l ≠ []) : ∃ x, x ∈ minimizers distance l := by
  induction l using List.reverseRecOn with
  | nil => exact absurd rfl h
  | append_singleton l a ih =>
    by_cases hnil : l = []
    · exact ⟨a, by simp [hnil, minimizers]⟩
    · obtain ⟨x, hx⟩ := ih hnil
      have hall := (mem_minimizers.mp hx).2
      rcases lt_trichotomy (distance a) (distance x) with hlt | heq | hgt
      · have hnearer : ∀ y ∈ l, distance a < distance y := fun y hy => hlt.trans_le (hall y hy)
        exact ⟨a, by rw [minimizers_append_nearer hnearer]; exact List.mem_singleton_self a⟩
      · exact ⟨x, by rw [minimizers_append_equal hx heq]; exact List.mem_append_left _ hx⟩
      · exact ⟨x, by rwa [minimizers_append_farther (mem_minimizers.mp hx).1 hgt]⟩

theorem minimizers_eq_nil : minimizers distance l = [] ↔ l = [] := by
  constructor
  · intro h
    by_contra hne
    obtain ⟨x, hx⟩ := exists_mem_minimizers distance hne
    rw [h] at hx
    exact List.not_mem_nil hx
  · rintro rfl
    rfl

/-! ## A running minimum -/

/-- `best` is the distance of the nearest elements, and that of the farthest possible one as long as
there are none. -/
structure RunningMinimum (distance : α → δ) (farthest : δ) (l : List α) (best : δ) : Prop where
  initial : l = [] → best = farthest
  minimum : ∀ x ∈ minimizers distance l, distance x = best

namespace RunningMinimum

variable {farthest best : δ}

theorem nil (distance : α → δ) (farthest : δ) : RunningMinimum distance farthest [] farthest where
  initial _ := rfl
  minimum _ hx := absurd hx List.not_mem_nil

theorem le (h : RunningMinimum distance farthest l best) (hx : x ∈ l) : best ≤ distance x := by
  obtain ⟨y, hy⟩ := exists_mem_minimizers distance (List.ne_nil_of_mem hx)
  rw [← h.minimum y hy]
  exact (mem_minimizers.mp hy).2 x hx

theorem attained (h : RunningMinimum distance farthest l best) (hne : l ≠ []) :
    ∃ x ∈ minimizers distance l, distance x = best := by
  obtain ⟨x, hx⟩ := exists_mem_minimizers distance hne
  exact ⟨x, hx, h.minimum x hx⟩

theorem minimizers_of_lt (h : RunningMinimum distance farthest l best) (hlt : distance a < best) :
    minimizers distance (l ++ [a]) = [a] :=
  minimizers_append_nearer fun _ hy => hlt.trans_le (h.le hy)

theorem append_of_lt (h : RunningMinimum distance farthest l best) (hlt : distance a < best) :
    RunningMinimum distance farthest (l ++ [a]) (distance a) where
  initial hnil := by simp at hnil
  minimum x hx := by
    rw [h.minimizers_of_lt hlt] at hx
    rw [List.mem_singleton.mp hx]

theorem minimizers_of_eq (h : RunningMinimum distance farthest l best) (heq : distance a = best) :
    minimizers distance (l ++ [a]) = minimizers distance l ++ [a] := by
  by_cases hne : l = []
  · subst hne
    exact minimizers_append_nearer (by simp)
  · obtain ⟨x, hx, hattained⟩ := h.attained hne
    exact minimizers_append_equal hx (heq.trans hattained.symm)

theorem append_of_eq (h : RunningMinimum distance farthest l best) (heq : distance a = best) :
    RunningMinimum distance farthest (l ++ [a]) best where
  initial hnil := by simp at hnil
  minimum x hx := by
    rw [h.minimizers_of_eq heq] at hx
    rcases List.mem_append.mp hx with hx | hx
    · exact h.minimum x hx
    · rw [List.mem_singleton.mp hx, heq]

/-- Without elements nothing is beyond the minimum. -/
theorem ne_nil_of_gt (h : RunningMinimum distance farthest l best) (hfar : distance a ≤ farthest)
    (hgt : best < distance a) : l ≠ [] := by
  intro hnil
  rw [h.initial hnil] at hgt
  exact absurd hgt hfar.not_gt

theorem minimizers_of_gt (h : RunningMinimum distance farthest l best)
    (hfar : distance a ≤ farthest) (hgt : best < distance a) :
    minimizers distance (l ++ [a]) = minimizers distance l := by
  obtain ⟨x, hx, hattained⟩ := h.attained (h.ne_nil_of_gt hfar hgt)
  exact minimizers_append_farther (mem_minimizers.mp hx).1 (hattained.trans_lt hgt)

theorem append_of_gt (h : RunningMinimum distance farthest l best)
    (hfar : distance a ≤ farthest) (hgt : best < distance a) :
    RunningMinimum distance farthest (l ++ [a]) best where
  initial hnil := by simp at hnil
  minimum x hx := by
    rw [h.minimizers_of_gt hfar hgt] at hx
    exact h.minimum x hx

end RunningMinimum

end GoogleCloudRust
