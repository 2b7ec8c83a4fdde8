import Mathlib.Data.List.Basic
import Mathlib.Data.Nat.Basic

/-! # Batches of a limited size

Elements are pushed into a batch, and a batch that is full is put aside; or a list is cut from its
front into groups of one size, and what is left over is dropped. -/

namespace GoogleCloudRust

structure Batches (α : Type*) where
  full : List (List α) := []
  batch : List α := []

namespace Batches

variable {α : Type*} {n : ℕ} {batches : Batches α}

def push (n : ℕ) (batches : Batches α) (a : α) : Batches α :=
  if (batches.batch ++ [a]).length = n then
    { full := batches.full ++ [batches.batch ++ [a]], batch := [] }
  else { batches with batch := batches.batch ++ [a] }

/-- All batches, with the one that is not full if it is not empty. -/
def finish (batches : Batches α) : List (List α) :=
  if batches.batch.isEmpty then batches.full else batches.full ++ [batches.batch]

/-- The elements in batches of `n`, the last of which may be shorter. -/
def chunks (n : ℕ) (elements : List α) : List (List α) := (elements.foldl (push n) {}).finish

/-- The batch that is filled is smaller than the others. -/
structure Limited (n : ℕ) (batches : Batches α) : Prop where
  full : ∀ batch ∈ batches.full, batch.length = n
  batch : batches.batch.length < n

theorem Limited.push (h : Limited n batches) (a : α) : Limited n (batches.push n a) := by
  unfold Batches.push
  split_ifs with hfull
  · refine ⟨?_, by have := h.batch; simp only [List.length_nil]; omega⟩
    intro batch hbatch
    obtain hold | hnew := List.mem_append.mp hbatch
    · exact h.full batch hold
    · rw [List.mem_singleton.mp hnew]
      exact hfull
  · refine ⟨h.full, ?_⟩
    have hlt := h.batch
    simp only [List.length_append, List.length_singleton] at hfull ⊢
    omega

theorem flatten_push (batches : Batches α) (a : α) :
    (batches.push n a).full.flatten ++ (batches.push n a).batch =
      batches.full.flatten ++ batches.batch ++ [a] := by
  unfold push
  split_ifs with hfull
  · simp
  · simp

theorem flatten_finish (batches : Batches α) :
    batches.finish.flatten = batches.full.flatten ++ batches.batch := by
  unfold finish
  split_ifs with hempty
  · simp [List.isEmpty_iff.mp hempty]
  · simp

theorem Limited.finish (h : Limited n batches) :
    ∀ batch ∈ batches.finish, 1 ≤ batch.length ∧ batch.length ≤ n := by
  have hlt := h.batch
  intro batch hbatch
  unfold Batches.finish at hbatch
  split_ifs at hbatch with hempty
  · rw [h.full batch hbatch]
    omega
  · obtain hold | hnew := List.mem_append.mp hbatch
    · rw [h.full batch hold]
      omega
    · obtain rfl := List.mem_singleton.mp hnew
      have hpos : 0 < batches.batch.length := List.length_pos_iff.mpr (by simpa using hempty)
      omega

theorem limited_foldl (h : Limited n batches) (elements : List α) :
    Limited n (elements.foldl (push n) batches) := by
  induction elements generalizing batches with
  | nil => exact h
  | cons a elements ih => exact ih (h.push a)

theorem flatten_foldl (elements : List α) :
    (elements.foldl (push n) batches).finish.flatten =
      batches.full.flatten ++ batches.batch ++ elements := by
  induction elements generalizing batches with
  | nil => simpa using flatten_finish batches
  | cons a elements ih =>
      rw [List.foldl_cons, ih, flatten_push, List.append_assoc]
      rfl

/-- A loop that pushes some of its elements. -/
theorem foldl_push {β : Type*} {step : Batches α → β → Batches α} {pushes : β → Bool} {f : β → α}
    (hstep : ∀ batches b, step batches b = if pushes b then batches.push n (f b) else batches)
    (elements : List β) :
    elements.foldl step batches = ((elements.filter pushes).map f).foldl (push n) batches := by
  induction elements generalizing batches with
  | nil => rfl
  | cons b elements ih =>
      rw [List.foldl_cons, hstep, ih, List.filter_cons]
      cases hpushes : pushes b with
      | true => simp
      | false => simp

theorem flatten_chunks (n : ℕ) (elements : List α) : (chunks n elements).flatten = elements := by
  rw [chunks, flatten_foldl]
  rfl

theorem length_chunks (hn : 0 < n) (elements : List α) :
    ∀ batch ∈ chunks n elements, 1 ≤ batch.length ∧ batch.length ≤ n :=
  (limited_foldl ⟨by simp, hn⟩ elements).finish

end Batches

/-! ## Lists cut into groups -/

variable {α : Type*} {size : ℕ}

def groups (size : ℕ) (l : List α) : List (List α) :=
  (List.range (l.length / size)).map fun i => (l.drop (i * size)).take size

theorem groups_of_lt {l : List α} (h : l.length < size) : groups size l = [] := by
  rw [groups, Nat.div_eq_of_lt h]
  rfl

theorem groups_append_left (hsize : 0 < size) {row : List α} (hrow : row.length = size)
    (l : List α) : groups size (row ++ l) = row :: groups size l := by
  have hlength : (row ++ l).length / size = l.length / size + 1 := by
    rw [List.length_append, hrow, Nat.add_comm, Nat.add_div_right _ hsize]
  rw [groups, hlength, List.range_succ_eq_map, List.map_cons, List.map_map, groups]
  congr 1
  · rw [Nat.zero_mul, List.drop_zero, List.take_left' hrow]
  · refine List.map_congr_left fun i _ => ?_
    rw [Function.comp_apply, Nat.succ_mul, Nat.add_comm, ← List.drop_drop, List.drop_left' hrow]

/-- A list of groups followed by less than a group. -/
theorem groups_flatten_append (hsize : 0 < size) {rows : List (List α)}
    (hrows : ∀ row ∈ rows, row.length = size) {rest : List α} (hrest : rest.length < size) :
    groups size (rows.flatten ++ rest) = rows := by
  induction rows with
  | nil => exact groups_of_lt hrest
  | cons row rows ih =>
      rw [List.flatten_cons, List.append_assoc, groups_append_left hsize (hrows row (by simp)),
        ih fun row' hrow' => hrows row' (List.mem_cons_of_mem row hrow')]

theorem dvd_length_flatten {rows : List (List α)} (hrows : ∀ row ∈ rows, row.length = size) :
    size ∣ rows.flatten.length := by
  induction rows with
  | nil => exact ⟨0, rfl⟩
  | cons row rows ih =>
      obtain ⟨count, hcount⟩ := ih fun row' hrow' => hrows row' (List.mem_cons_of_mem row hrow')
      refine ⟨count + 1, ?_⟩
      rw [List.flatten_cons, List.length_append, hrows row (by simp), hcount, Nat.mul_succ,
        Nat.add_comm]

/-- More elements add groups at the end. -/
theorem groups_mono {l l' : List α} (h : l <+: l') : groups size l <+: groups size l' := by
  obtain ⟨rest, rfl⟩ := h
  have hle : l.length / size ≤ (l ++ rest).length / size :=
    Nat.div_le_div_right (by simp)
  rw [groups, groups, ← Nat.add_sub_cancel' hle, List.range_add, List.map_append]
  -- A full group of the shorter list ends within it.
  have hsame : ∀ i ∈ List.range (l.length / size),
      (l.drop (i * size)).take size = ((l ++ rest).drop (i * size)).take size := by
    intro i hi
    have hfull : (i + 1) * size ≤ l.length :=
      le_trans (Nat.mul_le_mul_right size (List.mem_range.mp hi)) (Nat.div_mul_le_self _ _)
    rw [Nat.add_mul, Nat.one_mul] at hfull
    rw [List.drop_append_of_le_length (by omega),
      List.take_append_of_le_length (by rw [List.length_drop]; omega)]
  rw [List.map_congr_left hsame]
  exact List.prefix_append _ _

end GoogleCloudRust
